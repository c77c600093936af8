import TimeSeries.Proofs.Client.RunAnswers
import TimeSeries.Proofs.Cursor.Outlook
import TimeSeries.Proofs.Engine.Frames

/-!
# The readers of a workspace

A reader has the handle of a feed and works in the session that it was opened on; no two readers
share a feed, and the session stays open as long as the reader is there (`Lent`). That is so
along every run (`Reached.lent`), as every reader was there before or has just been opened
(`Workspace.readerFrom_run`). So nobody but the reader itself touches its feed
(`Lent.feed_run`).
-/

namespace TimeSeries

namespace Workspace

variable {ws : Workspace Memory} {label : Label} {c : Command}

theorem sessionInUse_of_find? {r : Child Reader} (hr : ws.readers.find? label = some r) :
    ws.sessionInUse r.parent = true :=
  List.any_eq_true.mpr ⟨r, Table.mem_values_of_find? hr, beq_self_eq_true _⟩

theorem databaseInUse_of_find? {s : Child Session} (hs : ws.sessions.find? label = some s) :
    ws.databaseInUse s.parent = true :=
  List.any_eq_true.mpr ⟨s, Table.mem_values_of_find? hs, beq_self_eq_true _⟩

/-! ### Where readers come from -/

/-- **Where a reader comes from**: it was there before the command, which may have closed it, or
`openReader` opened it and it has `nextHandle`. -/
inductive ReaderFrom (parse : String → Option Json) (ws : Workspace Memory) (c : Command)
    (label : Label) (r : Child Reader) : Prop where
  /-- it was there before -/
  | kept {old : Child Reader} : ws.readers.find? label = some old → r.parent = old.parent →
    r.it.cursor.session = old.it.cursor.session →
    (∀ handle, r.it.cursor.handle = some handle → old.it.cursor.handle = some handle) →
    ReaderFrom parse ws c label r
  /-- it was opened -/
  | opened {source : Source} {s : Child Session} : c = .openReader label r.parent source →
    ws.sessions.find? r.parent = some s → s.it.handle = some r.it.cursor.session →
    r.it.cursor.handle = some ws.world.engine.nextHandle →
    ws.world.engine.nextHandle ≤ (ws.run (Memory.engine parse) c).2.world.engine.lastHandle →
    ReaderFrom parse ws c label r

variable {parse : String → Option Json} {r : Child Reader}

theorem readerFrom_withReader {f : Reader → World Memory → Answer × Reader × World Memory}
    (hf : ∀ old w, (f old w).2.1.cursor.session = old.cursor.session ∧
      ∀ handle, (f old w).2.1.cursor.handle = some handle → old.cursor.handle = some handle)
    (hr : (ws.withReader label f).2.readers.find? label = some r) :
    ReaderFrom parse ws c label r := by
  rw [withReader] at hr
  split at hr
  next hnone => rw [hnone] at hr; cases hr
  next old hold =>
    dsimp only at hr
    rw [Table.find?_put_self] at hr
    cases hr
    exact .kept hold rfl (hf _ _).1 (hf _ _).2

theorem readerFrom_openReader {session : Label} {source : Source}
    (hr : (ws.openReader (Memory.engine parse) label session source).2.readers.find? label =
      some r) :
    ReaderFrom parse ws (.openReader label session source) label r := by
  have hrun : ws.run (Memory.engine parse) (.openReader label session source) =
      ws.openReader (Memory.engine parse) label session source := rfl
  rw [openReader] at hr hrun
  split at hr
  · exact .kept hr rfl rfl fun _ => id
  next s hs =>
    split at hr
    · exact .kept hr rfl rfl fun _ => id
    next text hrender =>
      simp only [hs, hrender] at hrun
      rw [Session.openCursor] at hr hrun
      cases hchecked : checkHandle ws.world s.it.handle with
      | error failure =>
        rw [hchecked] at hr
        exact .kept hr rfl rfl fun _ => id
      | ok handle =>
        rw [hchecked] at hr hrun
        dsimp only at hr hrun
        rw [Table.find?_put_self] at hr
        cases hr
        refine .opened rfl hs ?_ ?_ ?_
        · rw [Reader.cursor_ofCursor, eq_some_of_checkHandle hchecked]
          rfl
        · rw [Reader.cursor_ofCursor]
          exact congrArg some (ask_query_fst parse handle text ws.world)
        · obtain ⟨_, _, _, _, hquery⟩ := @Memory.query_eq parse ws.world handle text
          have hdropped := Memory.lastHandle_le_leads parse (leads_dropReader parse
            { ws with world := ((Memory.engine parse).ask (.query handle text) ws.world).2 } label)
          rw [hrun]
          exact Nat.le_trans (by rw [hquery]) hdropped

/-- **Every reader comes from somewhere**, as `ReaderFrom` says. -/
theorem readerFrom_run (hall : c ≠ .dropAll)
    (hr : (ws.run (Memory.engine parse) c).2.readers.find? label = some r) :
    ReaderFrom parse ws c label r := by
  by_cases hlabel : c.readerLabel? = some label
  · cases c with
    | openReader l session source =>
      obtain rfl := Option.some.inj hlabel
      exact readerFrom_openReader hr
    | next l =>
      obtain rfl := Option.some.inj hlabel
      refine readerFrom_withReader (fun old w => ?_) hr
      have hmoves := old.moves_next (Memory.engine parse) w
      exact ⟨hmoves.session_eq, fun _ => hmoves.handle_eq.symm.trans⟩
    | item l =>
      obtain rfl := Option.some.inj hlabel
      refine readerFrom_withReader (fun old w => ?_) hr
      have hmoves := old.moves_item (Memory.engine parse) w
      exact ⟨hmoves.session_eq, fun _ => hmoves.handle_eq.symm.trans⟩
    | done l | canProceed l | isClosed l =>
      obtain rfl := Option.some.inj hlabel
      exact readerFrom_withReader (fun old w => ⟨rfl, fun _ => id⟩) hr
    | closeReader l =>
      obtain rfl := Option.some.inj hlabel
      refine readerFrom_withReader (fun old w => ?_) hr
      exact old.close_cursor (Memory.engine parse) w
    | dropReader l =>
      obtain rfl := Option.some.inj hlabel
      rw [run] at hr
      split at hr
      · rw [readers_dropReader, Table.find?_erase, if_pos rfl] at hr
        cases hr
      · exact .kept hr rfl rfl fun _ => id
    | _ => cases hlabel
  · rw [readers_run hall hlabel] at hr
    exact .kept hr rfl rfl fun _ => id

end Workspace

/-! ### Readers along a run -/

/-- The calls that are `ReadsFor` a reader touch no feed but that of its handle. -/
theorem Call.ReadsFor.handle_eq {session handle : Handle} {cursor : Option Handle} {call : Call}
    (h : call.ReadsFor session cursor) (htouches : call.Touches handle) :
    cursor = some handle := by
  cases call with
  | cursorRead c capacity => exact h.trans (congrArg some htouches)
  | cursorClose c => exact h.trans (congrArg some htouches)
  | _ => exact htouches.elim

/-- **Lent**: what holds of the readers of a workspace all along a run. -/
structure Lent (ws : Workspace Memory) : Prop where
  /-- their handles were given out -/
  given : ∀ {label r handle}, ws.readers.find? label = some r → r.it.cursor.handle = some handle →
    handle ≤ ws.world.engine.lastHandle
  /-- no two readers share a handle -/
  apart : Apart (fun r => r.it.cursor.handle) ws.readers
  /-- the session of an open reader is there -/
  session : ∀ {label r handle}, ws.readers.find? label = some r →
    r.it.cursor.handle = some handle →
    ∃ s, ws.sessions.find? r.parent = some s ∧ s.it.handle = some r.it.cursor.session

namespace Lent

variable {parse : String → Option Json} {ws : Workspace Memory} {label : Label} {c : Command}
  {r : Child Reader} {handle : Handle}

theorem of_no_readers (h : ∀ label, ws.readers.find? label = none) : Lent ws := by
  refine ⟨fun {label _ _} hr => ?_, ⟨fun {label _ _ _ _} hr => ?_⟩, fun {label _ _} hr => ?_⟩ <;>
    rw [h label] at hr <;> cases hr

/-- Other worlds do not matter if no handle was taken back. -/
theorem same {w' : World Memory} (h : Lent ws)
    (hlast : ws.world.engine.lastHandle ≤ w'.engine.lastHandle) : Lent { ws with world := w' } :=
  ⟨fun hr hhandle => Nat.le_trans (h.given hr hhandle) hlast, h.apart, h.session⟩

theorem command (parse : String → Option Json) (h : Lent ws)
    (hallows : ws.Allows (.command c)) : Lent (ws.run (Memory.engine parse) c).2 := by
  by_cases hall : c = .dropAll
  · subst hall
    refine of_no_readers fun label => ?_
    rw [Workspace.run, (ws.dropAll_tables _).2.2]
    exact Workspace.find?_foldl_sortLabels _ label
  have hlast := Memory.lastHandle_le_leads parse (Workspace.leads_run parse ws c)
  have hfrom : ∀ {label r}, (ws.run (Memory.engine parse) c).2.readers.find? label = some r →
      ws.ReaderFrom parse c label r := Workspace.readerFrom_run hall
  refine ⟨fun hr hhandle => ?_, ⟨fun hr hr' hhandle hhandle' => ?_⟩, fun hr hhandle => ?_⟩
  · cases hfrom hr with
    | kept hold _ _ hkept => exact Nat.le_trans (h.given hold (hkept _ hhandle)) hlast
    | opened _ _ _ hfresh hle =>
      obtain rfl := Option.some.inj (hhandle.symm.trans hfresh)
      exact hle
  · -- a handle that was just given out is no older reader's
    have hne : ∀ {label old}, ws.readers.find? label = some old →
        old.it.cursor.handle ≠ some ws.world.engine.nextHandle := fun hold hhandle =>
      Memory.nextHandle_ne (h.given hold hhandle) rfl
    cases hfrom hr with
    | kept hold _ _ hkept =>
      cases hfrom hr' with
      | kept hold' _ _ hkept' =>
        exact h.apart.label_eq hold hold' (hkept _ hhandle) (hkept' _ hhandle')
      | opened _ _ _ hfresh _ =>
        exact absurd ((hkept _ hhandle).trans (hhandle'.symm.trans hfresh)) (hne hold)
    | opened hopen _ _ hfresh _ =>
      cases hfrom hr' with
      | kept hold' _ _ hkept' =>
        exact absurd ((hkept' _ hhandle').trans (hhandle.symm.trans hfresh)) (hne hold')
      | opened hopen' => exact (Command.openReader.inj (hopen.symm.trans hopen')).1
  · cases hfrom hr with
    | kept hold hparent hsession hkept =>
      obtain ⟨s, hs, hsame⟩ := h.session hold (hkept _ hhandle)
      refine ⟨s, ?_, by rw [hsession]; exact hsame⟩
      rw [hparent, Workspace.sessions_run hall hallows
        (.inr (Workspace.sessionInUse_of_find? hold)), hs]
    | opened hopen hs hsame _ _ =>
      subst hopen
      refine ⟨_, ?_, hsame⟩
      rw [Workspace.run, Workspace.sessions_openReader, hs]

/-- Only the reader with the handle makes calls that it `Touches`. -/
theorem label_eq {call : Call} {l : Label} (h : Lent ws) (hr : ws.readers.find? label = some r)
    (hhandle : r.it.cursor.handle = some handle) (htouches : call.Touches handle)
    (hreads : ws.ReadsAt l call) : l = label := by
  obtain ⟨r', hr', hmakes⟩ := hreads
  exact h.apart.label_eq hr' hr (hmakes.handle_eq htouches) hhandle

/-- A call of a command on other readers does not touch the feed of a reader. -/
theorem not_touches {call : Call} (h : Lent ws) (hr : ws.readers.find? label = some r)
    (hhandle : r.it.cursor.handle = some handle) (hall : c ≠ .dropAll)
    (hother : c.readerLabel? ≠ some label) (hcall : ws.Makes c call) : ¬call.Touches handle := by
  intro htouches
  have hreads : ∀ l, ws.ReadsAt l call → l = label := fun l => h.label_eq hr hhandle htouches
  cases c with
  | rows l source =>
    obtain ⟨session, -, ⟨text, rfl⟩ | hmakes⟩ := hcall
    · exact htouches
    · -- the cursor that reads all rows has a handle that was not given out before
      exact Memory.nextHandle_ne (h.given hr hhandle)
        (Option.some.inj (hmakes.handle_eq htouches))
  | openReader l session source =>
    obtain ⟨_, _, -, rfl⟩ | hreadsAt := hcall
    · exact htouches
    · exact hother (congrArg some (hreads l hreadsAt))
  | next l | item l | done l | canProceed l | closeReader l | isClosed l | dropReader l =>
    exact hother (congrArg some (hreads l hcall))
  | create directory name volumes => cases hcall; exact htouches
  | remove directory name => cases hcall; exact htouches
  | openDatabase l directory name settings =>
    obtain rfl | ⟨_, -, rfl⟩ := hcall <;> exact htouches
  | openSession l database => obtain ⟨_, -, rfl⟩ | ⟨_, -, rfl⟩ := hcall <;> exact htouches
  | closeDatabase l | dropDatabase l | closeSession l | dropSession l =>
    obtain ⟨_, -, rfl⟩ := hcall
    exact htouches
  | write l | writeAt l | writeAll l =>
    obtain ⟨_, -, hwrites⟩ := hcall
    cases call <;> first | exact htouches | exact hwrites
  | dropAll => exact hall rfl

/-- **The feed of a reader** is left alone by `run` of all that is not done with the reader. -/
theorem feed_run (h : Lent ws) (hr : ws.readers.find? label = some r)
    (hhandle : r.it.cursor.handle = some handle) (hall : c ≠ .dropAll)
    (hother : c.readerLabel? ≠ some label) :
    (ws.run (Memory.engine parse) c).2.world.engine.cursors.find? handle =
      ws.world.engine.cursors.find? handle :=
  Memory.feed_leads parse (Workspace.leads_run parse ws c) (h.given hr hhandle)
    fun _ hcall => h.not_touches hr hhandle hall hother hcall

end Lent

/-- **Readers are `Lent` along every run.** -/
theorem Reached.lent {parse : String → Option Json} {ws : Workspace Memory} {H : History}
    (h : Reached parse ws H) : Lent ws := by
  induction h with
  | start files => exact .of_no_readers fun _ => rfl
  | step e _ hallows _ _ ih =>
    cases e with
    | command c => exact ih.command parse hallows
    | files t => exact ih.same (Nat.le_refl _)
    | disturb d => exact ih.same (by cases d <;> exact Nat.le_refl _)

end TimeSeries
