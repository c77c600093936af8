import TimeSeries.Proofs.Client.Invariant
import TimeSeries.Proofs.Client.Labels

/-!
# Commands keep a workspace in order

One lemma for each sort of command: those on readers and sessions, those that let go of
something, and those that open, close and remove databases and begin sessions. They come
together in `InOrder.command`, and a run is an induction over its events: `Reached.inOrder`.
-/

namespace TimeSeries

namespace Workspace

variable {ws : Workspace Memory} {label : Label}

/-- No session has a database as its `parent` that is not `databaseInUse`. -/
theorem free_of_databaseInUse (h : ws.databaseInUse label = false) {l : Label} {s : Child Session}
    (hs : ws.sessions.find? l = some s) : s.parent ≠ label := by
  have hfree := List.any_eq_false.mp h s (Table.mem_values_of_find? hs)
  simpa using hfree

theorem file?_eq {s : Child Session} {d : Database} (hs : ws.sessions.find? label = some s)
    (hd : ws.databases.find? s.parent = some d) : ws.file? label = some d.file.key := by
  simp [file?, hs, hd]

/-- An operation that writes nothing leaves the history, as `historyOf` makes it. -/
theorem historyOf_nil {H : History} {written : Session → World Memory → List Written}
    (h : ∀ s, ws.sessions.find? label = some s → written s.it ws.world = []) :
    ws.historyOf label H written = H := by
  rw [historyOf]
  split
  next s file hs _ => rw [h s hs, History.add_nil]
  next => rfl

end Workspace

namespace InOrder

variable {parse : String → Option Json} {ws : Workspace Memory} {H : History} {label : Label}

/-! ### Readers and sessions -/

theorem withReader (h : InOrder ws H) {f : Reader → World Memory → Answer × Reader × World Memory}
    (hf : ∀ r w, World.Observed w (f r w).2.2) :
    InOrder (ws.withReader label f).2 H := by
  rw [Workspace.withReader]
  split
  · exact h
  next r _ => exact h.observed (hf r.it ws.world)

theorem dropReader (parse : String → Option Json) (h : InOrder ws H) (label : Label) :
    InOrder (ws.dropReader (Memory.engine parse) label) H := by
  rw [Workspace.dropReader]
  split
  next r _ => exact h.observed ((r.it.leads_drop _ ws.world).observed fun _ hcall => hcall.reads)
  next => exact h

/-- Calling `readAll` is starting a query and reading. -/
theorem readAll {s : Child Session} (h : InOrder ws H) (hs : ws.sessions.find? label = some s)
    (text : String) :
    InOrder { ws with world := (Workspace.readAll (Memory.engine parse) s.it text ws.world).2 }
      H := by
  have hopened := h.openCursor parse hs text ws.readers
  rw [Workspace.readAll]
  rcases hopen : s.it.openCursor (Memory.engine parse) text ws.world with ⟨failure | c, w'⟩ <;>
    rw [hopen] at hopened
  · exact hopened
  · have hitems := (c.moves_items (Memory.engine parse) w').observed
    exact hopened.observed (hitems.trans
      ((Cursor.leads_drop _ _ _).observed fun _ hcall => hcall.reads))

theorem openReader (h : InOrder ws H) (label session : Label) (source : Source) :
    InOrder (ws.openReader (Memory.engine parse) label session source).2 H := by
  rw [Workspace.openReader]
  split
  · exact h
  next s hs =>
    split
    · exact h
    next text _ =>
      have hopened := h.openCursor parse hs text ws.readers
      rcases hopen : s.it.openCursor (Memory.engine parse) text ws.world with ⟨failure | c, w'⟩ <;>
        rw [hopen] at hopened
      · exact hopened
      · have hdropped := hopened.dropReader parse label
        exact hdropped.observed (.refl _)

/-- **Writing operations** `f` of sessions: a closed session writes nothing, an open one writes what
`written` says to the store it works on. -/
structure Writing (f : Session → World Memory → Answer × World Memory)
    (written : Session → World Memory → List Written) : Prop where
  /-- a closed session writes nothing -/
  closed : ∀ {s : Session} {w : World Memory}, w.channel.panic = none → s.handle = none →
    (f s w).2 = w ∧ written s w = []
  /-- an open session writes to its store -/
  opened : ∀ {s : Session} {w : World Memory} {session : Handle} {file : FileKey} {st : Store},
    w.channel.panic = none → s.handle = some session → w.engine.Serves session file st →
      w.Writes file st (f s w).2 (written s w)

/-- **Writing** by `withSession` is recorded for the file of the session. -/
theorem withSession (h : InOrder ws H) {f : Session → World Memory → Answer × World Memory}
    {written : Session → World Memory → List Written} (hf : Writing f written)
    (hfits : (ws.withSession label f).2.world.engine.Fits) :
    InOrder (ws.withSession label f).2 (ws.historyOf label H written) := by
  rw [Workspace.withSession] at hfits ⊢
  cases hs : ws.sessions.find? label with
  | none =>
    rw [Workspace.historyOf_nil (by intro s hs'; rw [hs] at hs'; cases hs')]
    exact h
  | some s =>
    rw [hs] at hfits
    cases hhandle : s.it.handle with
    | none =>
      obtain ⟨hworld, hwritten⟩ := hf.closed h.panic hhandle
      rw [Workspace.historyOf_nil (by intro s' hs'; rw [hs] at hs'; cases hs'; exact hwritten)]
      dsimp only
      rw [hworld]
      exact h
    | some session =>
      obtain ⟨d, st, hd, hserves⟩ := h.tied.serves hs hhandle
      have hwrites := hf.opened h.panic hhandle hserves
      rw [Workspace.historyOf, hs, Workspace.file?_eq hs hd]
      exact h.writes hserves hwrites hfits

theorem writing_write (series : String) (timestamp : Timestamp) (value : Double) :
    Writing
      (fun s w =>
        let (result, w) := s.write (Memory.engine parse) series timestamp value w
        (.ofExcept (fun () => .ok) result, w))
      fun s w =>
        Session.written series timestamp value
          (s.write (Memory.engine parse) series timestamp value w).1 := by
  constructor
  · intro s w hpanic hhandle
    rw [Session.write_of_closed parse hpanic hhandle]
    exact ⟨rfl, rfl⟩
  · intro s w session file st hpanic hhandle hserves
    exact Session.writes_write parse series timestamp value hpanic hhandle hserves

theorem writing_writeAt (series : String) (time : Instant) (value : Double) :
    Writing
      (fun s w =>
        let (result, w) := s.writeAt (Memory.engine parse) series time value w
        (.ofExcept (fun () => .ok) result, w))
      fun s w =>
        match time.timestamp? with
        | some timestamp =>
          Session.written series timestamp value
            (s.writeAt (Memory.engine parse) series time value w).1
        | none => [] := by
  cases htime : time.timestamp? with
  | none =>
    have hwriteAt : ∀ (s : Session) (w : World Memory),
        s.writeAt (Memory.engine parse) series time value w =
          (.error (.timeOutOfRange time), w) := by
      intro s w
      rw [Session.writeAt, htime]
    constructor
    · intro s w _ _
      rw [hwriteAt]
      exact ⟨rfl, rfl⟩
    · intro s w session file st _ _ hserves
      rw [hwriteAt]
      exact .refl hserves
  | some timestamp =>
    have hwriteAt : ∀ (s : Session) (w : World Memory),
        s.writeAt (Memory.engine parse) series time value w =
          s.write (Memory.engine parse) series timestamp value w := by
      intro s w
      rw [Session.writeAt, htime]
    simp only [hwriteAt]
    exact writing_write series timestamp value

theorem writing_writeAll (points : List (String × Timestamp × Double)) :
    Writing
      (fun s w =>
        let (failures, w) := Workspace.writeAll (Memory.engine parse) s points w
        (.writes failures, w))
      (Session.writtenAll parse · points) := by
  constructor
  · intro s w hpanic hhandle
    induction points with
    | nil => exact ⟨rfl, rfl⟩
    | cons point points ih =>
      obtain ⟨series, timestamp, value⟩ := point
      obtain ⟨hworld, hwritten⟩ := ih
      have hclosed := Session.write_of_closed parse hpanic hhandle series timestamp value
      simp only [Workspace.writeAll, Session.writtenAll, hclosed]
      exact ⟨hworld, hwritten⟩
  · intro s w session file st hpanic hhandle hserves
    exact Session.writes_writeAll parse points hpanic hhandle hserves

/-! ### Letting go -/

/-- A database that is not in use is `released`. -/
theorem release_database {d : Database} {w' : World Memory} {databases : Table Label Database}
    (h : InOrder ws H) (hd : ws.databases.find? label = some d)
    (hbecomes : ws.world.Becomes (d.released ws.world.engine) w')
    (hfree : ∀ {l s}, ws.sessions.find? l = some s → s.parent ≠ label)
    (hgone : LetGo Database.handle ws.databases databases label)
    (husable : ∀ {l d'}, databases.find? l = some d' → d'.settings.Usable) :
    InOrder { ws with world := w', databases } H := by
  have htied := h.tied.release_database hd hfree hgone husable
  obtain ⟨engineDatabases, engineSessions, hreleased⟩ := d.released_eq ws.world.engine
  rw [hreleased] at hbecomes htied
  exact h.becomes hbecomes ⟨h.calm.raw, h.calm.forgotten, h.calm.limit⟩ htied
    (h.recorded.of_stores_eq rfl)

/-- A session is `released`. -/
theorem release_session {s : Child Session} {w' : World Memory}
    {sessions : Table Label (Child Session)} (h : InOrder ws H)
    (hs : ws.sessions.find? label = some s)
    (hbecomes : ws.world.Becomes (s.it.released ws.world.engine) w')
    (hgone : LetGo (fun s => s.it.handle) ws.sessions sessions label)
    (husable : ∀ {l s'}, sessions.find? l = some s' → s'.it.settings.Usable) :
    InOrder { ws with world := w', sessions } H := by
  have htied := h.tied.release_session hs hgone husable
  obtain ⟨engineSessions, hreleased⟩ := s.it.released_eq ws.world.engine
  rw [hreleased] at hbecomes htied
  exact h.becomes hbecomes ⟨h.calm.raw, h.calm.forgotten, h.calm.limit⟩ htied
    (h.recorded.of_stores_eq rfl)

theorem dropDatabase (parse : String → Option Json) (h : InOrder ws H)
    (hfree : ∀ {l s}, ws.sessions.find? l = some s → s.parent ≠ label) :
    InOrder (ws.dropDatabase (Memory.engine parse) label) H := by
  rw [Workspace.dropDatabase]
  split
  next d hd =>
    refine h.release_database hd (d.drop_becomes parse h.panic) hfree (letGo_erase _ _) ?_
    intro l d' hd'
    exact h.tied.databases_usable (Table.find?_erase_eq_some hd')
  next => exact h

theorem closeDatabase (h : InOrder ws H) (label : Label) :
    InOrder (ws.run (Memory.engine parse) (.closeDatabase label)).2 H := by
  rw [Workspace.run]
  split
  · exact h
  next d hd =>
    split
    · exact h
    next hfree =>
      obtain ⟨w', hclose, hbecomes⟩ := d.close_becomes parse h.panic
      rw [hclose]
      refine h.release_database hd hbecomes
        (Workspace.free_of_databaseInUse (Bool.eq_false_iff.mpr hfree)) (letGo_put _ _ rfl) ?_
      intro l d' hd'
      have husable := h.tied.databases_usable hd
      obtain ⟨-, rfl⟩ | hd' := Table.find?_put_eq_some hd'
      · exact husable
      · exact h.tied.databases_usable hd'

theorem dropSession (parse : String → Option Json) (h : InOrder ws H) (label : Label) :
    InOrder (ws.dropSession (Memory.engine parse) label) H := by
  rw [Workspace.dropSession]
  split
  next s hs =>
    refine h.release_session hs (s.it.drop_becomes parse h.panic) (letGo_erase _ _) ?_
    intro l s' hs'
    exact h.tied.sessions_usable (Table.find?_erase_eq_some hs')
  next => exact h

theorem closeSession (h : InOrder ws H) (label : Label) :
    InOrder (ws.run (Memory.engine parse) (.closeSession label)).2 H := by
  rw [Workspace.run]
  split
  · exact h
  next s hs =>
    split
    · exact h
    · obtain ⟨w', hclose, hbecomes⟩ := s.it.close_becomes parse h.panic
      rw [hclose]
      refine h.release_session hs hbecomes (letGo_put _ _ rfl) ?_
      intro l s' hs'
      have husable := h.tied.sessions_usable hs
      obtain ⟨-, rfl⟩ | hs' := Table.find?_put_eq_some hs'
      · exact husable
      · exact h.tied.sessions_usable hs'

/-- What each step keeps, a fold keeps. -/
theorem foldl_keeps {α β : Type} {P : α → Prop} {f : α → β → α} (hf : ∀ a b, P a → P (f a b))
    (l : List β) {a : α} (ha : P a) : P (l.foldl f a) := by
  induction l generalizing a with
  | nil => exact ha
  | cons b l ih => exact ih (hf a b ha)

/-- **The command `dropAll`** lets go of readers first, then of sessions, so that no database is in
use when it is let go of. -/
theorem dropAll (h : InOrder ws H) : InOrder (ws.dropAll (Memory.engine parse)) H := by
  rw [Workspace.dropAll]
  have hreaders : InOrder ((Workspace.sortLabels ws.readers.keys).foldl
      (Workspace.dropReader (Memory.engine parse)) ws) H :=
    foldl_keeps (P := fun ws => InOrder ws H) (fun _ label h => h.dropReader parse label) _ h
  generalize (Workspace.sortLabels ws.readers.keys).foldl
    (Workspace.dropReader (Memory.engine parse)) ws = ws' at hreaders ⊢
  have hsessions : InOrder ((Workspace.sortLabels ws'.sessions.keys).foldl
      (Workspace.dropSession (Memory.engine parse)) ws') H :=
    foldl_keeps (P := fun ws => InOrder ws H) (fun _ label h => h.dropSession parse label) _
      hreaders
  have hnone : ∀ l, ((Workspace.sortLabels ws'.sessions.keys).foldl
      (Workspace.dropSession (Memory.engine parse)) ws').sessions.find? l = none := by
    intro l
    rw [(Workspace.foldl_dropSession _ ws' _).2.1]
    exact Workspace.find?_foldl_sortLabels _ l
  generalize (Workspace.sortLabels ws'.sessions.keys).foldl
    (Workspace.dropSession (Memory.engine parse)) ws' = ws'' at hsessions hnone ⊢
  refine (foldl_keeps
    (P := fun ws => InOrder ws H ∧ ∀ l, ws.sessions.find? l = none) ?_ _ ⟨hsessions, hnone⟩).1
  rintro v label ⟨hv, hnone⟩
  refine ⟨hv.dropDatabase parse fun {l s} hs => ?_, ?_⟩
  · rw [hnone l] at hs
    cases hs
  · rw [Workspace.dropDatabase]
    split <;> exact hnone

/-! ### Opening and removing -/

/-- **A database takes the place** of what `dropDatabase` let go of, if it has a handle of its
own. -/
theorem replaceDatabase (parse : String → Option Json) (h : InOrder ws H) {d : Database}
    {handle : Handle} (hopen : d.OpenIn ws.world.engine handle) (husable : d.settings.Usable)
    (hfresh : ∀ {l d'}, ws.databases.find? l = some d' → d'.handle ≠ some handle)
    (hfree : ∀ {l s}, ws.sessions.find? l = some s → s.parent ≠ label) :
    InOrder { ws.dropDatabase (Memory.engine parse) label with
      databases := (ws.dropDatabase (Memory.engine parse) label).databases.put label d } H := by
  have hdropped := h.dropDatabase parse hfree
  rw [Workspace.dropDatabase] at hdropped ⊢
  cases hd : ws.databases.find? label with
  | none =>
    simp only [hd] at hdropped ⊢
    exact ⟨hdropped.panic, hdropped.calm, hdropped.tied.put_database hopen husable hfresh hfree,
      hdropped.recorded⟩
  | some old =>
    simp only [hd] at hdropped ⊢
    have hreleased := hopen.released (hfresh hd)
    rw [← (old.drop_becomes parse h.panic).engine] at hreleased
    refine ⟨hdropped.panic, hdropped.calm,
      hdropped.tied.put_database hreleased husable ?_ hfree, hdropped.recorded⟩
    intro l d' hd'
    exact hfresh (Table.find?_erase_eq_some hd')

/-- **The command `openDatabase`** at a label that is not in use: what was there is let go of, and
the new one has a handle of its own. -/
theorem openDatabase (h : InOrder ws H) {label : Label} {directory : Path} {name : String}
    {settings : OpenSettings}
    (hallows : ws.Allows (.command (.openDatabase label directory name settings))) :
    InOrder (ws.run (Memory.engine parse) (.openDatabase label directory name settings)).2 H := by
  obtain ⟨hfree, hword⟩ := hallows
  rw [Workspace.run]
  obtain ⟨failure, w', hopen, hbecomes⟩ | ⟨w', hopen, hcheck, hbecomes⟩ :=
    Database.openAt_becomes parse directory name settings ws.world
  · rw [hopen]
    exact h.same hbecomes
  rw [hopen]
  dsimp only
  generalize hfile : databasePath directory name = file at hbecomes ⊢
  have horder : InOrder { ws with world := w' } H :=
    h.becomes hbecomes ⟨h.calm.raw, h.calm.forgotten, h.calm.limit⟩
      (h.tied.extend (Memory.extends_opened _ _)) (h.recorded.opened _)
  -- the handle is new to the caller, and the engine knows it
  have hfresh : ∀ {l d}, ws.databases.find? l = some d →
      d.handle ≠ some ws.world.engine.nextHandle := fun hd hhandle =>
    Memory.nextHandle_ne (h.tied.databases_open hd hhandle).handle_le rfl
  have hopened : Database.OpenIn ⟨some ws.world.engine.nextHandle, file, settings⟩
      w'.engine ws.world.engine.nextHandle := by
    rw [hbecomes.engine]
    refine ⟨rfl, Nat.le_refl _, Table.find?_put_self _ _ _, ?_⟩
    rw [Memory.opened]
    dsimp only
    split
    next hhas => exact hhas
    next => rw [Table.has, Table.find?_put_self, Option.isSome_some]
  exact horder.replaceDatabase parse hopened (OpenSettings.usable_of_check hcheck hword) hfresh
    (Workspace.free_of_databaseInUse hfree)

/-- **A session takes the place** of what `dropSession` let go of, if it has a handle of its own. -/
theorem replaceSession (parse : String → Option Json) (h : InOrder ws H) {s : Child Session}
    {handle : Handle} (hopen : Session.OpenIn s ws.world.engine ws.databases handle)
    (husable : s.it.settings.Usable)
    (hfresh : ∀ {l s'}, ws.sessions.find? l = some s' → s'.it.handle ≠ some handle) :
    InOrder { ws.dropSession (Memory.engine parse) label with
      sessions := (ws.dropSession (Memory.engine parse) label).sessions.put label s } H := by
  have hdropped := h.dropSession parse label
  rw [Workspace.dropSession] at hdropped ⊢
  cases hs : ws.sessions.find? label with
  | none =>
    simp only [hs] at hdropped ⊢
    exact ⟨hdropped.panic, hdropped.calm, hdropped.tied.put_session hopen husable hfresh,
      hdropped.recorded⟩
  | some old =>
    simp only [hs] at hdropped ⊢
    have hreleased := hopen.released (hfresh hs)
    rw [← (old.it.drop_becomes parse h.panic).engine] at hreleased
    refine ⟨hdropped.panic, hdropped.calm, hdropped.tied.put_session hreleased husable ?_,
      hdropped.recorded⟩
    intro l s' hs'
    exact hfresh (Table.find?_erase_eq_some hs')

/-- **The command `openSession`** on a database: what was at the label is let go of, and the new one
has a handle of its own. -/
theorem openSession (h : InOrder ws H) (label database : Label) :
    InOrder (ws.openSession (Memory.engine parse) label database).2 H := by
  rw [Workspace.openSession]
  split
  · exact h
  next d hd =>
    cases hhandle : d.handle with
    | none =>
      rw [Database.session_of_closed parse h.panic hhandle]
      exact h
    | some owner =>
      have hdatabase := h.tied.databases_open hd hhandle
      obtain ⟨w', hsession, hbecomes⟩ := Database.session_becomes parse h.panic hhandle
        (by rw [Table.has, hdatabase.file_eq, Option.isSome_some])
      rw [hsession]
      have horder : InOrder { ws with world := w' } H :=
        h.becomes hbecomes ⟨h.calm.raw, h.calm.forgotten, h.calm.limit⟩
          (h.tied.extend (Memory.extends_begun _ _)) (h.recorded.of_stores_eq rfl)
      have hfresh : ∀ {l s}, ws.sessions.find? l = some s →
          s.it.handle ≠ some ws.world.engine.nextHandle := fun hs hhandle =>
        Memory.nextHandle_ne (h.tied.sessions_open hs hhandle).handle_le rfl
      have hopened : Session.OpenIn ⟨database, ⟨some ws.world.engine.nextHandle, d.settings⟩⟩
          w'.engine ws.databases ws.world.engine.nextHandle := by
        rw [hbecomes.engine]
        exact ⟨rfl, Nat.le_refl _, d, owner, hd, hhandle, Table.find?_put_self _ _ _⟩
      exact horder.replaceSession parse hopened (h.tied.databases_usable hd) hfresh

/-- **The command `remove`** clears the history of the file. -/
theorem remove (h : InOrder ws H) (directory : Path) (name : String) :
    InOrder (ws.run (Memory.engine parse) (.remove directory name)).2
      (ws.history parse H (.command (.remove directory name))) := by
  rw [Workspace.run, Workspace.history]
  obtain ⟨failure, w', hremove, hbecomes⟩ | ⟨w', hremove, hclosed, hbecomes⟩ :=
    Database.remove_becomes parse directory name ws.world
  · rw [hremove]
    exact h.same hbecomes
  · rw [hremove]
    exact h.becomes hbecomes ⟨h.calm.raw, h.calm.forgotten, h.calm.limit⟩ (h.tied.removed hclosed)
      (h.recorded.removed _)

/-! ### All commands -/

/-- **To `run` any command keeps a workspace `InOrder`.** -/
theorem command (h : InOrder ws H) (c : Command) (hallows : ws.Allows (.command c))
    (hfits : (ws.run (Memory.engine parse) c).2.world.engine.Fits) :
    InOrder (ws.run (Memory.engine parse) c).2 (ws.history parse H (.command c)) := by
  cases c with
  | create directory name volumes =>
    exact h.same (Database.create_becomes parse directory name volumes)
  | openDatabase label directory name settings => exact h.openDatabase hallows
  | remove directory name => exact h.remove directory name
  | openSession label database => exact h.openSession label database
  | closeDatabase label => exact h.closeDatabase label
  | dropDatabase label =>
    rw [Workspace.run]
    split
    · exact h
    · split
      · exact h
      next hfree =>
        exact h.dropDatabase parse (Workspace.free_of_databaseInUse (Bool.eq_false_iff.mpr hfree))
  | closeSession label => exact h.closeSession label
  | dropSession label =>
    rw [Workspace.run]
    split
    · exact h
    · split
      · exact h
      · exact h.dropSession parse label
  | write label series timestamp value =>
    exact h.withSession (writing_write series timestamp value) hfits
  | writeAt label series time value => exact h.withSession (writing_writeAt series time value) hfits
  | writeAll label points => exact h.withSession (writing_writeAll points) hfits
  | rows label source =>
    rw [Workspace.run, Workspace.withSession]
    split
    · exact h
    next s hs =>
      dsimp only
      split
      · exact h
      next text _ => exact h.readAll hs text
  | openReader label session source => exact h.openReader label session source
  | next label => exact h.withReader fun r w => (r.moves_next _ w).observed
  | item label => exact h.withReader fun r w => (r.moves_item _ w).observed
  | done label => exact h.withReader fun r w =>
    (r.leads_done _ w).observed fun _ hcall => hcall.reads
  | canProceed label => exact h.withReader fun r w =>
    (r.leads_canProceed _ w).observed fun _ hcall => hcall.reads
  | closeReader label => exact h.withReader fun r w =>
    (r.leads_close _ w).observed fun _ hcall => hcall.reads
  | isClosed label => exact h.withReader fun r w => .refl w
  | dropReader label =>
    rw [Workspace.run]
    split
    · exact h.dropReader parse label
    · exact h
  | dropAll => exact h.dropAll

end InOrder

/-- **Every workspace that is `Reached` is `InOrder`**, with the history of its run. -/
theorem Reached.inOrder {parse : String → Option Json} {ws : Workspace Memory} {H : History}
    (h : Reached parse ws H) : InOrder ws H := by
  induction h with
  | start files => exact .start files
  | step e _ hallows hquiet hfits ih =>
    cases e with
    | command c => exact ih.command c hallows hfits
    | files t => exact ih.files t
    | disturb d => exact ih.disturb hquiet

/-- The names of every store that is `Reached` fit in memory, as `Memory.Fits` says. -/
theorem Reached.fits {parse : String → Option Json} {ws : Workspace Memory} {H : History}
    (h : Reached parse ws H) : ws.world.engine.Fits := by
  cases h with
  | start files =>
    intro file s hfind
    cases hfind
  | step e _ _ _ hfits => exact hfits

end TimeSeries
