import TimeSeries.Proofs.Client.Readers
import TimeSeries.Proofs.Client.ServedCommands

/-!
# What readers of a workspace expect

A reader is opened with the answer of its session's store in prospect
(`InOrder.expects_openReader`). Whatever is then done elsewhere in the workspace, what the
reader expects it goes on to expect (`InOrder.expects_run`), and what is done with the reader
itself is answered as its outlook says (`InOrder.run_reader`).
-/

namespace TimeSeries

/-- The label of the reader that a command asks something, reads from or closes. -/
def Command.reader? : Command → Option Label
  | next label | item label | done label | canProceed label | closeReader label
  | isClosed label => some label
  | _ => none

/-- What is `Asked` leaves all but the record of calls alone. -/
theorem World.Asked.observed {w w' : World Memory} (h : w.Asked w') : w.Observed w' := by
  obtain ⟨calls, rfl⟩ := h
  exact ⟨w.engine.cursors, calls, rfl⟩

namespace InOrder

variable {parse : String → Option Json} {ws : Workspace Memory} {H H' : History} {label : Label}
  {r : Child Reader} {names : Bool} {o : Outlook} {c : Command}

/-! ### Opening -/

/-- **A fresh cursor `Expects` the answer** that it was opened with. -/
theorem expects_answer {s : Child Session} {session : Handle} {file : FileKey} {st : Store}
    {text : String} {w' : World Memory} (h : InOrder ws H) (husable : s.it.settings.Usable)
    (hserves : ws.world.engine.Serves session file st)
    (hbecomes : ws.world.Becomes (ws.world.engine.answered file (st.query (parse text))) w')
    (hcount : (st.query (parse text)).2.Countable) :
    (Cursor.ofHandle session ws.world.engine.nextHandle s.it.settings.buffer).Expects w'
      (st.prospect (parse text)) := by
  have hlive := Cursor.live_ofHandle session ws.world.engine.nextHandle husable.word
  have hfeed : w'.engine.cursors.find? ws.world.engine.nextHandle =
      some (Memory.feedOf (st.query (parse text)).1) := by
    rw [hbecomes.engine]
    exact Table.find?_put_self _ _ _
  rw [Store.prospect]
  rcases hquery : st.query (parse text) with ⟨status | records, st'⟩
  · rw [hquery] at hfeed
    exact .failed hlive (ReadBuffer.unread_ofCapacity _) hfeed rfl
  · have hstream := @Session.streaming_of_answer parse session file st ws.world text records w'
      s.it.settings.buffer h.panic (by rw [hquery]) husable.record husable.word hbecomes
    refine .rows hstream ?_
    rw [hquery] at hcount
    have hserves' : w'.engine.Serves session file st' := by
      rw [hbecomes.engine, hquery]
      exact ⟨hserves.file_eq, Table.find?_put_self _ _ _⟩
    have hresolve : w'.engine.idToSeries session = st'.name? := by
      refine hserves'.idToSeries_eq ?_
      rw [hbecomes.engine]
      exact h.calm.forgotten
    rw [List.forall₂_map_left_iff, List.forall₂_map_right_iff, List.forall₂_same]
    intro record hrecord
    have hencodable := Store.encodable_query (by rw [hquery]) record hrecord
    have hnames := Store.names_query hquery hcount record hrecord
    refine ⟨isRecord_encode hencodable, ?_, ?_⟩
    · rw [← readAlone_of_names hencodable hnames, ← hresolve]
      rfl
    · obtain ⟨name, hname⟩ := hnames
      exact Option.isSome_iff_exists.mpr ⟨name, hname⟩

/-- **A reader that `openReader` opens** is on the answer of its session's store, and `Expects` that
if its names can be counted. What was at the label is let go of. -/
theorem expects_openReader (parse : String → Option Json) (h : InOrder ws H) (hlent : Lent ws)
    (label : Label) {session : Label} {source : Source} {s : Child Session} {handle : Handle} {file : FileKey}
    {st : Store} {text : String} (hs : ws.sessions.find? session = some s)
    (hrender : source.render = .ok text) (hhandle : s.it.handle = some handle)
    (hserves : ws.world.engine.Serves handle file st) :
    ∃ w' r, ws.run (Memory.engine parse) (.openReader label session source) =
        (.ok, { ws with
          world := w'
          readers := (ws.readers.erase label).put label ⟨session, r⟩ }) ∧
      ws.world.Served file (st.query (parse text)).2 w' ∧
      ((st.query (parse text)).2.Countable →
        r.Expects w' source.isListing { stage := st.prospect (parse text) }) := by
  obtain ⟨w₁, hopen, hbecomes⟩ :=
    Session.openCursor_becomes parse text h.panic h.calm.raw hhandle hserves
  have hleads := Workspace.leads_dropReader parse { ws with world := w₁ } label
  have hobserved := hleads.observed fun _ hcall => hcall.reads
  have hserved : ws.world.Served file (st.query (parse text)).2 w₁ :=
    ⟨_, Nat.le_succ _, _, hbecomes⟩
  refine ⟨_, .ofCursor source (.ofHandle handle ws.world.engine.nextHandle s.it.settings.buffer),
    ?_, hserved.observed hobserved, fun hcount => ?_⟩
  · simp only [Workspace.run, Workspace.openReader, hs, hrender, hopen]
    rw [Workspace.dropReader_eq]
  have hcursor := Reader.cursor_ofCursor source
    (.ofHandle handle ws.world.engine.nextHandle s.it.settings.buffer)
  have hexpects := h.expects_answer (h.tied.sessions_usable hs) hserves hbecomes hcount
  refine ⟨?_, (?_ : Cursor.Expects _ w₁ _).kept ?_ fun handle' hhandle' => ⟨?_, ?_⟩, ?_⟩
  · rw [Reader.ofCursor]
    cases source.isListing <;> rfl
  · rwa [hcursor]
  · rw [hobserved.channel, hbecomes.panic, h.panic]
  · -- the reader that was let go of has another feed
    rw [hcursor] at hhandle'
    obtain rfl : ws.world.engine.nextHandle = handle' := Option.some.inj hhandle'
    refine Memory.feed_leads parse hleads (Nat.le_of_eq (by rw [hbecomes.engine]; rfl)) ?_
    rintro call ⟨old, hold, hmakes⟩ htouches
    exact Memory.nextHandle_ne (hlent.given hold (hmakes.handle_eq htouches)) rfl
  · rw [hobserved.idToSeries]
    exact fun _ _ => id
  · rw [hcursor]
    rfl

/-! ### What is done elsewhere -/

/-- **An open session keeps its file** along `run`, and the names in its store. -/
theorem serves_run (h : InOrder ws H) (hafter : InOrder (ws.run (Memory.engine parse) c).2 H')
    (hall : c ≠ .dropAll) (hallows : ws.Allows (.command c)) {s : Child Session} {handle : Handle}
    (hs : ws.sessions.find? label = some s) (hhandle : s.it.handle = some handle)
    (hkept : (ws.run (Memory.engine parse) c).2.sessions.find? label = some s) :
    ∃ file st st', ws.world.engine.Serves handle file st ∧
      (ws.run (Memory.engine parse) c).2.world.engine.Serves handle file st' ∧
      st.names <+: st'.names := by
  obtain ⟨d, st, hd, hserves⟩ := h.tied.serves hs hhandle
  obtain ⟨d', st', hd', hserves'⟩ := hafter.tied.serves hkept hhandle
  rw [Workspace.databases_run hall hallows (.inr (Workspace.databaseInUse_of_find? hs)), hd] at hd'
  obtain rfl := Option.some.inj hd'
  refine ⟨d.file.key, st, st', hserves, hserves', ?_⟩
  have hbefore := hserves.find_eq
  have hfound := hserves'.find_eq
  by_cases hremove : ∃ directory name, c = .remove directory name
  · -- what is removed is not this store, as it is still there
    obtain ⟨directory, name, rfl⟩ := hremove
    rw [Workspace.run] at hfound
    obtain ⟨failure, w', hresult, hbecomes⟩ | ⟨w', hresult, -, hbecomes⟩ :=
      Database.remove_becomes parse directory name ws.world <;>
      rw [hresult] at hfound <;> simp only [hbecomes.engine] at hfound
    · obtain rfl := Option.some.inj (hbefore.symm.trans hfound)
      exact List.prefix_refl _
    · obtain rfl := Option.some.inj (hbefore.symm.trans (Table.find?_erase_eq_some hfound))
      exact List.prefix_refl _
  · have hkeeps : ∀ call w, ws.Makes c call →
        (∃ st', w.engine.stores.find? d.file.key = some st' ∧ st.names <+: st'.names) →
        ∃ st', ((Memory.engine parse).ask call w).2.engine.stores.find? d.file.key = some st' ∧
          st.names <+: st'.names := by
      rintro call w hcall ⟨st₁, hst₁, hprefix⟩
      have hother : ∀ p, call = .removeDatabase p → p.key ≠ d.file.key := by
        rintro p rfl
        exact absurd (Workspace.remove_of_makes hall hcall) hremove
      obtain ⟨st₂, hst₂, hprefix'⟩ := Memory.names_ask parse hst₁ hother
      exact ⟨st₂, hst₂, hprefix.trans hprefix'⟩
    obtain ⟨st₂, hst₂, hprefix⟩ := (Workspace.leads_run parse ws c).keeps hkeeps
      ⟨st, hbefore, List.prefix_refl _⟩
    rwa [Option.some.inj (hfound.symm.trans hst₂)]

/-- **What a reader `Expects` it goes on to expect** while something else is done. -/
theorem expects_run (h : InOrder ws H) (hafter : InOrder (ws.run (Memory.engine parse) c).2 H')
    (hlent : Lent ws) (hall : c ≠ .dropAll) (hallows : ws.Allows (.command c))
    (hr : ws.readers.find? label = some r) (hother : c.readerLabel? ≠ some label)
    (hexpects : r.it.Expects ws.world names o) :
    r.it.Expects (ws.run (Memory.engine parse) c).2.world names o := by
  refine hexpects.kept hafter.panic fun handle hhandle =>
    ⟨hlent.feed_run hr hhandle hall hother, ?_⟩
  obtain ⟨s, hs, hsession⟩ := hlent.session hr hhandle
  have hkept := Workspace.sessions_run hall hallows (E := Memory.engine parse)
    (.inr (Workspace.sessionInUse_of_find? hr))
  obtain ⟨file, st, st', hserves, hserves', hnames⟩ :=
    h.serves_run hafter hall hallows hs hsession (hkept.trans hs)
  intro id name hname
  rw [hserves.idToSeries_eq h.calm.forgotten] at hname
  rw [hserves'.idToSeries_eq hafter.calm.forgotten]
  exact Store.name?_of_isPrefix hnames hname

/-! ### What is done with a reader -/

/-- What `withReader` does is answered by the reader. -/
theorem withReader_expects {f : Reader → World Memory → Answer × Reader × World Memory}
    {r' : Reader} {w' : World Memory} {answer : Answer} (hr : ws.readers.find? label = some r)
    (hf : f r.it ws.world = (answer, r', w')) :
    ws.withReader label f = (answer, { ws with
      world := w'
      readers := ws.readers.put label { r with it := r' } }) := by
  simp only [Workspace.withReader, hr, hf]

/-- **A reader answers as its outlook says**, by `Outlook.answer`, and `Expects` the next one. -/
theorem run_reader (parse : String → Option Json) (h : InOrder ws H) (hc : c.reader? = some label)
    (hr : ws.readers.find? label = some r) (hexpects : r.it.Expects ws.world names o) :
    ∃ r' w', ws.run (Memory.engine parse) c = ((o.answer names c).1, { ws with
        world := w'
        readers := ws.readers.put label { r with it := r' } }) ∧
      ws.world.Observed w' ∧ r'.Expects w' names (o.answer names c).2 := by
  cases c with
  | next l =>
    obtain rfl := Option.some.inj hc
    obtain ⟨r', w', hnext, hexpects'⟩ := hexpects.next parse h.panic h.calm.limit l
    have hobserved := (r.it.moves_next (Memory.engine parse) ws.world).observed
    rw [hnext] at hobserved
    exact ⟨r', w', withReader_expects hr hnext, hobserved, hexpects'⟩
  | item l =>
    obtain rfl := Option.some.inj hc
    obtain ⟨r', w', hitem, hexpects'⟩ := hexpects.item parse h.panic h.calm.limit l
    have hobserved := (r.it.moves_item (Memory.engine parse) ws.world).observed
    rw [hitem] at hobserved
    exact ⟨r', w', withReader_expects hr hitem, hobserved, hexpects'⟩
  | done l =>
    obtain rfl := Option.some.inj hc
    obtain ⟨w', hasked, hdone⟩ := hexpects.done parse h.panic
    refine ⟨r.it, w', ?_, hasked.observed, hexpects.asked h.panic hasked⟩
    rw [Workspace.run]
    refine withReader_expects hr ?_
    rw [hdone]
    rfl
  | canProceed l =>
    obtain rfl := Option.some.inj hc
    obtain ⟨w', hasked, hproceed⟩ := hexpects.canProceed parse h.panic
    refine ⟨r.it, w', ?_, hasked.observed, hexpects.asked h.panic hasked⟩
    rw [Workspace.run]
    refine withReader_expects hr ?_
    rw [hproceed]
    rfl
  | closeReader l =>
    obtain rfl := Option.some.inj hc
    obtain ⟨r', w', hclose, hexpects'⟩ := hexpects.close parse h.panic
    have hobserved := (r.it.leads_close (Memory.engine parse) ws.world).observed
      fun _ hcall => hcall.reads
    rw [hclose] at hobserved
    refine ⟨r', w', ?_, hobserved, hexpects'⟩
    rw [Workspace.run]
    refine withReader_expects hr ?_
    rw [hclose]
    rfl
  | isClosed l =>
    obtain rfl := Option.some.inj hc
    refine ⟨r.it, ws.world, ?_, .refl _, hexpects⟩
    rw [Workspace.run]
    refine withReader_expects hr ?_
    rw [hexpects.isClosed_eq]
    rfl
  | _ => cases hc

end InOrder

/-- Nothing goes by the label: nothing is done. -/
theorem Workspace.run_of_no_reader {parse : String → Option Json} {ws : Workspace Memory}
    {label : Label} {c : Command} (hc : c.reader? = some label)
    (hr : ws.readers.find? label = none) :
    ws.run (Memory.engine parse) c = (.noHandle, ws) := by
  cases c <;> cases hc <;> simp only [run, withReader, hr]

end TimeSeries
