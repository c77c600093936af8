import TimeSeries.Proofs.Client.WatchedRuns

/-!
# Readers read snapshots

A reader has the answer of its query from the time it was opened; only the names of series are
looked up later, and a series keeps its name. So whatever the caller does between the reads, to
the same database or to others, a reader gives the rows that it would have given if it had been
read at once (`Reached.yields_of_interleaving`). Of what a reader expects this needs only how
much is left (`Outlook.left`): a read takes one row of it (`Outlook.yield_answer`), and nothing
else does (`Workspace.ReaderLeft.react`).
-/

namespace TimeSeries

/-! ### What is read -/

/-- **What a read yields**: a row or a name. -/
inductive Yield : Type where
  /-- a row -/
  | row (row : Row)
  /-- a name -/
  | name (name : String)
  deriving DecidableEq, Repr

/-- The row or the name in an `Answer`. -/
def Answer.yield? : Answer → Option Yield
  | .row (some read) | .rowItem (some (.ok read)) => some (.row read)
  | .name (some read) | .nameItem (some (.ok read)) => some (.name read)
  | _ => none

namespace Event

/-- **Reads**: whether an `Event` is a read of the reader at a label. -/
def reads (label : Label) : Event → Bool
  | .command (.next l) | .command (.item l) => l == label
  | _ => false

/-- **Events that spare a reader**: it is neither closed nor let go of, and cursors are not made
to fail. -/
def Spares (label : Label) : Event → Prop
  | .command .dropAll | .disturb (.failCursors _) => False
  | .command (.openReader l ..) | .command (.closeReader l) | .command (.dropReader l) => l ≠ label
  | _ => True

end Event

namespace Workspace

variable (parse : String → Option Json)

/-- What an event yields if it is a read of the reader at a label. -/
def yield (label : Label) (ws : Workspace Memory) : Event → List Yield
  | .command c =>
    if (Event.command c).reads label then (ws.run (Memory.engine parse) c).1.yield?.toList else []
  | _ => []

/-- **What a reader yields** along a run: the rows or names in the answers to its reads, by
`yield`. -/
def yields (label : Label) (ws : Workspace Memory) : List Event → List Yield
  | [] => []
  | e :: es => ws.yield parse label e ++ yields label (ws.react parse e) es

end Workspace

/-! ### What is left of an outlook -/

namespace Outlook

variable {names : Bool} {o : Outlook} {label : Label} {c : Command}

/-- **What is left** of an `Outlook` for a reader to yield. -/
def left (names : Bool) (o : Outlook) : List Yield :=
  match o.stage with
  | .rows left => left.map fun row => if names then .name row.name else .row row
  | _ => []

/-- **Spent**: nothing is `left` when the iteration has come to the end. -/
def Spent (names : Bool) (o : Outlook) : Prop := o.ended = true → o.left names = []

/-- **A read yields** what is first of what is `left`, and leaves the rest. -/
theorem yield_answer (h : o.Spent names) (hc : (Event.command c).reads label = true) :
    (o.answer names c).1.yield?.toList = (o.left names).take 1 ∧
      (o.answer names c).2.left names = (o.left names).drop 1 ∧
      (o.answer names c).2.Spent names := by
  obtain ⟨stage, ended⟩ := o
  cases c with
  | next l =>
    cases stage with
    | rows rows =>
      have hended : ended = true → rows.tail = [] := by
        intro hended
        rw [List.map_eq_nil_iff.mp (h hended), List.tail_nil]
      cases rows with
      | nil => cases names <;> exact ⟨rfl, rfl, fun _ => rfl⟩
      | cons row rows =>
        cases names <;> exact ⟨rfl, rfl, fun hend => List.map_eq_nil_iff.mpr (hended hend)⟩
    | failed status => cases names <;> exact ⟨rfl, rfl, fun _ => rfl⟩
    | closed => cases names <;> exact ⟨rfl, rfl, fun _ => rfl⟩
  | item l =>
    cases ended with
    | true =>
      have hleft : left names ⟨stage, true⟩ = [] := h rfl
      simp only [answer, item, if_true]
      rw [hleft]
      cases names <;> exact ⟨rfl, rfl, h⟩
    | false =>
      cases stage with
      | rows rows =>
        cases rows with
        | nil => cases names <;> exact ⟨rfl, rfl, fun _ => rfl⟩
        | cons row rows => cases names <;> exact ⟨rfl, rfl, fun hend => by cases hend⟩
      | failed status => cases names <;> exact ⟨rfl, rfl, fun _ => rfl⟩
      | closed => cases names <;> exact ⟨rfl, rfl, fun _ => rfl⟩
  | _ => cases hc

/-- Asking does not change what is left. -/
theorem answer_of_question (hc : c.reader? = some label) (hspares : (Event.command c).Spares label)
    (hreads : (Event.command c).reads label = false) : (o.answer names c).2 = o := by
  cases c with
  | next l | item l =>
    obtain rfl := Option.some.inj hc
    exact absurd (beq_self_eq_true l) (Bool.eq_false_iff.mp hreads)
  | closeReader l => exact absurd (Option.some.inj hc) hspares
  | done l | canProceed l | isClosed l => rfl
  | _ => cases hc

end Outlook

/-! ### Readers along a run -/

/-- **A reader with so much left**: the reader at a label `Expects` an outlook with that `left`. -/
structure Workspace.ReaderLeft (ws : Workspace Memory) (label : Label) (left : List Yield) : Prop where
  /-- there is such a reader -/
  expects : ∃ r names o, ws.readers.find? label = some r ∧ r.it.Expects ws.world names o ∧
    o.Spent names ∧ o.left names = left

namespace Workspace.ReaderLeft

variable {parse : String → Option Json} {ws : Workspace Memory} {H : History} {label : Label}
  {left : List Yield}

/-- The number of `reads` that an event is. -/
abbrev count (label : Label) (e : Event) : Nat := if e.reads label then 1 else 0

/-- **One event**: a read yields what is first and leaves the rest, and an event that `Spares` the
reader leaves it as it is. -/
theorem react {e : Event} (h : ws.ReaderLeft label left) (hreached : Reached parse ws H)
    (hallows : ws.Allows e) (hquiet : e.Quiet) (hfits : (ws.react parse e).world.engine.Fits)
    (hspares : e.Spares label) :
    ws.yield parse label e = left.take (count label e) ∧
      (ws.react parse e).ReaderLeft label (left.drop (count label e)) := by
  obtain ⟨r, names, o, hr, hexpects, hspent, rfl⟩ := h.expects
  have horder := hreached.inOrder
  have hafter := (hreached.step e hallows hquiet hfits).inOrder
  -- what is not done with the reader leaves it what it expects
  have hkept : e.reads label = false → ws.yield parse label e = [] →
      (ws.react parse e).readers.find? label = some r →
      r.it.Expects (ws.react parse e).world names o →
      ws.yield parse label e = (o.left names).take (count label e) ∧
        (ws.react parse e).ReaderLeft label ((o.left names).drop (count label e)) := by
    intro hreads hyield hr' hexpects'
    rw [count, hreads]
    exact ⟨hyield, ⟨r, names, o, hr', hexpects', hspent, rfl⟩⟩
  cases e with
  | files t =>
    exact hkept rfl rfl hr (hexpects.kept hafter.panic fun _ _ => ⟨rfl, fun _ _ => id⟩)
  | disturb d =>
    cases d with
    | busyWrites n | delays nanos | chunkLimit limit =>
      exact hkept rfl rfl hr (hexpects.kept hafter.panic fun _ _ => ⟨rfl, fun _ _ => id⟩)
    | failCursors status => exact hspares.elim
    | forgetSeries series | rawResult bytes | raisePanic message => exact hquiet.elim
  | command c =>
    by_cases hc : c.reader? = some label
    · obtain ⟨r', w', hrun, -, hexpects'⟩ := horder.run_reader parse hc hr hexpects
      have hfind : (ws.react parse (.command c)).readers.find? label = some { r with it := r' } := by
        rw [Workspace.react, hrun]
        exact Table.find?_put_self _ _ _
      have hworld : (ws.react parse (.command c)).world = w' := by rw [Workspace.react, hrun]
      rw [← hworld] at hexpects'
      cases hreads : (Event.command c).reads label with
      | true =>
        obtain ⟨hyield, hleft, hspent'⟩ := o.yield_answer hspent hreads
        rw [yield, count, if_pos hreads, if_pos hreads, hrun, ← hleft]
        exact ⟨hyield, ⟨_, names, _, hfind, hexpects', hspent', rfl⟩⟩
      | false =>
        rw [o.answer_of_question hc hspares hreads] at hexpects'
        rw [yield, count, if_neg (Bool.eq_false_iff.mp hreads), if_neg (Bool.eq_false_iff.mp hreads)]
        exact ⟨rfl, ⟨_, names, o, hfind, hexpects', hspent, rfl⟩⟩
    · have hall : c ≠ .dropAll := by
        rintro rfl
        exact hspares
      have hother : c.readerLabel? ≠ some label := by
        intro hlabel
        cases c <;> first | exact hc hlabel | exact hspares (Option.some.inj hlabel)
      have hreads : (Event.command c).reads label = false := by
        cases c <;> first
          | rfl
          | exact Bool.eq_false_iff.mpr fun heq => hc (congrArg some (beq_iff_eq.mp heq))
      refine hkept hreads (if_neg (Bool.eq_false_iff.mp hreads)) ?_ ?_
      · rw [Workspace.react, Workspace.readers_run hall hother, hr]
      · exact horder.expects_run hafter hreached.lent hall hallows hr hother hexpects

/-- **A whole run**: the reader `yields` as much of what is left as it is read. -/
theorem yields_eq {es : List Event} (h : ws.ReaderLeft label left) (hreached : Reached parse ws H)
    (hpermits : ws.Permits parse es) (hspares : ∀ e ∈ es, e.Spares label) :
    ws.yields parse label es = left.take (es.countP (Event.reads label)) := by
  induction es generalizing ws H left with
  | nil => rfl
  | cons e es ih =>
    obtain ⟨hallows, hquiet, hfits, hrest⟩ := hpermits
    obtain ⟨hyield, hleft⟩ := h.react hreached hallows hquiet hfits (hspares e List.mem_cons_self)
    have hyields := ih hleft (hreached.step e hallows hquiet hfits) hrest
      fun e he => hspares e (List.mem_cons_of_mem _ he)
    rw [yields, hyield, hyields, List.countP_cons, Nat.add_comm, List.take_add]

end Workspace.ReaderLeft

/-! ### Opening and reading -/

namespace InOrder

variable {parse : String → Option Json} {ws : Workspace Memory} {H : History}
  {label session : Label} {source : Source}

/-- The command `openReader` succeeds on an open session with a text only. -/
theorem session_of_openReader (h : InOrder ws H)
    (hopen : (ws.run (Memory.engine parse) (.openReader label session source)).1 = .ok) :
    ∃ s handle text, ws.sessions.find? session = some s ∧ s.it.handle = some handle ∧
      source.render = .ok text := by
  rw [Workspace.run, Workspace.openReader] at hopen
  cases hs : ws.sessions.find? session with
  | none => simp only [hs] at hopen; cases hopen
  | some s =>
    simp only [hs] at hopen
    cases hrender : source.render with
    | error failure => simp only [hrender] at hopen; cases hopen
    | ok text =>
      simp only [hrender] at hopen
      cases hhandle : s.it.handle with
      | none => rw [Session.openCursor_of_closed parse text h.panic hhandle] at hopen; cases hopen
      | some handle => exact ⟨s, handle, text, rfl, hhandle, rfl⟩

/-- **A reader that `openReader` opened** has all rows of an answer left. -/
theorem readerLeft_of_openReader (h : InOrder ws H) (hlent : Lent ws)
    (hopen : (ws.run (Memory.engine parse) (.openReader label session source)).1 = .ok)
    (hfits : (ws.react parse (.command (.openReader label session source))).world.engine.Fits) :
    ∃ rows, (ws.react parse (.command (.openReader label session source))).ReaderLeft label
      rows := by
  obtain ⟨s, handle, text, hs, hhandle, hrender⟩ := h.session_of_openReader hopen
  obtain ⟨d, st, -, hserves⟩ := h.tied.serves hs hhandle
  obtain ⟨w', r, hrun, hserved, hexpects⟩ :=
    h.expects_openReader parse hlent label hs hrender hhandle hserves
  rw [Workspace.react, hrun] at hfits ⊢
  refine ⟨_, ⟨⟨session, r⟩, _, _, Table.find?_put_self _ _ _,
    hexpects (hfits _ _ hserved.find?_self), fun hended => ?_, rfl⟩⟩
  cases hended

end InOrder

variable {parse : String → Option Json} {ws : Workspace Memory} {H : History}
  {label session : Label} {source : Source}

/-- **Snapshots**: a reader that `openReader` opened has some rows to yield, and it `yields`
them one after another if it is read at once, by as many reads as there may be. If it is read
while the caller does other things between the reads, of whatever kind, it yields the same rows
in the same order, as long as every event `Spares` it: it is not closed itself and nothing makes
cursors fail. -/
theorem Reached.yields_of_interleaving (h : Reached parse ws H)
    (hopen : (ws.run (Memory.engine parse) (.openReader label session source)).1 = .ok)
    (hfits : (ws.react parse (.command (.openReader label session source))).world.engine.Fits) :
    let opened := ws.react parse (.command (.openReader label session source))
    ∃ rows : List Yield,
      (∀ n, opened.yields parse label (.replicate n (.command (.item label))) = rows.take n) ∧
      ∀ es, opened.Permits parse es → (∀ e ∈ es, e.Spares label) →
        opened.yields parse label es = rows.take (es.countP (Event.reads label)) := by
  intro opened
  obtain ⟨rows, hleft⟩ := h.inOrder.readerLeft_of_openReader h.lent hopen hfits
  have hreached := h.step (.command (.openReader label session source)) trivial trivial hfits
  have hyields : ∀ es, opened.Permits parse es → (∀ e ∈ es, e.Spares label) →
      opened.yields parse label es = rows.take (es.countP (Event.reads label)) :=
    fun es hpermits hspares => hleft.yields_eq hreached hpermits hspares
  refine ⟨rows, fun n => ?_, hyields⟩
  have hpermits : opened.Permits parse (.replicate n (.command (.item label))) := by
    rw [← List.map_replicate]
    refine Workspace.permits_of_readers (fun c hc => ?_) hfits
    rw [List.eq_of_mem_replicate hc]
    rfl
  have hitem : (Event.command (.item label)).reads label = true := beq_self_eq_true label
  rw [hyields _ hpermits fun e he => by rw [List.eq_of_mem_replicate he]; trivial,
    List.countP_replicate, if_pos hitem]

instance (answer : Answer) : Decidable (answer = .ok) :=
  match answer with
  | .ok => .isTrue rfl
  | .failed _ | .noHandle | .borrowed | .created _ | .opened .. | .writes _ | .items _ | .row _
  | .name _ | .rowItem _ | .nameItem _ | .flag _ => .isFalse nofun

/-- A point is written to the series that a reader was opened on, and then one to a new series
that it selects as well; the reader does not give them. -/
theorem Reached.yields_of_late_writes :
    let parse : String → Option Json := fun _ => some (.object [("select", .text "cpu")])
    let begun : List Command := [.create ⟨""⟩ "a" {}, .openDatabase "d" ⟨""⟩ "a" {},
      .openSession "s" "d", .write "s" "cpu host=a" 5 (.ofWord 1)]
    let ws : Workspace Memory :=
      (Workspace.ofWorld { engine := {}, files := {} }).reactAll parse (begun.map .command)
    let opening := Command.openReader "r" "s" (.text "")
    let commands : List Command := [.write "s" "cpu host=a" 6 (.ofWord 2), .item "r",
      .write "s" "cpu host=b" 7 (.ofWord 3), .item "r", .next "r"]
    ∃ H, Reached parse ws H ∧ (ws.run (Memory.engine parse) opening).1 = .ok ∧
      (ws.react parse (.command opening)).world.engine.Fits ∧
      (ws.react parse (.command opening)).Permits parse (commands.map .command) ∧
      (ws.react parse (.command opening)).yields parse "r" (commands.map .command) =
        (ws.react parse (.command opening)).yields parse "r"
          (.replicate 3 (.command (.item "r"))) := by
  intro parse begun ws opening commands
  have hview : View.Permits parse { files := {} } (begun ++ opening :: commands) := by
    decide +kernel
  have hall : (Workspace.ofWorld { engine := {}, files := {} }).Permits parse
      ((begun ++ opening :: commands).map .command) :=
    (Watched.start parse .whole (fun _ => False) {}).permits id (by rwa [List.map_id])
  rw [List.map_append, Workspace.permits_append] at hall
  have hbegun := hall.1
  have hrest : ws.Permits parse ((opening :: commands).map .command) := hall.2
  have hopen : (ws.run (Memory.engine parse) opening).1 = .ok := by decide +kernel
  obtain ⟨H, hreached⟩ : ∃ H, Reached parse ws H := hbegun.reached (.start {})
  clear_value ws
  obtain ⟨-, -, hfits, hpermits⟩ := hrest
  obtain ⟨rows, hatOnce, hinterleaved⟩ :=
    @Reached.yields_of_interleaving parse ws H "r" "s" (.text "") hreached hopen hfits
  refine ⟨H, hreached, hopen, hfits, hpermits, ?_⟩
  rw [hatOnce, hinterleaved _ hpermits (by simp [commands, Event.Spares])]
  rfl

end TimeSeries
