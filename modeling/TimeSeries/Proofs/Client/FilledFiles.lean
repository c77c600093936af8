import TimeSeries.Proofs.Client.Reordering
import TimeSeries.Proofs.Engine.Listings

/-!
# Files that are filled

What a file holds after a run is its history, and what it lists are the series of writers. A write
that is refused can leave the name of its series behind, so the two go together only as long as all
writes to the file succeed: `Filled` are the runs in which they do. Along such a run the store of
the file lists the series of its history, each once, and no others (`Filled.lists`), and this is all
that the rows of a query are made from. So what is asked for in two files whose histories differ in
order only is the same: `Filled.rows_of_reordering`.
-/

namespace TimeSeries

/-! ### Writes that succeed -/

/-- **Filling**: the points that were `written` are appended to the store of a file, and nothing
else changes that counts. -/
def World.Fills (w : World Memory) (file : FileKey) (st : Store) (w' : World Memory)
    (written : List Written) : Prop :=
  ∃ busy, w.Becomes ((w.engine.withStore file (st.appendAll written)).refusing busy) w'

namespace Session

variable (parse : String → Option Json) {s : Session} {session : Handle} {file : FileKey}
  {st : Store} {w : World Memory}

/-- **A `write` that succeeds** appends its point. -/
theorem fills_write (series : String) (timestamp : Timestamp) (value : Double)
    (hpanic : w.channel.panic = none) (hhandle : s.handle = some session)
    (hserves : w.engine.Serves session file st)
    (hok : (s.write (Memory.engine parse) series timestamp value w).1 = .ok ()) :
    w.Fills file st (s.write (Memory.engine parse) series timestamp value w).2
      (written series timestamp value
        (s.write (Memory.engine parse) series timestamp value w).1) := by
  rcases write_becomes parse series timestamp value hpanic hhandle hserves with
    ⟨failure, w', st', busy, hwrite, -⟩ | ⟨name, w', busy, hwrite, hname, hbecomes⟩
  · rw [hwrite] at hok
    cases hok
  · rw [hwrite, written, hname]
    exact ⟨busy, hbecomes⟩

/-- **A `writeAll` that always succeeds** appends its points. -/
theorem fills_writeAll (points : List (String × Timestamp × Double))
    (hpanic : w.channel.panic = none) (hhandle : s.handle = some session)
    (hserves : w.engine.Serves session file st)
    (hok : (Workspace.writeAll (Memory.engine parse) s points w).1 = []) :
    w.Fills file st (Workspace.writeAll (Memory.engine parse) s points w).2
      (s.writtenAll parse points w) := by
  induction points generalizing w st with
  | nil =>
    refine ⟨w.engine.busyWrites, ?_, rfl⟩
    rw [writtenAll, Store.appendAll, List.foldl_nil, hserves.withStore_self]
    rfl
  | cons point points ih =>
    obtain ⟨series, timestamp, value⟩ := point
    have hfirst := fills_write parse series timestamp value hpanic hhandle hserves
    rw [Workspace.writeAll, writtenAll]
    rw [Workspace.writeAll] at hok
    rcases hwrite : s.write (Memory.engine parse) series timestamp value w with ⟨result, w₁⟩
    rw [hwrite] at hfirst hok
    cases result with
    | error failure => cases hok
    | ok u =>
      obtain ⟨busy, hbecomes⟩ := hfirst rfl
      dsimp only at hbecomes hok ⊢
      have hserves₁ : w₁.engine.Serves session file
          (st.appendAll (written series timestamp value (.ok u))) := by
        rw [hbecomes.engine]
        exact (hserves.withStore _).refusing busy
      obtain ⟨busy', hbecomes'⟩ := ih (hbecomes.no_panic hpanic) hserves₁ hok
      refine ⟨busy', ?_, hbecomes'.panic.trans hbecomes.panic⟩
      rw [hbecomes'.engine, hbecomes.engine, Store.appendAll, Store.appendAll, Store.appendAll,
        List.foldl_append]
      simp

end Session

/-! ### Runs -/

/-- **A command succeeds** if no write of a `write` or `writeAll` fails. -/
def Command.Succeeds (answer : Answer) : Command → Prop
  | write .. | writeAt .. => answer = .ok
  | writeAll .. => answer = .writes []
  | _ => True

/-- **An `Event` that fills a file**: all that is written to the file is written with success. -/
def Workspace.Filling (parse : String → Option Json) (file : FileKey) (ws : Workspace Memory) :
    Event → Prop
  | .command c => ∀ label, c.session? = some label → ws.file? label = some file →
      c.Succeeds (ws.run (Memory.engine parse) c).1
  | _ => True

/-- **Runs in which a file is filled**: runs from a fresh engine, with their histories, in which all
events are `Filling` it. -/
inductive Filled (parse : String → Option Json) (file : FileKey) :
    Workspace Memory → History → Prop where
  /-- nothing has happened -/
  | start (files : FileTree) : Filled parse file (.ofWorld { engine := {}, files }) fun _ => []
  /-- one event more -/
  | step {ws : Workspace Memory} {H : History} (e : Event) : Filled parse file ws H →
      ws.Allows e → e.Quiet → ws.Filling parse file e →
      (ws.react parse e).world.engine.Fits →
      Filled parse file (ws.react parse e) (ws.history parse H e)

/-! ### What is listed along a run -/

namespace InOrder

variable {parse : String → Option Json} {file : FileKey} {ws : Workspace Memory} {H : History}
  {label : Label}

/-- **A session lists what it writes**, as long as it `Fills` where the file is its own. -/
theorem lists_withSession {f : Session → World Memory → Answer × World Memory}
    {written : Session → World Memory → List Written} (h : InOrder ws H)
    (hsound : ws.world.engine.Sound) (hf : Writing f written)
    (hfills : ∀ {s session st}, ws.sessions.find? label = some s → ws.file? label = some file →
      s.it.handle = some session → ws.world.engine.Serves session file st →
        ws.world.Fills file st (f s.it ws.world).2 (written s.it ws.world))
    (hfits : (ws.withSession label f).2.world.engine.Fits)
    (hlists : (ws.world.engine.storeOf file).Lists ((H file).map Written.series)) :
    ((ws.withSession label f).2.world.engine.storeOf file).Lists
      ((ws.historyOf label H written file).map Written.series) := by
  rw [Workspace.withSession] at hfits ⊢
  cases hs : ws.sessions.find? label with
  | none => rwa [Workspace.historyOf_nil (by intro s hs'; rw [hs] at hs'; cases hs')]
  | some s =>
    rw [hs] at hfits
    dsimp only at hfits ⊢
    cases hhandle : s.it.handle with
    | none =>
      obtain ⟨hworld, hwritten⟩ := hf.closed h.panic hhandle
      rw [Workspace.historyOf_nil (by intro s' hs'; rw [hs] at hs'; cases hs'; exact hwritten),
        hworld]
      exact hlists
    | some session =>
      obtain ⟨d, st, hd, hserves⟩ := h.tied.serves hs hhandle
      have hfile := Workspace.file?_eq hs hd
      simp only [Workspace.historyOf, hs, hfile, History.add]
      by_cases hown : file = d.file.key
      · subst hown
        obtain ⟨busy, hbecomes⟩ := hfills hs hfile hhandle hserves
        have hbefore : ws.world.engine.storeOf d.file.key = st := by
          rw [Memory.storeOf, hserves.find_eq]
          rfl
        have hfound : (f s.it ws.world).2.engine.stores.find? d.file.key =
            some (st.appendAll (written s.it ws.world)) := by
          rw [hbecomes.engine]
          exact Table.find?_put_self _ _ _
        rw [hbefore] at hlists
        rw [if_pos rfl, List.map_append, Memory.storeOf, hfound]
        exact hlists.appendAll (hsound _ _ hserves.find_eq) (hfits _ _ hfound)
      · obtain ⟨st', busy, hbecomes, -⟩ := hf.opened h.panic hhandle hserves
        have hsame : (f s.it ws.world).2.engine.storeOf file = ws.world.engine.storeOf file := by
          rw [hbecomes.engine]
          exact congrArg (fun found : Option Store => found.getD .empty)
            (Table.find?_put_ne _ _ (Ne.symm hown))
        rwa [if_neg hown, hsame]

/-- **The command `remove`** leaves nothing listed of its file, and all others alone. -/
theorem lists_remove (directory : Path) (name : String)
    (hlists : (ws.world.engine.storeOf file).Lists ((H file).map Written.series)) :
    ((ws.run (Memory.engine parse) (.remove directory name)).2.world.engine.storeOf file).Lists
      ((ws.history parse H (.command (.remove directory name)) file).map Written.series) := by
  rw [Workspace.run, Workspace.history]
  rcases Database.remove_becomes parse directory name ws.world with
    ⟨failure, w', hremove, hbecomes⟩ | ⟨w', hremove, -, hbecomes⟩
  · rw [hremove]
    dsimp only
    rwa [hbecomes.engine]
  · rw [hremove]
    dsimp only
    rw [hbecomes.engine, History.clear, Memory.storeOf, Memory.removed, Table.find?_erase]
    by_cases hown : (databasePath directory name).key = file
    · rw [if_pos hown, if_pos hown.symm]
      exact Store.lists_empty
    · rw [if_neg hown, if_neg (Ne.symm hown)]
      exact hlists

/-- **A command keeps what is listed** of a file, as `Lists` says, to the series of its history. -/
theorem lists_command (h : InOrder ws H) (hsound : ws.world.engine.Sound) (c : Command)
    (hfilling : ws.Filling parse file (.command c))
    (hfits : (ws.run (Memory.engine parse) c).2.world.engine.Fits)
    (hlists : (ws.world.engine.storeOf file).Lists ((H file).map Written.series)) :
    ((ws.run (Memory.engine parse) c).2.world.engine.storeOf file).Lists
      ((ws.history parse H (.command c) file).map Written.series) := by
  have hok : ∀ {result : Except Failure Unit},
      Answer.ofExcept (fun () => .ok) result = .ok → result = .ok () := by
    rintro (failure | u) hanswer
    · cases hanswer
    · rfl
  cases c with
  | remove directory name => exact lists_remove directory name hlists
  | write label series timestamp value =>
    refine h.lists_withSession hsound (writing_write series timestamp value) ?_ hfits hlists
    intro s session st hs hfile hhandle hserves
    have hsucceeds := hfilling label rfl hfile
    simp only [Command.Succeeds, Workspace.run, Workspace.withSession, hs] at hsucceeds
    exact Session.fills_write parse series timestamp value h.panic hhandle hserves (hok hsucceeds)
  | writeAt label series time value =>
    refine h.lists_withSession hsound (writing_writeAt series time value) ?_ hfits hlists
    intro s session st hs hfile hhandle hserves
    have hsucceeds := hfilling label rfl hfile
    simp only [Command.Succeeds, Workspace.run, Workspace.withSession, hs] at hsucceeds
    have hwritten := hok hsucceeds
    rw [Session.writeAt] at hwritten ⊢
    cases htime : time.timestamp? with
    | none =>
      rw [htime] at hwritten
      cases hwritten
    | some timestamp =>
      rw [htime] at hwritten
      exact Session.fills_write parse series timestamp value h.panic hhandle hserves hwritten
  | writeAll label points =>
    refine h.lists_withSession hsound (writing_writeAll points) ?_ hfits hlists
    intro s session st hs hfile hhandle hserves
    have hsucceeds := hfilling label rfl hfile
    simp only [Command.Succeeds, Workspace.run, Workspace.withSession, hs] at hsucceeds
    exact Session.fills_writeAll parse points h.panic hhandle hserves (Answer.writes.inj hsucceeds)
  | _ => exact Workspace.lists_run parse id hlists

end InOrder

namespace Filled

variable {parse : String → Option Json} {file file' : FileKey} {ws ws' : Workspace Memory}
  {H H' : History} {label label' : Label}

theorem reached (h : Filled parse file ws H) : Reached parse ws H := by
  induction h with
  | start files => exact .start files
  | step e _ hallows hquiet _ hfits ih => exact .step e ih hallows hquiet hfits

/-- **What a file lists** along a run in which it is `Filled` are the series of its history. -/
theorem lists (h : Filled parse file ws H) :
    (ws.world.engine.storeOf file).Lists ((H file).map Written.series) := by
  induction h with
  | start files => exact Store.lists_empty
  | step e hrun hallows hquiet hfilling hfits ih =>
    cases e with
    | command c =>
      exact hrun.reached.inOrder.lists_command hrun.reached.sound c hfilling hfits ih
    | files t => exact ih
    | disturb d => cases d <;> exact ih

end Filled

/-! ### Queries -/

/-- The session at a label is open and works on a file, by `file?`. -/
def Workspace.OpenOn (ws : Workspace Memory) (label : Label) (file : FileKey) : Prop :=
  ∃ s session, ws.sessions.find? label = some s ∧ s.it.handle = some session ∧
    ws.file? label = some file

/-- **The rows that an open session reads** are what the store of its file has in `prospect`, if the
names can be counted afterwards. -/
theorem InOrder.rows_of_openOn {parse : String → Option Json} {file : FileKey}
    {ws : Workspace Memory} {H : History} {label : Label} {source : Source} {text : String}
    (h : InOrder ws H) (hopen : ws.OpenOn label file) (hrender : source.render = .ok text)
    (hfits : (ws.run (Memory.engine parse) (.rows label source)).2.world.engine.Fits) :
    ∃ st, ws.world.engine.stores.find? file = some st ∧
      (st.query (parse text)).2.Countable ∧
      (ws.run (Memory.engine parse) (.rows label source)).1 =
        .items (st.prospect (parse text)).items := by
  obtain ⟨s, session, hs, hhandle, hfile⟩ := hopen
  obtain ⟨d, st, hd, hserves⟩ := h.tied.serves hs hhandle
  obtain rfl : d.file.key = file := Option.some.inj ((Workspace.file?_eq hs hd).symm.trans hfile)
  obtain ⟨hserved, hanswer⟩ := h.run_rows parse hs hhandle hserves hrender
  have hcount := hfits _ _ hserved.find?_self
  exact ⟨st, hserves.find_eq, hcount, hanswer hcount⟩

namespace Filled

variable {parse : String → Option Json} {file file' : FileKey} {ws ws' : Workspace Memory}
  {H H' : History} {label label' : Label}

/-- **The order of writes does not matter.** Two files were `Filled` by the same points, in whatever
order and with whatever else in between, and no two of the points have the same `key`, their series
and timestamp. Then `rows` of a query that is not a join gives the same items in open sessions on
the two: the same rows in the same order, or the same failure. -/
theorem rows_of_reordering (h : Filled parse file ws H) (h' : Filled parse file' ws' H')
    (hperm : (H file).Perm (H' file')) (hkeys : ((H file).map Written.key).Nodup)
    (hopen : ws.OpenOn label file) (hopen' : ws'.OpenOn label' file') (source : Source)
    (hplain : ∀ text document p, source.render = .ok text → parse text = some document →
      Plan.ofJson document = .ok p → ¬p.IsJoin)
    (hfits : (ws.run (Memory.engine parse) (.rows label source)).2.world.engine.Fits)
    (hfits' : (ws'.run (Memory.engine parse) (.rows label' source)).2.world.engine.Fits) :
    (ws.run (Memory.engine parse) (.rows label source)).1 =
      (ws'.run (Memory.engine parse) (.rows label' source)).1 := by
  cases hrender : source.render with
  | error failure =>
    obtain ⟨s, -, hs, -⟩ := hopen
    obtain ⟨s', -, hs', -⟩ := hopen'
    simp only [Workspace.run, Workspace.withSession, hs, hs', hrender]
  | ok text =>
    have horder := h.reached.inOrder
    have horder' := h'.reached.inOrder
    obtain ⟨st, hst, hcount, hrows⟩ := horder.rows_of_openOn hopen hrender hfits
    obtain ⟨st', hst', hcount', hrows'⟩ := horder'.rows_of_openOn hopen' hrender hfits'
    -- the two list the same names, as they are the series of the same points
    have hlists := h.lists
    have hlists' := h'.lists
    rw [Memory.storeOf, hst] at hlists
    rw [Memory.storeOf, hst'] at hlists'
    have hlisted : st.listedNames.Perm st'.listedNames :=
      hlists.perm hlists' fun name => (hperm.map Written.series).mem_iff
    rw [hrows, hrows', Store.prospect_of_perm (horder.recorded.log_eq hst)
      (horder'.recorded.log_eq hst') hperm hkeys hlisted
      (fun document p hparse => hplain text document p hrender hparse) hcount hcount']

end Filled

/-! ### A small run -/

section FilledWith

variable (parse : String → Option Json) (points : List (String × Timestamp × Double))

/-- The workspace after `writeAll` in the session of a small one. -/
def Workspace.filledWith : Workspace Memory :=
  (begun parse).react parse (.command (.writeAll "s" points))

variable {parse} {points}

theorem Filled.begun (parse : String → Option Json) :
    Filled parse ["a.akumuli"] (.begun parse) fun _ => [] := by
  have hfits : (Workspace.begun parse).world.engine.Fits := (Reached.begun parse).fits
  have hquiet : ∀ {ws : Workspace Memory} {c : Command}, c.session? = none →
      ws.Filling parse ["a.akumuli"] (.command c) := by
    intro ws c hc label hlabel
    cases hc.symm.trans hlabel
  have hstart : Filled parse ["a.akumuli"] _ _ :=
    .start ⟨Table.empty.put ["a.akumuli"] (.file "")⟩
  have hopened := hstart.step (.command (.openDatabase "d" ⟨""⟩ "a" {})) ⟨rfl, by decide⟩ trivial
    (hquiet rfl) hfits
  exact hopened.step (.command (.openSession "s" "d")) rfl trivial (hquiet rfl) hfits

/-- The file is filled by the points if the store takes them all, and a query that leaves the store
as it is can be put to it. -/
theorem Filled.filledWith {st : Store} {written : List Written}
    (htaken : (Store.takeAll .empty points).1.isEmpty = true) (hst : (Store.takeAll .empty points).2 = st)
    (hcount : st.Countable) (hlog : st.log = written.map some)
    (hquery : (st.query (parse "")).2 = st) :
    ∃ H, Filled parse ["a.akumuli"] (.filledWith parse points) H ∧ H ["a.akumuli"] = written ∧
      (Workspace.filledWith parse points).OpenOn "s" ["a.akumuli"] ∧
      ((Workspace.filledWith parse points).run (Memory.engine parse)
        (.rows "s" (.text ""))).2.world.engine.Fits := by
  have hbegun := Filled.begun parse
  have hserves : (Workspace.begun parse).world.engine.Serves 2 ["a.akumuli"] .empty := ⟨rfl, rfl⟩
  have hs : (Workspace.begun parse).sessions.find? "s" = some ⟨"d", some 2, {}⟩ := rfl
  obtain ⟨w, hwrites, hbecomes⟩ := @Session.writeAll_takeAll parse 2 ["a.akumuli"] .empty
    (Workspace.begun parse).world ⟨some 2, {}⟩ points rfl rfl hserves rfl
  have hrun : (Workspace.begun parse).run (Memory.engine parse) (.writeAll "s" points) =
      (.writes [], { Workspace.begun parse with world := w }) := by
    simp only [Workspace.run, Workspace.withSession, hs, hwrites, List.isEmpty_iff.mp htaken]
  have hfilledWith : Workspace.filledWith parse points =
      { Workspace.begun parse with world := w } := congrArg Prod.snd hrun
  have hengine : w.engine = (Workspace.begun parse).world.engine.withStore ["a.akumuli"] st := by
    rw [hbecomes.engine, hst]
  have hfits : w.engine.Fits := by
    rw [hengine]
    refine Memory.fits_of_values fun s hs => ?_
    obtain rfl := List.mem_singleton.mp hs
    exact hcount
  have hfilled : Filled parse ["a.akumuli"] (.filledWith parse points) _ :=
    hbegun.step (.command (.writeAll "s" points)) trivial trivial
      (fun _ _ _ => congrArg Prod.fst hrun) (by rw [Workspace.react, hrun]; exact hfits)
  have horder := hfilled.reached.inOrder
  rw [hfilledWith] at horder hfilled ⊢
  have hserves' : w.engine.Serves 2 ["a.akumuli"] st := by
    rw [hengine]
    exact hserves.withStore st
  refine ⟨_, hfilled, ?_, ⟨_, 2, hs, rfl, rfl⟩, ?_⟩
  · have hlogged := horder.recorded.log_eq hserves'.find_eq
    rw [hlog] at hlogged
    exact (List.map_injective_iff.mpr (fun _ _ => Option.some.inj) hlogged).symm
  · have hrender : (Source.text "").render = .ok "" := rfl
    obtain ⟨hserved, -⟩ := horder.run_rows parse hs rfl hserves' hrender
    intro file st' hst'
    rw [hserved.stores_eq, hquery, Table.put_of_find? hserves'.find_eq] at hst'
    exact hfits file st' hst'

end FilledWith

namespace Filled

/-- Three points of two series, written in two orders and not always spelled alike: a select gives
the same rows. -/
theorem rows_of_three_points :
    let parse : String → Option Json := fun _ => some (.object [("select", .text "cpu")])
    let ws := Workspace.filledWith parse
      [("cpu host=b", 5, .ofWord 1), ("cpu host=a", 5, .ofWord 2), ("cpu host=a", 6, .ofWord 3)]
    let ws' := Workspace.filledWith parse
      [("cpu host=a", 6, .ofWord 3), ("cpu  host=a", 5, .ofWord 2), ("cpu host=b", 5, .ofWord 1)]
    ∃ H H', Filled parse ["a.akumuli"] ws H ∧ Filled parse ["a.akumuli"] ws' H' ∧
      (H ["a.akumuli"]).Perm (H' ["a.akumuli"]) ∧
      ((H ["a.akumuli"]).map Written.key).Nodup ∧
      (ws.run (Memory.engine parse) (.rows "s" (.text ""))).1 =
        (ws'.run (Memory.engine parse) (.rows "s" (.text ""))).1 := by
  intro parse ws ws'
  obtain ⟨H, hfilled, hhistory, hopen, hfits⟩ := @Filled.filledWith parse
    [("cpu host=b", 5, .ofWord 1), ("cpu host=a", 5, .ofWord 2), ("cpu host=a", 6, .ofWord 3)]
    (Store.ofSeries ["cpu host=b", "cpu host=a"]
      [⟨1, 5, .ofWord 1⟩, ⟨2, 5, .ofWord 2⟩, ⟨2, 6, .ofWord 3⟩])
    [⟨"cpu host=b", 5, .ofWord 1⟩, ⟨"cpu host=a", 5, .ofWord 2⟩, ⟨"cpu host=a", 6, .ofWord 3⟩]
    (by decide +kernel) (by decide +kernel) (by decide) rfl rfl
  obtain ⟨H', hfilled', hhistory', hopen', hfits'⟩ := @Filled.filledWith parse
    [("cpu host=a", 6, .ofWord 3), ("cpu  host=a", 5, .ofWord 2), ("cpu host=b", 5, .ofWord 1)]
    (Store.ofSeries ["cpu host=a", "cpu host=b"]
      [⟨1, 6, .ofWord 3⟩, ⟨1, 5, .ofWord 2⟩, ⟨2, 5, .ofWord 1⟩])
    [⟨"cpu host=a", 6, .ofWord 3⟩, ⟨"cpu host=a", 5, .ofWord 2⟩, ⟨"cpu host=b", 5, .ofWord 1⟩]
    (by decide +kernel) (by decide +kernel) (by decide) rfl rfl
  have hperm : (H ["a.akumuli"]).Perm (H' ["a.akumuli"]) := by
    rw [hhistory, hhistory']
    decide
  have hkeys : ((H ["a.akumuli"]).map Written.key).Nodup := by
    rw [hhistory]
    decide
  have hplan : Plan.ofJson (.object [("select", .text "cpu")]) =
      .ok (.select ⟨["cpu"], {}, none⟩ {}) := rfl
  refine ⟨H, H', hfilled, hfilled', hperm, hkeys, ?_⟩
  refine rows_of_reordering hfilled hfilled' hperm hkeys hopen hopen' (.text "") ?_ hfits hfits'
  intro text document p _ hparse hread
  obtain rfl := Option.some.inj hparse
  rw [hplan] at hread
  cases hread
  exact id

end Filled

end TimeSeries
