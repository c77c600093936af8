import TimeSeries.Client.Workspace
import TimeSeries.Proofs.Client.Sessions
import TimeSeries.Proofs.Series.Metrics

/-!
# Runs of a workspace

A run is a sequence of events: commands, changes of the files from outside, and
disturbances of the engine. What a caller can do is bounded by the rule that a database
outlives its sessions and a session its cursors (`Workspace.Allows`). Along a run a history
is kept of what was written to each file and not removed since (`Workspace.history`), by
what the operations answered and not by what the engine holds. `Reached` are the workspaces
of runs in which the engine works as it should, together with their histories;
`Workspace.begunWith` is one of them.
-/

namespace TimeSeries

/-! ### Events -/

/-- **Event** in a run: a `Command`, or what happens to the engine and the files from outside. -/
inductive Event : Type where
  /-- a command -/
  | command (c : Command)
  /-- the files change from outside -/
  | files (t : FileTree)
  /-- the engine is made to misbehave -/
  | disturb (d : Memory.Disturbance)

/-- **Quiet events** leave alone what answers are made from: there is no panic, no name is
forgotten, no bytes take the place of an answer and deliveries are not limited. Writes may
be refused as busy for a while, and open cursors may fail. -/
def Event.Quiet : Event → Prop
  | disturb (.chunkLimit limit) => limit = none
  | disturb (.forgetSeries _) | disturb (.rawResult _) | disturb (.raisePanic _) => False
  | _ => True

namespace Workspace

variable (parse : String → Option Json)

/-- What an `Event` makes of a workspace. -/
def react (ws : Workspace Memory) : Event → Workspace Memory
  | .command c => (ws.run (Memory.engine parse) c).2
  | .files t => { ws with world := { ws.world with files := t } }
  | .disturb d => { ws with world := Memory.disturb ws.world d }

/-- **What a caller can do**: opening something under a label lets go of what was there, so
nothing may depend on that. The size of a buffer is a machine word. -/
def Allows (ws : Workspace Memory) : Event → Prop
  | .command (.openDatabase label _ _ settings) =>
    ws.databaseInUse label = false ∧ settings.buffer < UInt64.size
  | .command (.openSession label _) => ws.sessionInUse label = false
  | _ => True

end Workspace

/-! ### Histories -/

/-- **What was written**: a point, by the canonical name of its series. -/
structure Written : Type where
  /-- the canonical name of the series -/
  series : String
  /-- the timestamp -/
  timestamp : Timestamp
  /-- the value -/
  value : Double
  deriving DecidableEq, Repr

/-- **History**: what was written to each file and not removed, in order. -/
abbrev History : Type := FileKey → List Written

namespace History

/-- The history after more was written to a file. -/
def add (H : History) (file : FileKey) (more : List Written) : History :=
  fun k => if k = file then H k ++ more else H k

/-- The history after a file was removed. -/
def clear (H : History) (file : FileKey) : History := fun k => if k = file then [] else H k

end History

namespace Session

variable (parse : String → Option Json)

/-- What a `write` that ended with a result has written: its point, if it succeeded. -/
def written (series : String) (timestamp : Timestamp) (value : Double) :
    Except Failure Unit → List Written
  | .ok () => ((Series.normalize series).map fun name => ⟨name, timestamp, value⟩).toList
  | .error _ => []

/-- What `writeAll`, one `write` after another, has written. -/
def writtenAll (s : Session) : List (String × Timestamp × Double) → World Memory → List Written
  | [], _ => []
  | (series, timestamp, value) :: points, w =>
    let (result, w) := s.write (Memory.engine parse) series timestamp value w
    written series timestamp value result ++ s.writtenAll points w

end Session

namespace Workspace

variable (parse : String → Option Json)

/-- The file that the session at a label works on. -/
def file? (ws : Workspace Memory) (label : Label) : Option FileKey :=
  (ws.sessions.find? label).bind fun s =>
    (ws.databases.find? s.parent).map fun d => d.file.key

/-- The history after something was written in the session at a label. -/
def historyOf (ws : Workspace Memory) (label : Label) (H : History)
    (written : Session → World Memory → List Written) : History :=
  match ws.sessions.find? label, ws.file? label with
  | some s, some file => H.add file (written s.it ws.world)
  | _, _ => H

/-- **The history after an `Event`**: a write that succeeds adds its point to the file of its
session, and `remove` clears the history of its file. -/
def history (ws : Workspace Memory) (H : History) : Event → History
  | .command (.write label series timestamp value) =>
    ws.historyOf label H fun s w =>
      Session.written series timestamp value
        (s.write (Memory.engine parse) series timestamp value w).1
  | .command (.writeAt label series time value) =>
    ws.historyOf label H fun s w =>
      match time.timestamp? with
      | some timestamp =>
        Session.written series timestamp value
          (s.writeAt (Memory.engine parse) series time value w).1
      | none => []
  | .command (.writeAll label points) => ws.historyOf label H (Session.writtenAll parse · points)
  | .command (.remove directory name) =>
    match (Database.remove (Memory.engine parse) directory name ws.world).1 with
    | .ok () => H.clear (databasePath directory name).key
    | .error _ => H
  | _ => H

end Workspace

/-! ### Runs -/

/-- **The names fit in memory**: every store is `Countable`, it has fewer than there are words. -/
def Memory.Fits (m : Memory) : Prop :=
  ∀ file s, m.stores.find? file = some s → s.Countable

/-- **Reached workspaces**, with their histories: all begins with a fresh engine and any files, and
goes on by events that `Allows` admits and that are `Quiet`. -/
inductive Reached (parse : String → Option Json) : Workspace Memory → History → Prop where
  /-- nothing has happened -/
  | start (files : FileTree) : Reached parse (.ofWorld { engine := {}, files }) fun _ => []
  /-- one event more -/
  | step {ws : Workspace Memory} {H : History} (e : Event) : Reached parse ws H → ws.Allows e →
      e.Quiet → (ws.react parse e).world.engine.Fits →
      Reached parse (ws.react parse e) (ws.history parse H e)

theorem Memory.fits_of_values {m : Memory} (h : ∀ s ∈ m.stores.values, s.Countable) : m.Fits :=
  fun _ s hfind => h s (Table.mem_values_of_find? hfind)

/-! ### A small run -/

section Begun

variable (parse : String → Option Json) (value : Double)

/-- **A workspace to begin with**: `openDatabase` opened a database, and `openSession` began a
session on it. -/
def Workspace.begun : Workspace Memory :=
  ((ofWorld { engine := {}, files := ⟨Table.empty.put ["a.akumuli"] (.file "")⟩ }).react parse
    (.command (.openDatabase "d" ⟨""⟩ "a" {}))).react parse (.command (.openSession "s" "d"))

/-- The workspace after a point was written in the session of `begun`. -/
def Workspace.begunWith : Workspace Memory :=
  (begun parse).react parse (.command (.write "s" "cpu host=a" 5 value))

theorem Reached.begun : Reached parse (.begun parse) fun _ => [] := by
  have hfits : (Workspace.begun parse).world.engine.Fits := by
    refine Memory.fits_of_values fun s hs => ?_
    obtain rfl := List.mem_singleton.mp hs
    decide
  have hstart : Reached parse _ _ := .start ⟨Table.empty.put ["a.akumuli"] (.file "")⟩
  have hopened := hstart.step (.command (.openDatabase "d" ⟨""⟩ "a" {})) ⟨rfl, by decide⟩ trivial
    hfits
  exact hopened.step (.command (.openSession "s" "d")) rfl trivial hfits

theorem Series.normalize_cpu : Series.normalize "cpu host=a" = some "cpu host=a" :=
  normalize_of_words "cpu".toList "host=a".toList ⟨"host", "a"⟩ rfl rfl

theorem Workspace.begunWith_session :
    (begunWith parse value).sessions.find? "s" = some ⟨"d", some 2, {}⟩ := rfl

theorem Workspace.begunWith_file : (begunWith parse value).file? "s" = some ["a.akumuli"] := rfl

/-- The engine after the first point was written. -/
def Workspace.begunEngine (name : String) : Memory :=
  (begun parse).world.engine.withStore ["a.akumuli"] (.ofSeries [name] [⟨1, 5, value⟩])

/-- A `write` of a series with a short name succeeds. -/
theorem Workspace.write_begun {series name : String}
    (hlength : series.utf8ByteSize ≤ Series.maxNameBytes)
    (hname : Series.normalize series = some name) :
    ∃ w, (⟨some 2, {}⟩ : Session).write (Memory.engine parse) series 5 value
        (begun parse).world = (.ok (), w) ∧ w.engine = begunEngine parse value name := by
  have hserves : (begun parse).world.engine.Serves 2 ["a.akumuli"] .empty := ⟨rfl, rfl⟩
  have hone : 1 < UInt64.size := by decide
  obtain ⟨w, hwrite, hbecomes⟩ := @Session.write_of_idle parse 2 ["a.akumuli"] .empty
    (begun parse).world ⟨some 2, {}⟩ _ _ 5 value rfl rfl hserves rfl hlength hname hone
  exact ⟨w, hwrite, hbecomes.engine⟩

theorem Workspace.fits_begunEngine (name : String) : (begunEngine parse value name).Fits := by
  refine Memory.fits_of_values fun s hs => ?_
  obtain rfl := List.mem_singleton.mp hs
  have hone : 1 < UInt64.size := by decide
  exact hone

theorem Workspace.begunWith_engine :
    (begunWith parse value).world.engine = begunEngine parse value "cpu host=a" := by
  obtain ⟨w, hwrite, hengine⟩ := write_begun parse value (by decide) Series.normalize_cpu
  exact (congrArg (fun result => result.2.engine) hwrite).trans hengine

theorem Workspace.begunWith_serves :
    (begunWith parse value).world.engine.Serves 2 ["a.akumuli"]
      (.ofSeries ["cpu host=a"] [⟨1, 5, value⟩]) := by
  have hserves : (begun parse).world.engine.Serves 2 ["a.akumuli"] .empty := ⟨rfl, rfl⟩
  rw [begunWith_engine]
  exact hserves.withStore _

/-- The point that was written in `begunWith` is in the history and in the store. -/
theorem Reached.begunWith : ∃ H, Reached parse (.begunWith parse value) H ∧
    H ["a.akumuli"] = [⟨"cpu host=a", 5, value⟩] ∧
    (Workspace.begunWith parse value).world.engine.store? 2 =
      some (.ofSeries ["cpu host=a"] [⟨1, 5, value⟩]) := by
  obtain ⟨w, hwrite, -⟩ := Workspace.write_begun parse value (by decide) Series.normalize_cpu
  have hfits : (Workspace.begunWith parse value).world.engine.Fits := by
    rw [Workspace.begunWith_engine]
    exact Workspace.fits_begunEngine parse value _
  refine ⟨_, (Reached.begun parse).step (.command (.write "s" "cpu host=a" 5 value)) trivial
    trivial hfits, ?_, (Workspace.begunWith_serves parse value).store?_eq⟩
  refine (congrArg (fun result => Session.written "cpu host=a" 5 value result.1) hwrite).trans ?_
  dsimp only
  rw [Session.written, Series.normalize_cpu]
  rfl

end Begun

end TimeSeries
