import TimeSeries.Engine.Interface

/-!
# The scripted engine

An engine without databases. It answers each sort of call from a list of prepared
cues, in order, and with a default once they are used up. A cue may report a panic
before it answers. Handles are given out in order, across databases, sessions and
cursors, and only when a call succeeds.
-/

namespace TimeSeries

/-- **Cue**: a prepared answer. -/
structure Cue (α : Type) : Type where
  /-- a panic that is reported first -/
  panic : Option String := none
  /-- the answer -/
  answer : α
  deriving Repr

/-- **State of the scripted engine**: the last handle and the cues that are left. -/
structure Scripted : Type where
  /-- the last handle that was given out -/
  lastHandle : Handle := 0
  /-- the series there are -/
  names : List (SeriesId × String) := []
  /-- cues for creating databases -/
  createDatabase : List (Cue Status) := []
  /-- cues for removing databases -/
  removeDatabase : List (Cue Status) := []
  /-- cues for opening databases -/
  openDatabase : List (Cue Status) := []
  /-- cues for closing databases -/
  closeDatabase : List (Cue Unit) := []
  /-- cues for sessions -/
  createSession : List (Cue Status) := []
  /-- cues for ending sessions -/
  destroySession : List (Cue Unit) := []
  /-- cues for ids -/
  seriesToId : List (Cue (Except Status SeriesId)) := []
  /-- cues for names -/
  idToSeries : List (Cue Unit) := []
  /-- cues for writes -/
  write : List (Cue Status) := []
  /-- cues for queries -/
  query : List (Cue Unit) := []
  /-- cues for reads: bytes, and the number to give if it is not theirs -/
  cursorRead : List (Cue (Bytes × Option Nat)) := []
  /-- cues for the end of cursors; a cue without answer leaves it to the default -/
  cursorIsDone : List (Cue (Option Bool)) := []
  /-- cues for errors of cursors -/
  cursorError : List (Cue Status) := []
  /-- cues for closing cursors -/
  cursorClose : List (Cue Unit) := []

namespace Scripted

/-- **Plays a cue**: the first of some cues is taken away, its panic reported and its
answer given. -/
def play {α : Type} (cues : List (Cue α)) (rest : List (Cue α) → Scripted)
    (w : World Scripted) : Option α × World Scripted :=
  match cues with
  | [] => (none, w)
  | cue :: cues =>
    let w := { w with engine := rest cues }
    (some cue.answer, match cue.panic with
      | some message => w.reportPanic message
      | none => w)

/-- Gives out the next handle. -/
def issue (w : World Scripted) : Handle × World Scripted :=
  let handle := w.engine.lastHandle + 1
  (handle, { w with engine := { w.engine with lastHandle := handle } })

/-- Gives out a handle if a status is a success; no cue means success. -/
def issueIf (status : Option Status) (w : World Scripted) :
    Except Status Handle × World Scripted :=
  match status with
  | none | some .success => let (handle, w) := issue w; (.ok handle, w)
  | some status => (.error status, w)

/-- The delivery of a read into a buffer. -/
def deliver (capacity : Nat) : Option (Bytes × Option Nat) → Delivery
  | none => ⟨[], 0⟩
  | some (bytes, count) =>
    let bytes := bytes.take capacity
    ⟨bytes, count.getD bytes.length⟩

/-- Answers a call. -/
def answer (call : Call) (w : World Scripted) : call.Reply × World Scripted :=
  let e := w.engine
  match call with
  | .createDatabase .. =>
    let (status, w) := play e.createDatabase (fun cues => { e with createDatabase := cues }) w
    (status.getD .success, w)
  | .removeDatabase _ =>
    let (status, w) := play e.removeDatabase (fun cues => { e with removeDatabase := cues }) w
    (status.getD .success, w)
  | .openDatabase .. =>
    let (status, w) := play e.openDatabase (fun cues => { e with openDatabase := cues }) w
    issueIf status w
  | .closeDatabase _ =>
    let (_, w) := play e.closeDatabase (fun cues => { e with closeDatabase := cues }) w
    ((), w)
  | .createSession _ =>
    let (status, w) := play e.createSession (fun cues => { e with createSession := cues }) w
    issueIf status w
  | .destroySession _ =>
    let (_, w) := play e.destroySession (fun cues => { e with destroySession := cues }) w
    ((), w)
  | .seriesToId .. =>
    let (id, w) := play e.seriesToId (fun cues => { e with seriesToId := cues }) w
    (id.getD (.ok 1), w)
  | .idToSeries _ id =>
    let (_, w) := play e.idToSeries (fun cues => { e with idToSeries := cues }) w
    (e.names.lookup id, w)
  | .write .. =>
    let (status, w) := play e.write (fun cues => { e with write := cues }) w
    (status.getD .success, w)
  | .query .. =>
    let (_, w) := play e.query (fun cues => { e with query := cues }) w
    issue w
  | .cursorRead _ capacity =>
    let (cue, w) := play e.cursorRead (fun cues => { e with cursorRead := cues }) w
    (deliver capacity cue, w)
  | .cursorIsDone _ =>
    let (done, w) := play e.cursorIsDone (fun cues => { e with cursorIsDone := cues }) w
    (done.join.getD e.cursorRead.isEmpty, w)
  | .cursorError _ =>
    let (status, w) := play e.cursorError (fun cues => { e with cursorError := cues }) w
    (status.filter (· ≠ .success), w)
  | .cursorClose _ =>
    let (_, w) := play e.cursorClose (fun cues => { e with cursorClose := cues }) w
    ((), w)

/-- A caller is put off by a cue, or once more before a read for which there is
one. -/
def patience (w : World Scripted) : Nat :=
  w.engine.write.length + w.engine.cursorRead.length + w.engine.cursorIsDone.length

/-- **The scripted engine.** -/
def engine : Engine Scripted := { answer, patience }

end Scripted

end TimeSeries
