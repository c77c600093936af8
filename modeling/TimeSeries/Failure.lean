import TimeSeries.Files
import TimeSeries.Query.Document
import TimeSeries.Sample.Decode
import TimeSeries.Settings
import TimeSeries.Status

/-!
# Failures

Everything an operation on databases, sessions and cursors can fail with, by
cause, and the text that reports it.
-/

namespace TimeSeries

/-- **Failure** of an operation. -/
inductive Failure : Type where
  /-- the engine reported a panic; nothing works from then on -/
  | panicked (message : String)
  /-- the engine ended a call with a status other than success -/
  | engine (status : Status)
  /-- the engine does not take this name for a series -/
  | invalidSeries (series : String) (status : Status)
  /-- the engine has no name for a series id -/
  | unresolvedSeries (id : SeriesId)
  /-- a record does not fit the bytes it is in -/
  | corruptRecord (offset : Nat) (fault : RecordFault)
  /-- the engine was busy at every attempt to write -/
  | writeBusy (attempts : Nat)
  /-- settings are out of range -/
  | settings (fault : SettingsFault)
  /-- a time has no timestamp -/
  | timeOutOfRange (time : Instant)
  /-- a query can't be built -/
  | query (fault : QueryFault)
  /-- there is no database file at a path -/
  | databaseNotFound (file : Path)
  /-- the handle was closed before -/
  | closed
  /-- a sum of machine words is no word; the program stops -/
  | overflow
  deriving DecidableEq, Repr

namespace Failure

/-- **Text of a failure.** -/
def message : Failure → String
  | panicked message => "Engine panic: " ++ message
  | engine status => "Engine error: " ++ status.text
  | invalidSeries series status =>
    "Invalid series " ++ Text.quoted series ++ ": " ++ status.text
  | unresolvedSeries id => s!"Series id {id.toNat} could not be resolved to a name"
  | corruptRecord offset fault => s!"Corrupt record at offset {offset}: " ++ fault.text
  | writeBusy attempts => s!"Engine busy after {attempts} write attempts"
  | settings fault => "Invalid configuration: " ++ fault.text
  | timeOutOfRange time => "Time " ++ time.text ++ " is out of the timestamp range"
  | query fault => "Invalid query: " ++ fault.text
  | databaseNotFound file => "Database not found: " ++ file.text
  | closed => "Handle is closed"
  | overflow => "attempt to add with overflow"

/-- Whether the failure is that the engine panicked. -/
def isPanic : Failure → Bool
  | panicked _ => true
  | _ => false

/-- The failure that a fault of a draft amounts to. -/
def ofDraft : DraftFault → Failure
  | .outOfRange time => timeOutOfRange time
  | .query fault => query fault

end Failure

/-! ### Decoding from a position -/

/-- Reads the header at a position. Behind the last byte there is nothing. -/
def Header.parseAt (bytes : Bytes) (offset : Nat) : Except Failure Header :=
  (Header.parse (bytes.drop offset)).mapError (.corruptRecord offset)

/-- **Decodes the record at a position**, and gives the row and the length of the
record. -/
def decodeAt (bytes : Bytes) (offset : Nat) (resolve : SeriesId → Option String) :
    Except Failure (Row × Nat) :=
  match Header.parseAt bytes offset with
  | .error failure => .error failure
  | .ok header =>
    match header.decodeRow (bytes.drop offset) resolve with
    | .error id => .error (.unresolvedSeries id)
    | .ok row => .ok (row, header.length)

/-- **Walks a stream of records** from a position on, to its end or to the first
failure. Gives the rows, the failure that ended the walk and the position behind
the last good record. Records have at least one byte, so `fuel` for each byte is
enough. -/
def walkStream (bytes : Bytes) (resolve : SeriesId → Option String) :
    (fuel : Nat) → (offset : Nat) → List Row × Option Failure × Nat
  | 0, offset => ([], none, offset)
  | fuel + 1, offset =>
    if bytes.length ≤ offset then ([], none, offset)
    else
      match decodeAt bytes offset resolve with
      | .error failure => ([], some failure, offset)
      | .ok (row, length) =>
        let (rows, failure, stop) := walkStream bytes resolve fuel (offset + length)
        (row :: rows, failure, stop)

/-- The rows of a stream of records, read from its beginning. -/
def decodeStream (bytes : Bytes) (resolve : SeriesId → Option String) :
    List Row × Option Failure × Nat :=
  walkStream bytes resolve (bytes.length + 1) 0

end TimeSeries
