import TimeSeries.Channel
import TimeSeries.Failure

/-!
# Engines: calls and their replies

An engine keeps databases and answers calls. Everything a caller and an engine share makes up a
`World`: the engine's own state, the files, the channel the engine reports on, the calls made so
far, and how long the engine takes over writes. A `Call` names what is asked, and `Call.Reply` the
type of its answer, so an engine is one function from calls to replies that changes the world.

Handles for databases, sessions and cursors are numbers that an engine gives out;
a caller only hands them back. Calls that release a handle have no reply and put
up with handles that mean nothing.
-/

namespace TimeSeries

/-- **Handle** of a database, a session or a cursor. -/
abbrev Handle : Type := Nat

/-! ### Files of databases -/

/-- The ending of the name of a database file. -/
def databaseEnding : String := ".akumuli"

/-- The file of a database in a directory. -/
def databasePath (directory : Path) (name : String) : Path :=
  directory.join (name ++ databaseEnding)

/-! ### Calls -/

/-- **Call** of an engine. -/
inductive Call : Type where
  /-- create the file of a database in a directory -/
  | createDatabase (name : String) (directory : Path) (volumes : VolumeSettings)
  /-- remove the file of a database -/
  | removeDatabase (file : Path)
  /-- open the database of a file, with a log in some directory if one is wanted -/
  | openDatabase (file : Path) (log : Option (LogSettings × Path))
  /-- release a database -/
  | closeDatabase (database : Handle)
  /-- begin a session on a database -/
  | createSession (database : Handle)
  /-- release a session -/
  | destroySession (session : Handle)
  /-- look up the id of a series, which is registered if it is new -/
  | seriesToId (session : Handle) (series : String)
  /-- look up the name of a series -/
  | idToSeries (session : Handle) (id : SeriesId)
  /-- write a point -/
  | write (session : Handle) (id : SeriesId) (timestamp : Timestamp) (value : Double)
  /-- begin a query; that it failed is the cursor's business -/
  | query (session : Handle) (text : String)
  /-- fetch records into a buffer of some capacity -/
  | cursorRead (cursor : Handle) (capacity : Nat)
  /-- whether a cursor has nothing more to give -/
  | cursorIsDone (cursor : Handle)
  /-- what a cursor failed with -/
  | cursorError (cursor : Handle)
  /-- release a cursor -/
  | cursorClose (cursor : Handle)
  deriving DecidableEq, Repr

/-- **Delivery** of a read: bytes put at the front of the buffer, and how many bytes
the engine says there are. -/
structure Delivery : Type where
  /-- the bytes -/
  bytes : Bytes
  /-- the number the engine gives -/
  count : Nat
  deriving DecidableEq, Repr

/-- The type of the answer to a call. -/
abbrev Call.Reply : Call → Type
  | .createDatabase .. => Status
  | .removeDatabase .. => Status
  | .openDatabase .. => Except Status Handle
  | .closeDatabase .. => Unit
  | .createSession .. => Except Status Handle
  | .destroySession .. => Unit
  | .seriesToId .. => Except Status SeriesId
  | .idToSeries .. => Option String
  | .write .. => Status
  | .query .. => Handle
  | .cursorRead .. => Delivery
  | .cursorIsDone .. => Bool
  | .cursorError .. => Option Status
  | .cursorClose .. => Unit

/-! ### Worlds -/

/-- **World** of an engine with state `σ`. -/
structure World (σ : Type) : Type where
  /-- the engine's own state -/
  engine : σ
  /-- the files -/
  files : FileTree
  /-- what the engine reported on its own -/
  channel : Channel := {}
  /-- the calls made so far, latest first -/
  calls : List Call := []
  /-- the nanoseconds that one attempt after another at a write takes, from the first on;
  attempts beyond these take no time -/
  delays : List Nat := []

namespace World

variable {σ : Type}

/-- Notes something in the engine's log. -/
def note (w : World σ) (level : Level) (message : String) : World σ :=
  { w with channel := w.channel.note level message }

/-- Reports a panic. -/
def reportPanic (w : World σ) (message : String) : World σ :=
  { w with channel := w.channel.reportPanic message }

/-- **Panic check**, with which every operation begins. -/
def check (w : World σ) : Except Failure Unit :=
  match w.channel.panic with
  | some message => .error (.panicked message)
  | none => .ok ()

end World

/-! ### Engines -/

/-- **Engine** with state `σ`: how it answers calls. -/
structure Engine (σ : Type) : Type where
  /-- the reply to a call, and the world after it -/
  answer : (call : Call) → World σ → call.Reply × World σ
  /-- **Patience**: a bound on how often the engine can still put a caller off with
  a busy write or a read that brings it no further. Loops over calls use it to
  end. -/
  patience : World σ → Nat

/-- **Makes a call**: it is recorded and answered. -/
def Engine.ask {σ : Type} (E : Engine σ) (call : Call) (w : World σ) : call.Reply × World σ :=
  E.answer call { w with calls := call :: w.calls }

end TimeSeries
