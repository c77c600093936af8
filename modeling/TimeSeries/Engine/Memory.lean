import TimeSeries.Engine.Interface
import TimeSeries.Series.Canonical
import TimeSeries.Store.Answer

/-!
# The engine in memory

An engine that keeps one store for each database file, for as long as it runs. The
file itself only marks that the database exists. A query is answered when it
begins: its cursor holds the records from then on and hands out as many whole
records at a time as fit.

For trying out callers the engine can be made to misbehave: to be busy, to take its
time, to give short reads, to forget names, to fail cursors and to hand out arbitrary
bytes.
-/

namespace TimeSeries

/-- **Feed** of a cursor: the records it has yet to give. -/
structure Feed : Type where
  /-- the bytes of the records, in order -/
  records : List Bytes := []
  /-- what the cursor failed with -/
  error : Option Status := none
  deriving DecidableEq, Repr

/-- **State of the engine in memory.** -/
structure Memory : Type where
  /-- the last handle that was given out -/
  lastHandle : Handle := 0
  /-- the store of each file that was opened -/
  stores : Table FileKey Store := {}
  /-- open databases and their files -/
  databases : Table Handle FileKey := {}
  /-- open sessions and their databases -/
  sessions : Table Handle Handle := {}
  /-- open cursors -/
  cursors : Table Handle Feed := {}
  /-- how many writes are still to be refused as busy -/
  busyWrites : Nat := 0
  /-- the most bytes a read gives -/
  chunkLimit : Option Nat := none
  /-- names that can't be looked up by id -/
  forgotten : List String := []
  /-- bytes that the next queries give instead of an answer -/
  rawResults : List Bytes := []
  deriving DecidableEq, Repr

namespace Memory

/-! ### Sessions and stores -/

/-- The file that a session works on. -/
def sessionFile? (m : Memory) (session : Handle) : Option FileKey :=
  (m.sessions.find? session).bind m.databases.find?

/-- The store that a session works on. -/
def store? (m : Memory) (session : Handle) : Option Store :=
  (m.sessionFile? session).bind m.stores.find?

/-- Puts a store in place of the one a session works on. -/
def setStore (m : Memory) (session : Handle) (s : Store) : Memory :=
  match m.sessionFile? session with
  | some file => { m with stores := m.stores.put file s }
  | none => m

/-- The next handle. -/
def nextHandle (m : Memory) : Handle := m.lastHandle + 1

/-! ### Databases -/

/-- What the file of a database says. -/
def marker (v : VolumeSettings) : String :=
  s!"volumes={v.volumes}\nvolume_size={v.volumeSize}\nallocate={v.allocate}\n"

/-- Creates the file of a database, unless there is something in its place. -/
def createDatabase (name : String) (directory : Path) (v : VolumeSettings)
    (w : World Memory) : Status × World Memory :=
  let file := databasePath directory name
  if w.files.has file then
    (.general, w.note .error ("Database " ++ file.text ++ " already exists"))
  else
    match w.files.writeFile file (marker v) with
    | .ok files => (.success, { w with files }.note .info ("Created database " ++ file.text))
    | .error fault =>
      (.io, w.note .error ("Can't create " ++ file.text ++ ": " ++ fault.text))

/-- Removes the file of a database that is not open, and its store. -/
def removeDatabase (file : Path) (w : World Memory) : Status × World Memory :=
  if w.engine.databases.values.contains file.key then (.busy, w)
  else if !w.files.has file then (.notFound, w)
  else
    match w.files.removeFile file with
    | .error _ => (.io, w)
    | .ok files =>
      let engine := { w.engine with stores := w.engine.stores.erase file.key }
      (.success, { w with files, engine }.note .info ("Removed database " ++ file.text))

/-- What is noted about an opened database. -/
def openedNotice (file : Path) : Option (LogSettings × Path) → String
  | some (log, directory) =>
    s!"Opened {file.text} with WAL at {directory.text} ({log.volumes} volumes of " ++
      s!"{log.volumeSize} bytes)"
  | none => s!"Opened {file.text} without WAL"

/-- Opens the database of a file that exists. Its store begins empty. -/
def openDatabase (file : Path) (log : Option (LogSettings × Path)) (w : World Memory) :
    Except Status Handle × World Memory :=
  if !w.files.has file then (.error .notFound, w)
  else
    let m := w.engine
    let stores := if m.stores.has file.key then m.stores else m.stores.put file.key .empty
    let engine :=
      { m with
        lastHandle := m.nextHandle
        stores
        databases := m.databases.put m.nextHandle file.key }
    (.ok m.nextHandle, { w with engine }.note .info (openedNotice file log))

/-- Closes a database together with its sessions. -/
def closeDatabase (m : Memory) (database : Handle) : Memory :=
  if m.databases.has database then
    { m with
      databases := m.databases.erase database
      sessions := m.sessions.keep fun owner => owner ≠ database }
  else m

/-! ### Sessions -/

/-- Begins a session on an open database. -/
def createSession (m : Memory) (database : Handle) : Except Status Handle × Memory :=
  if m.databases.has database then
    (.ok m.nextHandle,
      { m with
        lastHandle := m.nextHandle
        sessions := m.sessions.put m.nextHandle database })
  else (.error .closed, m)

/-- Ends a session. -/
def destroySession (m : Memory) (session : Handle) : Memory :=
  { m with sessions := m.sessions.erase session }

/-- The id of a series; its canonical name is registered and listed. -/
def seriesToId (m : Memory) (session : Handle) (series : String) :
    Except Status SeriesId × Memory :=
  match Series.normalize series with
  | none => (.error .badData, m)
  | some name =>
    match m.store? session with
    | none => (.error .closed, m)
    | some s =>
      let (id, s) := s.enlist name
      (.ok id, m.setStore session s)

/-- The name of a series, unless it is forgotten. -/
def idToSeries (m : Memory) (session : Handle) (id : SeriesId) : Option String :=
  ((m.store? session).bind fun s => s.name? id).filter fun name => !m.forgotten.contains name

/-- Writes a point to a series that is known. -/
def write (m : Memory) (session : Handle) (p : Point) : Status × Memory :=
  match m.busyWrites with
  | left + 1 => (.busy, { m with busyWrites := left })
  | 0 =>
    match m.store? session with
    | none => (.closed, m)
    | some s =>
      match s.append? p with
      | none => (.badArg, m)
      | some s => (.success, m.setStore session s)

/-! ### Cursors -/

/-- The result of a query: waiting bytes if there are any, else the answer of the
session's store to the document that the text is parsed as. -/
def result (parse : String → Option Json) (m : Memory) (session : Handle) (text : String) :
    Except Status (List Bytes) × Memory :=
  match m.rawResults with
  | bytes :: rest => (.ok [bytes], { m with rawResults := rest })
  | [] =>
    match m.store? session with
    | none => (.error .closed, m)
    | some s =>
      let (records, s) := s.query (parse text)
      (records.map (·.map Record.encode), m.setStore session s)

/-- Begins a query. It gets a cursor in any case. -/
def query (parse : String → Option Json) (session : Handle) (text : String)
    (w : World Memory) : Handle × World Memory :=
  let cursor := w.engine.nextHandle
  match w.engine.result parse session text with
  | (.ok records, m) =>
    let engine := { m with lastHandle := cursor, cursors := m.cursors.put cursor { records } }
    (cursor, { w with engine })
  | (.error status, m) =>
    let engine :=
      { m with lastHandle := cursor, cursors := m.cursors.put cursor { error := some status } }
    (cursor,
      { w with engine }.note .error ("Query failed with " ++ status.text ++ ": " ++ text))

/-- **Takes whole records** from the front of a queue, as many as fit. Gives their
bytes and the records that are left. -/
def takeWhole : (room : Nat) → List Bytes → Bytes × List Bytes
  | _, [] => ([], [])
  | room, record :: rest =>
    if record.length ≤ room then
      let (bytes, left) := takeWhole (room - record.length) rest
      (record ++ bytes, left)
    else ([], record :: rest)

/-- What a feed gives into some room. That not even its first record fits is an
error. -/
def Feed.read (f : Feed) (room : Nat) : Bytes × Feed :=
  match f.error with
  | some _ => ([], f)
  | none =>
    let (bytes, left) := takeWhole room f.records
    (bytes,
      { records := left, error := if bytes.isEmpty && !left.isEmpty then some .overflow else none })

/-- The room that a read has: the buffer, or the limit if that is less. -/
def room (m : Memory) (capacity : Nat) : Nat :=
  match m.chunkLimit with
  | some limit => min limit capacity
  | none => capacity

/-- Reads from a cursor. -/
def cursorRead (m : Memory) (cursor : Handle) (capacity : Nat) : Delivery × Memory :=
  match m.cursors.find? cursor with
  | none => (⟨[], 0⟩, m)
  | some feed =>
    let (bytes, feed) := Feed.read feed (m.room capacity)
    (⟨bytes, bytes.length⟩, { m with cursors := m.cursors.put cursor feed })

/-- Whether a cursor has nothing more to give, because it failed or is at its end.
So has one that is not open. -/
def cursorIsDone (m : Memory) (cursor : Handle) : Bool :=
  match m.cursors.find? cursor with
  | some feed => feed.error.isSome || feed.records.isEmpty
  | none => true

/-- What a cursor failed with. One that is not open can't be found. -/
def cursorError (m : Memory) (cursor : Handle) : Option Status :=
  match m.cursors.find? cursor with
  | some feed => feed.error
  | none => some .notFound

/-- Closes a cursor. -/
def cursorClose (m : Memory) (cursor : Handle) : Memory :=
  { m with cursors := m.cursors.erase cursor }

/-! ### The engine -/

/-- Lifts a change of the engine's state to the world. -/
def onEngine {α : Type} (w : World Memory) (r : α × Memory) : α × World Memory :=
  (r.1, { w with engine := r.2 })

/-- Answers a call. -/
def answer (parse : String → Option Json) (call : Call) (w : World Memory) :
    call.Reply × World Memory :=
  match call with
  | .createDatabase name directory v => createDatabase name directory v w
  | .removeDatabase file => removeDatabase file w
  | .openDatabase file log => openDatabase file log w
  | .closeDatabase database => onEngine w ((), w.engine.closeDatabase database)
  | .createSession database => onEngine w (w.engine.createSession database)
  | .destroySession session => onEngine w ((), w.engine.destroySession session)
  | .seriesToId session series => onEngine w (w.engine.seriesToId session series)
  | .idToSeries session id => (w.engine.idToSeries session id, w)
  | .write session id ts value => onEngine w (w.engine.write session ⟨id, ts, value⟩)
  | .query session text => query parse session text w
  | .cursorRead cursor capacity => onEngine w (w.engine.cursorRead cursor capacity)
  | .cursorIsDone cursor => (w.engine.cursorIsDone cursor, w)
  | .cursorError cursor => (w.engine.cursorError cursor, w)
  | .cursorClose cursor => onEngine w ((), w.engine.cursorClose cursor)

/-- Only so many writes are refused as busy, and every read that gives something
takes a record off a feed. -/
def patience (w : World Memory) : Nat :=
  w.engine.busyWrites + (w.engine.cursors.values.map fun f => f.records.length).foldr (· + ·) 0

/-- **The engine in memory**, with a given reader of query texts. -/
def engine (parse : String → Option Json) : Engine Memory :=
  { answer := answer parse, patience }

/-! ### Misbehaviour -/

/-- **Disturbance**: something the engine is made to do wrong from outside. -/
inductive Disturbance : Type where
  /-- refuse this many writes as busy -/
  | busyWrites (count : Nat)
  /-- take these nanoseconds over the attempts at a write -/
  | delays (nanos : List Nat)
  /-- give no more than this many bytes at a read -/
  | chunkLimit (limit : Option Nat)
  /-- forget the name of a series -/
  | forgetSeries (series : String)
  /-- fail every open cursor -/
  | failCursors (status : Status)
  /-- give these bytes as the result of a query to come -/
  | rawResult (bytes : Bytes)
  /-- report a panic, with a notice of its own -/
  | raisePanic (message : String)
  deriving DecidableEq, Repr

/-- Forgets a series, by its canonical name if it has one. -/
def forget (m : Memory) (series : String) : Memory :=
  { m with forgotten := (Series.normalize series).getD series :: m.forgotten }

/-- **Disturbs** the engine. This is not a call. -/
def disturb (w : World Memory) : Disturbance → World Memory
  | .busyWrites count => { w with engine := { w.engine with busyWrites := count } }
  | .delays nanos => { w with delays := nanos }
  | .chunkLimit limit => { w with engine := { w.engine with chunkLimit := limit } }
  | .forgetSeries series => { w with engine := w.engine.forget series }
  | .failCursors status =>
    let cursors := w.engine.cursors.mapValues fun f => { f with error := some status }
    { w with engine := { w.engine with cursors } }
  | .rawResult bytes =>
    { w with engine := { w.engine with rawResults := w.engine.rawResults ++ [bytes] } }
  | .raisePanic message => (w.note .error message).reportPanic message

end Memory

end TimeSeries
