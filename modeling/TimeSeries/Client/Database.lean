import TimeSeries.Cursor.Names
import TimeSeries.Series.Canonical
import TimeSeries.Store.Basic

/-!
# Databases and sessions

A caller creates, opens and removes databases by directory and name, begins sessions
on open databases, and writes points and starts queries in sessions. Every operation
asks for a panic first and then checks its arguments before it calls the engine.
Closing is done once: a handle is given up when it is closed, and what works on a
handle that was given up fails or does nothing.
-/

namespace TimeSeries

variable {σ : Type} (E : Engine σ)

/-! ### Checks -/

/-- A name may be neither blank nor hold a path separator. -/
def checkName (name : String) : Except Failure Unit :=
  if Text.isBlankText name || name.toList.any fun c => c == '/' || c == '\\' then
    .error (.settings (.badName name))
  else .ok ()

/-- A status other than success is a failure. -/
def checkStatus (status : Status) : Except Failure Unit :=
  if status = .success then .ok () else .error (.engine status)

/-! ### Databases -/

/-- **Database** that a caller opened. -/
structure Database : Type where
  /-- the engine's handle, until it is closed -/
  handle : Option Handle
  /-- the file -/
  file : Path
  /-- the settings it was opened with -/
  settings : OpenSettings
  deriving DecidableEq, Repr

namespace Database

/-- **Creates** a database and gives its file. -/
def create (directory : Path) (name : String) (volumes : VolumeSettings) (w : World σ) :
    Except Failure Path × World σ :=
  let checked : Except Failure Unit := do
    w.check
    checkName name
    volumes.check.mapError .settings
  match checked with
  | .error failure => (.error failure, w)
  | .ok () =>
    let (status, w) := E.ask (.createDatabase name directory volumes) w
    ((checkStatus status).map fun () => databasePath directory name, w)

/-- A database has a file. -/
def checkFile (w : World σ) (file : Path) : Except Failure Unit :=
  if w.files.hasFile file then .ok () else .error (.databaseNotFound file)

/-- The log that is asked for: one without volumes is none. It is kept next to the
database. -/
def logFor (directory : Path) (settings : OpenSettings) : Option (LogSettings × Path) :=
  (settings.log.filter fun log => 0 < log.volumes).map fun log => (log, directory)

/-- **Opens** a database. -/
def openAt (directory : Path) (name : String) (settings : OpenSettings) (w : World σ) :
    Except Failure Database × World σ :=
  let file := databasePath directory name
  let checked : Except Failure Unit := do
    w.check
    checkName name
    settings.check.mapError .settings
    checkFile w file
  match checked with
  | .error failure => (.error failure, w)
  | .ok () =>
    match E.ask (.openDatabase file (logFor directory settings)) w with
    | (.error status, w) => (.error (.engine status), w)
    | (.ok handle, w) => (.ok ⟨some handle, file, settings⟩, w)

/-- **Removes** a database that is not open. -/
def remove (directory : Path) (name : String) (w : World σ) : Except Failure Unit × World σ :=
  let file := databasePath directory name
  let checked : Except Failure Unit := do
    w.check
    checkName name
    checkFile w file
  match checked with
  | .error failure => (.error failure, w)
  | .ok () =>
    let (status, w) := E.ask (.removeDatabase file) w
    (checkStatus status, w)

/-- **Closes** a database. Closing again does nothing. -/
def close (d : Database) (w : World σ) : Except Failure Unit × Database × World σ :=
  match w.check, d.handle with
  | .error failure, _ => (.error failure, d, w)
  | .ok (), none => (.ok (), d, w)
  | .ok (), some handle =>
    let ((), w) := E.ask (.closeDatabase handle) w
    (.ok (), { d with handle := none }, w)

/-- **Lets go** of a database. It is closed if it is open, but the engine is left
alone after a panic. -/
def drop (d : Database) (w : World σ) : World σ :=
  match d.handle with
  | some handle => if w.channel.hasPanic then w else (E.ask (.closeDatabase handle) w).2
  | none => w

end Database

/-! ### Sessions -/

/-- **Session** on a database. -/
structure Session : Type where
  /-- the engine's handle, until it is closed -/
  handle : Option Handle
  /-- the settings of the database -/
  settings : OpenSettings
  deriving DecidableEq, Repr

/-- A handle that was not given up. -/
def checkHandle (w : World σ) (handle : Option Handle) : Except Failure Handle :=
  match w.check, handle with
  | .error failure, _ => .error failure
  | .ok (), none => .error .closed
  | .ok (), some handle => .ok handle

/-- **Begins a session.** -/
def Database.session (d : Database) (w : World σ) : Except Failure Session × World σ :=
  match checkHandle w d.handle with
  | .error failure => (.error failure, w)
  | .ok database =>
    match E.ask (.createSession database) w with
    | (.error status, w) => (.error (.engine status), w)
    | (.ok handle, w) => (.ok ⟨some handle, d.settings⟩, w)

namespace Session

/-- The largest number of attempts that is counted. -/
def maxCount : Nat := UInt32.size - 1

/-- **Tries to write** a point until the engine takes it or the attempts or the time
run out. Between attempts it asks for a panic. `attempts` were made before and took
`elapsed` nanoseconds, and those to come take `delays`. -/
def attempt (retry : RetryPolicy) (session : Handle) (p : Point) :
    (fuel : Nat) → (attempts elapsed : Nat) → (delays : List Nat) → World σ →
      Except Failure Unit × World σ
  | 0, attempts, _, _, w => (.error (.writeBusy attempts), w)
  | fuel + 1, attempts, elapsed, delays, w =>
    let attempts := min (attempts + 1) maxCount
    let elapsed := elapsed + delays.headD 0
    match E.ask (.write session p.series p.timestamp p.value) w with
    | (.success, w) => (.ok (), w)
    | (.busy, w) =>
      if retry.exhausted attempts elapsed then (.error (.writeBusy attempts), w)
      else
        match w.check with
        | .error failure => (.error failure, w)
        | .ok () => attempt retry session p fuel attempts elapsed delays.tail w
    | (status, w) => (.error (.engine status), w)

/-- **Writes a point** of a series. -/
def write (s : Session) (series : String) (timestamp : Timestamp) (value : Double)
    (w : World σ) : Except Failure Unit × World σ :=
  match checkHandle w s.handle with
  | .error failure => (.error failure, w)
  | .ok session =>
    if Series.maxNameBytes < series.utf8ByteSize then
      (.error (.invalidSeries series .badArg), w)
    else
      match E.ask (.seriesToId session series) w with
      | (.error status, w) => (.error (.invalidSeries series status), w)
      | (.ok id, w) =>
        attempt E s.settings.retry session ⟨id, timestamp, value⟩ (E.patience w + 1) 0 0
          w.delays w

/-- **Writes a point at an instant.** Whether it has a timestamp is found out before
anything else. -/
def writeAt (s : Session) (series : String) (time : Instant) (value : Double) (w : World σ) :
    Except Failure Unit × World σ :=
  match time.timestamp? with
  | none => (.error (.timeOutOfRange time), w)
  | some timestamp => s.write E series timestamp value w

/-- **Starts a query** from its text. That it fails is the cursor's business. -/
def openCursor (s : Session) (text : String) (w : World σ) : Except Failure Cursor × World σ :=
  match checkHandle w s.handle with
  | .error failure => (.error failure, w)
  | .ok session =>
    let (handle, w) := E.ask (.query session text) w
    (.ok (.ofHandle session handle s.settings.buffer), w)

/-- Starts a query. -/
def query (s : Session) (q : Query) (w : World σ) : Except Failure Cursor × World σ :=
  s.openCursor E q.text w

/-- **Starts a listing.** -/
def listing (s : Session) (l : Listing) (w : World σ) : Except Failure NameCursor × World σ :=
  let (cursor, w) := s.openCursor E l.text w
  (cursor.map NameCursor.mk, w)

/-- **Closes** a session. Closing again does nothing. -/
def close (s : Session) (w : World σ) : Except Failure Unit × Session × World σ :=
  match w.check, s.handle with
  | .error failure, _ => (.error failure, s, w)
  | .ok (), none => (.ok (), s, w)
  | .ok (), some handle =>
    let ((), w) := E.ask (.destroySession handle) w
    (.ok (), { s with handle := none }, w)

/-- **Lets go** of a session. It is closed if it is open, but the engine is left
alone after a panic. -/
def drop (s : Session) (w : World σ) : World σ :=
  match s.handle with
  | some handle => if w.channel.hasPanic then w else (E.ask (.destroySession handle) w).2
  | none => w

end Session

end TimeSeries
