import TimeSeries.Client.Database

/-!
# Workspaces: labelled handles

A workspace holds everything a caller has opened under labels of its own choice, next
to the world it works in. Commands name databases, sessions and cursors by label. A
workspace keeps one rule: a database outlives its sessions and a session its cursors,
so what still has something depending on it can be neither closed nor dropped.
-/

namespace TimeSeries

/-- **Label** of a database, a session or a cursor. -/
abbrev Label : Type := String

/-- **Reader** of a result: a cursor over rows or over names. -/
inductive Reader : Type where
  /-- a cursor over rows -/
  | rows (cursor : Cursor)
  /-- a cursor over names -/
  | names (cursor : NameCursor)
  deriving DecidableEq, Repr

/-- Something opened from something else. -/
structure Child (α : Type) : Type where
  /-- the label of what it was opened from -/
  parent : Label
  /-- what was opened -/
  it : α
  deriving DecidableEq, Repr

/-- **Workspace.** -/
structure Workspace (σ : Type) : Type where
  /-- the world -/
  world : World σ
  /-- databases that were not dropped -/
  databases : Table Label Database := {}
  /-- sessions that were not dropped -/
  sessions : Table Label (Child Session) := {}
  /-- readers that were not dropped -/
  readers : Table Label (Child Reader) := {}

/-! ### Commands and answers -/

/-- **Source** of a cursor: what the engine is asked. -/
inductive Source : Type where
  /-- a text as it stands -/
  | text (written : String)
  /-- a query to be built, or why there is no subject to build one on -/
  | query (subject : Except QueryFault Subject) (refinements : List Refinement)
  /-- a listing to be built, of everything or of a metric, perhaps with a tag -/
  | listing (restriction : Option (String × Option (String × List String)))
  deriving Repr

/-- **Command** to a workspace. -/
inductive Command : Type where
  /-- create a database -/
  | create (directory : Path) (name : String) (volumes : VolumeSettings)
  /-- open a database under a label -/
  | openDatabase (label : Label) (directory : Path) (name : String) (settings : OpenSettings)
  /-- remove a database -/
  | remove (directory : Path) (name : String)
  /-- begin a session under a label -/
  | openSession (label : Label) (database : Label)
  /-- close a database -/
  | closeDatabase (database : Label)
  /-- drop a database -/
  | dropDatabase (database : Label)
  /-- close a session -/
  | closeSession (session : Label)
  /-- drop a session -/
  | dropSession (session : Label)
  /-- write a point -/
  | write (session : Label) (series : String) (timestamp : Timestamp) (value : Double)
  /-- write a point at an instant -/
  | writeAt (session : Label) (series : String) (time : Instant) (value : Double)
  /-- write points, going on after failures -/
  | writeAll (session : Label) (points : List (String × Timestamp × Double))
  /-- read all rows of a query -/
  | rows (session : Label) (source : Source)
  /-- start a query under a label -/
  | openReader (label : Label) (session : Label) (source : Source)
  /-- read the next row or name -/
  | next (reader : Label)
  /-- take the next item -/
  | item (reader : Label)
  /-- ask whether everything has been read -/
  | done (reader : Label)
  /-- ask whether the engine reports no error -/
  | canProceed (reader : Label)
  /-- close a reader -/
  | closeReader (reader : Label)
  /-- ask whether a cursor over rows was closed -/
  | isClosed (reader : Label)
  /-- drop a reader -/
  | dropReader (reader : Label)
  /-- drop everything: readers, then sessions, then databases, in the order of their
  labels -/
  | dropAll
  deriving Repr

/-- **Answer** to a command. -/
inductive Answer : Type where
  /-- it was done -/
  | ok
  /-- it failed -/
  | failed (failure : Failure)
  /-- nothing goes by the label -/
  | noHandle
  /-- something still depends on what was to be closed or dropped -/
  | borrowed
  /-- the file of a new database -/
  | created (file : Path)
  /-- an opened database -/
  | opened (file : Path) (settings : OpenSettings)
  /-- the failures among some writes -/
  | writes (failures : List Failure)
  /-- all items of a result -/
  | items (items : List (Item Row))
  /-- the next row, or none for now -/
  | row (row : Option Row)
  /-- the next name, or none for now -/
  | name (name : Option String)
  /-- the next item of a cursor over rows, or none at its end -/
  | rowItem (item : Option (Item Row))
  /-- the next item of a cursor over names, or none at its end -/
  | nameItem (item : Option (Item String))
  /-- yes or no -/
  | flag (flag : Bool)
  deriving Repr

namespace Answer

/-- The answer to an operation that can fail. -/
def ofExcept {α : Type} (answer : α → Answer) : Except Failure α → Answer
  | .ok a => answer a
  | .error failure => failed failure

end Answer

namespace Source

/-- The listing of a source. -/
def buildListing : Option (String × Option (String × List String)) → Except QueryFault Listing
  | none => .ok Listing.all
  | some (metric, none) => Listing.ofMetric metric
  | some (metric, some (tag, values)) => Listing.ofMetricWithTag metric tag values

/-- **The text of a source**, if it can be built. -/
def render : Source → Except Failure String
  | .text written => .ok written
  | .query (.error fault) _ => .error (.query fault)
  | .query (.ok subject) refinements =>
    ((Query.build subject refinements).mapError Failure.ofDraft).map Query.text
  | .listing restriction => ((buildListing restriction).mapError Failure.query).map Listing.text

/-- Whether what is asked for are names. -/
def isListing : Source → Bool
  | .listing _ => true
  | _ => false

end Source

/-! ### Readers -/

namespace Reader

variable {σ : Type} (E : Engine σ)

/-- A reader for a source. -/
def ofCursor (source : Source) (c : Cursor) : Reader :=
  if source.isListing then names ⟨c⟩ else rows c

/-- Reads the next row or name. -/
def next (r : Reader) (w : World σ) : Answer × Reader × World σ :=
  match r with
  | rows c =>
    let (result, c, w) := c.nextRow E w
    (.ofExcept .row result, rows c, w)
  | names n =>
    let (result, n, w) := n.nextName E w
    (.ofExcept .name result, names n, w)

/-- Takes the next item. -/
def item (r : Reader) (w : World σ) : Answer × Reader × World σ :=
  match r with
  | rows c =>
    let (result, c, w) := c.next E w
    (.rowItem result, rows c, w)
  | names n =>
    let (result, n, w) := n.next E w
    (.nameItem result, names n, w)

/-- Asks whether everything has been read. -/
def done (r : Reader) (w : World σ) : Except Failure Bool × World σ :=
  match r with
  | rows c => c.done E w
  | names n => n.done E w

/-- Asks whether the engine reports no error. -/
def canProceed (r : Reader) (w : World σ) : Except Failure Bool × World σ :=
  match r with
  | rows c => c.canProceed E w
  | names n => n.canProceed E w

/-- Closes the reader. -/
def close (r : Reader) (w : World σ) : Except Failure Unit × Reader × World σ :=
  match r with
  | rows c =>
    let (result, c, w) := c.close E w
    (result, rows c, w)
  | names n =>
    let (result, n, w) := n.close E w
    (result, names n, w)

/-- Whether the reader was closed. -/
def isClosed : Reader → Bool
  | rows c => c.isClosed
  | names n => n.rows.isClosed

/-- Lets go of the reader. -/
def drop (r : Reader) (w : World σ) : World σ :=
  match r with
  | rows c => c.drop E w
  | names n => n.drop E w

end Reader

/-! ### Running commands -/

namespace Workspace

variable {σ : Type} (E : Engine σ)

/-- A workspace in which nothing is open. -/
def ofWorld (w : World σ) : Workspace σ := { world := w }

/-- Whether a database has sessions that were not dropped. -/
def databaseInUse (ws : Workspace σ) (label : Label) : Bool :=
  ws.sessions.values.any fun s => s.parent == label

/-- Whether a session has readers that were not dropped. -/
def sessionInUse (ws : Workspace σ) (label : Label) : Bool :=
  ws.readers.values.any fun r => r.parent == label

/-- Lets go of the database at a label, if there is one. -/
def dropDatabase (ws : Workspace σ) (label : Label) : Workspace σ :=
  match ws.databases.find? label with
  | some d => { ws with world := d.drop E ws.world, databases := ws.databases.erase label }
  | none => ws

/-- Lets go of the session at a label, if there is one. -/
def dropSession (ws : Workspace σ) (label : Label) : Workspace σ :=
  match ws.sessions.find? label with
  | some s => { ws with world := s.it.drop E ws.world, sessions := ws.sessions.erase label }
  | none => ws

/-- Lets go of the reader at a label, if there is one. -/
def dropReader (ws : Workspace σ) (label : Label) : Workspace σ :=
  match ws.readers.find? label with
  | some r => { ws with world := r.it.drop E ws.world, readers := ws.readers.erase label }
  | none => ws

/-- Labels in ascending order. -/
def sortLabels (labels : List Label) : List Label := labels.mergeSort fun a b => a ≤ b

/-- Lets go of everything that is open. -/
def dropAll (ws : Workspace σ) : Workspace σ :=
  let ws := (sortLabels ws.readers.keys).foldl (dropReader E) ws
  let ws := (sortLabels ws.sessions.keys).foldl (dropSession E) ws
  (sortLabels ws.databases.keys).foldl (dropDatabase E) ws

/-- Writes points in order and collects the failures. -/
def writeAll (s : Session) :
    List (String × Timestamp × Double) → World σ → List Failure × World σ
  | [], w => ([], w)
  | (series, timestamp, value) :: points, w =>
    let (result, w) := s.write E series timestamp value w
    let (failures, w) := writeAll s points w
    (match result with
      | .ok () => failures
      | .error failure => failure :: failures, w)

/-- Reads all rows of a query and lets go of the cursor. -/
def readAll (s : Session) (text : String) (w : World σ) : Answer × World σ :=
  match s.openCursor E text w with
  | (.error failure, w) => (.failed failure, w)
  | (.ok c, w) =>
    let (items, c, w) := c.items E w
    (.items items, c.drop E w)

/-- Does something with the session at a label that does not change it. -/
def withSession (ws : Workspace σ) (label : Label)
    (f : Session → World σ → Answer × World σ) : Answer × Workspace σ :=
  match ws.sessions.find? label with
  | none => (.noHandle, ws)
  | some s =>
    let (answer, world) := f s.it ws.world
    (answer, { ws with world })

/-- Does something with the reader at a label. -/
def withReader (ws : Workspace σ) (label : Label)
    (f : Reader → World σ → Answer × Reader × World σ) : Answer × Workspace σ :=
  match ws.readers.find? label with
  | none => (.noHandle, ws)
  | some r =>
    let (answer, reader, world) := f r.it ws.world
    (answer, { ws with world, readers := ws.readers.put label { r with it := reader } })

/-- Begins a session under a label. -/
def openSession (ws : Workspace σ) (label database : Label) : Answer × Workspace σ :=
  match ws.databases.find? database with
  | none => (.noHandle, ws)
  | some d =>
    match d.session E ws.world with
    | (.error failure, world) => (.failed failure, { ws with world })
    | (.ok session, world) =>
      let ws := dropSession E { ws with world } label
      (.ok, { ws with sessions := ws.sessions.put label ⟨database, session⟩ })

/-- Starts a query under a label. -/
def openReader (ws : Workspace σ) (label session : Label) (source : Source) :
    Answer × Workspace σ :=
  match ws.sessions.find? session with
  | none => (.noHandle, ws)
  | some s =>
    match source.render with
    | .error failure => (.failed failure, ws)
    | .ok text =>
      match s.it.openCursor E text ws.world with
      | (.error failure, world) => (.failed failure, { ws with world })
      | (.ok c, world) =>
        let ws := dropReader E { ws with world } label
        (.ok, { ws with readers := ws.readers.put label ⟨session, .ofCursor source c⟩ })

/-- **Runs a command.** -/
def run (ws : Workspace σ) : Command → Answer × Workspace σ
  | .create directory name volumes =>
    let (result, world) := Database.create E directory name volumes ws.world
    (.ofExcept .created result, { ws with world })
  | .openDatabase label directory name settings =>
    match Database.openAt E directory name settings ws.world with
    | (.error failure, world) => (.failed failure, { ws with world })
    | (.ok d, world) =>
      let ws := dropDatabase E { ws with world } label
      (.opened d.file d.settings, { ws with databases := ws.databases.put label d })
  | .remove directory name =>
    let (result, world) := Database.remove E directory name ws.world
    (.ofExcept (fun () => .ok) result, { ws with world })
  | .openSession label database => ws.openSession E label database
  | .closeDatabase label =>
    match ws.databases.find? label with
    | none => (.noHandle, ws)
    | some d =>
      if ws.databaseInUse label then (.borrowed, ws)
      else
        let (result, d, world) := d.close E ws.world
        (.ofExcept (fun () => .ok) result,
          { ws with world, databases := ws.databases.put label d })
  | .dropDatabase label =>
    if !ws.databases.has label then (.noHandle, ws)
    else if ws.databaseInUse label then (.borrowed, ws)
    else (.ok, ws.dropDatabase E label)
  | .closeSession label =>
    match ws.sessions.find? label with
    | none => (.noHandle, ws)
    | some s =>
      if ws.sessionInUse label then (.borrowed, ws)
      else
        let (result, session, world) := s.it.close E ws.world
        (.ofExcept (fun () => .ok) result,
          { ws with world, sessions := ws.sessions.put label { s with it := session } })
  | .dropSession label =>
    if !ws.sessions.has label then (.noHandle, ws)
    else if ws.sessionInUse label then (.borrowed, ws)
    else (.ok, ws.dropSession E label)
  | .write label series timestamp value =>
    ws.withSession label fun s w =>
      let (result, w) := s.write E series timestamp value w
      (.ofExcept (fun () => .ok) result, w)
  | .writeAt label series time value =>
    ws.withSession label fun s w =>
      let (result, w) := s.writeAt E series time value w
      (.ofExcept (fun () => .ok) result, w)
  | .writeAll label points =>
    ws.withSession label fun s w =>
      let (failures, w) := writeAll E s points w
      (.writes failures, w)
  | .rows label source =>
    ws.withSession label fun s w =>
      match source.render with
      | .error failure => (.failed failure, w)
      | .ok text => readAll E s text w
  | .openReader label session source => ws.openReader E label session source
  | .next label => ws.withReader label (Reader.next E)
  | .item label => ws.withReader label (Reader.item E)
  | .done label =>
    ws.withReader label fun r w =>
      let (result, w) := r.done E w
      (.ofExcept .flag result, r, w)
  | .canProceed label =>
    ws.withReader label fun r w =>
      let (result, w) := r.canProceed E w
      (.ofExcept .flag result, r, w)
  | .closeReader label =>
    ws.withReader label fun r w =>
      let (result, r, w) := r.close E w
      (.ofExcept (fun () => .ok) result, r, w)
  | .isClosed label => ws.withReader label fun r w => (.flag r.isClosed, r, w)
  | .dropReader label =>
    if ws.readers.has label then (.ok, ws.dropReader E label) else (.noHandle, ws)
  | .dropAll => (.ok, ws.dropAll E)

end Workspace

end TimeSeries
