import TimeSeries.Cursor.Buffer

/-!
# Cursors

A cursor pulls the rows of a query from an engine. It decodes records from its
buffer one at a time and fetches more when the buffer is used up. There are two
ways to read: `nextRow` gives one row, nothing for now, or a failure; `next` gives
the items of the whole result one after another and then nothing for ever.

A record that does not fit the bytes it is in spoils the cursor: there is no telling
where the next record begins. A series without a name only costs its row.
-/

namespace TimeSeries

/-- **Cursor** over the rows of a query. -/
structure Cursor : Type where
  /-- the session it was opened on -/
  session : Handle
  /-- the engine's handle, until it is closed -/
  handle : Option Handle
  /-- what was fetched -/
  buffer : ReadBuffer
  /-- where and how the records went wrong -/
  corrupt : Option (Nat × RecordFault) := none
  /-- whether `next` has come to its end -/
  ended : Bool := false
  deriving DecidableEq, Repr

/-- What an operation on a cursor gives: a result, the cursor and the world after
it. -/
abbrev CursorStep (σ α : Type) : Type := Except Failure α × Cursor × World σ

/-- **Item** of a result: a row, or a failure in its place. -/
abbrev Item (α : Type) : Type := Except Failure α

namespace Cursor

variable {σ : Type} (E : Engine σ)

/-- A fresh cursor on a session. -/
def ofHandle (session handle : Handle) (capacity : Nat) : Cursor :=
  { session, handle := some handle, buffer := .ofCapacity capacity }

/-- Whether the cursor was closed. -/
def isClosed (c : Cursor) : Bool := c.handle.isNone

/-! ### Questions -/

/-- **Whether the engine reports no error** for the cursor. A closed cursor can't
proceed. -/
def canProceed (c : Cursor) (w : World σ) : Except Failure Bool × World σ :=
  match w.check, c.handle with
  | .error failure, _ => (.error failure, w)
  | .ok (), none => (.ok false, w)
  | .ok (), some handle =>
    let (error, w) := E.ask (.cursorError handle) w
    (.ok error.isNone, w)

/-- **Whether every row has been read.** Not while there are bytes in the buffer; a
closed cursor is done. -/
def done (c : Cursor) (w : World σ) : Except Failure Bool × World σ :=
  match w.check with
  | .error failure => (.error failure, w)
  | .ok () =>
    if !c.buffer.isExhausted then (.ok false, w)
    else
      match c.handle with
      | none => (.ok true, w)
      | some handle =>
        let (isDone, w) := E.ask (.cursorIsDone handle) w
        (.ok isDone, w)

/-! ### One row -/

/-- Fetches more if the buffer is used up. -/
def topUp (handle : Handle) (c : Cursor) (w : World σ) : Cursor × World σ :=
  if c.buffer.isExhausted then
    let (delivery, w) := E.ask (.cursorRead handle c.buffer.capacity) w
    ({ c with buffer := c.buffer.refill delivery }, w)
  else (c, w)

/-- Looks up the series of a record that has one. -/
def resolve (c : Cursor) (h : Header) (w : World σ) : Option String × World σ :=
  if h.kind.hasSeries then E.ask (.idToSeries c.session h.series) w else (none, w)

/-- Decodes the record at the front of the buffer and consumes it. -/
def takeRecord (c : Cursor) (w : World σ) : CursorStep σ (Option Row) :=
  match Header.parse c.buffer.unread with
  | .error fault =>
    let offset := c.buffer.position
    (.error (.corruptRecord offset fault),
      { c with corrupt := some (offset, fault), buffer := c.buffer.discard }, w)
  | .ok header =>
    let (name, w) := c.resolve E header w
    match c.buffer.advance? header.length with
    | none => (.error .overflow, c, w)
    | some buffer =>
      let c' := { c with buffer }
      match header.decodeRow c.buffer.unread fun _ => name with
      | .ok row => (.ok (some row), c', w)
      | .error id => (.error (.unresolvedSeries id), c', w)

/-- Reads on with an open cursor that is not spoilt: fetches if need be, asks whether
the engine failed and takes a record, if there is one now. -/
def readOn (handle : Handle) (c : Cursor) (w : World σ) : CursorStep σ (Option Row) :=
  let (c, w) := c.topUp E handle w
  match E.ask (.cursorError handle) w with
  | (some status, w) => (.error (.engine status), c, w)
  | (none, w) => if c.buffer.isExhausted then (.ok none, c, w) else c.takeRecord E w

/-- **The next row**, or none for now. -/
def nextRow (c : Cursor) (w : World σ) : CursorStep σ (Option Row) :=
  match w.check, c.handle, c.corrupt with
  | .error failure, _, _ => (.error failure, c, w)
  | .ok (), none, _ => (.ok none, c, w)
  | .ok (), some _, some (offset, fault) => (.error (.corruptRecord offset fault), c, w)
  | .ok (), some handle, none => c.readOn E handle w

/-! ### All items -/

/-- Marks the cursor as having come to its end. -/
def finish (c : Cursor) : Cursor := { c with ended := true }

/-- Tries until there is a row, a failure or the end. -/
def nextWithin : (fuel : Nat) → Cursor → World σ → Option (Item Row) × Cursor × World σ
  | 0, c, w => (none, c.finish, w)
  | fuel + 1, c, w =>
    match c.nextRow E w with
    | (.ok (some row), c, w) => (some (.ok row), c, w)
    | (.error (.unresolvedSeries id), c, w) => (some (.error (.unresolvedSeries id)), c, w)
    | (.error failure, c, w) => (some (.error failure), c.finish, w)
    | (.ok none, c, w) =>
      match c.done E w with
      | (.ok true, w) => (none, c.finish, w)
      | (.ok false, w) => nextWithin fuel c w
      | (.error failure, w) => (some (.error failure), c.finish, w)

/-- **The next item.** A row that could not be named is reported and passed over; any
other failure is reported and ends the result. -/
def next (c : Cursor) (w : World σ) : Option (Item Row) × Cursor × World σ :=
  if c.ended then (none, c, w) else nextWithin E (E.patience w + 1) c w

/-- A bound on the number of items that a cursor can still give: each takes a byte or
more out of the buffer or ends the result, and only so many reads fill the buffer. -/
def budget (c : Cursor) (w : World σ) : Nat :=
  (E.patience w + 1) * (c.buffer.capacity + 1) + 1

/-- The items up to the end. -/
def itemsWithin : (fuel : Nat) → Cursor → World σ → List (Item Row) × Cursor × World σ
  | 0, c, w => ([], c, w)
  | fuel + 1, c, w =>
    match c.next E w with
    | (none, c, w) => ([], c, w)
    | (some item, c, w) =>
      let (items, c, w) := itemsWithin fuel c w
      (item :: items, c, w)

/-- **All items** that are left. -/
def items (c : Cursor) (w : World σ) : List (Item Row) × Cursor × World σ :=
  itemsWithin E (c.budget E w + 1) c w

/-! ### Closing -/

/-- **Closes** the cursor and drops what it fetched. Closing again does nothing. -/
def close (c : Cursor) (w : World σ) : CursorStep σ Unit :=
  match w.check, c.handle with
  | .error failure, _ => (.error failure, c, w)
  | .ok (), none => (.ok (), c, w)
  | .ok (), some handle =>
    let ((), w) := E.ask (.cursorClose handle) w
    (.ok (), { c with handle := none, buffer := c.buffer.discard }, w)

/-- **Lets go** of the cursor. It is closed if it is open, but the engine is left
alone after a panic. -/
def drop (c : Cursor) (w : World σ) : World σ :=
  match c.handle with
  | some handle => if w.channel.hasPanic then w else (E.ask (.cursorClose handle) w).2
  | none => w

end Cursor

end TimeSeries
