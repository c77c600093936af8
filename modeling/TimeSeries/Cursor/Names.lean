import TimeSeries.Cursor.Rows

/-!
# Cursors over names

A listing of series comes as rows of which only the series counts. A name cursor
reads such rows and passes over those without a series.
-/

namespace TimeSeries

/-- **Cursor over series names.** -/
structure NameCursor : Type where
  /-- the cursor over the rows -/
  rows : Cursor
  deriving DecidableEq, Repr

namespace NameCursor

variable {σ : Type} (E : Engine σ)

/-- Tries until there is a row with a series, no row for now or a failure. -/
def nextNameWithin : (fuel : Nat) → Cursor → World σ → CursorStep σ (Option String)
  | 0, c, w => (.ok none, c, w)
  | fuel + 1, c, w =>
    match c.nextRow E w with
    | (.error failure, c, w) => (.error failure, c, w)
    | (.ok none, c, w) => (.ok none, c, w)
    | (.ok (some row), c, w) =>
      match row.series with
      | some name => (.ok (some name), c, w)
      | none => nextNameWithin fuel c w

/-- **The next name**, or none for now. -/
def nextName (n : NameCursor) (w : World σ) :
    Except Failure (Option String) × NameCursor × World σ :=
  let (result, c, w) := nextNameWithin E (n.rows.budget E w) n.rows w
  (result, ⟨c⟩, w)

/-- Tries until there is an item that is no row without a series. -/
def nextWithin : (fuel : Nat) → Cursor → World σ → Option (Item String) × Cursor × World σ
  | 0, c, w => (none, c, w)
  | fuel + 1, c, w =>
    match c.next E w with
    | (none, c, w) => (none, c, w)
    | (some (.error failure), c, w) => (some (.error failure), c, w)
    | (some (.ok row), c, w) =>
      match row.series with
      | some name => (some (.ok name), c, w)
      | none => nextWithin fuel c w

/-- **The next item**: a name, or a failure in its place. -/
def next (n : NameCursor) (w : World σ) : Option (Item String) × NameCursor × World σ :=
  let (item, c, w) := nextWithin E (n.rows.budget E w) n.rows w
  (item, ⟨c⟩, w)

/-- Whether the engine reports no error for the cursor. -/
def canProceed (n : NameCursor) (w : World σ) : Except Failure Bool × World σ :=
  n.rows.canProceed E w

/-- **Whether every name has been read.** Not while the engine reports an error, so
that the next read gets to report it. -/
def done (n : NameCursor) (w : World σ) : Except Failure Bool × World σ :=
  match n.rows.canProceed E w with
  | (.error failure, w) => (.error failure, w)
  | (.ok false, w) => (.ok n.rows.isClosed, w)
  | (.ok true, w) => n.rows.done E w

/-- Closes the cursor. -/
def close (n : NameCursor) (w : World σ) : Except Failure Unit × NameCursor × World σ :=
  let (result, c, w) := n.rows.close E w
  (result, ⟨c⟩, w)

/-- Lets go of the cursor. -/
def drop (n : NameCursor) (w : World σ) : World σ := n.rows.drop E w

end NameCursor

end TimeSeries
