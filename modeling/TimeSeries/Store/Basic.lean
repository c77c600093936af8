import TimeSeries.Query.Plan
import TimeSeries.Table

/-!
# Stores: the series and points of a database

A store knows series by name and by id. Its list of names only grows, and the id
of a name is its position counted from 1, so an id, once given out, means the
same name for good. The ids of names are kept in a table next to the list, which
has no ids but those of the list. Names get in by two routes: a writer registers
the series it writes, and an answer registers the names it makes up for its rows.
Only the former are listed.

Points are kept in the order they were written.
-/

namespace TimeSeries

/-- **Point**: one value of a series. -/
structure Point : Type where
  /-- the series it belongs to -/
  series : SeriesId
  /-- when it was taken -/
  timestamp : Timestamp
  /-- the value -/
  value : Double
  deriving DecidableEq, Repr

/-- The id of the name at a position. -/
def Store.idAt (i : Nat) : SeriesId := UInt64.ofNat (i + 1)

/-- **Store** of one database. -/
structure Store : Type where
  /-- names of series; the one at position `i` has id `i + 1` -/
  names : List String
  /-- the ids of names -/
  ids : Table String SeriesId
  /-- ids registered by writers, each once -/
  listed : List SeriesId
  /-- points in the order written -/
  points : List Point
  /-- an id of a name is that of a position where the name stands -/
  idAt_of_ids : ∀ name id, ids.find? name = some id →
    ∃ i, names[i]? = some name ∧ Store.idAt i = id
  deriving DecidableEq, Repr

namespace Store

/-- The store of a fresh database. -/
def empty : Store where
  names := []
  ids := .empty
  listed := []
  points := []
  idAt_of_ids := by
    intro name id h
    cases h

/-! ### Names and ids -/

/-- The name of a series. Ids start at 1. -/
def name? (s : Store) (id : SeriesId) : Option String :=
  match id.toNat with
  | 0 => none
  | i + 1 => s.names[i]?

/-- Appends a name and enters the id of its position for it. -/
def addName (s : Store) (name : String) : Store :=
  { s with
    names := s.names ++ [name]
    ids := s.ids.put name (idAt s.names.length)
    idAt_of_ids := by
      intro n id h
      rcases Table.find?_put_eq_some h with ⟨rfl, hid⟩ | hold
      · exact ⟨s.names.length, by simp, hid⟩
      · obtain ⟨i, hname, hid⟩ := s.idAt_of_ids n id hold
        obtain ⟨hlt, -⟩ := List.getElem?_eq_some_iff.mp hname
        exact ⟨i, by rw [List.getElem?_append_left hlt, hname], hid⟩ }

/-- **Registers a name**: a new one is appended, a known one keeps its id. -/
def register (s : Store) (name : String) : SeriesId × Store :=
  match s.ids.find? name with
  | some id => (id, s)
  | none => (idAt s.names.length, s.addName name)

/-- Registers a name for a writer: it is listed from then on. -/
def enlist (s : Store) (name : String) : SeriesId × Store :=
  let (id, s) := s.register name
  (id, if s.listed.contains id then s else { s with listed := s.listed ++ [id] })

/-- Appends a point to a series that has a name. -/
def append? (s : Store) (p : Point) : Option Store :=
  match s.name? p.series with
  | some _ => some { s with points := s.points ++ [p] }
  | none => none

/-! ### Points of a query -/

/-- **Match** of a point filter: a point and the name of its series. -/
structure Match : Type where
  /-- the name of the series -/
  name : String
  /-- the point -/
  point : Point
  deriving DecidableEq, Repr

/-- The points that a filter lets through, in the order written. -/
def matching (s : Store) (f : PointFilter) : List Match :=
  s.points.filterMap fun p =>
    if f.range.contains p.timestamp then
      match s.name? p.series with
      | some name => if f.accepts name then some ⟨name, p⟩ else none
      | none => none
    else none

/-! ### Order of rows -/

/-- **Row key**: what rows are put in order by. The text stands for the series. -/
structure RowKey : Type where
  /-- a text that names the series of the row -/
  text : String
  /-- the timestamp of the row -/
  timestamp : Timestamp
  deriving DecidableEq, Repr

/-- The order of timestamps in a range: descending if it is walked backwards. -/
def timeLe (r : TimeRange) (a b : Timestamp) : Bool :=
  if r.isBackward then b ≤ a else a ≤ b

/-- **Order of rows**: by the first part and, where that is equal, by the second.
Only the direction of time depends on the range. -/
def RowKey.le (r : TimeRange) (o : RowOrder) (a b : RowKey) : Bool :=
  match o with
  | .series => a.text < b.text || (a.text == b.text && timeLe r a.timestamp b.timestamp)
  | .time =>
    (timeLe r a.timestamp b.timestamp && a.timestamp != b.timestamp) ||
      (a.timestamp == b.timestamp && a.text ≤ b.text)

end Store

end TimeSeries
