import TimeSeries.Sample.Record
import TimeSeries.Store.Basic

/-!
# Answers: the records a store gives for a plan

There is one answer for each sort of plan. A select lists points, a join puts the
points of several metrics that share tags and timestamp side by side, an aggregate
reduces the points of each series to one value, and a listing names series. Joins
and aggregates give their rows names of their own, `a|b tags` and `a:max tags`,
which they register, so they change the store.

Sorting is stable: rows with the same key stay in the order they were written.
-/

namespace TimeSeries.Store

/-! ### Names of rows -/

/-- What follows the first space of a name; nothing if there is none. -/
def tagText (name : String) : String :=
  match Text.cutFirst ' ' name.toList with
  | some (_, tags) => String.ofList tags
  | none => ""

/-- The name of a joined row: all metrics and the tags they share. -/
def joinName (metrics : List String) (tags : String) : String :=
  String.intercalate "|" metrics ++ " " ++ tags

/-- The name of a reduced series: the aggregate is put behind the head. -/
def aggregateName (f : Aggregate) (name : String) : String :=
  match Text.cutFirst ' ' name.toList with
  | some (head, tags) => String.ofList head ++ ":" ++ f.name ++ " " ++ String.ofList tags
  | none => name ++ ":" ++ f.name

/-! ### Points -/

/-- The key of a point's row. -/
def Match.key (m : Match) : RowKey := ⟨m.name, m.point.timestamp⟩

/-- The record of a point. -/
def Match.record (m : Match) : Record :=
  .scalar m.point.series m.point.timestamp m.point.value

/-- **Select**: the points that pass all filters, in order, one page of them. -/
def select (s : Store) (f : PointFilter) (o : Output) : List Record :=
  let rows := (s.matching f).filter fun m => o.keeps m.point.value
  let sorted := rows.mergeSort fun a b => RowKey.le f.range o.order a.key b.key
  (o.page sorted).map Match.record

/-! ### Points side by side -/

/-- **Joined row**: the values of several metrics at one key. -/
structure JoinRow : Type where
  /-- the tags and the timestamp that the values share -/
  key : RowKey
  /-- one slot for each metric -/
  slots : List (Option Double)
  deriving DecidableEq, Repr

/-- Puts a value into a slot of the row at a key, which is begun if there is none.
A value that is there already is replaced. -/
def putSlot (width : Nat) (key : RowKey) (slot : Nat) (value : Double) :
    List JoinRow → List JoinRow
  | [] => [⟨key, (List.replicate width none).set slot (some value)⟩]
  | row :: rows =>
    if row.key = key then { row with slots := row.slots.set slot (some value) } :: rows
    else row :: putSlot width key slot value rows

/-- Adds a point to the rows, in the first slot of its metric. -/
def joinPoint (metrics : List String) (rows : List JoinRow) (m : Match) : List JoinRow :=
  match metrics.idxOf? (Series.metric m.name) with
  | some slot =>
    putSlot metrics.length ⟨tagText m.name, m.point.timestamp⟩ slot m.point.value rows
  | none => rows

/-- The rows of a join, in order. -/
def joinRows (s : Store) (f : PointFilter) (o : Output) : List JoinRow :=
  let rows := (s.matching f).foldl (joinPoint f.metrics) []
  rows.mergeSort fun a b => RowKey.le f.range o.order a.key b.key

/-- Registers the name of a joined row and gives its record. -/
def registerJoin (metrics : List String) (s : Store) (row : JoinRow) : Record × Store :=
  let (id, s) := s.register (joinName metrics row.key.text)
  (.tuple id row.key.timestamp row.slots, s)

/-- Registers rows one after another. -/
def registerAll {α : Type} (step : Store → α → Record × Store) :
    Store → List α → List Record × Store
  | s, [] => ([], s)
  | s, row :: rows =>
    let (record, s) := step s row
    let (records, s) := registerAll step s rows
    (record :: records, s)

/-- **Join**: one page of the joined rows. Only their names are registered. -/
def join (s : Store) (f : PointFilter) (o : Output) : List Record × Store :=
  registerAll (registerJoin f.metrics) s (o.page (s.joinRows f o))

/-! ### One value for each series -/

/-- The earliest of some points with the smallest value. -/
def smallest : Point → List Point → Point
  | best, [] => best
  | best, p :: ps => smallest (if p.value.rank < best.value.rank then p else best) ps

/-- The latest of some points with the largest value. -/
def largest : Point → List Point → Point
  | best, [] => best
  | best, p :: ps => largest (if p.value.rank < best.value.rank then best else p) ps

/-- The last of some points. -/
def latest (p : Point) (ps : List Point) : Point := ps.getLastD p

/-- **Reduces** points, in order of time and beginning with `p`, to a timestamp and
a value. Counts, sums and means have the timestamp of the last point. -/
def reduce (f : Aggregate) (p : Point) (ps : List Point) : Timestamp × Double :=
  let last := latest p ps
  let least := smallest p ps
  let greatest := largest p ps
  let count := Double.ofWord (UInt64.ofNat (ps.length + 1))
  let sum := Double.sum ((p :: ps).map Point.value)
  match f with
  | .count => (last.timestamp, count)
  | .max => (greatest.timestamp, greatest.value)
  | .min => (least.timestamp, least.value)
  | .mean => (last.timestamp, sum.div count)
  | .sum => (last.timestamp, sum)
  | .minTimestamp => (least.timestamp, Double.ofWord least.timestamp)
  | .maxTimestamp => (greatest.timestamp, Double.ofWord greatest.timestamp)
  | .first => (p.timestamp, p.value)
  | .last => (last.timestamp, last.value)

/-- The points of one series among some matches, in order of time. -/
def seriesPoints (ms : List Match) (name : String) : List Point :=
  ((ms.filter fun m => m.name == name).map Match.point).mergeSort
    fun a b => a.timestamp ≤ b.timestamp

/-- The names of the series among some matches, ascending and each once. -/
def seriesNames (ms : List Match) : List String :=
  (ms.map Match.name).eraseDups.mergeSort fun a b => a ≤ b

/-- **Reduced series**: a name, a timestamp and a value. -/
structure Reduced : Type where
  /-- the name of the series that was reduced -/
  name : String
  /-- the timestamp of the result -/
  timestamp : Timestamp
  /-- the result -/
  value : Double
  deriving DecidableEq, Repr

/-- Reduces each series among some matches. -/
def reduceAll (f : Aggregate) (ms : List Match) : List Reduced :=
  (seriesNames ms).filterMap fun name =>
    match seriesPoints ms name with
    | [] => none
    | p :: ps => some ⟨name, (reduce f p ps).1, (reduce f p ps).2⟩

/-- Registers the name of a reduced series and gives its record. -/
def registerReduced (f : Aggregate) (s : Store) (r : Reduced) : Record × Store :=
  let (id, s) := s.register (aggregateName f r.name)
  (.scalar id r.timestamp r.value, s)

/-- **Aggregate**: one record for each series that has points. -/
def aggregate (s : Store) (f : PointFilter) (fn : Aggregate) : List Record × Store :=
  registerAll (registerReduced fn) s (reduceAll fn (s.matching f))

/-! ### Names -/

/-- The listed series that a filter lets through, ascending by name. Points and so
the range have no part in it. -/
def listing (s : Store) (f : PointFilter) : List (String × SeriesId) :=
  let named := s.listed.filterMap fun id => (s.name? id).map fun name => (name, id)
  (named.filter fun e => f.accepts e.1).mergeSort fun a b => a.1 ≤ b.1

/-- **Listing**: one record for each series. -/
def list (s : Store) (f : PointFilter) : List Record :=
  (s.listing f).map fun e => .seriesOnly e.2

/-! ### Plans and documents -/

/-- **Answers a plan.** -/
def answer (s : Store) : Plan → List Record × Store
  | .names f => (s.list f, s)
  | .select f o => (s.select f o, s)
  | .join f o => s.join f o
  | .aggregate f fn => s.aggregate f fn

/-- **Answers a document**, if it can be read; a text that is no document comes
as `none`. A refused query leaves the store as it was. -/
def query (s : Store) (document : Option Json) : Except Status (List Record) × Store :=
  match document with
  | none => (.error .queryParsingError, s)
  | some j =>
    match Plan.ofJson j with
    | .error status => (.error status, s)
    | .ok plan =>
      let (records, s) := s.answer plan
      (.ok records, s)

end TimeSeries.Store
