import TimeSeries.Double
import TimeSeries.Json.Value
import TimeSeries.Text.Quoted
import TimeSeries.Time.Instant

/-!
# Clauses of a query

Besides what it asks for, a query has clauses: a range of time, a restriction to
series with a certain tag, groupings, an order, value filters and paging. A caller
states them one after another as `Refinement`s. A later one of the same sort
replaces an earlier one, except that filters add up, at most two. A refinement
that is not acceptable spoils the draft for good: the first such fault is what
finishing it reports.
-/

namespace TimeSeries

/-! ### Parts of clauses -/

/-- **Comparison** of a value with a threshold. -/
inductive Comparison : Type where
  /-- greater than -/
  | gt
  /-- greater than or equal -/
  | ge
  /-- less than -/
  | lt
  /-- less than or equal -/
  | le
  deriving DecidableEq, Repr

namespace Comparison

/-- All comparisons. -/
def all : List Comparison := [gt, ge, lt, le]

/-- The name used in query documents. -/
def name : Comparison → String
  | gt => "gt"
  | ge => "ge"
  | lt => "lt"
  | le => "le"

/-- The comparison with a given name. -/
def ofName? (s : String) : Option Comparison := all.find? fun c => c.name == s

/-- Whether a value stands in this relation to a threshold. -/
def holds (c : Comparison) (value threshold : Double) : Bool :=
  match c with
  | gt => threshold.lt value
  | ge => threshold.le value
  | lt => value.lt threshold
  | le => value.le threshold

@[simp] theorem ofName?_name (c : Comparison) : ofName? c.name = some c := by
  cases c <;> rfl

end Comparison

/-- **Value filter**: keeps the values that compare this way with a threshold. -/
structure ValueFilter : Type where
  /-- how to compare -/
  comparison : Comparison
  /-- what to compare with -/
  threshold : Double
  deriving DecidableEq, Repr

/-- Whether a value passes a filter. -/
def ValueFilter.passes (f : ValueFilter) (value : Double) : Bool :=
  f.comparison.holds value f.threshold

/-- **Order** of a query's rows. -/
inductive RowOrder : Type where
  /-- by series, then by time -/
  | series
  /-- by time, then by series -/
  | time
  deriving DecidableEq, Repr

namespace RowOrder

/-- The name used in query documents. -/
def name : RowOrder → String
  | series => "series"
  | time => "time"

/-- The order with a given name. -/
def ofName? (s : String) : Option RowOrder :=
  [series, time].find? fun o => o.name == s

@[simp] theorem ofName?_name (o : RowOrder) : ofName? o.name = some o := by
  cases o <;> rfl

end RowOrder

/-- **Range of time**, with either end open. A start after the stop means to walk
backwards. -/
structure TimeRange : Type where
  /-- where to start -/
  start : Option Timestamp := none
  /-- where to stop -/
  stop : Option Timestamp := none
  deriving DecidableEq, Repr

namespace TimeRange

/-- Whether the range is walked backwards. -/
def isBackward (r : TimeRange) : Bool :=
  match r.start, r.stop with
  | some start, some stop => stop < start
  | _, _ => false

/-- Whether a timestamp lies in the range. The start belongs to it and the stop
does not, in either direction. -/
def contains (r : TimeRange) (ts : Timestamp) : Bool :=
  match r.start, r.stop with
  | some start, some stop =>
    if stop < start then stop < ts && ts ≤ start else start ≤ ts && ts < stop
  | some start, none => start ≤ ts
  | none, some stop => ts < stop
  | none, none => true

end TimeRange

/-- **Tag restriction**: series with this tag and one of these values. -/
structure TagFilter : Type where
  /-- the name of the tag -/
  tag : String
  /-- the values that are let through -/
  values : List String
  deriving DecidableEq, Repr

/-- Drops every text that occurred before, so that the first occurrences are left
in their order. -/
def distinct (texts : List String) : List String := texts.eraseDups

/-! ### Faults -/

/-- **Query fault**: why a query can't be built. -/
inductive QueryFault : Type where
  /-- no aggregate has this name -/
  | unknownAggregate (name : String)
  /-- a third value filter -/
  | tooManyFilters
  /-- a query of this sort needs a metric -/
  | metricRequired (article sort : String)
  /-- a query of this sort needs metrics -/
  | metricsRequired (sort : String)
  /-- a query of this sort needs aggregates -/
  | functionsRequired (sort : String)
  /-- more metrics than a tuple has slots -/
  | tooManyMetrics (limit : Nat)
  /-- the width of the bins is zero -/
  | zeroStep
  /-- the start of the range is missing -/
  | startRequired
  /-- a listing of names is restricted to a blank metric -/
  | blankMetric
  /-- a listing of names is restricted to a blank tag -/
  | blankTag
  /-- a listing of names is restricted to a tag without values -/
  | valuesRequired
  deriving DecidableEq, Repr

/-- The text of a fault. -/
def QueryFault.text : QueryFault → String
  | unknownAggregate name => "unknown aggregate function " ++ Text.quoted name
  | tooManyFilters => "at most two value filters are supported"
  | metricRequired article sort => s!"metric is required to make {article} {sort} query"
  | metricsRequired sort => s!"metrics are required to make a {sort} query"
  | functionsRequired sort => s!"functions are required to make a {sort} query"
  | tooManyMetrics limit => s!"at most {limit} metrics can be joined"
  | zeroStep => "step must be positive"
  | startRequired => "from is a mandatory parameter"
  | blankMetric => "metric must not be blank"
  | blankTag => "tag must not be blank"
  | valuesRequired => "tag values are required"

/-- **Draft fault**: why a refinement or a finished draft is not acceptable. -/
inductive DraftFault : Type where
  /-- a time without a timestamp -/
  | outOfRange (time : Instant)
  /-- anything else -/
  | query (fault : QueryFault)
  deriving DecidableEq, Repr

/-! ### Clauses and refinements -/

/-- **Clauses** of a query. -/
structure Clauses : Type where
  /-- the range of time -/
  range : TimeRange := {}
  /-- the tag restriction -/
  tag : Option TagFilter := none
  /-- tags to leave out of series names -/
  groupBy : List String := []
  /-- the only tags to keep in series names -/
  pivotBy : List String := []
  /-- the order of the rows -/
  order : Option RowOrder := none
  /-- value filters, in the order they were added -/
  filters : List ValueFilter := []
  /-- the largest number of rows -/
  limit : Option UInt64 := none
  /-- rows to pass over at the front -/
  offset : Option UInt64 := none
  deriving DecidableEq, Repr

/-- **Refinement**: one clause as a caller states it. -/
inductive Refinement : Type where
  /-- start at a timestamp -/
  | start (ts : Timestamp)
  /-- stop at a timestamp -/
  | stop (ts : Timestamp)
  /-- start and stop at timestamps -/
  | between (start stop : Timestamp)
  /-- start at an instant -/
  | startAt (time : Instant)
  /-- stop at an instant -/
  | stopAt (time : Instant)
  /-- only series with this tag and one of these values -/
  | withTag (tag : String) (values : List String)
  /-- leave these tags out of series names -/
  | groupBy (tags : List String)
  /-- keep only these tags in series names -/
  | pivotBy (tags : List String)
  /-- order the rows -/
  | orderBy (order : RowOrder)
  /-- only values that compare this way -/
  | filter (comparison : Comparison) (threshold : Double)
  /-- at most this many rows -/
  | limit (rows : UInt64)
  /-- pass over this many rows -/
  | offset (rows : UInt64)
  deriving DecidableEq, Repr

/-- The timestamp of an instant, or the fault that it has none. -/
def requireTimestamp (t : Instant) : Except DraftFault Timestamp :=
  match t.timestamp? with
  | some ts => .ok ts
  | none => .error (.outOfRange t)

/-- The largest number of value filters. -/
def maxFilters : Nat := 2

namespace Clauses

/-- **Applies a refinement.** Only instants and filters can be refused. -/
def refine (c : Clauses) : Refinement → Except DraftFault Clauses
  | .start ts => .ok { c with range := { c.range with start := some ts } }
  | .stop ts => .ok { c with range := { c.range with stop := some ts } }
  | .between start stop => .ok { c with range := ⟨some start, some stop⟩ }
  | .startAt t =>
    (requireTimestamp t).map fun ts => { c with range := { c.range with start := some ts } }
  | .stopAt t =>
    (requireTimestamp t).map fun ts => { c with range := { c.range with stop := some ts } }
  | .withTag tag values => .ok { c with tag := some ⟨tag, distinct values⟩ }
  | .groupBy tags => .ok { c with groupBy := distinct tags }
  | .pivotBy tags => .ok { c with pivotBy := distinct tags }
  | .orderBy order => .ok { c with order := some order }
  | .filter comparison threshold =>
    if c.filters.length = maxFilters then .error (.query .tooManyFilters)
    else .ok { c with filters := c.filters ++ [⟨comparison, threshold⟩] }
  | .limit rows => .ok { c with limit := some rows }
  | .offset rows => .ok { c with offset := some rows }

end Clauses

/-- **Draft** of a query: the clauses so far and the first fault, if any. -/
structure Draft : Type where
  /-- the clauses, without refinements that were refused -/
  clauses : Clauses := {}
  /-- the first fault -/
  fault : Option DraftFault := none
  deriving DecidableEq, Repr

namespace Draft

/-- Applies a refinement; one that is refused changes no clause and is
remembered if it is the first. -/
def refine (d : Draft) (r : Refinement) : Draft :=
  match d.clauses.refine r with
  | .ok clauses => { d with clauses }
  | .error fault => { d with fault := d.fault.or (some fault) }

/-- The draft after some refinements. -/
def ofList (rs : List Refinement) : Draft := rs.foldl refine {}

end Draft

end TimeSeries
