import TimeSeries.Query.Document
import TimeSeries.Series.Name
import TimeSeries.Status

/-!
# Plans: what an engine makes of a document

`Plan.ofJson` reads the document of a query into a plan, or refuses it with a
status. A document that is not a query is malformed; one that asks for something
that is well formed but not offered — a grouping, a filter on a join, more than
one tag or aggregate — is not implemented. Fields that a plan has no use for are
not looked at.
-/

namespace TimeSeries

/-- What a document is refused with, or what it is read as. -/
abbrev Parsed (α : Type) : Type := Except Status α

/-- Takes a part that has to be there in the right shape. -/
def required {α : Type} (o : Option α) : Parsed α :=
  match o with
  | some a => .ok a
  | none => .error .queryParsingError

/-! ### Which series and points -/

/-- **Point filter**: a metric, a range and a tag, shared by all plans. -/
structure PointFilter : Type where
  /-- the metrics that are let through; none means all -/
  metrics : List String
  /-- the range of time -/
  range : TimeRange
  /-- the tag restriction -/
  tag : Option TagFilter
  deriving DecidableEq, Repr

/-- Whether one of a series' tags has the name and one of the values. -/
def TagFilter.accepts (f : TagFilter) (name : String) : Bool :=
  (Series.tags name).any fun t => t.name == f.tag && f.values.contains t.value

namespace PointFilter

/-- Whether a series is let through, going by its name. -/
def accepts (f : PointFilter) (name : String) : Bool :=
  (f.metrics.isEmpty || f.metrics.contains (Series.metric name)) &&
    f.tag.all fun tag => tag.accepts name

/-- Reads the tag restriction: one tag with one text or a list of texts. -/
def readTag (root : List (String × Json)) : Parsed (Option TagFilter) :=
  match Json.field? root "where" with
  | none => .ok none
  | some clause =>
    match clause.object? with
    | none | some [] => .error .queryParsingError
    | some (_ :: _ :: _) => .error .notImplemented
    | some [(tag, .text value)] => .ok (some ⟨tag, [value]⟩)
    | some [(tag, .array values)] => do
      let values ← values.mapM fun v => required v.text?
      return some ⟨tag, values⟩
    | some [_] => .error .queryParsingError

/-- Reads one end of the range. -/
def readBound (range : List (String × Json)) (key : String) : Parsed (Option Timestamp) :=
  match Json.field? range key with
  | none => .ok none
  | some bound => do return some (← required bound.word?)

/-- Reads the range. -/
def readRange (root : List (String × Json)) : Parsed TimeRange :=
  match Json.field? root "range" with
  | none => .ok {}
  | some clause => do
    let range ← required clause.object?
    let start ← readBound range "from"
    let stop ← readBound range "to"
    return ⟨start, stop⟩

/-- Reads a filter for some metrics: the tag restriction, then the range. -/
def read (metrics : List String) (root : List (String × Json)) : Parsed PointFilter := do
  let tag ← readTag root
  let range ← readRange root
  return ⟨metrics, range, tag⟩

end PointFilter

/-! ### Which rows, in which order -/

/-- **Output** of a plan: order, value filters and paging of the rows. -/
structure Output : Type where
  /-- the order of the rows -/
  order : RowOrder := .series
  /-- filters that a value has to pass, all of them -/
  filters : List ValueFilter := []
  /-- the largest number of rows -/
  limit : Option Nat := none
  /-- rows to pass over at the front -/
  offset : Nat := 0
  deriving DecidableEq, Repr

namespace Output

/-- Whether a value passes all filters. -/
def keeps (o : Output) (value : Double) : Bool := o.filters.all fun f => f.passes value

/-- The page of some rows: what is left after the offset, up to the limit. -/
def page {α : Type} (o : Output) (rows : List α) : List α :=
  match o.limit with
  | some limit => (rows.drop o.offset).take limit
  | none => rows.drop o.offset

/-- Reads the order. -/
def readOrder (root : List (String × Json)) : Parsed RowOrder :=
  match Json.field? root "order-by" with
  | none => .ok .series
  | some clause => required (clause.text?.bind RowOrder.ofName?)

/-- Reads the filters. -/
def readFilters (root : List (String × Json)) : Parsed (List ValueFilter) :=
  match Json.field? root "filter" with
  | none => .ok []
  | some clause => do
    let entries ← required clause.object?
    entries.mapM fun entry => do
      let threshold ← required entry.2.double?
      let comparison ← required (Comparison.ofName? entry.1)
      return ⟨comparison, threshold⟩

/-- Reads a number of rows. -/
def readCount (root : List (String × Json)) (key : String) : Parsed (Option Nat) :=
  match Json.field? root key with
  | none => .ok none
  | some clause => do
    let count ← required clause.word?
    return some count.toNat

/-- Reads order, filters and paging. -/
def read (root : List (String × Json)) : Parsed Output := do
  let order ← readOrder root
  let filters ← readFilters root
  let limit ← readCount root "limit"
  let offset ← readCount root "offset"
  return ⟨order, filters, limit, offset.getD 0⟩

end Output

/-! ### Plans -/

/-- **Plan**: a query as an engine answers it. -/
inductive Plan : Type where
  /-- list the names of series -/
  | names (filter : PointFilter)
  /-- list points -/
  | select (filter : PointFilter) (output : Output)
  /-- list points of several metrics side by side -/
  | join (filter : PointFilter) (output : Output)
  /-- reduce the points of each series to one value -/
  | aggregate (filter : PointFilter) (f : Aggregate)
  deriving DecidableEq, Repr

namespace Plan

/-- The metrics a listing asks for, going by the target of its select. Nothing if
the target is not that of a listing. -/
def listed? (target : String) : Option (Parsed (List String)) :=
  let name := namesTarget.toList
  if name.isPrefixOf target.toList then
    match target.toList.drop name.length with
    | [] => some (.ok [])
    | ':' :: metric => some (.ok [String.ofList metric])
    | _ => some (.error .queryParsingError)
  else none

/-- Reads a select: a listing or points. -/
def readSelect (target : Json) (root : List (String × Json)) : Parsed Plan := do
  let target ← required target.text?
  match listed? target with
  | some metrics => return .names (← PointFilter.read (← metrics) root)
  | none =>
    let filter ← PointFilter.read [target] root
    let output ← Output.read root
    return .select filter output

/-- Reads a join of one metric up to as many as a tuple has slots. -/
def readJoin (metrics : Json) (root : List (String × Json)) : Parsed Plan := do
  let items ← required metrics.array?
  let metrics ← items.mapM fun m => required m.text?
  if metrics.isEmpty || maxSlots < metrics.length then .error .badArg
  else
    let output ← Output.read root
    if !output.filters.isEmpty then .error .notImplemented
    else return .join (← PointFilter.read metrics root) output

/-- Reads an aggregate of one metric. -/
def readAggregate (target : Json) (root : List (String × Json)) : Parsed Plan := do
  match ← required target.object? with
  | [] => .error .queryParsingError
  | _ :: _ :: _ => .error .notImplemented
  | [(metric, f)] =>
    let f ← required (f.text?.bind Aggregate.ofName?)
    return .aggregate (← PointFilter.read [metric] root) f

/-- **Reads a document as a plan.** Groupings are refused first; then a select is
preferred to a join and a join to an aggregate. -/
def ofJson (document : Json) : Parsed Plan := do
  let root ← required document.object?
  let has := fun key => (Json.field? root key).isSome
  if has "group-aggregate" || has "group-by-tag" || has "pivot-by-tag" then
    .error .notImplemented
  else
    match Json.field? root "select", Json.field? root "join", Json.field? root "aggregate" with
    | some target, _, _ => readSelect target root
    | none, some metrics, _ => readJoin metrics root
    | none, none, some target => readAggregate target root
    | none, none, none => .error .queryParsingError

end Plan

end TimeSeries
