import TimeSeries.Aggregate
import TimeSeries.Json.Printer
import TimeSeries.Query.Clauses
import TimeSeries.Sample.Header
import TimeSeries.Text.Fields

/-!
# Queries and their documents

A query asks for points, for one value per series, for several metrics side by
side, or for values collected into bins of time; a listing asks for the names of
series. An engine takes either as a JSON document. `Query.build` turns a subject
and refinements into a query or says what is missing; `Query.document` writes it
down.

A range is written only if it has a start, and of two filters with the same
comparison only the later is written, since both go by the same key.
-/

namespace TimeSeries

/-- The aggregate with a given name, or the fault that there is none. -/
def Aggregate.require (name : String) : Except QueryFault Aggregate :=
  match ofName? name with
  | some f => .ok f
  | none => .error (.unknownAggregate name)

/-! ### Subjects -/

/-- **Subject** of a query: what it asks for. -/
inductive Subject : Type where
  /-- the points of a metric -/
  | select (metric : String)
  /-- one value for each series of a metric -/
  | aggregate (metric : String) (f : Aggregate)
  /-- the points of several metrics, side by side -/
  | join (metrics : List String)
  /-- values in bins that are `step` nanoseconds wide -/
  | bins (metrics : List String) (step : Nat) (fs : List Aggregate)
  deriving DecidableEq, Repr

namespace Subject

/-- The subject with every metric and every aggregate mentioned once. -/
def tidy : Subject → Subject
  | join metrics => join (distinct metrics)
  | bins metrics step fs => bins (distinct metrics) step fs.eraseDups
  | subject => subject

/-- Joins and bins need the start of a range. -/
def checkStart (c : Clauses) : Except QueryFault Unit :=
  if c.range.start.isNone then .error .startRequired else .ok ()

/-- What a query on a subject can't do without. -/
def check (c : Clauses) : Subject → Except QueryFault Unit
  | select metric =>
    if Text.isBlankText metric then .error (.metricRequired "a" "select") else .ok ()
  | aggregate metric _ =>
    if Text.isBlankText metric then .error (.metricRequired "an" "aggregate") else .ok ()
  | join metrics =>
    if metrics.isEmpty then .error (.metricsRequired "join")
    else if maxSlots < metrics.length then .error (.tooManyMetrics maxSlots)
    else checkStart c
  | bins metrics step fs =>
    if metrics.isEmpty then .error (.metricsRequired "group-aggregate")
    else if fs.isEmpty then .error (.functionsRequired "group-aggregate")
    else if step = 0 then .error .zeroStep
    else checkStart c

end Subject

/-! ### Queries -/

/-- **Query**: a subject and clauses. -/
structure Query : Type where
  /-- what it asks for -/
  subject : Subject
  /-- under which conditions -/
  clauses : Clauses
  deriving DecidableEq, Repr

namespace Query

/-- **Builds a query.** A refinement that was refused is reported before anything
that is missing. -/
def build (subject : Subject) (refinements : List Refinement) : Except DraftFault Query :=
  let subject := subject.tidy
  let draft := Draft.ofList refinements
  match draft.fault with
  | some fault => .error fault
  | none =>
    match subject.check draft.clauses with
    | .error fault => .error (.query fault)
    | .ok () => .ok ⟨subject, draft.clauses⟩

end Query

/-! ### Documents -/

namespace Clauses

/-- The field for the range, if it has a start. -/
def rangeFields (c : Clauses) : List (String × Json) :=
  match c.range.start, c.range.stop with
  | some start, some stop =>
    [("range", .ofFields [("from", .ofWord start), ("to", .ofWord stop)])]
  | some start, none => [("range", .ofFields [("from", .ofWord start)])]
  | none, _ => []

/-- The field for the tag restriction. -/
def tagFields (c : Clauses) : List (String × Json) :=
  match c.tag with
  | some filter => [("where", .ofFields [(filter.tag, .ofTexts filter.values)])]
  | none => []

/-- The fields for the groupings. -/
def groupFields (c : Clauses) : List (String × Json) :=
  (if c.groupBy.isEmpty then [] else [("group-by-tag", .ofTexts c.groupBy)]) ++
    (if c.pivotBy.isEmpty then [] else [("pivot-by-tag", .ofTexts c.pivotBy)])

/-- The field for the filters. -/
def filterFields (c : Clauses) : List (String × Json) :=
  if c.filters.isEmpty then []
  else
    [("filter", .ofFields (c.filters.map fun f => (f.comparison.name, .ofDouble f.threshold)))]

/-- The fields for order, filters and paging. -/
def outputFields (c : Clauses) : List (String × Json) :=
  (c.order.map fun o => ("order-by", Json.text o.name)).toList ++ c.filterFields ++
    (c.limit.map fun n => ("limit", Json.ofWord n)).toList ++
    (c.offset.map fun n => ("offset", Json.ofWord n)).toList

end Clauses

namespace Query

/-- The width of bins as written: what a word keeps of the nanoseconds. -/
def stepWord (step : Nat) : UInt64 := UInt64.ofNat step

/-- **Document of a query**: the subject and those clauses that apply to it. -/
def document (q : Query) : Json :=
  let c := q.clauses
  match q.subject with
  | .select metric =>
    .ofFields (("select", .text metric) ::
      (c.rangeFields ++ c.tagFields ++ c.groupFields ++ c.outputFields))
  | .aggregate metric f =>
    .ofFields (("aggregate", .ofFields [(metric, .text f.name)]) ::
      (c.rangeFields ++ c.groupFields ++ c.tagFields))
  | .join metrics =>
    .ofFields (("join", .ofTexts metrics) :: (c.rangeFields ++ c.tagFields ++ c.outputFields))
  | .bins metrics step fs =>
    let bins := Json.ofFields
      [("metric", .ofTexts metrics), ("step", .ofWord (stepWord step)),
        ("func", .ofTexts (fs.map Aggregate.name))]
    .ofFields (("group-aggregate", bins) ::
      (c.rangeFields ++ c.tagFields ++ c.groupFields ++ c.outputFields))

/-- The text of a query. -/
def text (q : Query) : String := q.document.print

end Query

/-! ### Listings -/

/-- The target of a select that asks for names instead of points. -/
def namesTarget : String := "meta:names"

/-- **Listing** of series names, of all series or of some. -/
structure Listing : Type where
  /-- only series of this metric -/
  metric : Option String := none
  /-- only series with this tag -/
  tag : Option TagFilter := none
  deriving DecidableEq, Repr

namespace Listing

/-- The names of all series. -/
def all : Listing := {}

/-- The names of the series of a metric. -/
def ofMetric (metric : String) : Except QueryFault Listing :=
  if Text.isBlankText metric then .error .blankMetric else .ok { metric := some metric }

/-- The names of the series of a metric that have a tag with one of some values. -/
def ofMetricWithTag (metric tag : String) (values : List String) : Except QueryFault Listing :=
  match ofMetric metric with
  | .error fault => .error fault
  | .ok listing =>
    if Text.isBlankText tag then .error .blankTag
    else if values.isEmpty then .error .valuesRequired
    else .ok { listing with tag := some ⟨tag, distinct values⟩ }

/-- The target of a listing. -/
def target (l : Listing) : String :=
  match l.metric with
  | some metric => namesTarget ++ ":" ++ metric
  | none => namesTarget

/-- **Document of a listing.** -/
def document (l : Listing) : Json :=
  .ofFields (("select", .text l.target) :: Clauses.tagFields { tag := l.tag })

/-- The text of a listing. -/
def text (l : Listing) : String := l.document.print

end Listing

end TimeSeries
