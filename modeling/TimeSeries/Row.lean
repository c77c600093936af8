import TimeSeries.Double
import TimeSeries.Series.Name
import TimeSeries.Time.Instant

/-!
# Rows

A row is one record as a reader sees it: the name of its series instead of an id
and its values with the missing ones filled in.
-/

namespace TimeSeries

/-- **Row** of a query's result. -/
structure Row : Type where
  /-- the name of the series, if the record has one -/
  series : Option String := none
  /-- the timestamp, if the record has a series -/
  timestamp : Option Timestamp := none
  /-- the values, one for each slot -/
  values : List Double := []
  deriving DecidableEq, Repr

namespace Row

/-- The time of the row, if it has a timestamp that is an instant. -/
def time (r : Row) : Option Instant := r.timestamp.bind Instant.ofTimestamp?

/-- The first value, or NaN if there is none. -/
def value (r : Row) : Double := r.values.headD Double.nan

/-- The metric of the series. -/
def metric (r : Row) : Option String := r.series.map Series.metric

/-- The metrics of the series, one for each item of its head. -/
def metrics (r : Row) : List String := (r.series.map Series.metrics).getD []

/-- The tags of the series. -/
def tags (r : Row) : List Tag := (r.series.map Series.tags).getD []

/-- The aggregates the series mentions, in order. -/
def aggregates (r : Row) : List Aggregate := (r.series.map Series.aggregates).getD []

/-- The value at the position an aggregate has among those of the series, or NaN
if there is none. -/
def valueOf (r : Row) (f : Aggregate) : Double :=
  match r.aggregates.findIdx? (· == f) with
  | some i => (r.values[i]?).getD Double.nan
  | none => Double.nan

end Row

end TimeSeries
