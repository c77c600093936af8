/-!
# Aggregates: functions from points to one value

The nine functions that reduce the points of a series to one value. A query
asks for one by name, and the name of a series an aggregate produced ends with
it. Main fact: `ofName?_name` — the names are read back.
-/

namespace TimeSeries

/-- An aggregate function. -/
inductive Aggregate : Type where
  /-- the number of points -/
  | count
  /-- the largest value -/
  | max
  /-- the smallest value -/
  | min
  /-- the sum divided by the number of points -/
  | mean
  /-- the sum of the values -/
  | sum
  /-- the timestamp of the smallest value -/
  | minTimestamp
  /-- the timestamp of the largest value -/
  | maxTimestamp
  /-- the value at the earliest timestamp -/
  | first
  /-- the value at the latest timestamp -/
  | last
  deriving DecidableEq, Repr

namespace Aggregate

/-- All aggregates, in their fixed order. -/
def all : List Aggregate :=
  [count, max, min, mean, sum, minTimestamp, maxTimestamp, first, last]

/-- The name used in queries and in series names. -/
def name : Aggregate → String
  | count => "count"
  | max => "max"
  | min => "min"
  | mean => "mean"
  | sum => "sum"
  | minTimestamp => "min_timestamp"
  | maxTimestamp => "max_timestamp"
  | first => "first"
  | last => "last"

/-- The aggregate with a given name; names are case sensitive. -/
def ofName? (s : String) : Option Aggregate := all.find? fun f => f.name == s

@[simp] theorem ofName?_name (f : Aggregate) : ofName? f.name = some f := by
  cases f <;> rfl

end Aggregate

end TimeSeries
