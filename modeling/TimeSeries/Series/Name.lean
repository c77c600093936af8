import TimeSeries.Aggregate
import TimeSeries.Text.Fields

/-!
# Series names

A series name is a head, a space and tags: `cpu.load host=a region=eu`. The head
names one metric or, joined by `|`, several; each may carry the aggregate that
was applied to it, as in `cpu:min|cpu:max host=a`. The head ends at the first
space after leading blanks, so it may hold other blanks; tags are the words
after it that have a `=`.
-/

namespace TimeSeries

/-- **Tag** of a series: a name and a value, written `name=value`. -/
structure Tag : Type where
  /-- what the tag says something about -/
  name : String
  /-- what it says -/
  value : String
  deriving DecidableEq, Repr

namespace Tag

/-- The text of a tag. -/
def text (t : Tag) : String := t.name ++ "=" ++ t.value

/-- The tag a word spells: it is cut at the first `=`, and a word without one is
no tag. Either side may be empty. -/
def ofWord? (word : List Char) : Option Tag :=
  (Text.cutFirst '=' word).map fun cut => ⟨String.ofList cut.1, String.ofList cut.2⟩

/-- The order of tags: by name, then by value. -/
def le (a b : Tag) : Bool := a.name < b.name || (a.name == b.name && a.value ≤ b.value)

end Tag

namespace Series

/-- Head and tag text of a name: cut at the first space that follows the leading
blanks. Without such a space all of it is head. -/
def splitHead (name : String) : List Char × List Char :=
  let cs := name.toList.dropWhile Text.isBlank
  (Text.cutFirst ' ' cs).getD (cs, [])

/-- Splits an item of a head into metric and aggregate. What follows the last
`:` counts as an aggregate only if it is the name of one; otherwise the whole
item is the metric. -/
def splitItem (item : List Char) : String × Option Aggregate :=
  match Text.cutLast ':' item with
  | none => (String.ofList item, none)
  | some (metric, suffix) =>
    match Aggregate.ofName? (String.ofList suffix) with
    | some f => (String.ofList metric, some f)
    | none => (String.ofList item, none)

/-- The items of a name's head, each with its aggregate: what stands between the
`|`. An empty head has one empty item. -/
def items (name : String) : List (String × Option Aggregate) :=
  ((splitHead name).1.splitOn '|').map splitItem

/-- The metric of a name: that of its first item. -/
def metric (name : String) : String := ((items name).head?.map Prod.fst).getD ""

/-- The metrics of a name, one for each item; an empty head has none. -/
def metrics (name : String) : List String :=
  if (splitHead name).1.isEmpty then [] else (items name).map Prod.fst

/-- The aggregates a name mentions, in the order of its items. Items without
one are passed over. -/
def aggregates (name : String) : List Aggregate := (items name).filterMap Prod.snd

/-- The tags of a name, in the order written. Words without `=` are passed over. -/
def tags (name : String) : List Tag :=
  (Text.words (splitHead name).2).filterMap Tag.ofWord?

end Series

end TimeSeries
