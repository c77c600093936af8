import TimeSeries.Series.Name

/-!
# Canonical series names

Two spellings of a series that differ in blanks, in the order of their tags or
in repeated tags mean the same series. `normalize` picks one spelling for all of
them: the metric, then each tag name once, in ascending order and with its least
value, with single spaces between. A text that is not a metric followed by one or
more tags, each with a name and a value, spells no series.
-/

namespace TimeSeries.Series

/-- The tags that a list of words spells, if each is a tag with a name and a
value. -/
def fullTags? (words : List (List Char)) : Option (List Tag) :=
  words.mapM fun word =>
    match Tag.ofWord? word with
    | some tag => if tag.name.isEmpty || tag.value.isEmpty then none else some tag
    | none => none

/-- Of tags that follow each other and share a name, keeps the first. -/
def dropRepeats : List Tag → List Tag
  | [] => []
  | tag :: rest =>
    match dropRepeats rest with
    | [] => [tag]
    | next :: kept => if tag.name = next.name then tag :: kept else tag :: next :: kept

/-- Tags in ascending order, each name once and with its least value. -/
def sortTags (tags : List Tag) : List Tag := dropRepeats (tags.mergeSort Tag.le)

/-- A metric and its tags, with single spaces between. -/
def write (metric : String) (tags : List Tag) : String :=
  tags.foldl (fun text tag => text ++ " " ++ tag.text) metric

/-- **Canonical name** of the series a text spells, if it spells one. -/
def normalize (text : String) : Option String :=
  match Text.words text.toList with
  | [] => none
  | metric :: rest =>
    match fullTags? rest with
    | none => none
    | some [] => none
    | some tags => some (write (String.ofList metric) (sortTags tags))

/-- Names longer than this many bytes are refused when writing. -/
def maxNameBytes : Nat := 1000

end TimeSeries.Series
