import TimeSeries.Double

/-!
# JSON documents

Queries are JSON documents. A document's objects hold their fields in ascending
order of the keys, each key once; `putField` keeps that shape and lets a later
value for a key take the place of an earlier one. Numbers keep the kind they were
written with: a whole number that fits a word is not a double, and the readers
`word?` and `double?` accept what their kind allows.
-/

namespace TimeSeries

/-- **JSON number**, by the way it is held. -/
inductive JsonNumber : Type where
  /-- a whole number from `0` to `2 ^ 64 - 1` -/
  | word (w : UInt64)
  /-- the whole number `-(n + 1)`, down to `-2 ^ 63` -/
  | negative (n : UInt64)
  /-- any other number -/
  | double (d : Double)
  deriving DecidableEq, Repr

/-- **JSON document.** -/
inductive Json : Type where
  /-- the literal `null` -/
  | null
  /-- a truth value -/
  | bool (b : Bool)
  /-- a number -/
  | number (n : JsonNumber)
  /-- a text -/
  | text (s : String)
  /-- a list of documents -/
  | array (items : List Json)
  /-- fields in ascending order of their keys -/
  | object (fields : List (String × Json))
  deriving Repr, Inhabited

namespace Json

/-! ### Building -/

/-- Sets one field of an object, keeping the fields in ascending order. -/
def putField (key : String) (value : Json) : List (String × Json) → List (String × Json)
  | [] => [(key, value)]
  | (k, v) :: rest =>
    if key = k then (key, value) :: rest
    else if key < k then (key, value) :: (k, v) :: rest
    else (k, v) :: putField key value rest

/-- The object with these fields; of two values for one key the later counts. -/
def ofFields (fields : List (String × Json)) : Json :=
  .object (fields.foldl (fun acc f => putField f.1 f.2 acc) [])

/-- A word as a number. -/
def ofWord (w : UInt64) : Json := .number (.word w)

/-- A double as a number. What is not finite has no number and becomes `null`. -/
def ofDouble (d : Double) : Json := if d.isFinite then .number (.double d) else .null

/-- A list of texts. -/
def ofTexts (texts : List String) : Json := .array (texts.map .text)

/-! ### Reading -/

/-- The value of a field in a list of fields. -/
def field? (fields : List (String × Json)) (key : String) : Option Json :=
  (fields.find? fun f => f.1 == key).map Prod.snd

/-- The fields of an object. -/
def object? : Json → Option (List (String × Json))
  | .object fields => some fields
  | _ => none

/-- The items of a list. -/
def array? : Json → Option (List Json)
  | .array items => some items
  | _ => none

/-- The text of a text. -/
def text? : Json → Option String
  | .text s => some s
  | _ => none

/-- The number as a word, if it is held as one. -/
def word? : Json → Option UInt64
  | .number (.word w) => some w
  | _ => none

/-- The number as a double, rounded to the nearest if need be. -/
def double? : Json → Option Double
  | .number (.word w) => some (Double.ofWord w)
  | .number (.negative n) => some (Double.ofWord (n + 1)).neg
  | .number (.double d) => some d
  | _ => none

end Json

end TimeSeries
