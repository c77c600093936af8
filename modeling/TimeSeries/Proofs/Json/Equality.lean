import TimeSeries.Json.Value

/-!
# Equality of documents

Whether two documents are equal can be computed (`Json.same`), as it goes down both at once: lists
item by item, and objects field by field. So what a reader makes of a text can be compared with the
document that it should be.
-/

namespace TimeSeries.Json

mutual

/-- Whether two documents are equal. -/
def same : Json → Json → Bool
  | .null, .null => true
  | .bool b, .bool b' => b == b'
  | .number n, .number n' => n == n'
  | .text s, .text s' => s == s'
  | .array items, .array items' => sameItems items items'
  | .object fields, .object fields' => sameFields fields fields'
  | _, _ => false

/-- Whether two lists have equal items. -/
def sameItems : List Json → List Json → Bool
  | [], [] => true
  | item :: items, item' :: items' => same item item' && sameItems items items'
  | _, _ => false

/-- Whether two lists have equal fields. -/
def sameFields : List (String × Json) → List (String × Json) → Bool
  | [], [] => true
  | (key, value) :: fields, (key', value') :: fields' =>
    key == key' && same value value' && sameFields fields fields'
  | _, _ => false

end

mutual

theorem same_iff : (a b : Json) → (same a b = true ↔ a = b)
  | .null, b => by cases b <;> simp [same]
  | .bool x, b => by cases b <;> simp [same]
  | .number x, b => by cases b <;> simp [same]
  | .text x, b => by cases b <;> simp [same]
  | .array items, b => by cases b <;> simp [same, sameItems_iff items]
  | .object fields, b => by cases b <;> simp [same, sameFields_iff fields]

theorem sameItems_iff : (as bs : List Json) → (sameItems as bs = true ↔ as = bs)
  | [], bs => by cases bs <;> simp [sameItems]
  | a :: as, bs => by cases bs <;> simp [sameItems, same_iff a, sameItems_iff as]

theorem sameFields_iff : (as bs : List (String × Json)) → (sameFields as bs = true ↔ as = bs)
  | [], bs => by cases bs <;> simp [sameFields]
  | (key, a) :: as, bs => by
    rcases bs with _ | ⟨⟨key', b⟩, bs⟩ <;> simp [sameFields, same_iff a, sameFields_iff as]

end

instance : DecidableEq Json := fun a b => decidable_of_iff _ (same_iff a b)

end TimeSeries.Json
