import Mathlib.Data.String.Basic
import TimeSeries.Json.Value

/-!
# Fields of an object

Setting a field is seen by that key and by no other (`Json.field?_putField`), in whatever
order the fields are held. So an object has, for a key, the last value it was given
(`Json.field?_entries`); and as its keys ascend, what is found is all there is
(`Json.mem_entries`).

The documents of queries are put together from fields that are there or not. Where each
key is named once, looking one up gives what was said of it (`Json.field?_present`).
-/

namespace TimeSeries.Json

variable {key k : String} {value : Json} {fields more : List (String × Json)}

/-! ### Looking up -/

@[simp] theorem field?_nil (k : String) : field? [] k = none := rfl

theorem field?_cons (f : String × Json) (fields : List (String × Json)) (k : String) :
    field? (f :: fields) k = if f.1 = k then some f.2 else field? fields k := by
  by_cases h : f.1 = k
  · simp [field?, h]
  · simp [field?, h]

/-- The first of two lists that has the field decides. -/
theorem field?_append (fields more : List (String × Json)) (k : String) :
    field? (fields ++ more) k = (field? fields k).or (field? more k) := by
  rw [field?, field?, field?, List.find?_append]
  cases List.find? (fun f => f.1 == k) fields <;> rfl

theorem mem_of_field? (h : field? fields k = some value) : (k, value) ∈ fields := by
  obtain ⟨f, hfind, rfl⟩ := Option.map_eq_some_iff.mp h
  obtain rfl : f.1 = k := by simpa using List.find?_some hfind
  exact List.mem_of_find?_eq_some hfind

/-- Where no key occurs twice, a field that is there is the one that is found. -/
theorem field?_of_mem
    (hkeys : (fields.map Prod.fst).Nodup)
    (h : (k, value) ∈ fields) :
    field? fields k = some value := by
  induction fields with
  | nil => cases h
  | cons f fields ih =>
    obtain ⟨hfresh, hkeys⟩ := List.nodup_cons.mp hkeys
    rw [field?_cons]
    rcases List.mem_cons.mp h with rfl | h
    · exact if_pos rfl
    · have hne : f.1 ≠ k := by
        rintro rfl
        exact hfresh (List.mem_map.mpr ⟨_, h, rfl⟩)
      rw [if_neg hne, ih hkeys h]

/-! ### Setting a field -/

/-- **A field that is set is seen by its key only.** -/
theorem field?_putField (key : String) (value : Json) (fields : List (String × Json))
    (k : String) :
    field? (putField key value fields) k = if key = k then some value else field? fields k := by
  induction fields with
  | nil => rw [putField, field?_cons]
  | cons f fields ih =>
    rw [putField]
    split
    next hkey =>
      subst hkey
      rw [field?_cons, field?_cons]
      split <;> rfl
    next hkey =>
      split
      next => rw [field?_cons]
      next =>
        rw [field?_cons, field?_cons, ih]
        split
        next hf => rw [if_neg fun h => hkey (h.trans hf.symm)]
        next => rfl

theorem mem_putField {f : String × Json} (h : f ∈ putField key value fields) :
    f = (key, value) ∨ f ∈ fields := by
  induction fields with
  | nil => exact .inl (List.mem_singleton.mp h)
  | cons g fields ih =>
    rw [putField] at h
    split at h
    · exact (List.mem_cons.mp h).imp_right (List.mem_cons_of_mem _)
    · split at h
      · exact List.mem_cons.mp h
      · rcases List.mem_cons.mp h with rfl | h
        · exact .inr List.mem_cons_self
        · exact (ih h).imp_right (List.mem_cons_of_mem _)

/-- **Ascending fields**: each key is less than all that follow it. -/
def Ascending (fields : List (String × Json)) : Prop :=
  fields.Pairwise fun f g => f.1 < g.1

/-- Ascending keys are all different. -/
theorem Ascending.nodup (h : Ascending fields) : (fields.map Prod.fst).Nodup :=
  List.pairwise_map.mpr (h.imp ne_of_lt)

theorem Ascending.putField (h : Ascending fields) : Ascending (putField key value fields) := by
  induction fields with
  | nil => exact List.pairwise_singleton _ _
  | cons f fields ih =>
    obtain ⟨hf, hfields⟩ := List.pairwise_cons.mp h
    rw [Json.putField]
    split
    next hkey => exact List.pairwise_cons.mpr ⟨hkey ▸ hf, hfields⟩
    next hkey =>
      split
      next hlt =>
        refine List.pairwise_cons.mpr ⟨fun g hg => ?_, h⟩
        rcases List.mem_cons.mp hg with rfl | hg
        · exact hlt
        · exact lt_trans hlt (hf g hg)
      next hlt =>
        refine List.pairwise_cons.mpr ⟨fun g hg => ?_, ih hfields⟩
        rcases mem_putField hg with rfl | hg
        · exact lt_of_le_of_ne (not_lt.mp hlt) (Ne.symm hkey)
        · exact hf g hg

/-! ### Objects -/

/-- The fields of an object that is given these fields one after another. -/
def entries (fields : List (String × Json)) : List (String × Json) :=
  fields.foldl (fun acc f => putField f.1 f.2 acc) []

theorem ofFields_eq (fields : List (String × Json)) : ofFields fields = .object (entries fields) :=
  rfl

/-- **An object has the last value it was given for a key.** -/
theorem field?_entries (fields : List (String × Json)) (k : String) :
    field? (entries fields) k = field? fields.reverse k := by
  have hfold : ∀ acc, field? (fields.foldl (fun acc f => putField f.1 f.2 acc) acc) k =
      (field? fields.reverse k).or (field? acc k) := by
    induction fields with
    | nil => intro acc; rfl
    | cons f fields ih =>
      intro acc
      rw [List.foldl_cons, ih, List.reverse_cons, field?_append, Option.or_assoc,
        field?_putField, field?_cons]
      split <;> rfl
  rw [entries, hfold, field?_nil, Option.or_none]

theorem ascending_entries (fields : List (String × Json)) : Ascending (entries fields) := by
  have hfold : ∀ acc, Ascending acc →
      Ascending (fields.foldl (fun acc f => putField f.1 f.2 acc) acc) := by
    induction fields with
    | nil => intro acc h; exact h
    | cons f fields ih => intro acc h; exact ih _ h.putField
  exact hfold [] List.Pairwise.nil

/-- **The fields of an object** are the last ones it was given for their keys. -/
theorem mem_entries : (k, value) ∈ entries fields ↔ field? fields.reverse k = some value := by
  rw [← field?_entries]
  exact ⟨field?_of_mem (ascending_entries fields).nodup, mem_of_field?⟩

/-! ### Fields that are there or not -/

/-- The fields that have a value, out of a list of keys with and without one. -/
def present (parts : List (String × Option Json)) : List (String × Json) :=
  parts.flatMap fun part => (part.2.map fun value => (part.1, value)).toList

theorem present_cons (part : String × Option Json) (parts : List (String × Option Json)) :
    present (part :: parts) =
      (part.2.map fun value => (part.1, value)).toList ++ present parts := rfl

theorem present_append (parts more : List (String × Option Json)) :
    present (parts ++ more) = present parts ++ present more := List.flatMap_append

/-- A field that is written if there is a value. -/
theorem toList_map_field {α : Type} (o : Option α) (key : String) (write : α → Json) :
    (o.map fun a => (key, write a)).toList = present [(key, o.map write)] := by
  cases o <;> rfl

/-- What is said of a key in a list of keys with and without a value. -/
def part? (parts : List (String × Option Json)) (k : String) : Option Json :=
  (parts.find? fun part => part.1 == k).bind Prod.snd

theorem field?_toList (o : Option Json) (key k : String) :
    field? (o.map fun value => (key, value)).toList k = if key = k then o else none := by
  cases o with
  | none => simp
  | some value => simp [field?_cons]

/-- **Looking a field up** where each key is named once gives what was said of the key. -/
theorem field?_present {parts : List (String × Option Json)}
    (hkeys : (parts.map Prod.fst).Nodup) (k : String) :
    field? (entries (present parts)) k = part? parts k := by
  rw [field?_entries]
  induction parts with
  | nil => rfl
  | cons part parts ih =>
    obtain ⟨hfresh, hkeys⟩ := List.nodup_cons.mp hkeys
    have hreverse : ((part.2.map fun value => (part.1, value)).toList).reverse =
        (part.2.map fun value => (part.1, value)).toList := by cases part.2 <;> rfl
    rw [present_cons, List.reverse_append, field?_append, hreverse, field?_toList, ih hkeys]
    by_cases hk : part.1 = k
    · -- no later part has this key
      have hnone : part? parts k = none := by
        have hfind : (parts.find? fun part => part.1 == k) = none := by
          refine List.find?_eq_none.mpr fun other hother heq => hfresh ?_
          rw [hk, ← beq_iff_eq.mp heq]
          exact List.mem_map_of_mem hother
        rw [part?, hfind]
        rfl
      rw [if_pos hk, hnone, Option.none_or, part?, List.find?_cons_of_pos (by simpa using hk)]
      rfl
    · rw [if_neg hk, Option.or_none, part?, part?, List.find?_cons_of_neg (by simpa using hk)]

end TimeSeries.Json
