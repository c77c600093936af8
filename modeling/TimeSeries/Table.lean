/-!
# Tables: finite maps in order of insertion

A table maps keys to values. A new key goes to the end and a known one is
overwritten in place, so a key occurs at most once in a table built by `put`.
Main facts: `find?_put`, `find?_erase` and `find?_keep` say what each operation does to a
look-up, and `find?_put_ne` that other keys are not touched.
-/

namespace TimeSeries

/-- **Table** from keys to values. -/
structure Table (κ α : Type) : Type where
  /-- the entries, in order of insertion -/
  entries : List (κ × α) := []
  deriving DecidableEq, Repr

namespace Table

variable {κ α : Type} [DecidableEq κ]

/-- The table without entries. -/
def empty : Table κ α := {}

/-- The value at a key. -/
def find? (t : Table κ α) (k : κ) : Option α :=
  (t.entries.find? fun e => e.1 = k).map Prod.snd

/-- Whether there is a value at a key. -/
def has (t : Table κ α) (k : κ) : Bool := (t.find? k).isSome

/-- Sets the value at a key in a list of entries. -/
def putEntry (k : κ) (a : α) : List (κ × α) → List (κ × α)
  | [] => [(k, a)]
  | e :: es => if e.1 = k then (k, a) :: es else e :: putEntry k a es

/-- Sets the value at a key. -/
def put (t : Table κ α) (k : κ) (a : α) : Table κ α := ⟨putEntry k a t.entries⟩

/-- Removes a key. -/
def erase (t : Table κ α) (k : κ) : Table κ α := ⟨t.entries.filter fun e => e.1 ≠ k⟩

/-- Changes every value. -/
def mapValues (t : Table κ α) (f : α → α) : Table κ α :=
  ⟨t.entries.map fun e => (e.1, f e.2)⟩

/-- Keeps the entries whose value is wanted. -/
def keep (t : Table κ α) (p : α → Bool) : Table κ α := ⟨t.entries.filter fun e => p e.2⟩

/-- The keys, in order. -/
def keys (t : Table κ α) : List κ := t.entries.map Prod.fst

/-- The values, in order. -/
def values (t : Table κ α) : List α := t.entries.map Prod.snd

/-- The number of entries. -/
def size (t : Table κ α) : Nat := t.entries.length

/-! ### Look-up after a change -/

@[simp] theorem find?_empty (k : κ) : (empty : Table κ α).find? k = none := rfl

theorem find?_mk_cons (e : κ × α) (es : List (κ × α)) (k : κ) :
    (Table.mk (e :: es)).find? k = if e.1 = k then some e.2 else (Table.mk es).find? k := by
  by_cases h : e.1 = k <;> simp [find?, h]

theorem find?_put (t : Table κ α) (k : κ) (a : α) (j : κ) :
    (t.put k a).find? j = if k = j then some a else t.find? j := by
  obtain ⟨es⟩ := t
  induction es with
  | nil => rw [put, putEntry, find?_mk_cons]
  | cons e es ih =>
    rw [put] at ih ⊢
    rw [putEntry]
    by_cases he : e.1 = k
    · rw [if_pos he, find?_mk_cons, find?_mk_cons, he]
      by_cases hk : k = j <;> simp [hk]
    · rw [if_neg he, find?_mk_cons, ih, find?_mk_cons]
      by_cases hj : e.1 = j
      · rw [if_pos hj, if_pos hj, if_neg fun hk => he (hj.trans hk.symm)]
      · rw [if_neg hj, if_neg hj]

@[simp] theorem find?_put_self (t : Table κ α) (k : κ) (a : α) :
    (t.put k a).find? k = some a := by
  rw [find?_put, if_pos rfl]

theorem find?_put_ne (t : Table κ α) {k j : κ} (a : α) (h : k ≠ j) :
    (t.put k a).find? j = t.find? j := by
  rw [find?_put, if_neg h]

/-- What is found after a change was put there or was there before. -/
theorem find?_put_eq_some {t : Table κ α} {k j : κ} {a b : α} (h : (t.put k a).find? j = some b) :
    k = j ∧ a = b ∨ t.find? j = some b := by
  rw [find?_put] at h
  split at h
  next hk => exact .inl ⟨hk, Option.some.inj h⟩
  next => exact .inr h

theorem find?_erase (t : Table κ α) (k j : κ) :
    (t.erase k).find? j = if k = j then none else t.find? j := by
  obtain ⟨es⟩ := t
  induction es with
  | nil => simp [erase, find?]
  | cons e es ih =>
    rw [erase] at ih ⊢
    rw [List.filter_cons]
    by_cases he : e.1 = k
    · simp only [he, ne_eq, not_true, decide_false, Bool.false_eq_true, if_false]
      rw [ih, find?_mk_cons, he]
      by_cases hk : k = j <;> simp [hk]
    · simp only [he, ne_eq, not_false_eq_true, decide_true, if_true]
      rw [find?_mk_cons, ih, find?_mk_cons]
      by_cases hj : e.1 = j
      · rw [if_pos hj, if_pos hj, if_neg fun hk => he (hj.trans hk.symm)]
      · rw [if_neg hj, if_neg hj]

/-- What is found after a key was removed was there before. -/
theorem find?_erase_eq_some {t : Table κ α} {k j : κ} {a : α} (h : (t.erase k).find? j = some a) :
    t.find? j = some a := by
  rw [find?_erase] at h
  split at h
  · cases h
  · exact h

/-- There is nothing to remove at a key without a value. -/
theorem erase_of_find?_eq_none {t : Table κ α} {k : κ} (h : t.find? k = none) : t.erase k = t := by
  rw [find?, Option.map_eq_none_iff, List.find?_eq_none] at h
  obtain ⟨es⟩ := t
  rw [erase, Table.mk.injEq, List.filter_eq_self]
  intro e he
  simpa using h e he

/-- What is wanted is kept. -/
theorem find?_keep (t : Table κ α) {k : κ} {a : α} {p : α → Bool} (h : t.find? k = some a)
    (ha : p a = true) : (t.keep p).find? k = some a := by
  obtain ⟨es⟩ := t
  induction es with
  | nil => cases h
  | cons e es ih =>
    rw [find?_mk_cons] at h
    rw [keep] at ih ⊢
    rw [List.filter_cons]
    by_cases hk : e.1 = k
    · obtain rfl : e.2 = a := by simpa [hk] using h
      rw [if_pos ha, find?_mk_cons, if_pos hk]
    · rw [if_neg hk] at h
      split
      · rw [find?_mk_cons, if_neg hk]
        exact ih h
      · exact ih h

theorem mem_values_of_find? {t : Table κ α} {k : κ} {a : α} (h : t.find? k = some a) :
    a ∈ t.values := by
  obtain ⟨e, he, rfl⟩ := Option.map_eq_some_iff.mp h
  exact List.mem_map_of_mem (List.mem_of_find?_eq_some he)

theorem mem_keys_of_find? {t : Table κ α} {k : κ} {a : α} (h : t.find? k = some a) :
    k ∈ t.keys := by
  obtain ⟨e, he, rfl⟩ := Option.map_eq_some_iff.mp h
  have hkey := List.find?_some he
  have hmem := List.mem_map_of_mem (f := Prod.fst) (List.mem_of_find?_eq_some he)
  rwa [of_decide_eq_true hkey] at hmem

/-! ### Setting a key again -/

theorem put_put (t : Table κ α) (k : κ) (a b : α) : (t.put k a).put k b = t.put k b := by
  obtain ⟨es⟩ := t
  induction es with
  | nil => simp [put, putEntry]
  | cons e es ih =>
    simp only [put, Table.mk.injEq] at ih ⊢
    by_cases hk : e.1 = k <;> simp [putEntry, hk, ih]

/-- Setting a key to the value it has changes nothing. -/
theorem put_of_find? {t : Table κ α} {k : κ} {a : α} (h : t.find? k = some a) : t.put k a = t := by
  obtain ⟨es⟩ := t
  induction es with
  | nil => cases h
  | cons e es ih =>
    rw [find?_mk_cons] at h
    by_cases hk : e.1 = k
    · obtain rfl : e.2 = a := by simpa [hk] using h
      simp [put, putEntry, ← hk]
    · rw [if_neg hk] at h
      have hrest := ih h
      simp only [put, Table.mk.injEq] at hrest
      simp [put, putEntry, hk, hrest]

end Table

end TimeSeries
