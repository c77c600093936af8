import TimeSeries.Table

/-!
# Edits of tables

Whatever is done to a table at one key (`Table.Edit`) leaves all other keys alone, and keeps the
keys distinct (`Edit.distinct`). In a table with distinct keys the values are those that are found
(`Distinct.any_values_iff`).

A table may show some of another, by less about each value (`Table.Shown`): edits at keys that are
shown are made in both, and those at other keys are not seen.
-/

namespace TimeSeries

namespace Table

variable {κ α : Type} [DecidableEq κ] {k j : κ} {t t' : Table κ α}

/-- **Edits at a key**: what is there is set or removed. -/
inductive Edit (k : κ) (t : Table κ α) : Table κ α → Prop where
  /-- nothing is done -/
  | refl : Edit k t t
  /-- a value is set -/
  | put {t' : Table κ α} (a : α) : Edit k t t' → Edit k t (t'.put k a)
  /-- the value is removed -/
  | erase {t' : Table κ α} : Edit k t t' → Edit k t (t'.erase k)

/-- Other keys are not touched. -/
theorem Edit.find?_eq (h : Edit k t t') (hne : k ≠ j) : t'.find? j = t.find? j := by
  induction h with
  | refl => rfl
  | put a _ ih => rw [find?_put_ne _ _ hne, ih]
  | erase _ ih => rw [find?_erase, if_neg hne, ih]

/-- **Distinct keys**, as any table has that is built by edits. -/
def Distinct (t : Table κ α) : Prop := t.keys.Nodup

theorem mem_keys_putEntry {a : α} {entries : List (κ × α)}
    (h : j ∈ (putEntry k a entries).map Prod.fst) : j = k ∨ j ∈ entries.map Prod.fst := by
  induction entries with
  | nil => exact .inl (List.mem_singleton.mp h)
  | cons e entries ih =>
    rw [putEntry] at h
    split at h
    · exact (List.mem_cons.mp h).imp_right (List.mem_cons_of_mem _)
    · obtain rfl | h := List.mem_cons.mp h
      · exact .inr List.mem_cons_self
      · exact (ih h).imp_right (List.mem_cons_of_mem _)

theorem Distinct.put (h : t.Distinct) (k : κ) (a : α) : (t.put k a).Distinct := by
  obtain ⟨entries⟩ := t
  rw [Distinct, keys] at h ⊢
  rw [Table.put]
  dsimp only at h ⊢
  induction entries with
  | nil => exact List.nodup_cons.mpr ⟨List.not_mem_nil, List.nodup_nil⟩
  | cons e entries ih =>
    rw [List.map_cons, List.nodup_cons] at h
    rw [putEntry]
    split
    next heq =>
      rw [List.map_cons, List.nodup_cons, ← heq]
      exact h
    next hne =>
      rw [List.map_cons, List.nodup_cons]
      exact ⟨fun hmem => (mem_keys_putEntry hmem).elim hne h.1, ih h.2⟩

theorem Distinct.erase (h : t.Distinct) (k : κ) : (t.erase k).Distinct :=
  List.Nodup.sublist (List.filter_sublist.map _) h

theorem Edit.distinct (h : Edit k t t') (ht : t.Distinct) : t'.Distinct := by
  induction h with
  | refl => exact ht
  | put a _ ih => exact ih.put k a
  | erase _ ih => exact ih.erase k

/-- In a table with distinct keys every entry is found. -/
theorem Distinct.find?_eq (h : t.Distinct) {a : α} (hmem : (k, a) ∈ t.entries) :
    t.find? k = some a := by
  obtain ⟨entries⟩ := t
  rw [Distinct, keys] at h
  dsimp only at h hmem
  induction entries with
  | nil => cases hmem
  | cons e entries ih =>
    rw [List.map_cons, List.nodup_cons] at h
    rw [find?_mk_cons]
    obtain rfl | hmem := List.mem_cons.mp hmem
    · exact if_pos rfl
    · rw [if_neg, ih h.2 hmem]
      rintro rfl
      exact h.1 (List.mem_map.mpr ⟨_, hmem, rfl⟩)

/-- In a table with distinct keys every value is found. -/
theorem Distinct.any_values_iff (h : t.Distinct) {p : α → Bool} :
    t.values.any p = true ↔ ∃ k a, t.find? k = some a ∧ p a = true := by
  rw [List.any_eq_true]
  constructor
  · rintro ⟨a, ha, hp⟩
    obtain ⟨⟨k, a⟩, hmem, rfl⟩ := List.mem_map.mp ha
    exact ⟨k, a, h.find?_eq hmem, hp⟩
  · rintro ⟨k, a, ha, hp⟩
    exact ⟨a, mem_values_of_find? ha, hp⟩

/-- An entry after a value was set is the new one or was there before. -/
theorem mem_entries_put {a b : α} (h : (j, b) ∈ (t.put k a).entries) :
    j = k ∧ b = a ∨ (j, b) ∈ t.entries := by
  obtain ⟨entries⟩ := t
  rw [Table.put] at h
  dsimp only at h ⊢
  induction entries with
  | nil => exact .inl (Prod.mk.inj (List.mem_singleton.mp h))
  | cons e entries ih =>
    rw [putEntry] at h
    split at h
    · obtain h | h := List.mem_cons.mp h
      · exact .inl (Prod.mk.inj h)
      · exact .inr (List.mem_cons_of_mem _ h)
    · obtain rfl | h := List.mem_cons.mp h
      · exact .inr List.mem_cons_self
      · exact (ih h).imp_right (List.mem_cons_of_mem _)

/-- An entry after a key was removed is another one, and was there before. -/
theorem mem_entries_erase {b : α} (h : (j, b) ∈ (t.erase k).entries) :
    j ≠ k ∧ (j, b) ∈ t.entries := by
  obtain ⟨hmem, hne⟩ := List.mem_filter.mp h
  exact ⟨of_decide_eq_true hne, hmem⟩

/-- Where there is an entry there is a value. -/
theorem has_of_mem_entries {a : α} (h : (k, a) ∈ t.entries) : t.has k = true := by
  rw [has, find?, Option.isSome_map, List.find?_isSome]
  exact ⟨_, h, decide_eq_true rfl⟩

theorem find?_of_mem_keys (h : k ∈ t.keys) : ∃ a, t.find? k = some a := by
  obtain ⟨⟨k, a⟩, hentry, rfl⟩ := List.mem_map.mp h
  exact Option.isSome_iff_exists.mp (has_of_mem_entries hentry)

theorem not_mem_keys_of_find?_eq_none (h : t.find? k = none) : k ∉ t.keys := by
  rintro hmem
  obtain ⟨⟨k, a⟩, hentry, rfl⟩ := List.mem_map.mp hmem
  rw [← Option.not_isSome_iff_eq_none] at h
  exact h (has_of_mem_entries hentry)

/-! ### Keys -/

omit [DecidableEq κ] in
theorem length_keys (t : Table κ α) : t.keys.length = t.size := List.length_map _

theorem keys_erase (t : Table κ α) (k : κ) : (t.erase k).keys = t.keys.filter (· ≠ k) := by
  rw [erase, keys, keys, List.filter_map]
  rfl

/-- A new key goes to the end. -/
theorem entries_put_of_not_mem (a : α) (h : k ∉ t.keys) :
    (t.put k a).entries = t.entries ++ [(k, a)] := by
  obtain ⟨entries⟩ := t
  rw [put]
  dsimp only
  induction entries with
  | nil => rfl
  | cons e entries ih =>
    rw [keys, List.map_cons, List.mem_cons, not_or] at h
    rw [putEntry, if_neg (Ne.symm h.1), ih h.2, List.cons_append]

theorem keys_put_of_not_mem (a : α) (h : k ∉ t.keys) : (t.put k a).keys = t.keys ++ [k] := by
  rw [keys, entries_put_of_not_mem a h, List.map_append]
  rfl

theorem values_put_of_not_mem (a : α) (h : k ∉ t.keys) :
    (t.put k a).values = t.values ++ [a] := by
  rw [values, entries_put_of_not_mem a h, List.map_append]
  rfl

/-! ### Images -/

section Images

variable {β : Type}

/-- **The image of a table**: something about each value, at the same keys. -/
def image (f : α → β) (t : Table κ α) : Table κ β := ⟨t.entries.map fun e => (e.1, f e.2)⟩

omit [DecidableEq κ] in
theorem keys_image (f : α → β) (t : Table κ α) : (t.image f).keys = t.keys := by
  rw [image, keys, List.map_map]
  rfl

omit [DecidableEq κ] in
theorem values_image (f : α → β) (t : Table κ α) : (t.image f).values = t.values.map f := by
  rw [image, values, values, List.map_map, List.map_map]
  rfl

theorem find?_image (f : α → β) (t : Table κ α) (k : κ) :
    (t.image f).find? k = (t.find? k).map f := by
  rw [find?, image, List.find?_map, Option.map_map, find?, Option.map_map]
  rfl

theorem image_put (f : α → β) (t : Table κ α) (k : κ) (a : α) :
    (t.put k a).image f = (t.image f).put k (f a) := by
  obtain ⟨entries⟩ := t
  simp only [image, put, mk.injEq]
  induction entries with
  | nil => rfl
  | cons e entries ih => by_cases hk : e.1 = k <;> simp [putEntry, hk, ih]

theorem image_erase (f : α → β) (t : Table κ α) (k : κ) :
    (t.erase k).image f = (t.image f).erase k := by
  rw [image, image, erase, erase, List.filter_map]
  rfl

end Images

/-- The keys of a table, and nothing about the values. -/
def marks (t : Table κ α) : Table κ Unit := ⟨t.entries.map fun e => (e.1, ())⟩

omit [DecidableEq κ] in
@[simp] theorem keys_marks (t : Table κ α) : t.marks.keys = t.keys :=
  keys_image (fun _ => ()) t

theorem marks_put (t : Table κ α) (k : κ) (a : α) : (t.put k a).marks = t.marks.put k () :=
  image_put (fun _ => ()) t k a

theorem marks_erase (t : Table κ α) (k : κ) : (t.erase k).marks = t.marks.erase k :=
  image_erase (fun _ => ()) t k

omit [DecidableEq κ] in
@[simp] theorem marks_mapValues (t : Table κ α) (f : α → α) : (t.mapValues f).marks = t.marks := by
  rw [marks, mapValues, List.map_map]
  rfl

/-- Setting a key that is there leaves the keys. -/
theorem marks_put_of_find? {b : α} (h : t.find? k = some b) (a : α) :
    (t.put k a).marks = t.marks := by
  rw [marks_put, put_of_find?]
  have hmem := mem_keys_of_find? h
  obtain ⟨⟨k, b⟩, hentry, rfl⟩ := List.mem_map.mp hmem
  obtain ⟨u, hu⟩ := Option.isSome_iff_exists.mp
    (has_of_mem_entries (t := t.marks) (List.mem_map_of_mem hentry))
  exact hu

/-! ### Values -/

/-- Every value is changed, wherever it is. -/
theorem find?_mapValues (t : Table κ α) (f : α → α) (k : κ) :
    (t.mapValues f).find? k = (t.find? k).map f := find?_image f t k

/-- There is nothing at any key of a table without entries only. -/
theorem values_eq_nil (h : ∀ k, t.find? k = none) : t.values = [] := by
  rw [values, List.map_eq_nil_iff, List.eq_nil_iff_forall_not_mem]
  rintro ⟨k, a⟩ hentry
  exact not_mem_keys_of_find?_eq_none (h k) (List.mem_map_of_mem hentry)

theorem erase_erase (t : Table κ α) (k : κ) : (t.erase k).erase k = t.erase k :=
  erase_of_find?_eq_none (by rw [find?_erase, if_pos rfl])

omit [DecidableEq κ] in
/-- If all values are wanted, all are kept. -/
theorem keep_of_forall {p : α → Bool} (h : ∀ a ∈ t.values, p a = true) : t.keep p = t := by
  rw [keep, List.filter_eq_self.mpr fun e he => h e.2 (List.mem_map_of_mem he)]

/-- The key that is removed and those that are left. -/
theorem Distinct.perm_keys (h : t.Distinct) (hk : k ∈ t.keys) :
    t.keys.Perm (k :: (t.erase k).keys) := by
  have herase : t.keys.erase k = (t.erase k).keys := by
    rw [keys_erase, List.Nodup.erase_eq_filter h]
    refine List.filter_congr fun j _ => ?_
    rw [Bool.eq_iff_iff, bne_iff_ne, decide_eq_true_iff]
  rw [← herase]
  exact List.perm_cons_erase hk

/-- The value that is set and those at other keys. -/
theorem Distinct.perm_values_put (h : t.Distinct) (k : κ) (a : α) :
    (t.put k a).values.Perm (a :: (t.erase k).values) := by
  obtain ⟨entries⟩ := t
  rw [Distinct, keys] at h
  simp only [values, Table.put, Table.erase]
  dsimp only at h
  induction entries with
  | nil => exact .refl _
  | cons e entries ih =>
    rw [List.map_cons, List.nodup_cons] at h
    rw [putEntry]
    by_cases hk : e.1 = k
    · -- the key is not among the other entries
      have hother : entries.filter (fun e => decide (e.1 ≠ k)) = entries := by
        rw [List.filter_eq_self]
        rintro e' he'
        apply decide_eq_true
        rintro heq
        exact h.1 (by rw [hk, ← heq]; exact List.mem_map_of_mem he')
      rw [if_pos hk, List.filter_cons_of_neg (by simpa using hk), hother]
      exact .refl _
    · rw [if_neg hk, List.filter_cons_of_pos (by simpa using hk)]
      exact ((ih h.2).cons e.2).trans (.swap a e.2 _)

/-- The value that is removed and those that are left. -/
theorem Distinct.perm_values (h : t.Distinct) {a : α} (ha : t.find? k = some a) :
    t.values.Perm (a :: (t.erase k).values) := by
  have hput := h.perm_values_put k a
  rwa [put_of_find? ha] at hput

/-- Nothing is left after all keys were removed. -/
theorem find?_foldl_erase (t : Table κ α) (ks : List κ) (h : j ∈ ks ∨ t.find? j = none) :
    (ks.foldl erase t).find? j = none := by
  induction ks generalizing t with
  | nil => exact h.resolve_left List.not_mem_nil
  | cons k ks ih =>
    refine ih _ ?_
    rw [find?_erase]
    split
    · exact .inr rfl
    next hne => exact h.imp_left fun hj => (List.mem_cons.mp hj).resolve_left fun h => hne h.symm

/-! ### Tables that are shown -/

/-- Whether there is something in a table that is wanted. -/
def holds {α : Type} (t : Table κ α) (p : α → Bool) : Bool := t.keys.any fun k => (t.find? k).any p

theorem holds_iff {p : α → Bool} : t.holds p = true ↔ ∃ k a, t.find? k = some a ∧ p a = true := by
  rw [holds, List.any_eq_true]
  constructor
  · rintro ⟨k, -, hk⟩
    cases ha : t.find? k with
    | none => rw [ha] at hk; cases hk
    | some a => rw [ha] at hk; exact ⟨k, a, ha, hk⟩
  · rintro ⟨k, a, ha, hp⟩
    exact ⟨k, mem_keys_of_find? ha, by rw [ha]; exact hp⟩

/-- **A table is shown by another**: at keys of its own side by values that show its values, and at
all other keys not at all. -/
structure Shown {α β : Type} (own : κ → Bool) (R : α → β → Prop) (t : Table κ α) (u : Table κ β) :
    Prop where
  /-- at a key of the own side there is what shows the value -/
  shown : ∀ {k}, own k = true → Option.Rel R (t.find? k) (u.find? k)
  /-- at other keys there is nothing -/
  hidden : ∀ {k}, own k = false → u.find? k = none

namespace Shown

variable {β : Type} {own : κ → Bool} {R : α → β → Prop} {u : Table κ β} {a : α} {b : β}

theorem empty (own : κ → Bool) (R : α → β → Prop) :
    Shown own R ({} : Table κ α) ({} : Table κ β) :=
  ⟨fun _ => .none, fun _ => rfl⟩

/-- What is shown is there. -/
theorem of_find? (h : Shown own R t u) (hb : u.find? k = some b) :
    own k = true ∧ ∃ a, t.find? k = some a ∧ R a b := by
  cases hk : own k with
  | false =>
    rw [h.hidden hk] at hb
    cases hb
  | true =>
    have hshown := h.shown hk
    rw [hb] at hshown
    generalize t.find? k = found at hshown ⊢
    cases hshown with
    | some hR => exact ⟨rfl, _, rfl, hR⟩

/-- What is there is shown if it is on the own side. -/
theorem find?_eq_some (h : Shown own R t u) (hk : own k = true) (ha : t.find? k = some a) :
    ∃ b, u.find? k = some b ∧ R a b := by
  have hshown := h.shown hk
  rw [ha] at hshown
  generalize u.find? k = found at hshown ⊢
  cases hshown with
  | some hR => exact ⟨_, rfl, hR⟩

theorem find?_eq_none (h : Shown own R t u) (hk : own k = true) (ha : t.find? k = none) :
    u.find? k = none := by
  have hshown := h.shown hk
  rw [ha] at hshown
  generalize u.find? k = found at hshown ⊢
  cases hshown
  rfl

theorem has_eq (h : Shown own R t u) (hk : own k = true) : u.has k = t.has k := by
  have hshown := h.shown hk
  rw [has, has]
  generalize t.find? k = found, u.find? k = found' at hshown ⊢
  cases hshown <;> rfl

theorem put (h : Shown own R t u) (hk : own k = true) (hR : R a b) :
    Shown own R (t.put k a) (u.put k b) := by
  refine ⟨fun hj => ?_, fun hj => ?_⟩
  · rw [find?_put, find?_put]
    split
    · exact .some hR
    · exact h.shown hj
  · rw [find?_put, if_neg, h.hidden hj]
    rintro rfl
    cases hk.symm.trans hj

theorem erase (h : Shown own R t u) (k : κ) : Shown own R (t.erase k) (u.erase k) := by
  refine ⟨fun hj => ?_, fun hj => ?_⟩ <;> rw [find?_erase]
  · rw [find?_erase]
    split
    · exact .none
    · exact h.shown hj
  · split
    · rfl
    · exact h.hidden hj

/-- What changes elsewhere is not seen. -/
theorem unseen (h : Shown own R t u) (hsame : ∀ k, own k = true → t'.find? k = t.find? k) :
    Shown own R t' u :=
  ⟨fun hk => by rw [hsame _ hk]; exact h.shown hk, h.hidden⟩

/-- A value can be set for which what is there already stands. -/
theorem put_left (h : Shown own R t u) (hb : u.find? k = some b) (hR : R a b) :
    Shown own R (t.put k a) u := by
  refine ⟨fun {j} hj => ?_, h.hidden⟩
  rw [find?_put]
  split
  next heq => rw [← heq, hb]; exact .some hR
  · exact h.shown hj

/-- **Something is wanted** among the values if it is among those that show them, as long as nothing
else is wanted. -/
theorem holds_eq (h : Shown own R t u) (ht : t.Distinct) {p : α → Bool} {q : β → Bool}
    (hpq : ∀ a b, R a b → p a = q b) (hown : ∀ k a, t.find? k = some a → p a = true → own k = true) :
    u.holds q = t.values.any p := by
  rw [Bool.eq_iff_iff, holds_iff, ht.any_values_iff]
  constructor
  · rintro ⟨k, b, hb, hq⟩
    obtain ⟨-, a, ha, hR⟩ := h.of_find? hb
    exact ⟨k, a, ha, (hpq a b hR).trans hq⟩
  · rintro ⟨k, a, ha, hp⟩
    obtain ⟨b, hb, hR⟩ := h.find?_eq_some (hown k a ha hp) ha
    exact ⟨k, b, hb, (hpq a b hR).symm.trans hp⟩

end Shown

end Table

end TimeSeries
