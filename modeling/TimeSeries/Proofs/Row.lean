import TimeSeries.Proofs.Series.Metrics
import TimeSeries.Row

/-!
# The value of an aggregate

The head of a name has one item for each slot of the row, and the slot of an aggregate is the first
one whose item ends in a `:` and its name (`Series.SlotOf`). A row looks for an aggregate among
those that its name mentions, and takes the value at the position that it has there. Items without
an aggregate have no part in this: for each of them before the slot the value is that of a slot one
farther to the left (`Series.skipped`).

Main result: `Row.valueOf_of_slot`.
-/

namespace TimeSeries

/-! ### Slots of aggregates -/

namespace Series

/-- The items of a head as they are written. -/
def headItems (name : String) : List (List Char) := (splitHead name).1.splitOn '|'

/-- **The slot of an aggregate**: the first item that ends in a `:` and its name. -/
structure SlotOf (name : String) (f : Aggregate) (i : Nat) : Prop where
  /-- the item ends so -/
  suffix : ∃ item, (headItems name)[i]? = some item ∧ ':' :: f.name.toList <:+ item
  /-- no item before it does -/
  first : ∀ j < i, ∀ item, (headItems name)[j]? = some item → ¬ ':' :: f.name.toList <:+ item

/-- The number of items before a slot that have no aggregate. -/
def skipped (name : String) (i : Nat) : Nat :=
  ((headItems name).take i).countP fun item => (splitItem item).2.isNone

variable {name : String} {f : Aggregate} {i : Nat}

theorem slotOf_iff :
    SlotOf name f i ↔ (headItems name).findIdx? (fun item => (splitItem item).2 == some f) = some i := by
  simp only [List.findIdx?_eq_some_iff_getElem, beq_iff_eq, snd_splitItem_eq_some_iff]
  constructor
  · rintro ⟨⟨item, hget, hsuffix⟩, hfirst⟩
    obtain ⟨hlt, rfl⟩ := List.getElem?_eq_some_iff.mp hget
    refine ⟨hlt, hsuffix, fun j hj => ?_⟩
    exact hfirst j hj _ (List.getElem?_eq_getElem (Nat.lt_trans hj hlt))
  · rintro ⟨hlt, hsuffix, hfirst⟩
    refine ⟨⟨_, List.getElem?_eq_getElem hlt, hsuffix⟩, fun j hj item hget => ?_⟩
    obtain ⟨-, rfl⟩ := List.getElem?_eq_some_iff.mp hget
    exact hfirst j hj

instance (name : String) (f : Aggregate) (i : Nat) : Decidable (SlotOf name f i) :=
  decidable_of_iff _ slotOf_iff.symm

theorem SlotOf.lt (h : SlotOf name f i) : i < (headItems name).length := by
  obtain ⟨item, hget, -⟩ := h.suffix
  exact (List.getElem?_eq_some_iff.mp hget).1

/-- An item before a slot has an aggregate or is skipped. -/
theorem countP_isSome_eq_sub (hi : i ≤ (headItems name).length) :
    ((headItems name).take i).countP (fun item => (splitItem item).2.isSome) = i - skipped name i := by
  have hcount := ((headItems name).take i).length_eq_countP_add_countP
    (p := fun item => (splitItem item).2.isSome)
  have hnone : (fun item => decide ¬(splitItem item).2.isSome = true) =
      fun item => (splitItem item).2.isNone := by
    funext item
    cases (splitItem item).2 <;> rfl
  rw [List.length_take, Nat.min_eq_left hi, hnone] at hcount
  rw [skipped]
  omega

/-- **No item is skipped** if each has an aggregate. -/
theorem skipped_eq_zero_iff : skipped name i = 0 ↔
    ∀ item ∈ (headItems name).take i, ∃ g : Aggregate, ':' :: g.name.toList <:+ item := by
  rw [skipped, List.countP_eq_zero]
  refine forall₂_congr fun item _ => ?_
  rw [Option.isNone_iff_eq_none, ← ne_eq, ← Option.isSome_iff_ne_none, Option.isSome_iff_exists]
  exact exists_congr fun g => snd_splitItem_eq_some_iff item g

end Series

/-! ### Positions of aggregates -/

/-- The position of a member among those that are kept. -/
theorem findIdx?_filterMap {α β : Type} [BEq β] [LawfulBEq β] (g : α → Option β) (b : β)
    (l : List α) : (l.filterMap g).findIdx? (· == b) =
      (l.findIdx? fun a => g a == some b).map fun i => (l.take i).countP fun a => (g a).isSome := by
  induction l with
  | nil => rfl
  | cons a l ih =>
    rw [List.findIdx?_cons]
    cases ha : g a with
    | none =>
      rw [List.filterMap_cons_none ha, ih]
      simp [ha, Function.comp_def]
    | some b' =>
      rw [List.filterMap_cons_some ha, List.findIdx?_cons, ih]
      by_cases hb : b' = b
      · simp [hb]
      · simp [hb, ha, Function.comp_def]

namespace Row

open Series

theorem findIdx?_aggregates (name : String) (f : Aggregate) :
    (Series.aggregates name).findIdx? (· == f) =
      ((headItems name).findIdx? fun item => (splitItem item).2 == some f).map fun i =>
        ((headItems name).take i).countP fun item => (splitItem item).2.isSome := by
  rw [Series.aggregates, items, List.filterMap_map]
  exact findIdx?_filterMap (fun item => (splitItem item).2) f (headItems name)

/-- **The value of an aggregate** is that of its slot if each item before has an aggregate. If some
have none, it is that of a slot as many to the left; and if there is no slot or no value, it is
NaN. -/
theorem valueOf_of_slot (name : String) (timestamp : Option Timestamp) (values : List Double)
    (f : Aggregate) :
    (∀ i, SlotOf name f i →
      valueOf ⟨some name, timestamp, values⟩ f =
        (values[i - skipped name i]?).getD Double.nan ∧
      ((∀ item ∈ (headItems name).take i, ∃ g : Aggregate, ':' :: g.name.toList <:+ item) →
        valueOf ⟨some name, timestamp, values⟩ f = (values[i]?).getD Double.nan)) ∧
    ((∀ i, ¬SlotOf name f i) → valueOf ⟨some name, timestamp, values⟩ f = Double.nan) := by
  have haggregates : aggregates ⟨some name, timestamp, values⟩ = Series.aggregates name := rfl
  rw [valueOf, haggregates, findIdx?_aggregates]
  refine ⟨fun i hslot => ?_, fun hnone => ?_⟩
  · have hvalue := countP_isSome_eq_sub (Nat.le_of_lt hslot.lt)
    rw [slotOf_iff.mp hslot, Option.map_some, hvalue]
    refine ⟨rfl, fun hitems => ?_⟩
    dsimp only
    rw [skipped_eq_zero_iff.mpr hitems, Nat.sub_zero]
  · have hfind : (headItems name).findIdx? (fun item => (splitItem item).2 == some f) = none :=
      Option.eq_none_iff_forall_ne_some.mpr fun i => mt slotOf_iff.mpr (hnone i)
    rw [hfind]
    rfl

/-- Two aggregates of one metric. -/
theorem valueOf_of_slot_max :
    SlotOf "mem:min|mem:max host=a" .max 1 ∧
      valueOf ⟨some "mem:min|mem:max host=a", some 5, [Double.ofWord 1, Double.ofWord 9]⟩ .max =
        Double.ofWord 9 := by
  have hslot : SlotOf "mem:min|mem:max host=a" .max 1 := by decide +kernel
  obtain ⟨-, hvalue⟩ := (valueOf_of_slot "mem:min|mem:max host=a" (some 5)
    [Double.ofWord 1, Double.ofWord 9] .max).1 1 hslot
  have hskipped : skipped "mem:min|mem:max host=a" 1 = 0 := by decide +kernel
  exact ⟨hslot, hvalue (skipped_eq_zero_iff.mp hskipped)⟩

/-- The value of another slot, behind an item without an aggregate. -/
theorem valueOf_of_other_slot :
    let r : Row := ⟨some "a|b:max host=x", some 1, [Double.ofWord 1, Double.ofWord 2]⟩
    SlotOf "a|b:max host=x" .max 1 ∧ r.values[1]? = some (Double.ofWord 2) ∧
      r.valueOf .max = Double.ofWord 1 ∧ r.valueOf .max ≠ (r.values[1]?).getD Double.nan := by
  decide +kernel

end Row

end TimeSeries
