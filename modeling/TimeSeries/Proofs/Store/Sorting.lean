import TimeSeries.Store.Basic

/-!
# Sorting of rows

Rows are sorted stably by an order that is total but lets rows tie: `StablySorted` says what
comes of it, without saying how it is done. The order of rows is fit for sorting whatever
the range and the first part of the key (`RowKey.le_trans`, `RowKey.le_total`).

There is one way to sort stably (`StablySorted.unique`), so a list that falls into two parts is
sorted part by part (`mergeSort_eq_append`).
-/

namespace TimeSeries

/-- **Stably sorted**: the same members in order, and those that tie in the order they were
in. -/
structure StablySorted {α : Type} (le : α → α → Bool) (xs sorted : List α) : Prop where
  /-- they are in order -/
  ordered : sorted.Pairwise fun a b => le a b = true
  /-- they are the same, each as often -/
  perm : sorted.Perm xs
  /-- those that tie keep their order -/
  stable : ∀ p : α → Bool, (∀ a b, p a = true → p b = true → le a b = true) →
    sorted.filter p = xs.filter p

theorem stablySorted_mergeSort {α : Type} {le : α → α → Bool}
    (htrans : ∀ a b c, le a b = true → le b c = true → le a c = true)
    (htotal : ∀ a b, (le a b || le b a) = true) (xs : List α) :
    StablySorted le xs (xs.mergeSort le) := by
  refine ⟨List.pairwise_mergeSort htrans htotal xs, List.mergeSort_perm xs le, ?_⟩
  intro p hp
  have hties : (xs.filter p).Pairwise fun a b => le a b = true :=
    List.pairwise_of_forall_mem_list fun a ha b hb =>
      hp a b (List.mem_filter.mp ha).2 (List.mem_filter.mp hb).2
  have hsublist : (xs.filter p).Sublist (xs.mergeSort le) :=
    List.sublist_mergeSort htrans htotal hties List.filter_sublist
  have hfilter : (xs.filter p).Sublist ((xs.mergeSort le).filter p) := by
    rw [← List.filter_eq_self.mpr fun a ha => (List.mem_filter.mp ha).2]
    exact hsublist.filter p
  -- the ties are there in their order, and there are no others
  have hlength : ((xs.mergeSort le).filter p).length ≤ (xs.filter p).length :=
    Nat.le_of_eq ((List.mergeSort_perm xs le).filter p).length_eq
  exact (hfilter.eq_of_length_le hlength).symm

/-- **What is so of members in the order they were in** is so of those that tie, once they are
sorted. -/
theorem StablySorted.pairwise {α : Type} {le : α → α → Bool} {xs sorted : List α}
    {R : α → α → Prop} (h : StablySorted le xs sorted)
    (htrans : ∀ a b c, le a b = true → le b c = true → le a c = true) (hR : xs.Pairwise R) :
    sorted.Pairwise fun a b => le a b = true ∧ (le b a = true → R a b) := by
  rw [List.pairwise_iff_forall_sublist]
  intro a b hsublist
  have hab := List.pairwise_iff_forall_sublist.mp h.ordered hsublist
  refine ⟨hab, fun hba => ?_⟩
  -- what ties with the first of them
  let tied := fun c => le a c && le c a
  have haa := htrans a b a hab hba
  have hstable : sorted.filter tied = xs.filter tied := by
    refine h.stable tied fun c d hc hd => ?_
    rw [Bool.and_eq_true] at hc hd
    exact htrans c a d hc.2 hd.1
  have hpair : [a, b].filter tied = [a, b] := by
    simp [tied, hab, hba, haa]
  have hfiltered := hsublist.filter tied
  rw [hpair, hstable] at hfiltered
  exact List.pairwise_iff_forall_sublist.mp hR (hfiltered.trans List.filter_sublist)

/-- **The order that things came in does not matter** to what `mergeSort` makes of them, if no two
of them tie. -/
theorem mergeSort_eq_of_perm {α : Type} {le : α → α → Bool}
    (htrans : ∀ a b c, le a b = true → le b c = true → le a c = true)
    (htotal : ∀ a b, (le a b || le b a) = true) {xs ys : List α} (hperm : xs.Perm ys)
    (hanti : ∀ a ∈ xs, ∀ b ∈ xs, le a b = true → le b a = true → a = b) :
    xs.mergeSort le = ys.mergeSort le := by
  have hsorted : (xs.mergeSort le).Perm (ys.mergeSort le) :=
    (List.mergeSort_perm xs le).trans (hperm.trans (List.mergeSort_perm ys le).symm)
  apply List.Perm.eq_of_pairwise ?_ (List.pairwise_mergeSort htrans htotal xs)
    (List.pairwise_mergeSort htrans htotal ys) hsorted
  intro a b ha hb hab hba
  have hb' := List.mem_mergeSort.mp (hsorted.mem_iff.mpr hb)
  exact hanti a (List.mem_mergeSort.mp ha) b hb' hab hba

/-! ### Timestamps and names in order -/

section Stamps

variable {α : Type} (stamp : α → Timestamp)

theorem stamps_le_trans (a b c : α) (hab : decide (stamp a ≤ stamp b) = true)
    (hbc : decide (stamp b ≤ stamp c) = true) : decide (stamp a ≤ stamp c) = true :=
  decide_eq_true (UInt64.le_trans (of_decide_eq_true hab) (of_decide_eq_true hbc))

theorem stamps_le_total (a b : α) :
    (decide (stamp a ≤ stamp b) || decide (stamp b ≤ stamp a)) = true := by
  rw [Bool.or_eq_true, decide_eq_true_iff, decide_eq_true_iff]
  exact UInt64.le_total _ _

end Stamps

theorem names_le_trans (a b c : String) (hab : decide (a ≤ b) = true)
    (hbc : decide (b ≤ c) = true) : decide (a ≤ c) = true :=
  decide_eq_true (String.le_trans (of_decide_eq_true hab) (of_decide_eq_true hbc))

theorem names_le_total (a b : String) : (decide (a ≤ b) || decide (b ≤ a)) = true := by
  rw [Bool.or_eq_true, decide_eq_true_iff, decide_eq_true_iff]
  exact String.le_total a b

/-- **Sorted names are ascending** if there is each only once. -/
theorem pairwise_sorted_names {names : List String} (h : names.Nodup) :
    (names.mergeSort fun a b => a ≤ b).Pairwise (· < ·) := by
  have hsorted := List.pairwise_mergeSort names_le_trans names_le_total names
  have hnodup := (List.mergeSort_perm names fun a b => decide (a ≤ b)).nodup_iff.mpr h
  refine (hsorted.and hnodup).imp ?_
  rintro a b ⟨hle, hne⟩
  refine Decidable.byContradiction fun hnot => ?_
  exact hne (String.le_antisymm (of_decide_eq_true hle) (String.not_lt.mp hnot))

/-! ### Lists in two parts -/

section Parts

variable {α : Type} {le : α → α → Bool} {xs sorted sorted' : List α}

/-- Lists in order are the same if they have the same members, and those that tie in the same
order. -/
theorem eq_of_ties (htrans : ∀ a b c, le a b = true → le b c = true → le a c = true)
    (htotal : ∀ a b, (le a b || le b a) = true)
    (hordered : sorted.Pairwise fun a b => le a b = true)
    (hordered' : sorted'.Pairwise fun a b => le a b = true) (hperm : sorted.Perm sorted')
    (hties : ∀ p : α → Bool, (∀ a b, p a = true → p b = true → le a b = true) →
      sorted.filter p = sorted'.filter p) :
    sorted = sorted' := by
  have hrefl : ∀ a, le a a = true := fun a => by simpa using htotal a a
  induction sorted generalizing sorted' with
  | nil => exact hperm.nil_eq
  | cons a rest ih =>
    cases sorted' with
    | nil => exact hperm.eq_nil
    | cons b rest' =>
      obtain ⟨ha, hrest⟩ := List.pairwise_cons.mp hordered
      obtain ⟨hb, hrest'⟩ := List.pairwise_cons.mp hordered'
      have hab : le a b = true := by
        rcases List.mem_cons.mp (hperm.mem_iff.mpr List.mem_cons_self) with rfl | hmem
        · exact hrefl b
        · exact ha b hmem
      have hba : le b a = true := by
        rcases List.mem_cons.mp (hperm.mem_iff.mp List.mem_cons_self) with rfl | hmem
        · exact hrefl a
        · exact hb a hmem
      -- the two first ones tie, so they are the first of what ties with them
      have htied := hties (fun c => le a c && le c a) fun c d hc hd => by
        rw [Bool.and_eq_true] at hc hd
        exact htrans c a d hc.2 hd.1
      rw [List.filter_cons_of_pos (by simp [hrefl]), List.filter_cons_of_pos (by simp [hab, hba])]
        at htied
      obtain rfl := (List.cons.inj htied).1
      refine congrArg (a :: ·) (ih hrest hrest' hperm.cons_inv fun p hp => ?_)
      have hfilter := hties p hp
      cases hpa : p a with
      | true =>
        rw [List.filter_cons_of_pos hpa, List.filter_cons_of_pos hpa] at hfilter
        exact (List.cons.inj hfilter).2
      | false =>
        have hnot : ¬p a = true := by simp [hpa]
        rwa [List.filter_cons_of_neg hnot, List.filter_cons_of_neg hnot] at hfilter

/-- **There is one way to be `StablySorted`.** -/
theorem StablySorted.unique (h : StablySorted le xs sorted) (h' : StablySorted le xs sorted')
    (htrans : ∀ a b c, le a b = true → le b c = true → le a c = true)
    (htotal : ∀ a b, (le a b || le b a) = true) : sorted = sorted' :=
  eq_of_ties htrans htotal h.ordered h'.ordered (h.perm.trans h'.perm.symm)
    fun p hp => (h.stable p hp).trans (h'.stable p hp).symm

/-- What is all in one of two parts is there as it was. -/
theorem filter_parts {p q : α → Bool}
    (h : (∀ a ∈ xs, q a = true → p a = true) ∨ ∀ a ∈ xs, q a = true → p a = false) :
    (xs.filter p).filter q ++ (xs.filter fun a => !p a).filter q = xs.filter q := by
  rw [List.filter_filter, List.filter_filter]
  rcases h with hin | hout
  · have hall : (xs.filter fun a => q a && p a) = xs.filter q :=
      List.filter_congr fun a ha => by cases hqa : q a <;> simp [hin a ha, hqa]
    have hnone : (xs.filter fun a => q a && !p a) = [] :=
      List.filter_eq_nil_iff.mpr fun a ha => by cases hqa : q a <;> simp [hin a ha, hqa]
    rw [hall, hnone, List.append_nil]
  · have hnone : (xs.filter fun a => q a && p a) = [] :=
      List.filter_eq_nil_iff.mpr fun a ha => by cases hqa : q a <;> simp [hout a ha, hqa]
    have hall : (xs.filter fun a => q a && !p a) = xs.filter q :=
      List.filter_congr fun a ha => by cases hqa : q a <;> simp [hout a ha, hqa]
    rw [hnone, hall, List.nil_append]

/-- **A list that falls into two parts**, each of the first before each of the second, is sorted by
`mergeSort` part by part. -/
theorem mergeSort_eq_append (htrans : ∀ a b c, le a b = true → le b c = true → le a c = true)
    (htotal : ∀ a b, (le a b || le b a) = true) {p : α → Bool}
    (hp : ∀ a ∈ xs, ∀ b ∈ xs, p a = true → p b = false → le b a = false) :
    xs.mergeSort le = (xs.filter p).mergeSort le ++ (xs.filter fun a => !p a).mergeSort le := by
  refine (stablySorted_mergeSort htrans htotal xs).unique ⟨?_, ?_, fun q hq => ?_⟩ htrans htotal
  · refine List.pairwise_append.mpr ⟨List.pairwise_mergeSort htrans htotal _,
      List.pairwise_mergeSort htrans htotal _, fun a ha b hb => ?_⟩
    obtain ⟨ha, hpa⟩ := List.mem_filter.mp (List.mem_mergeSort.mp ha)
    obtain ⟨hb, hpb⟩ := List.mem_filter.mp (List.mem_mergeSort.mp hb)
    have hba := hp a ha b hb hpa (by simpa using hpb)
    simpa [hba] using htotal a b
  · exact ((List.mergeSort_perm _ _).append (List.mergeSort_perm _ _)).trans
      (List.filter_append_perm p xs)
  · rw [List.filter_append, (stablySorted_mergeSort htrans htotal _).stable q hq,
      (stablySorted_mergeSort htrans htotal _).stable q hq]
    -- what ties with one of the first part is not in the second
    by_cases hfirst : ∃ a ∈ xs, p a = true ∧ q a = true
    · obtain ⟨a, ha, hpa, hqa⟩ := hfirst
      refine filter_parts (.inl fun b hb hqb => ?_)
      cases hpb : p b with
      | true => rfl
      | false =>
        have hba := hp a ha b hb hpa hpb
        rw [hq b a hqb hqa] at hba
        cases hba
    · refine filter_parts (.inr fun b hb hqb => ?_)
      cases hpb : p b with
      | true => exact absurd ⟨b, hb, hpb, hqb⟩ hfirst
      | false => rfl

end Parts

namespace Store

/-! ### The order of rows -/

variable (r : TimeRange)

theorem timeLe_trans {a b c : Timestamp} (hab : timeLe r a b = true) (hbc : timeLe r b c = true) :
    timeLe r a c = true := by
  cases hback : r.isBackward <;> simp [timeLe, hback] at hab hbc ⊢
  · exact UInt64.le_trans hab hbc
  · exact UInt64.le_trans hbc hab

theorem timeLe_total (a b : Timestamp) : timeLe r a b = true ∨ timeLe r b a = true := by
  cases hback : r.isBackward <;> simp [timeLe, hback]
  · exact UInt64.le_total a b
  · exact UInt64.le_total b a

theorem timeLe_antisymm {a b : Timestamp} (hab : timeLe r a b = true) (hba : timeLe r b a = true) :
    a = b := by
  cases hback : r.isBackward <;> simp [timeLe, hback] at hab hba
  · exact UInt64.le_antisymm hab hba
  · exact UInt64.le_antisymm hba hab

namespace RowKey

theorem le_series {a b : RowKey} :
    le r .series a b = true ↔
      a.text < b.text ∨ a.text = b.text ∧ timeLe r a.timestamp b.timestamp = true := by
  simp [le]

theorem le_time {a b : RowKey} :
    le r .time a b = true ↔
      timeLe r a.timestamp b.timestamp = true ∧ a.timestamp ≠ b.timestamp ∨
        a.timestamp = b.timestamp ∧ a.text ≤ b.text := by
  simp [le]

/-- **The order of rows**, `RowKey.le`, is transitive. -/
theorem le_trans (o : RowOrder) (a b c : RowKey) (hab : le r o a b = true)
    (hbc : le r o b c = true) : le r o a c = true := by
  cases o with
  | series =>
    rw [le_series] at hab hbc ⊢
    obtain hab | ⟨hab, hab'⟩ := hab <;> obtain hbc | ⟨hbc, hbc'⟩ := hbc
    · exact .inl (String.lt_trans hab hbc)
    · exact .inl (hbc ▸ hab)
    · exact .inl (hab ▸ hbc)
    · exact .inr ⟨hab.trans hbc, timeLe_trans r hab' hbc'⟩
  | time =>
    rw [le_time] at hab hbc ⊢
    obtain ⟨hab, hne⟩ | ⟨hab, hab'⟩ := hab <;> obtain ⟨hbc, hne'⟩ | ⟨hbc, hbc'⟩ := hbc
    · refine .inl ⟨timeLe_trans r hab hbc, ?_⟩
      rintro heq
      rw [← heq] at hbc
      exact hne (timeLe_antisymm r hab hbc)
    · exact .inl ⟨hbc ▸ hab, hbc ▸ hne⟩
    · exact .inl ⟨hab ▸ hbc, hab ▸ hne'⟩
    · exact .inr ⟨hab.trans hbc, String.le_trans hab' hbc'⟩

/-- **The order of rows**, `RowKey.le`, is total. -/
theorem le_total (o : RowOrder) (a b : RowKey) : (le r o a b || le r o b a) = true := by
  rw [Bool.or_eq_true]
  cases o with
  | series =>
    rw [le_series, le_series]
    by_cases hlt : a.text < b.text
    · exact .inl (.inl hlt)
    by_cases hgt : b.text < a.text
    · exact .inr (.inl hgt)
    have heq : a.text = b.text := String.le_antisymm (String.not_lt.mp hgt) (String.not_lt.mp hlt)
    rcases timeLe_total r a.timestamp b.timestamp with hle | hle
    · exact .inl (.inr ⟨heq, hle⟩)
    · exact .inr (.inr ⟨heq.symm, hle⟩)
  | time =>
    rw [le_time, le_time]
    by_cases heq : a.timestamp = b.timestamp
    · rcases String.le_total a.text b.text with hle | hle
      · exact .inl (.inr ⟨heq, hle⟩)
      · exact .inr (.inr ⟨heq.symm, hle⟩)
    · rcases timeLe_total r a.timestamp b.timestamp with hle | hle
      · exact .inl (.inl ⟨hle, heq⟩)
      · exact .inr (.inl ⟨hle, Ne.symm heq⟩)

/-- **Rows tie in `RowKey.le` only if they have the same key.** -/
theorem le_antisymm (o : RowOrder) {a b : RowKey} (hab : le r o a b = true)
    (hba : le r o b a = true) : a = b := by
  have hsame : a.text = b.text → a.timestamp = b.timestamp → a = b := by
    intro htext htimestamp
    cases a
    cases b
    simp_all
  cases o with
  | series =>
    rw [le_series] at hab hba
    rcases hab with hab | ⟨htext, hab⟩ <;> rcases hba with hba | ⟨htext', hba⟩
    · exact absurd hba (String.lt_asymm hab)
    · exact absurd hab (htext' ▸ String.lt_irrefl _)
    · exact absurd hba (htext ▸ String.lt_irrefl _)
    · exact hsame htext (timeLe_antisymm r hab hba)
  | time =>
    rw [le_time] at hab hba
    rcases hab with ⟨hab, hne⟩ | ⟨heq, hab⟩ <;> rcases hba with ⟨hba, hne'⟩ | ⟨heq', hba⟩
    · exact absurd (timeLe_antisymm r hab hba) hne
    · exact absurd heq'.symm hne
    · exact absurd heq.symm hne'
    · exact hsame (String.le_antisymm hab hba) heq

end RowKey

end Store

end TimeSeries
