import TimeSeries.Proofs.Json.Fields
import TimeSeries.Proofs.Query.Plan
import TimeSeries.Proofs.Store.Answers

/-!
# Value filters as a document carries them

A document keys its filters by their comparison, so of two filters with the same
comparison it carries the later only. What is left are the filters in force
(`ValueFilter.inForce`): `Output.readFilters_of_field` says that these are what a reader
finds, in some order. The order does not matter to a select (`Store.select_congr`). Where
the comparisons are all different, every filter is in force
(`ValueFilter.inForce_of_nodup`).
-/

namespace TimeSeries

/-! ### Lists that are read item by item -/

/-- A reader that reads each item of a list reads the list by `mapM`. -/
theorem Parsed.mapM_map {α β : Type} {write : α → β} {read : β → Parsed α} {as : List α}
    (h : ∀ a ∈ as, read (write a) = .ok a) :
    (as.map write).mapM read = .ok as := by
  induction as with
  | nil => rfl
  | cons a as ih =>
    rw [List.map_cons, List.mapM_cons, h a List.mem_cons_self,
      ih fun a ha => h a (List.mem_cons_of_mem _ ha)]
    rfl

/-! ### Filters in force -/

theorem Comparison.name_inj {c c' : Comparison} : c.name = c'.name ↔ c = c' := by
  refine ⟨fun h => ?_, congrArg name⟩
  have hname : some c = some c' := by rw [← ofName?_name c, h, ofName?_name]
  exact Option.some.inj hname

namespace ValueFilter

variable {f : ValueFilter} {filters : List ValueFilter}

/-- **Filters in force**: those that no later filter with the same comparison replaces. -/
def inForce : List ValueFilter → List ValueFilter
  | [] => []
  | f :: filters =>
    if f.comparison ∈ filters.map comparison then inForce filters else f :: inForce filters

/-- The last filter with its comparison is `inForce`, and no other. -/
theorem mem_inForce :
    f ∈ inForce filters ↔
      (filters.reverse.find? fun g => g.comparison == f.comparison) = some f := by
  induction filters with
  | nil => simp [inForce]
  | cons g filters ih =>
    have hlater : (g.comparison ∈ filters.map comparison) ↔
        (filters.reverse.find? fun h => h.comparison == g.comparison).isSome := by
      simp [List.find?_isSome, List.mem_map]
    rw [List.reverse_cons, List.find?_append, inForce]
    by_cases hg : g.comparison = f.comparison
    · rw [hg] at hlater
      split
      next hmem =>
        -- the later one is found first
        obtain ⟨h, hh⟩ := Option.isSome_iff_exists.mp (hlater.mp (hg ▸ hmem))
        rw [ih, hh, Option.some_or]
      next hmem =>
        have hnone := Option.not_isSome_iff_eq_none.mp fun h => hmem (hg ▸ hlater.mpr h)
        rw [List.mem_cons, ih, hnone, Option.none_or,
          List.find?_cons_of_pos (by simpa using hg)]
        simp [eq_comm]
    · rw [List.find?_cons_of_neg (by simpa using hg), List.find?_nil, Option.or_none, ← ih]
      split
      · rfl
      · refine ⟨fun h => (List.mem_cons.mp h).resolve_left ?_, List.mem_cons_of_mem _⟩
        rintro rfl
        exact hg rfl

/-- A filter that is `inForce` was given. -/
theorem mem_of_mem_inForce (h : f ∈ inForce filters) : f ∈ filters :=
  List.mem_reverse.mp (List.mem_of_find?_eq_some (mem_inForce.mp h))

/-- **Filters with different comparisons are all in force.** -/
theorem inForce_of_nodup (h : (filters.map comparison).Nodup) : inForce filters = filters := by
  induction filters with
  | nil => rfl
  | cons f filters ih =>
    obtain ⟨hfresh, h⟩ := List.nodup_cons.mp h
    rw [inForce, if_neg hfresh, ih h]

/-! ### Filters in a document -/

/-- The field that a `ValueFilter` is written as. -/
def field (f : ValueFilter) : String × Json := (f.comparison.name, .ofDouble f.threshold)

/-- The value of the field for filters, if there are any. -/
def json? (filters : List ValueFilter) : Option Json :=
  if filters.isEmpty then none else some (.ofFields (filters.map field))

/-- Filters with finite thresholds are told apart by what is written. -/
theorem field_inj {g : ValueFilter} (hf : f.threshold.isFinite) (hg : g.threshold.isFinite) :
    f.field = g.field ↔ f = g := by
  refine ⟨fun h => ?_, congrArg field⟩
  obtain ⟨hname, hthreshold⟩ := Prod.mk.inj h
  rw [Json.ofDouble, Json.ofDouble, if_pos hf, if_pos hg] at hthreshold
  have hcomparison := Comparison.name_inj.mp hname
  cases f
  cases g
  cases hthreshold
  cases hcomparison
  rfl

theorem field?_map_field (filters : List ValueFilter) (c : Comparison) :
    Json.field? (filters.map field) c.name =
      (filters.find? fun g => g.comparison == c).map fun g => Json.ofDouble g.threshold := by
  induction filters with
  | nil => rfl
  | cons g filters ih =>
    rw [List.map_cons, Json.field?_cons, ih, field]
    by_cases hg : g.comparison = c
    · rw [if_pos (Comparison.name_inj.mpr hg), List.find?_cons_of_pos (by simpa using hg)]
      rfl
    · rw [if_neg fun h => hg (Comparison.name_inj.mp h),
        List.find?_cons_of_neg (by simpa using hg)]

/-- **The filters that an object holds** are those `inForce`. -/
theorem field_mem_entries
    (hfinite : ∀ g ∈ filters, g.threshold.isFinite)
    (hf : f.threshold.isFinite) :
    f.field ∈ Json.entries (filters.map field) ↔ f ∈ inForce filters := by
  rw [field, Json.mem_entries, ← List.map_reverse, field?_map_field, mem_inForce,
    Option.map_eq_some_iff]
  refine ⟨?_, fun h => ⟨f, h, rfl⟩⟩
  rintro ⟨g, hfind, hthreshold⟩
  have hg := hfinite g (List.mem_reverse.mp (List.mem_of_find?_eq_some hfind))
  have hcomparison : g.comparison = f.comparison := by simpa using List.find?_some hfind
  obtain rfl : g = f :=
    (field_inj hg hf).mp (Prod.ext (congrArg Comparison.name hcomparison) hthreshold)
  exact hfind

/-- An object holds nothing but fields it was given, after `Json.entries` of them. -/
theorem exists_map_field_eq_entries (filters : List ValueFilter) :
    ∃ kept : List ValueFilter,
      (∀ f ∈ kept, f ∈ filters) ∧ kept.map field = Json.entries (filters.map field) := by
  have hmem : ∀ e ∈ Json.entries (filters.map field), ∃ f ∈ filters, field f = e := by
    intro e he
    have he := Json.mem_of_field? (Json.mem_entries.mp he)
    exact List.mem_map.mp (List.mem_reverse.mp he)
  generalize Json.entries (filters.map field) = written at hmem ⊢
  induction written with
  | nil => exact ⟨[], fun f hf => (by cases hf), rfl⟩
  | cons e rest ih =>
    obtain ⟨f, hf, rfl⟩ := hmem e List.mem_cons_self
    obtain ⟨kept, hkept, hmap⟩ := ih fun e he => hmem e (List.mem_cons_of_mem _ he)
    refine ⟨f :: kept, fun g hg => ?_, by rw [List.map_cons, hmap]⟩
    rcases List.mem_cons.mp hg with rfl | hg
    · exact hf
    · exact hkept g hg

end ValueFilter

open ValueFilter

/-- **What `readFilters` finds** are the filters in force, in some order. -/
theorem Output.readFilters_of_field {filters : List ValueFilter} {root : List (String × Json)}
    (hfinite : ∀ f ∈ filters, f.threshold.isFinite)
    (hroot : Json.field? root "filter" = ValueFilter.json? filters) :
    ∃ kept, Output.readFilters root = .ok kept ∧ ∀ f, f ∈ kept ↔ f ∈ inForce filters := by
  obtain ⟨kept, hgiven, hentries⟩ := exists_map_field_eq_entries filters
  have hread : ∀ f ∈ kept, (do
      let threshold ← required f.field.2.double?
      let comparison ← required (Comparison.ofName? f.field.1)
      return (⟨comparison, threshold⟩ : ValueFilter)) = (.ok f : Parsed ValueFilter) := by
    intro f hf
    simp [field, Json.ofDouble, hfinite f (hgiven f hf), Json.double?, required]
    rfl
  refine ⟨kept, ?_, fun f => ?_⟩
  · rw [readFilters, hroot, ValueFilter.json?]
    split
    next heq =>
      split at heq
      next hempty =>
        rw [List.isEmpty_iff.mp hempty] at hgiven
        obtain rfl : kept = [] :=
          List.eq_nil_iff_forall_not_mem.mpr fun f hf => (by cases hgiven f hf)
        rfl
      next => cases heq
    next clause heq =>
      split at heq
      next => cases heq
      next =>
        cases heq
        rw [Json.ofFields_eq, ← hentries]
        exact Parsed.mapM_map hread
  · constructor
    · intro hf
      refine (field_mem_entries hfinite (hfinite f (hgiven f hf))).mp ?_
      rw [← hentries]
      exact List.mem_map_of_mem hf
    · intro hf
      have hmem := (field_mem_entries hfinite (hfinite f (mem_of_mem_inForce hf))).mpr hf
      rw [← hentries] at hmem
      obtain ⟨g, hg, heq⟩ := List.mem_map.mp hmem
      obtain rfl : g = f :=
        (field_inj (hfinite g (hgiven g hg)) (hfinite f (mem_of_mem_inForce hf))).mp heq
      exact hg

/-! ### Filters in a select -/

/-- Filters keep a value alike, by `keeps`, if they are the same in some order. -/
theorem Output.keeps_congr {o o' : Output} (h : ∀ f, f ∈ o.filters ↔ f ∈ o'.filters)
    (value : Double) :
    o.keeps value = o'.keeps value := by
  rw [Output.keeps, Output.keeps, Bool.eq_iff_iff, List.all_eq_true, List.all_eq_true]
  exact forall_congr' fun f => imp_congr_left (h f)

/-- **A `select` does not depend on the order of its filters.** -/
theorem Store.select_congr (s : Store) (f : PointFilter) {o : Output} {kept : List ValueFilter}
    (h : ∀ f, f ∈ kept ↔ f ∈ o.filters) :
    s.select f { o with filters := kept } = s.select f o := by
  have hkeeps : ({ o with filters := kept } : Output).keeps = o.keeps :=
    funext (Output.keeps_congr h)
  rw [Store.select, Store.select, hkeeps]
  rfl

/-- A record of a `select` is that of a matching point that its filters keep. -/
theorem Store.exists_match_of_mem_select {s : Store} {f : PointFilter} {o : Output} {r : Record}
    (h : r ∈ s.select f o) :
    ∃ m ∈ (s.matching f).filter fun m => o.keeps m.point.value, r = m.record := by
  obtain ⟨m, hm, rfl⟩ := List.mem_map.mp h
  exact ⟨m, List.mem_mergeSort.mp (mem_of_mem_page hm), rfl⟩

/-- **A `select` without paging** gives every matching point that its filters keep. -/
theorem Store.select_perm (s : Store) (f : PointFilter) {o : Output} (hlimit : o.limit = none)
    (hoffset : o.offset = 0) :
    (s.select f o).Perm
      (((s.matching f).filter fun m => o.keeps m.point.value).map Match.record) := by
  rw [Store.select, Output.page, hlimit, hoffset]
  exact (List.mergeSort_perm _ _).map _

end TimeSeries
