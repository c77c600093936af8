import Mathlib.Data.List.Induction
import Mathlib.Data.List.Lattice
import TimeSeries.Proofs.Time.Instants
import TimeSeries.Query.Document

/-!
# Refinements, and the draft that they make

A draft folds the refinements of a query, one after another, and a refinement may be refused. Both
can be said without the fold. Whether one is refused depends on itself and, for a filter, on how
many filters came before (`Refinement.fault?`); and the clauses in the end are the last that were
stated for each part, and the first two filters (`Clauses.stated`). A draft has just these clauses
(`Draft.clauses_ofList`) and the first fault (`Draft.fault_of_first`), and two refinements of
different parts that stand next to each other may change places in it (`Draft.ofList_swap`).
-/

namespace TimeSeries

/-! ### Refinements one by one -/

namespace Refinement

/-- **Part** of the clauses that a `Refinement` is about. -/
inductive Part : Type where
  /-- the start of the range -/
  | start
  /-- the stop of the range -/
  | stop
  /-- the tag restriction -/
  | tag
  /-- tags to leave out -/
  | groupBy
  /-- tags to keep -/
  | pivotBy
  /-- the order -/
  | order
  /-- the filters -/
  | filter
  /-- the limit -/
  | limit
  /-- the offset -/
  | offset
  deriving DecidableEq, Repr

/-- Every `Part` that a refinement is about. -/
def parts : Refinement → List Part
  | start _ | startAt _ => [.start]
  | stop _ | stopAt _ => [.stop]
  | between _ _ => [.start, .stop]
  | withTag _ _ => [.tag]
  | groupBy _ => [.groupBy]
  | pivotBy _ => [.pivotBy]
  | orderBy _ => [.order]
  | filter _ _ => [.filter]
  | limit _ => [.limit]
  | offset _ => [.offset]

/-- The start that a refinement sets, if it sets one. -/
def start? : Refinement → Option Timestamp
  | .start ts | .between ts _ => some ts
  | .startAt time => time.timestamp?
  | _ => none

/-- The stop that a refinement sets, if it sets one. -/
def stop? : Refinement → Option Timestamp
  | .stop ts | .between _ ts => some ts
  | .stopAt time => time.timestamp?
  | _ => none

/-- The tag restriction that a refinement states. -/
def tag? : Refinement → Option TagFilter
  | withTag tag values => some ⟨tag, distinct values⟩
  | _ => none

/-- The tags to leave out that a refinement states. -/
def groupBy? : Refinement → Option (List String)
  | groupBy tags => some (distinct tags)
  | _ => none

/-- The tags to keep that a refinement states. -/
def pivotBy? : Refinement → Option (List String)
  | pivotBy tags => some (distinct tags)
  | _ => none

/-- The order that a refinement states. -/
def order? : Refinement → Option RowOrder
  | orderBy order => some order
  | _ => none

/-- The limit that a refinement states. -/
def limit? : Refinement → Option UInt64
  | limit rows => some rows
  | _ => none

/-- The offset that a refinement states. -/
def offset? : Refinement → Option UInt64
  | offset rows => some rows
  | _ => none

/-- The value filters among some refinements, in the order they are stated. -/
def filters (rs : List Refinement) : List ValueFilter :=
  rs.filterMap fun
    | .filter comparison threshold => some ⟨comparison, threshold⟩
    | _ => none

/-- **The fault of a `Refinement`** behind others, if it is refused: an instant has no timestamp, or
there are two filters before. -/
def fault? (before : List Refinement) : Refinement → Option DraftFault
  | startAt t | stopAt t =>
    if 0 ≤ t.total ∧ t.total < 0x8000000000000000 then none else some (.outOfRange t)
  | filter _ _ =>
    if (filters before).length < 2 then none else some (.query .tooManyFilters)
  | _ => none

/-- **Faultless** refinements: none has a `fault?`. -/
def Faultless (rs : List Refinement) : Prop :=
  ∀ before r after, rs = before ++ r :: after → r.fault? before = none

/-- The last value that is stated, by `g`. -/
def last {α : Type} (g : Refinement → Option α) (rs : List Refinement) : Option α :=
  (rs.filterMap g).getLast?

variable {rs before : List Refinement} {r r' : Refinement}

theorem last_concat {α : Type} (g : Refinement → Option α) (rs : List Refinement)
    (r : Refinement) : last g (rs ++ [r]) = (g r).or (last g rs) := by
  rw [last, List.filterMap_append, List.getLast?_append, last]
  cases h : g r <;> simp [h]

theorem filters_concat (rs : List Refinement) (r : Refinement) :
    filters (rs ++ [r]) = filters rs ++ filters [r] := by
  rw [filters, List.filterMap_append]
  rfl

end Refinement

/-! ### Clauses as they are stated -/

namespace Clauses

open Refinement (tag? groupBy? pivotBy? order? limit? offset? start? stop? last)

/-- **The `Clauses` that are stated**: for each part the last, and the first two filters. -/
def stated (rs : List Refinement) : Clauses where
  range := ⟨last start? rs, last stop? rs⟩
  tag := last tag? rs
  groupBy := (last groupBy? rs).getD []
  pivotBy := (last pivotBy? rs).getD []
  order := last order? rs
  filters := (Refinement.filters rs).take maxFilters
  limit := last limit? rs
  offset := last offset? rs

theorem stated_concat (rs : List Refinement) (r : Refinement) :
    stated (rs ++ [r]) = ⟨⟨r.start?.or (last start? rs), r.stop?.or (last stop? rs)⟩,
      r.tag?.or (last tag? rs), (r.groupBy?.or (last groupBy? rs)).getD [],
      (r.pivotBy?.or (last pivotBy? rs)).getD [], r.order?.or (last order? rs),
      (Refinement.filters rs ++ Refinement.filters [r]).take maxFilters,
      r.limit?.or (last limit? rs), r.offset?.or (last offset? rs)⟩ := by
  simp only [stated, Refinement.last_concat, Refinement.filters_concat]

/-- **To `refine` by one more.** What is refused leaves nothing behind. -/
theorem refine_stated (rs : List Refinement) (r : Refinement) :
    match r.fault? rs with
    | some fault => (stated rs).refine r = .error fault ∧ stated (rs ++ [r]) = stated rs
    | none => (stated rs).refine r = .ok (stated (rs ++ [r])) := by
  rw [stated_concat]
  cases r with
  | startAt t | stopAt t =>
    rw [refine, requireTimestamp, Refinement.fault?]
    have hrange : t.timestamp?.isSome ↔ 0 ≤ t.total ∧ t.total < 0x8000000000000000 :=
      Instant.isSome_timestamp?_iff
    rcases htime : t.timestamp? with _ | ts
    · rw [htime] at hrange
      rw [if_neg (hrange.not.mp Bool.false_ne_true)]
      simp [Except.map, stated, Refinement.filters, Refinement.start?, Refinement.stop?, tag?,
        groupBy?, pivotBy?, order?, limit?, offset?, htime]
    · rw [htime] at hrange
      rw [if_pos (hrange.mp rfl)]
      simp [Except.map, stated, Refinement.filters, Refinement.start?, Refinement.stop?, tag?,
        groupBy?, pivotBy?, order?, limit?, offset?, htime]
  | filter comparison threshold =>
    let added : ValueFilter := ⟨comparison, threshold⟩
    have hadded : Refinement.filters [.filter comparison threshold] = [added] := rfl
    have hmax : maxFilters = 2 := rfl
    rw [refine, Refinement.fault?, hadded]
    by_cases hroom : (Refinement.filters rs).length < 2
    · have hheld : (stated rs).filters = Refinement.filters rs :=
        List.take_of_length_le (by omega)
      have hgrown : (Refinement.filters rs ++ [added]).take maxFilters =
          Refinement.filters rs ++ [added] :=
        List.take_of_length_le (by rw [List.length_append, List.length_singleton]; omega)
      rw [if_pos hroom, hheld, if_neg (by omega), hgrown]
      rfl
    · -- it is refused, and is not among the first two either
      have hheld : (stated rs).filters.length = maxFilters := by
        rw [stated, List.length_take]
        omega
      have hgrown : (Refinement.filters rs ++ [added]).take maxFilters =
          (Refinement.filters rs).take maxFilters :=
        List.take_append_of_le_length (by omega)
      rw [if_neg hroom, if_pos hheld, hgrown]
      exact ⟨rfl, rfl⟩
  | _ =>
    simp [Refinement.fault?, refine, stated, Refinement.filters, Refinement.start?,
      Refinement.stop?, tag?, groupBy?, pivotBy?, order?, limit?, offset?]

end Clauses

/-! ### Faults -/

section Faults

variable {rs before : List Refinement} {r r' : Refinement} {fault : DraftFault}

theorem Refinement.faultless_concat :
    Faultless (rs ++ [r]) ↔ Faultless rs ∧ r.fault? rs = none := by
  constructor
  · refine fun h => ⟨fun before x after hsplit => h before x (after ++ [r]) ?_, h rs r [] rfl⟩
    rw [hsplit, List.append_assoc, List.cons_append]
  · rintro ⟨h, hr⟩ before x after hsplit
    rcases List.eq_nil_or_concat after with rfl | ⟨after, y, rfl⟩
    · obtain ⟨rfl, hx⟩ := List.append_inj' hsplit rfl
      cases hx
      exact hr
    · have hsplit : rs ++ [r] = (before ++ x :: after) ++ [y] := by
        rw [hsplit, List.concat_eq_append, List.append_assoc, List.cons_append]
      exact h before x after (List.append_inj' hsplit rfl).1

/-- If none is refused, there are no more `filters` than a draft holds. -/
theorem Refinement.length_filters_le (h : Faultless rs) : (filters rs).length ≤ maxFilters := by
  induction rs using List.reverseRecOn with
  | nil => exact Nat.zero_le _
  | append_singleton rs r ih =>
    obtain ⟨hrs, hr⟩ := faultless_concat.mp h
    have ih := ih hrs
    rw [filters_concat, List.length_append]
    cases r with
    | filter comparison threshold =>
      have hroom : (filters rs).length < 2 := by
        by_contra hfull
        rw [fault?, if_neg hfull] at hr
        cases hr
      exact hroom
    | _ => exact ih

namespace Draft

open Refinement (Faultless faultless_concat)

/-- **The `Draft` of some refinements and one more**: the clauses are those that are stated, and the
first fault stays. -/
theorem refine_of_stated {d : Draft} (h : d.clauses = Clauses.stated rs) (r : Refinement) :
    d.refine r = ⟨Clauses.stated (rs ++ [r]), d.fault.or (r.fault? rs)⟩ := by
  have hstep := Clauses.refine_stated rs r
  rw [refine, h]
  cases hfault : r.fault? rs with
  | none =>
    rw [hfault] at hstep
    dsimp only at hstep
    rw [hstep, Option.or_none]
  | some fault =>
    rw [hfault] at hstep
    obtain ⟨hrefused, hsame⟩ := hstep
    rw [hrefused, hsame, ← h]

theorem ofList_concat (rs : List Refinement) (r : Refinement) :
    ofList (rs ++ [r]) = (ofList rs).refine r := List.foldl_concat _ _ _ _

/-- **The clauses of a `Draft`** are those that were `stated`. -/
theorem clauses_ofList (rs : List Refinement) : (ofList rs).clauses = Clauses.stated rs := by
  induction rs using List.reverseRecOn with
  | nil => rfl
  | append_singleton rs r ih => rw [ofList_concat, refine_of_stated ih]

theorem fault_concat (rs : List Refinement) (r : Refinement) :
    (ofList (rs ++ [r])).fault = (ofList rs).fault.or (r.fault? rs) := by
  rw [ofList_concat, refine_of_stated (clauses_ofList rs)]

theorem fault_eq_none_iff : (ofList rs).fault = none ↔ Faultless rs := by
  induction rs using List.reverseRecOn with
  | nil => exact iff_of_true rfl fun before x after hsplit => by simp at hsplit
  | append_singleton rs r ih => rw [fault_concat, Option.or_eq_none_iff, ih, faultless_concat]

/-- **The first `fault?`** is that of the draft, whatever comes behind. -/
theorem fault_of_first (hbefore : Faultless before) (hr : r.fault? before = some fault)
    (after : List Refinement) : (ofList (before ++ r :: after)).fault = some fault := by
  induction after using List.reverseRecOn with
  | nil => rw [fault_concat, fault_eq_none_iff.mpr hbefore, Option.none_or, hr]
  | append_singleton after x ih =>
    rw [← List.cons_append, ← List.append_assoc, fault_concat, ih, Option.some_or]

/-- The fault of a draft is the first `fault?`. -/
theorem exists_first (h : (ofList rs).fault = some fault) : ∃ before r after,
    rs = before ++ r :: after ∧ Faultless before ∧ r.fault? before = some fault := by
  induction rs using List.reverseRecOn with
  | nil => cases h
  | append_singleton rs x ih =>
    rw [fault_concat] at h
    -- the last one has a say only if there was no fault before it
    cases hearlier : (ofList rs).fault with
    | none =>
      rw [hearlier, Option.none_or] at h
      exact ⟨rs, x, [], rfl, fault_eq_none_iff.mp hearlier, h⟩
    | some earlier =>
      rw [hearlier, Option.some_or] at h
      obtain ⟨before, r, after, rfl, hfirst⟩ := ih (hearlier.trans h)
      exact ⟨before, r, after ++ [x], by rw [List.append_assoc, List.cons_append], hfirst⟩

end Draft

/-! ### Refinements that change places -/

/-- Refinements of different parts do not state the same filters. -/
theorem Refinement.filters_eq_nil (h : List.Disjoint r.parts r'.parts) :
    filters [r] = [] ∨ filters [r'] = [] := by
  cases r with
  | filter =>
    right
    cases r' with
    | filter => simp [parts] at h
    | _ => rfl
  | _ => exact .inl rfl

theorem Refinement.fault?_concat (h : List.Disjoint r.parts r'.parts) :
    r'.fault? (before ++ [r]) = r'.fault? before := by
  cases r' with
  | filter comparison threshold =>
    have hr : filters [r] = [] := (filters_eq_nil h).resolve_right (List.cons_ne_nil _ _)
    rw [fault?, fault?, filters_concat, hr, List.append_nil]
  | _ => rfl

/-- The last values of a part do not depend on the order of others. -/
theorem Refinement.last_swap {α : Type} {g : Refinement → Option α} {part : Part}
    (hg : ∀ r : Refinement, part ∉ r.parts → g r = none) (h : List.Disjoint r.parts r'.parts) :
    last g (before ++ [r] ++ [r']) = last g (before ++ [r'] ++ [r]) := by
  rw [last_concat, last_concat, last_concat, last_concat]
  by_cases hr : part ∈ r.parts
  · rw [hg r' (h hr), Option.none_or, Option.none_or]
  · rw [hg r hr, Option.none_or, Option.none_or]

/-- **A refinement is silent** on the parts that it is not about. -/
structure Refinement.Silent (r : Refinement) : Prop where
  /-- it states no start -/
  start : .start ∉ r.parts → r.start? = none
  /-- it states no stop -/
  stop : .stop ∉ r.parts → r.stop? = none
  /-- it states no tag restriction -/
  tag : .tag ∉ r.parts → r.tag? = none
  /-- it states no tags to leave out -/
  groupBy : .groupBy ∉ r.parts → r.groupBy? = none
  /-- it states no tags to keep -/
  pivotBy : .pivotBy ∉ r.parts → r.pivotBy? = none
  /-- it states no order -/
  order : .order ∉ r.parts → r.order? = none
  /-- it states no limit -/
  limit : .limit ∉ r.parts → r.limit? = none
  /-- it states no offset -/
  offset : .offset ∉ r.parts → r.offset? = none

theorem Refinement.silent (r : Refinement) : r.Silent := by
  cases r <;> constructor <;>
    simp [parts, start?, stop?, tag?, groupBy?, pivotBy?, order?, limit?, offset?]

open Refinement (last_swap silent) in
theorem Clauses.stated_swap (h : List.Disjoint r.parts r'.parts) :
    stated (before ++ [r] ++ [r']) = stated (before ++ [r'] ++ [r]) := by
  have hfilters : Refinement.filters (before ++ [r] ++ [r']) =
      Refinement.filters (before ++ [r'] ++ [r]) := by
    simp only [Refinement.filters_concat]
    obtain hnil | hnil := Refinement.filters_eq_nil h <;> simp [hnil]
  rw [stated, hfilters, last_swap (fun r => (silent r).start) h,
    last_swap (fun r => (silent r).stop) h, last_swap (fun r => (silent r).tag) h,
    last_swap (fun r => (silent r).groupBy) h, last_swap (fun r => (silent r).pivotBy) h,
    last_swap (fun r => (silent r).order) h, last_swap (fun r => (silent r).limit) h,
    last_swap (fun r => (silent r).offset) h, stated]

/-- **Refinements of different parts may change places** in `Draft.ofList`, if not both are
refused. -/
theorem Draft.ofList_swap (h : List.Disjoint r.parts r'.parts)
    (hone : r.fault? before = none ∨ r'.fault? before = none) :
    ofList (before ++ [r] ++ [r']) = ofList (before ++ [r'] ++ [r]) := by
  have hdraft : ∀ d : Draft, d = ⟨d.clauses, d.fault⟩ := fun _ => rfl
  rw [hdraft (ofList (before ++ [r] ++ [r'])), hdraft (ofList (before ++ [r'] ++ [r])),
    clauses_ofList, clauses_ofList, Clauses.stated_swap h]
  simp only [fault_concat, Refinement.fault?_concat h, Refinement.fault?_concat h.symm]
  obtain hnone | hnone := hone <;> simp [hnone]

end Faults

end TimeSeries
