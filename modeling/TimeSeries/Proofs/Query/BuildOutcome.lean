import TimeSeries.Proofs.Distinct
import TimeSeries.Proofs.Query.Building

/-!
# What is built of refinements

A query is built of a subject and refinements. If one of these is refused, there is no query but the
fault of the first such; and otherwise there is one unless the subject lacks something, such as a
metric or the start of the range (`Subject.Complete`), with the clauses that were stated last for
each part.

Main result: `Query.build_folds`.
-/

namespace TimeSeries

/-! ### What a subject needs -/

/-- **A `Subject` is complete** with some refinements: its metric is not blank; or there are
metrics, not more of them than a record has slots for, and a start; or metrics, aggregates, a width
and a start. -/
def Subject.Complete (rs : List Refinement) : Subject → Prop
  | select metric | aggregate metric _ => ∃ c ∈ metric.toList, Text.isBlank c = false
  | join metrics => metrics ≠ [] ∧ metrics.dedup.length ≤ 58 ∧ ∃ r ∈ rs, .start ∈ r.parts
  | bins metrics step fs => metrics ≠ [] ∧ fs ≠ [] ∧ step ≠ 0 ∧ ∃ r ∈ rs, .start ∈ r.parts

section Subjects

variable {rs : List Refinement}

/-- A refinement about the start that has no `fault?` states one. -/
theorem Refinement.start?_eq_none_iff {before : List Refinement} {r : Refinement}
    (h : r.fault? before = none) : r.start? = none ↔ .start ∉ r.parts := by
  refine ⟨fun hnone hmem => ?_, (silent r).start⟩
  cases r with
  | startAt t =>
    -- an instant without a timestamp is refused
    have hrange : t.timestamp?.isSome ↔ 0 ≤ t.total ∧ t.total < 0x8000000000000000 :=
      Instant.isSome_timestamp?_iff
    rw [show t.timestamp? = none from hnone] at hrange
    rw [fault?, if_neg (hrange.not.mp Bool.false_ne_true)] at h
    cases h
  | start _ | between _ _ => cases hnone
  | _ => simp [parts] at hmem

theorem Refinement.last_start?_eq_none_iff (h : Refinement.Faultless rs) :
    last start? rs = none ↔ ¬∃ r ∈ rs, .start ∈ r.parts := by
  rw [last, List.getLast?_eq_none_iff, List.filterMap_eq_nil_iff]
  push Not
  refine forall₂_congr fun r hr => ?_
  obtain ⟨before, after, hsplit⟩ := List.append_of_mem hr
  exact start?_eq_none_iff (h before r after hsplit)

namespace Subject

theorem checkStart_iff (h : Refinement.Faultless rs) :
    checkStart (Clauses.stated rs) = .ok () ↔ ∃ r ∈ rs, .start ∈ r.parts := by
  have hstart : (Clauses.stated rs).range.start.isNone = true ↔ ¬∃ r ∈ rs, .start ∈ r.parts := by
    rw [Option.isNone_iff_eq_none]
    exact Refinement.last_start?_eq_none_iff h
  rw [checkStart, guard_eq_ok, and_iff_left rfl, hstart, not_not]

theorem isBlankText_iff (metric : String) :
    ¬Text.isBlankText metric = true ↔ ∃ c ∈ metric.toList, Text.isBlank c = false := by
  simp [Text.isBlankText]

/-- **The `check` of a subject** says whether it is `Complete`. -/
theorem check_iff (h : Refinement.Faultless rs) (subject : Subject) :
    subject.tidy.check (Clauses.stated rs) = .ok () ↔ subject.Complete rs := by
  cases subject with
  | select metric | aggregate metric f =>
    simp only [tidy, check, guard_eq_ok, and_true, isBlankText_iff, Complete]
  | join metrics =>
    rw [tidy, check, guard_eq_ok, guard_eq_ok, checkStart_iff h, distinct,
      length_eraseDups, isEmpty_eraseDups, List.isEmpty_iff, Nat.not_lt, Complete]
    rfl
  | bins metrics step fs =>
    rw [tidy, check, guard_eq_ok, guard_eq_ok, guard_eq_ok, checkStart_iff h, distinct,
      isEmpty_eraseDups, isEmpty_eraseDups, List.isEmpty_iff, List.isEmpty_iff, Complete]

end Subject

end Subjects

/-! ### Queries that are built -/

namespace Query

open Refinement (Faultless)

variable {subject : Subject} {rs before : List Refinement} {r r' : Refinement} {fault : DraftFault}

theorem build_of_first (hbefore : Faultless before) (hr : r.fault? before = some fault)
    (subject : Subject) (after : List Refinement) :
    build subject (before ++ r :: after) = .error fault := by
  rw [build, Draft.fault_of_first hbefore hr after]

theorem build_of_check (h : Faultless rs)
    (hcheck : subject.tidy.check (Clauses.stated rs) = .ok ()) :
    build subject rs = .ok ⟨subject.tidy, Clauses.stated rs⟩ := by
  rw [build, Draft.fault_eq_none_iff.mpr h, Draft.clauses_ofList]
  dsimp only
  rw [hcheck]

theorem exists_build_iff (h : Faultless rs) (subject : Subject) :
    (∃ q, build subject rs = .ok q) ↔ subject.Complete rs := by
  rw [← Subject.check_iff h]
  refine ⟨?_, fun hcheck => ⟨_, build_of_check h hcheck⟩⟩
  rintro ⟨q, hq⟩
  obtain ⟨-, hcheck, -⟩ := build_eq_ok hq
  rwa [Draft.clauses_ofList] at hcheck

/-- **A query from `build`** has the clauses that were `stated`. -/
theorem eq_stated_of_build {q : Query} (h : build subject rs = .ok q) :
    Faultless rs ∧ q = ⟨subject.tidy, Clauses.stated rs⟩ := by
  obtain ⟨hfault, -, rfl⟩ := build_eq_ok h
  rw [Draft.clauses_ofList]
  exact ⟨Draft.fault_eq_none_iff.mp hfault, rfl⟩

theorem build_swap (h : List.Disjoint r.parts r'.parts)
    (hone : r.fault? before = none ∨ r'.fault? before = none) (subject : Subject)
    (after : List Refinement) :
    build subject (before ++ r' :: r :: after) = build subject (before ++ r :: r' :: after) := by
  have hdraft : ∀ x y : Refinement, Draft.ofList (before ++ x :: y :: after) =
      after.foldl Draft.refine (Draft.ofList (before ++ [x] ++ [y])) := by
    intro x y
    rw [Draft.ofList, Draft.ofList, ← List.foldl_append]
    simp
  rw [build, build, hdraft, hdraft, Draft.ofList_swap h hone]

/-- **Building folds the refinements.** If one is refused, the query is the fault of the first such,
whatever comes behind it. If none is, there is a query just if the subject is complete, and it has
the clauses that were stated: for each part the last, and all filters in order. So refinements of
different parts that stand next to each other may change places, if not both are refused. -/
theorem build_folds (subject : Subject) (rs : List Refinement) :
    (∀ before r after fault, rs = before ++ r :: after → Faultless before →
      r.fault? before = some fault → build subject rs = .error fault) ∧
    (¬Faultless rs → ∃ before r after fault, rs = before ++ r :: after ∧ Faultless before ∧
      r.fault? before = some fault) ∧
    (Faultless rs → ((∃ q, build subject rs = .ok q) ↔ subject.Complete rs)) ∧
    (∀ q, build subject rs = .ok q → q = ⟨subject.tidy, Clauses.stated rs⟩ ∧
      q.clauses.filters = Refinement.filters rs) ∧
    ∀ before r r' after, rs = before ++ r :: r' :: after → List.Disjoint r.parts r'.parts →
      r.fault? before = none ∨ r'.fault? before = none →
      build subject (before ++ r' :: r :: after) = build subject rs := by
  refine ⟨?_, fun hfaulty => ?_, fun h => exists_build_iff h subject,
    fun q h => ⟨(eq_stated_of_build h).2, filters_of_build h⟩, ?_⟩
  · rintro before r after fault rfl hbefore hr
    exact build_of_first hbefore hr subject after
  · obtain ⟨fault, hfault⟩ := Option.ne_none_iff_exists'.mp (mt Draft.fault_eq_none_iff.mp hfaulty)
    obtain ⟨before, r, after, hfirst⟩ := Draft.exists_first hfault
    exact ⟨before, r, after, fault, hfirst⟩
  · rintro before r r' after rfl hparts hone
    exact build_swap hparts hone subject after

/-- A start that is replaced, a metric that is given twice, and an order and a limit that may change
places; and a fault behind which there is another. -/
theorem build_folds_join :
    let rs : List Refinement := [.start 9, .filter .gt (Double.ofWord 1), .between 1 2,
      .orderBy .time, .limit 3]
    let late : List Refinement := [.start 9, .stopAt ⟨-1, 0⟩, .startAt ⟨-2, 0⟩, .limit 3]
    build (.join ["a", "b", "a"]) rs = .ok ⟨.join ["a", "b"], Clauses.stated rs⟩ ∧
      (Clauses.stated rs).range = ⟨some 1, some 2⟩ ∧
      build (.join ["a", "b", "a"]) [.start 9, .filter .gt (Double.ofWord 1), .between 1 2, .limit 3,
        .orderBy .time] = build (.join ["a", "b", "a"]) rs ∧
      build (.select "") late = .error (.outOfRange ⟨-1, 0⟩) := by
  intro rs late
  have hfaultless : Faultless rs := Draft.fault_eq_none_iff.mp (by decide)
  obtain ⟨-, -, hbuilt, hstated, hswap⟩ := build_folds (.join ["a", "b", "a"]) rs
  obtain ⟨q, hq⟩ := (hbuilt hfaultless).mpr
    ⟨by decide, by decide, .start 9, List.mem_cons_self, by decide⟩
  obtain ⟨hlate, -⟩ := build_folds (.select "") late
  refine ⟨hq.trans (congrArg _ (hstated q hq).1), rfl, ?_, ?_⟩
  · exact hswap [.start 9, .filter .gt (Double.ofWord 1), .between 1 2] _ _ [] rfl
      (by simp [Refinement.parts]) (.inl rfl)
  · exact hlate [.start 9] _ _ _ rfl (Draft.fault_eq_none_iff.mp rfl) rfl

end Query

end TimeSeries
