import TimeSeries.Proofs.Query.Building
import TimeSeries.Proofs.Query.Forms
import TimeSeries.Proofs.Store.Answers

/-!
# Bounds of time

Of the bounds that are set while a query is drafted, the last of either end are those of the query
that is built (`Query.range_of_build`). A stop is written only next to a start, so a query that was
given no start has the document of one without a range (`Query.document_of_no_start`). Whatever else
is written, a document is read with the range that was written (`Plan.range_of_ofJson`).

A plan takes no notice of points out of its range: with these left out of the store, it gives the
same records and the same names (`Store.answer_within`). Main result: `Store.query_of_bounds`.
-/

namespace TimeSeries

open Parsed
open Refinement (last start? stop?)

/-! ### Bounds that were set -/

namespace Refinement

/-- **Within the bounds** that were set last: from the start on, before the stop, or, if the start
is after the stop, after the stop and up to the start. -/
def Bounds (rs : List Refinement) (ts : Timestamp) : Prop :=
  match last start? rs, last stop? rs with
  | some a, some b => (a ≤ b → a ≤ ts ∧ ts < b) ∧ (b < a → b < ts ∧ ts ≤ a)
  | some a, none => a ≤ ts
  | none, some b => ts < b
  | none, none => True

instance (rs : List Refinement) : DecidablePred (Bounds rs) := by
  intro ts
  unfold Bounds
  split <;> infer_instance

end Refinement

namespace Query

variable {subject : Subject} {refinements : List Refinement} {q : Query}

/-- **A query from `build` has the last bounds that were set.** -/
theorem range_of_build (h : build subject refinements = .ok q) :
    q.clauses.range = ⟨last start? refinements, last stop? refinements⟩ := by
  obtain ⟨-, -, rfl⟩ := build_eq_ok h
  rw [Draft.clauses_ofList]
  rfl

/-- A join that `build` makes was given a start. -/
theorem start_of_build_join (h : build subject refinements = .ok q) {metrics : List String}
    (hsubject : q.subject = .join metrics) : (last start? refinements).isSome := by
  have hcheck := check_of_build h
  rw [hsubject, Subject.check, Subject.guard_eq_ok, Subject.guard_eq_ok, Subject.checkStart,
    range_of_build h, Subject.guard_eq_ok] at hcheck
  obtain ⟨-, -, hstart, -⟩ := hcheck
  simpa [Option.isSome_iff_ne_none] using hstart

/-- **A stop without a start is not written.** -/
theorem document_of_no_start {c : Clauses} (h : c.range.start = none) (subject : Subject) :
    document ⟨subject, c⟩ = document ⟨subject, { c with range := {} }⟩ := by
  have hrange : c.rangeFields = [] := by rw [Clauses.rangeFields, h]
  cases subject <;> simp only [document, hrange] <;> rfl

end Query

/-! ### Ranges that are read -/

namespace Plan

/-- The points that a `Plan` asks for. -/
def filter : Plan → PointFilter
  | names f | select f _ | join f _ | aggregate f _ => f

variable {root : List (String × Json)} {plan : Plan}

/-- Whatever plan an object is read as, its points are read for some metrics. -/
theorem read_of_ofJson (h : ofJson (.object root) = .ok plan) :
    ∃ metrics, PointFilter.read metrics root = .ok plan.filter := by
  obtain ⟨_, ⟨⟩, -, hform⟩ := form_of_ofJson h
  cases hform with
  | names _ _ hfilter => exact ⟨_, hfilter⟩
  | select _ _ hfilter _ => exact ⟨_, hfilter⟩
  | join _ _ _ _ hfilter _ _ => exact ⟨_, hfilter⟩
  | aggregate _ _ _ hfilter => exact ⟨_, hfilter⟩

/-- **A document is read by `Plan.ofJson` with the range that was `written`.** -/
theorem range_of_ofJson {q : Query} (h : ofJson q.document = .ok plan) :
    plan.filter.range = q.clauses.range.written := by
  have hfield : Json.field? q.root "range" = q.clauses.range.json? := by
    rw [q.field?_root]
    obtain ⟨subject, c⟩ := q
    cases subject <;> rfl
  rw [Query.document_eq] at h
  obtain ⟨metrics, hread⟩ := read_of_ofJson h
  obtain ⟨tag, -, hread⟩ := bind_eq_ok.mp hread
  obtain ⟨range, hrange, hread⟩ := bind_eq_ok.mp hread
  have hfilter : plan.filter = ⟨metrics, range, tag⟩ := (Except.ok.inj hread).symm
  rw [hfilter]
  exact Except.ok.inj (hrange.symm.trans (PointFilter.readRange_of_field hfield))

end Plan

/-! ### Answers within a range -/

/-- The time of a `Record`, if it has one. -/
def Record.timestamp? : Record → Option Timestamp
  | .scalar _ ts _ | .tuple _ ts _ => some ts
  | .seriesOnly _ => none

namespace Store

/-- **The store with points at some times only.** -/
def within (s : Store) (keep : Timestamp → Bool) : Store :=
  { s with points := s.points.filter fun p => keep p.timestamp }

variable {keep : Timestamp → Bool}

/-- Points that are left out are not `matching` if their times are out of range. -/
theorem matching_within {f : PointFilter} (h : ∀ ts, f.range.contains ts = true → keep ts = true)
    (s : Store) : (s.within keep).matching f = s.matching f := by
  have hpoint : ∀ p, (if keep p.timestamp then s.matchAt? f p else none) = s.matchAt? f p := by
    intro p
    split
    next => rfl
    next hkeep =>
      have hrange : ¬f.range.contains p.timestamp = true := fun hcontains =>
        hkeep (h p.timestamp hcontains)
      rw [matchAt?, if_neg hrange]
  rw [matching_eq, within, List.filterMap_filter]
  exact congrArg (List.filterMap · s.points) (funext hpoint)

/-- Points have no part in what `register` does with a name. -/
theorem register_within (s : Store) (name : String) :
    (s.within keep).register name = ((s.register name).1, (s.register name).2.within keep) := by
  cases hid : s.ids.find? name with
  | some id => rw [register_of_some hid, register_of_some (s := s.within keep) hid]
  | none =>
    rw [register_of_none hid, register_of_none (s := s.within keep) hid]
    rfl

/-- Points have no part in what `registerAll` does with rows. -/
theorem registerAll_within {α : Type} {step : Store → α → Record × Store}
    (hstep : ∀ s row, step (s.within keep) row = ((step s row).1, (step s row).2.within keep))
    (s : Store) (rows : List α) :
    registerAll step (s.within keep) rows =
      ((registerAll step s rows).1, (registerAll step s rows).2.within keep) := by
  induction rows generalizing s with
  | nil => rfl
  | cons row rows ih =>
    rw [registerAll, hstep]
    dsimp only
    rw [ih, registerAll]

theorem registerJoin_within (metrics : List String) (s : Store) (row : JoinRow) :
    registerJoin metrics (s.within keep) row =
      ((registerJoin metrics s row).1, (registerJoin metrics s row).2.within keep) := by
  rw [registerJoin, register_within, registerJoin]

theorem registerReduced_within (f : Aggregate) (s : Store) (row : Reduced) :
    registerReduced f (s.within keep) row =
      ((registerReduced f s row).1, (registerReduced f s row).2.within keep) := by
  rw [registerReduced, register_within, registerReduced]

/-- **A plan takes no notice of points out of its range.** -/
theorem answer_within {plan : Plan}
    (h : ∀ ts, plan.filter.range.contains ts = true → keep ts = true) (s : Store) :
    (s.within keep).answer plan = ((s.answer plan).1, (s.answer plan).2.within keep) := by
  have hmatching : (s.within keep).matching plan.filter = s.matching plan.filter :=
    matching_within h s
  cases plan with
  | names f => rfl
  | select f o =>
    rw [Plan.filter] at hmatching
    rw [answer, select, hmatching]
    rfl
  | join f o =>
    rw [Plan.filter] at hmatching
    rw [answer, join, joinRows, hmatching, registerAll_within (registerJoin_within f.metrics)]
    rfl
  | aggregate f fn =>
    rw [Plan.filter] at hmatching
    rw [answer, aggregate, hmatching, registerAll_within (registerReduced_within fn)]
    rfl

/-! ### Times of rows -/

section Times

variable {T : Timestamp → Prop}

/-- A row of `joinPoint` is at the time of a point. -/
theorem timestamp_joinPoints {metrics : List String} {ms : List Match} {rows : List JoinRow}
    (hms : ∀ m ∈ ms, T m.point.timestamp) (h : ∀ row ∈ rows, T row.key.timestamp) :
    ∀ row ∈ ms.foldl (joinPoint metrics) rows, T row.key.timestamp := by
  induction ms generalizing rows with
  | nil => exact h
  | cons m ms ih =>
    refine ih (fun m' hm' => hms m' (List.mem_cons_of_mem _ hm')) ?_
    rw [joinPoint]
    split
    · exact forall_putSlot (hms m List.mem_cons_self) (fun row hrow => hrow) h
    · exact h

/-- Of two points one is chosen, so in the end one of all. -/
theorem smallest_mem (best : Point) (ps : List Point) : smallest best ps ∈ best :: ps := by
  induction ps generalizing best with
  | nil => exact List.mem_singleton_self best
  | cons p ps ih =>
    rw [smallest]
    by_cases hless : p.value.rank < best.value.rank
    · rw [if_pos hless]
      exact List.mem_cons_of_mem _ (ih p)
    · rw [if_neg hless]
      exact List.cons_subset_cons best (List.subset_cons_self p ps) (ih best)

theorem largest_mem (best : Point) (ps : List Point) : largest best ps ∈ best :: ps := by
  induction ps generalizing best with
  | nil => exact List.mem_singleton_self best
  | cons p ps ih =>
    rw [largest]
    by_cases hless : p.value.rank < best.value.rank
    · rw [if_pos hless]
      exact List.cons_subset_cons best (List.subset_cons_self p ps) (ih best)
    · rw [if_neg hless]
      exact List.mem_cons_of_mem _ (ih p)

/-- What `reduce` makes of points is at the time of one of them. -/
theorem timestamp_reduce {p : Point} {ps : List Point} (f : Aggregate)
    (h : ∀ q ∈ p :: ps, T q.timestamp) : T (reduce f p ps).1 := by
  have hlast : latest p ps ∈ p :: ps := List.getLastD_mem_cons
  cases f with
  | max | maxTimestamp => exact h _ (largest_mem p ps)
  | min | minTimestamp => exact h _ (smallest_mem p ps)
  | first => exact h p List.mem_cons_self
  | _ => exact h _ hlast

/-- **A row is at the time of a point.** -/
theorem timestamp_answer {s : Store} (plan : Plan)
    (h : ∀ p ∈ s.points, T p.timestamp) :
    ∀ r ∈ (s.answer plan).1, ∀ ts ∈ r.timestamp?, T ts := by
  have hmatching : ∀ f, ∀ m ∈ s.matching f, T m.point.timestamp := fun f m hm =>
    h m.point (mem_matching.mp hm).1
  cases plan with
  | names f =>
    intro r hr ts hts
    obtain ⟨e, -, rfl⟩ := List.mem_map.mp hr
    cases hts
  | select f o =>
    rintro r hr _ hts
    obtain ⟨m, hm, rfl⟩ := exists_match_of_mem_select hr
    cases hts
    exact hmatching f m (List.mem_of_mem_filter hm)
  | join f o =>
    refine forall_registerAll (fun s' row hrow => ?_) s
    rintro _ ⟨⟩
    exact timestamp_joinPoints (hmatching f) (fun row hrow => by cases hrow) row
      (List.mem_mergeSort.mp (mem_of_mem_page hrow))
  | aggregate f fn =>
    refine forall_registerAll (fun s' row hrow => ?_) s
    rintro _ ⟨⟩
    obtain ⟨name, -, hreduced⟩ := List.mem_filterMap.mp hrow
    split at hreduced
    · cases hreduced
    next p ps hpoints =>
      cases hreduced
      refine timestamp_reduce fn fun q hq => ?_
      rw [← hpoints, seriesPoints, List.mem_mergeSort] at hq
      obtain ⟨m, hm, rfl⟩ := List.mem_map.mp hq
      exact hmatching f m (List.mem_of_mem_filter hm)

end Times

/-! ### Queries with bounds -/

/-- What a range that starts `contains` is what is within the `Bounds`. -/
theorem contains_iff_bounds {rs : List Refinement} (h : (last start? rs).isSome)
    (ts : Timestamp) :
    (TimeRange.contains ⟨last start? rs, last stop? rs⟩ ts) = true ↔
      Refinement.Bounds rs ts := by
  rw [Refinement.Bounds]
  cases hstart : last start? rs with
  | none => rw [hstart] at h; cases h
  | some a =>
    cases last stop? rs with
    | none => simp [TimeRange.contains]
    | some b =>
      by_cases hback : b < a
      · have hle : ¬a ≤ b := by simpa using hback
        simp [TimeRange.contains, hback, hle]
      · have hle : a ≤ b := by simpa using hback
        simp [TimeRange.contains, hback, hle]

variable {subject : Subject} {refinements : List Refinement} {q : Query}

/-- **Bounds of time are enforced**, in every query that is built after whatever refinements and on
every store. A join has a start. Where no start was set, nothing is written of a stop, and the query
is the one without a range. Where one was set, points that are not within the bounds that were set
last have no part in the answer: the outcome is that on the store without them, and so are the names
that the answer leaves behind. -/
theorem query_of_bounds (hbuild : Query.build subject refinements = .ok q) (s : Store) :
    (∀ metrics, q.subject = .join metrics → (last start? refinements).isSome) ∧
    (last start? refinements = none →
      q.document = Query.document ⟨q.subject, { q.clauses with range := {} }⟩) ∧
    ((last start? refinements).isSome →
      let bounded := s.within fun ts => Refinement.Bounds refinements ts
      (∀ p, p ∈ bounded.points ↔ p ∈ s.points ∧ Refinement.Bounds refinements p.timestamp) ∧
        (bounded.query (some q.document)).1 = (s.query (some q.document)).1 ∧
        (bounded.query (some q.document)).2 =
          ((s.query (some q.document)).2.within fun ts => Refinement.Bounds refinements ts) ∧
        ∀ records, (s.query (some q.document)).1 = .ok records →
          ∀ r ∈ records, ∀ ts ∈ r.timestamp?, Refinement.Bounds refinements ts) := by
  have hrange := Query.range_of_build hbuild
  refine ⟨fun metrics => Query.start_of_build_join hbuild, fun hnone => ?_, fun hstart => ?_⟩
  · exact Query.document_of_no_start (by rw [hrange]; exact hnone) q.subject
  · have hpoints : ∀ p, p ∈ (s.within fun ts => Refinement.Bounds refinements ts).points ↔
        p ∈ s.points ∧ Refinement.Bounds refinements p.timestamp := fun p => by simp [within]
    refine ⟨hpoints, ?_⟩
    rw [query, query]
    dsimp only
    cases hread : Plan.ofJson q.document with
    | error status => exact ⟨rfl, rfl, fun records hrecords => by cases hrecords⟩
    | ok plan =>
      have hcontains : ∀ ts, plan.filter.range.contains ts = true →
          decide (Refinement.Bounds refinements ts) = true := by
        intro ts hts
        rw [Plan.range_of_ofJson hread, hrange, TimeRange.written, if_pos hstart,
          contains_iff_bounds hstart] at hts
        exact decide_eq_true hts
      have hanswer := answer_within hcontains s
      have htimes := timestamp_answer plan fun p hp => ((hpoints p).mp hp).2
      rw [hanswer] at htimes
      dsimp only
      rw [hanswer]
      refine ⟨rfl, rfl, ?_⟩
      rintro _ ⟨⟩
      exact htimes

/-- A range that is walked backwards, set after another: of four points those after 3 and up to
7. -/
theorem query_of_bounds_backward :
    let window : List Refinement := [.stop 9, .startAt ⟨1, 0⟩, .between 7 3]
    let s := ofSeries ["cpu host=a"] [⟨1, 3, Double.ofWord 1⟩, ⟨1, 5, Double.ofWord 2⟩,
      ⟨1, 7, Double.ofWord 3⟩, ⟨1, 8, Double.ofWord 4⟩]
    let bounded := ofSeries ["cpu host=a"] [⟨1, 5, Double.ofWord 2⟩, ⟨1, 7, Double.ofWord 3⟩]
    ∃ q, Query.build (.aggregate "cpu" .max) window = .ok q ∧
      (bounded.query (some q.document)).1 = (s.query (some q.document)).1 := by
  intro window s bounded
  have hbuild : Query.build (.aggregate "cpu" .max) window =
      .ok ⟨.aggregate "cpu" .max, (Draft.ofList window).clauses⟩ := rfl
  obtain ⟨-, -, hbounded⟩ := query_of_bounds hbuild s
  have hpoints : s.within (fun ts => Refinement.Bounds window ts) = bounded := by decide +kernel
  refine ⟨_, hbuild, ?_⟩
  rw [← hpoints]
  exact (hbounded rfl).2.1

/-- **A stop without a start is not enforced**: a select that was given one is answered with a point
past it. -/
theorem lone_stop_not_enforced :
    let window : List Refinement := [.stop 5]
    let s := ofSeries ["cpu host=a"] [⟨1, 7, Double.ofWord 3⟩]
    ∃ q, Query.build (.select "cpu") window = .ok q ∧
      last start? window = none ∧ last stop? window = some 5 ∧
      ¬Refinement.Bounds window 7 ∧
      s.query (some q.document) = (.ok [.scalar 1 7 (Double.ofWord 3)], s) := by
  intro window s
  have hbuild : Query.build (.select "cpu") window =
      .ok ⟨.select "cpu", (Draft.ofList window).clauses⟩ := rfl
  refine ⟨_, hbuild, rfl, rfl, by decide, ?_⟩
  rw [query_select ⟨rfl, rfl⟩ (by decide) (by decide)]
  dsimp only [select]
  rw [List.mergeSort_of_pairwise (by decide +kernel)]
  decide +kernel

end Store

end TimeSeries
