import TimeSeries.Json.Reader
import TimeSeries.Proofs.Json.Equality
import TimeSeries.Proofs.Query.Documents
import TimeSeries.Proofs.Query.Refinements

/-!
# Queries that are built, and their answers

A query that is built has the clauses that its refinements stated
(`Query.filters_of_build`), and a subject that an engine takes (`Query.check_of_build`).

A plain query says what plan it wants (`Query.plan?`), and its document is answered as if
that plan had been put to the store itself (`Store.query_of_build`). A select that is not
plain may state two filters with the same comparison, and then only the later is enforced; and as
a query reaches a store by its text (`Query.ReadWith`), it is enforced with the threshold that is
read from there (`Store.query_of_filters`).
-/

namespace TimeSeries

/-! ### Queries -/

/-- What is checked first, and what is checked then. -/
theorem Subject.guard_eq_ok {p : Prop} [Decidable p] {fault : QueryFault} {more : Except QueryFault Unit} :
    (if p then .error fault else more) = .ok () ↔ ¬p ∧ more = .ok () := by
  by_cases hp : p
  · rw [if_pos hp]
    exact iff_of_false (by simp) fun h => h.1 hp
  · rw [if_neg hp]
    exact (and_iff_right hp).symm

namespace Query

variable {subject : Subject} {refinements : List Refinement} {q : Query}

/-- **What `build` makes**: the tidied subject, which passed its `check`, and the clauses of a draft
that is not spoiled. -/
theorem build_eq_ok (h : build subject refinements = .ok q) :
    (Draft.ofList refinements).fault = none ∧
      subject.tidy.check (Draft.ofList refinements).clauses = .ok () ∧
      q = ⟨subject.tidy, (Draft.ofList refinements).clauses⟩ := by
  rw [build] at h
  split at h
  next => cases h
  next hfault =>
    split at h
    next => cases h
    next hcheck =>
      cases h
      exact ⟨hfault, hcheck, rfl⟩

/-- **A query from `build` has the filters that were stated**, in order. -/
theorem filters_of_build (h : build subject refinements = .ok q) :
    q.clauses.filters = Refinement.filters refinements := by
  obtain ⟨hfault, -, rfl⟩ := build_eq_ok h
  rw [Draft.clauses_ofList]
  exact List.take_of_length_le (Refinement.length_filters_le (Draft.fault_eq_none_iff.mp hfault))

/-- A query from `build` has the subject that was given, as `tidy` leaves it. -/
theorem subject_of_build (h : build subject refinements = .ok q) : q.subject = subject.tidy := by
  obtain ⟨-, -, rfl⟩ := build_eq_ok h
  rfl

/-- The subject of a query from `build` passed its `check`. -/
theorem check_of_build (h : build subject refinements = .ok q) :
    q.subject.check q.clauses = .ok () := by
  obtain ⟨-, hcheck, rfl⟩ := build_eq_ok h
  exact hcheck

/-- A join that passed its `check` has metrics, and not more than a tuple has slots. -/
theorem metrics_of_check {metrics : List String} {c : Clauses}
    (h : (Subject.join metrics).check c = .ok ()) :
    metrics ≠ [] ∧ metrics.length ≤ maxSlots := by
  rw [Subject.check, Subject.guard_eq_ok, Subject.guard_eq_ok] at h
  obtain ⟨hempty, hwide, -⟩ := h
  exact ⟨fun hnil => hempty (List.isEmpty_iff.mpr hnil), Nat.not_lt.mp hwide⟩

/-- **The plan that a query says**, from its own metrics, range, tag, order, filters, limit and
offset. Bins have none. -/
def plan? (q : Query) : Option Plan :=
  let c := q.clauses
  match q.subject with
  | .select metric => some (.select ⟨[metric], c.range, c.tag⟩ c.output)
  | .join metrics => some (.join ⟨metrics, c.range, c.tag⟩ c.output)
  | .aggregate metric f => some (.aggregate ⟨[metric], c.range, c.tag⟩ f)
  | .bins _ _ _ => none

/-- **Plain queries**: no groupings, a start wherever there is a stop, finite thresholds under
different comparisons, none of them in a join, and points rather than names. -/
structure Plain (q : Query) : Prop where
  /-- no groupings -/
  ungrouped : q.clauses.Ungrouped
  /-- a range that stops also starts -/
  started : q.clauses.range.stop.isSome → q.clauses.range.start.isSome
  /-- thresholds are finite -/
  finite : ∀ f ∈ q.clauses.filters, f.threshold.isFinite
  /-- no comparison is used twice -/
  different : (q.clauses.filters.map ValueFilter.comparison).Nodup
  /-- a select is for points -/
  points : ∀ metric, q.subject = .select metric → ¬ namesTarget.toList <+: metric.toList
  /-- a join has no filters -/
  unfiltered : ∀ metrics, q.subject = .join metrics → q.clauses.filters = []

end Query

/-! ### Texts -/

/-- **A query that is read with filters**: its text is read as its document, except that the filters
may have other thresholds, as a reader of decimals need not come back to the same double. -/
structure Query.ReadWith (parse : String → Option Json) (q : Query) (filters : List ValueFilter) :
    Prop where
  /-- the filters have the comparisons of those of the query -/
  comparisons : filters.map ValueFilter.comparison = q.clauses.filters.map ValueFilter.comparison
  /-- thresholds are finite -/
  finite : ∀ f ∈ filters, f.threshold.isFinite
  /-- what the text is read as -/
  parse_eq : parse q.text = some (Query.document ⟨q.subject, { q.clauses with filters }⟩)

/-! ### Answers -/

namespace Store

variable {subject : Subject} {refinements : List Refinement} {q : Query} {plan : Plan}
  {metric : String}

/-- **A select without groupings** is answered as `select` with the filters in force. -/
theorem query_select {c : Clauses}
    (hungrouped : c.Ungrouped)
    (hfinite : ∀ f ∈ c.filters, f.threshold.isFinite)
    (hpoints : ¬ namesTarget.toList <+: metric.toList)
    (s : Store) :
    s.query (some (Query.document ⟨.select metric, c⟩)) =
      (.ok (s.select ⟨[metric], c.range.written, c.tag⟩
        { c.output with filters := ValueFilter.inForce c.filters }), s) := by
  obtain ⟨kept, hread, hkept⟩ := Plan.ofJson_select_parts hungrouped hfinite hpoints
  rw [query, hread]
  dsimp only [answer]
  rw [← select_congr s _ (o := { c.output with filters := ValueFilter.inForce c.filters }) hkept]

/-- **A `Plain` query is answered as the plan it says.** Its document is not refused, and the
records and the store that is left are those of `plan?`. -/
theorem query_of_build
    (hbuild : Query.build subject refinements = .ok q)
    (hplain : q.Plain)
    (hplan : q.plan? = some plan)
    (s : Store) :
    s.query (some q.document) = (.ok (s.answer plan).1, (s.answer plan).2) := by
  have hwritten := TimeRange.written_eq hplain.started
  have hcheck := Query.check_of_build hbuild
  obtain ⟨subject, c⟩ := q
  cases subject with
  | select metric =>
    cases hplan
    rw [query_select hplain.ungrouped hplain.finite (hplain.points metric rfl), hwritten,
      ValueFilter.inForce_of_nodup hplain.different]
    rfl
  | join metrics =>
    cases hplan
    obtain ⟨hsome, hnarrow⟩ := Query.metrics_of_check hcheck
    have hread := Plan.ofJson_join_parts hsome hnarrow (hplain.unfiltered metrics rfl)
    rw [hwritten] at hread
    rw [query, hread]
  | aggregate metric f =>
    cases hplan
    have hread := @Plan.ofJson_aggregate_parts metric f c hplain.ungrouped
    rw [hwritten] at hread
    rw [query, hread]
  | bins metrics step fs => cases hplan

/-- A window with every clause that a select has: the second of the two points in it. -/
theorem query_of_window :
    let window : List Refinement :=
      [.between 1 10, .withTag "host" ["a", "b"], .orderBy .time, .filter .le (Double.ofWord 4),
        .filter .gt (Double.ofWord 1), .limit 1, .offset 1]
    let s := ofSeries ["cpu host=a", "cpu host=b"]
      [⟨1, 5, Double.ofWord 3⟩, ⟨2, 5, Double.ofWord 2⟩, ⟨1, 6, Double.ofWord 5⟩]
    ∃ q plan, Query.build (.select "cpu") window = .ok q ∧ q.Plain ∧ q.plan? = some plan ∧
      s.query (some q.document) = (.ok (s.answer plan).1, (s.answer plan).2) ∧
      (s.answer plan).1 = [.scalar 2 5 (Double.ofWord 2)] := by
  intro window s
  have hbuild : Query.build (.select "cpu") window =
      .ok ⟨.select "cpu", (Draft.ofList window).clauses⟩ := rfl
  have hplain : Query.Plain ⟨.select "cpu", (Draft.ofList window).clauses⟩ := by
    refine ⟨⟨rfl, rfl⟩, fun _ => rfl, by decide, by decide, ?_, fun _ h => by cases h⟩
    rintro metric ⟨⟩
    decide
  refine ⟨_, _, hbuild, hplain, rfl, query_of_build hbuild hplain rfl s, ?_⟩
  dsimp only [answer, select]
  rw [List.mergeSort_of_pairwise (by decide +kernel)]
  decide +kernel

/-- **The filters in force are enforced.** A select that is built is put to the store by its text,
which is read with some filters. Whatever it is answered with is the record of a matching point that
passes those in force among them, and without groupings and paging all such points are given. Where
no comparison is used twice, and the filters that were stated are read with the same thresholds,
these are all the filters that were stated. -/
theorem query_of_filters {parse : String → Option Json} {read : List ValueFilter}
    (hbuild : Query.build (.select metric) refinements = .ok q)
    (hread : q.ReadWith parse read)
    (hpoints : ¬ namesTarget.toList <+: metric.toList)
    (s : Store) :
    let stated := Refinement.filters refinements
    let passing := (s.matching ⟨[metric], q.clauses.range.written, q.clauses.tag⟩).filter fun m =>
      (ValueFilter.inForce read).all fun f => f.passes m.point.value
    (∀ records s', s.query (parse q.text) = (.ok records, s') →
      ∀ r ∈ records, ∃ m ∈ passing, r = m.record) ∧
    (q.clauses.Ungrouped → q.clauses.limit = none → q.clauses.offset = none →
      ∃ records, s.query (parse q.text) = (.ok records, s) ∧
        records.Perm (passing.map Match.record)) ∧
    read.map ValueFilter.comparison = stated.map ValueFilter.comparison ∧
    ((stated.map ValueFilter.comparison).Nodup → read = stated →
      ValueFilter.inForce read = stated) := by
  intro stated passing
  have hstated : q.clauses.filters = stated := Query.filters_of_build hbuild
  have hsubject : q.subject = .select metric := Query.subject_of_build hbuild
  have hparse := hread.parse_eq
  rw [hsubject] at hparse
  rw [hparse]
  refine ⟨fun records s' hquery r hr => ?_, fun hungrouped hlimit hoffset => ?_,
    hstated ▸ hread.comparisons, ?_⟩
  · by_cases hungrouped : q.clauses.Ungrouped
    · rw [query_select (c := { q.clauses with filters := read }) hungrouped hread.finite hpoints]
        at hquery
      cases hquery
      exact exists_match_of_mem_select hr
    · rw [query, Plan.ofJson_select_grouped (c := { q.clauses with filters := read }) hungrouped]
        at hquery
      cases hquery
  · refine ⟨_, query_select (c := { q.clauses with filters := read }) hungrouped hread.finite hpoints
      s, select_perm s _ ?_ ?_⟩
    · exact congrArg (Option.map UInt64.toNat) hlimit
    · exact congrArg (fun offset => (offset.map UInt64.toNat).getD 0) hoffset
  · rintro hdifferent rfl
    exact ValueFilter.inForce_of_nodup hdifferent

/-- Two bounds from either side, which are read as they were written, are both in force. -/
theorem query_of_two_sided_filter :
    let filters : List Refinement :=
      [.filter .gt (Double.ofWord 1), .filter .le (Double.ofWord 4)]
    let s := ofSeries ["cpu host=a"]
      [⟨1, 5, Double.ofWord 3⟩, ⟨1, 6, Double.ofWord 5⟩, ⟨1, 7, Double.ofWord 2⟩]
    ∃ q records, Query.build (.select "cpu") filters = .ok q ∧
      q.ReadWith Json.parse? (Refinement.filters filters) ∧
      s.query (Json.parse? q.text) = (.ok records, s) ∧
      records.Perm [.scalar 1 5 (Double.ofWord 3), .scalar 1 7 (Double.ofWord 2)] := by
  intro filters s
  have hbuild : Query.build (.select "cpu") filters =
      .ok ⟨.select "cpu", (Draft.ofList filters).clauses⟩ := rfl
  have hread : Query.ReadWith Json.parse? ⟨.select "cpu", (Draft.ofList filters).clauses⟩
      (Refinement.filters filters) := ⟨rfl, by decide, by decide +kernel⟩
  obtain ⟨-, hanswered, -, -⟩ := query_of_filters hbuild hread (by decide) s
  obtain ⟨records, hquery, hperm⟩ := hanswered ⟨rfl, rfl⟩ rfl rfl
  refine ⟨_, records, hbuild, hread, hquery, hperm.trans (List.Perm.of_eq ?_)⟩
  decide +kernel

/-- Of two lower bounds, the later is enforced and the earlier is not. -/
theorem query_of_two_lower_bounds :
    let filters : List Refinement :=
      [.filter .gt (Double.ofWord 5), .filter .gt (Double.ofWord 1)]
    let s := ofSeries ["cpu host=a"] [⟨1, 5, Double.ofWord 3⟩]
    ∃ q, Query.build (.select "cpu") filters = .ok q ∧
      (∀ f ∈ Refinement.filters filters, f.threshold.isFinite) ∧
      s.query (Json.parse? q.text) = (.ok [.scalar 1 5 (Double.ofWord 3)], s) ∧
      ⟨.gt, Double.ofWord 5⟩ ∈ Refinement.filters filters ∧
      ValueFilter.passes ⟨.gt, Double.ofWord 5⟩ (Double.ofWord 3) = false := by
  intro filters s
  have hbuild : Query.build (.select "cpu") filters =
      .ok ⟨.select "cpu", (Draft.ofList filters).clauses⟩ := rfl
  refine ⟨_, hbuild, by decide, ?_, by decide, by decide⟩
  have hparse : Json.parse? (Query.text ⟨.select "cpu", (Draft.ofList filters).clauses⟩) =
      some (Query.document ⟨.select "cpu", (Draft.ofList filters).clauses⟩) := by decide +kernel
  rw [hparse, query_select ⟨rfl, rfl⟩ (by decide) (by decide)]
  dsimp only [select]
  rw [List.mergeSort_of_pairwise (by decide +kernel)]
  decide +kernel

/-- **A threshold is not always read as it was written**: that of one filter is read as the next
double, and a point on the threshold is not given. -/
theorem query_of_reread_threshold :
    let threshold : Double := ⟨0x403f3eca06faea82⟩
    let filters : List Refinement := [.filter .ge threshold]
    let s := ofSeries ["cpu host=a"] [⟨1, 5, threshold⟩]
    ∃ q, Query.build (.select "cpu") filters = .ok q ∧
      q.ReadWith Json.parse? [⟨.ge, ⟨0x403f3eca06faea83⟩⟩] ∧
      ValueFilter.passes ⟨.ge, threshold⟩ threshold = true ∧
      s.query (Json.parse? q.text) = (.ok [], s) := by
  intro threshold filters s
  have hbuild : Query.build (.select "cpu") filters =
      .ok ⟨.select "cpu", (Draft.ofList filters).clauses⟩ := rfl
  have hread : Query.ReadWith Json.parse? ⟨.select "cpu", (Draft.ofList filters).clauses⟩
      [⟨.ge, ⟨0x403f3eca06faea83⟩⟩] := ⟨rfl, by decide, by decide +kernel⟩
  refine ⟨_, hbuild, hread, by decide, ?_⟩
  rw [hread.parse_eq, query_select ⟨rfl, rfl⟩ (by decide) (by decide)]
  dsimp only [select]
  rw [List.mergeSort_of_pairwise (by decide +kernel)]
  decide +kernel

end Store

end TimeSeries
