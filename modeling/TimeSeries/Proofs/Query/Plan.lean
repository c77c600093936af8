import TimeSeries.Query.Plan

/-!
# What a document is read as or refused with

Some facts about `Plan.ofJson` that the rest relies on. A plan that is read is narrow
(`Plan.narrow_of_ofJson`): a join has no more metrics than a tuple has slots, however
often one is repeated. And a document that is refused is refused as malformed, as out of
range or as not implemented (`Plan.refusal_of_ofJson`), never with a status that belongs
to the delivery of records. A select without clauses is read as what it says
(`Plan.ofJson_select`).
-/

namespace TimeSeries

/-! ### Results of readers -/

namespace Parsed

variable {α β : Type} {p : Parsed α} {f : α → Parsed β}

theorem bind_eq_ok {b : β} : p >>= f = .ok b ↔ ∃ a, p = .ok a ∧ f a = .ok b := by
  cases p with
  | error status =>
    refine ⟨fun h => (by cases h), ?_⟩
    rintro ⟨a, ha, -⟩
    cases ha
  | ok a =>
    refine ⟨fun h => ⟨a, rfl, h⟩, ?_⟩
    rintro ⟨a', ha, h⟩
    cases ha
    exact h

/-- Every `Status` that a document is refused with. -/
def refusals : List Status := [.queryParsingError, .badArg, .notImplemented]

/-- **Refusing properly**: a reader that fails does so with one of the `refusals`. -/
def Proper (p : Parsed α) : Prop := ∀ status, p = .error status → status ∈ refusals

theorem Proper.ok (a : α) : Proper (.ok a) := fun status h => by cases h

theorem Proper.pure (a : α) : Proper (Pure.pure a : Parsed α) := Proper.ok a

theorem Proper.error {status : Status} (h : status ∈ refusals) :
    Proper (.error status : Parsed α) := by
  intro status' heq
  cases heq
  exact h

theorem Proper.bind (hp : p.Proper) (hf : ∀ a, (f a).Proper) : (p >>= f).Proper := by
  cases p with
  | error status => exact .error (hp status rfl)
  | ok a => exact hf a

theorem Proper.required (o : Option α) : Proper (TimeSeries.required o) := by
  cases o with
  | none => exact .error (by decide)
  | some a => exact .ok a

theorem Proper.mapM {f : β → Parsed α} (hf : ∀ b, (f b).Proper) (bs : List β) :
    Proper (bs.mapM f) := by
  induction bs with
  | nil =>
    rw [List.mapM_nil]
    exact .pure _
  | cons b bs ih =>
    rw [List.mapM_cons]
    exact .bind (hf b) fun a => .bind ih fun as => .pure _

end Parsed

open Parsed

/-! ### Clauses -/

theorem PointFilter.proper_readTag (root : List (String × Json)) :
    Proper (PointFilter.readTag root) := by
  rw [PointFilter.readTag]
  split
  · exact .ok _
  · split
    · exact .error (by decide)
    · exact .error (by decide)
    · exact .error (by decide)
    · exact .ok _
    · exact .bind (.mapM (fun v => .required _) _) fun values => .pure _
    · exact .error (by decide)

theorem PointFilter.proper_readBound (range : List (String × Json)) (key : String) :
    Proper (PointFilter.readBound range key) := by
  rw [PointFilter.readBound]
  split
  · exact .ok _
  · exact .bind (.required _) fun w => .pure _

theorem PointFilter.proper_readRange (root : List (String × Json)) :
    Proper (PointFilter.readRange root) := by
  rw [PointFilter.readRange]
  split
  · exact .ok _
  · exact .bind (.required _) fun range => .bind (PointFilter.proper_readBound range _) fun start =>
      .bind (PointFilter.proper_readBound range _) fun stop => .pure _

theorem PointFilter.proper_read (metrics : List String) (root : List (String × Json)) :
    Proper (PointFilter.read metrics root) :=
  .bind (PointFilter.proper_readTag root) fun _ =>
    .bind (PointFilter.proper_readRange root) fun _ => .pure _

theorem Output.proper_readOrder (root : List (String × Json)) : Proper (Output.readOrder root) := by
  rw [Output.readOrder]
  split
  · exact .ok _
  · exact .required _

theorem Output.proper_readFilters (root : List (String × Json)) :
    Proper (Output.readFilters root) := by
  rw [Output.readFilters]
  split
  · exact .ok _
  · exact .bind (.required _) fun entries => .mapM (fun entry =>
      .bind (.required _) fun threshold => .bind (.required _) fun comparison => .pure _) entries

theorem Output.proper_readCount (root : List (String × Json)) (key : String) :
    Proper (Output.readCount root key) := by
  rw [Output.readCount]
  split
  · exact .ok _
  · exact .bind (.required _) fun count => .pure _

theorem Output.proper_read (root : List (String × Json)) : Proper (Output.read root) :=
  .bind (Output.proper_readOrder root) fun _ => .bind (Output.proper_readFilters root) fun _ =>
    .bind (Output.proper_readCount root _) fun _ =>
      .bind (Output.proper_readCount root _) fun _ => .pure _

/-! ### Plans -/

namespace Plan

/-- **A `Plan` is narrow** if the rows of a join are tuples that a record can hold. -/
def Narrow : Plan → Prop
  | join filter _ => filter.metrics.length ≤ maxSlots
  | _ => True

theorem metrics_read {metrics : List String} {root : List (String × Json)} {filter : PointFilter}
    (h : PointFilter.read metrics root = .ok filter) : filter.metrics = metrics := by
  obtain ⟨tag, -, h⟩ := bind_eq_ok.mp h
  obtain ⟨range, -, h⟩ := bind_eq_ok.mp h
  cases h
  rfl

/-- A select is read by `readSelect` as a listing of names or of points. -/
theorem readSelect_eq_ok {target : Json} {root : List (String × Json)} {plan : Plan}
    (h : readSelect target root = .ok plan) :
    (∃ filter, plan = names filter) ∨ ∃ filter output, plan = select filter output := by
  obtain ⟨text, -, h⟩ := bind_eq_ok.mp h
  split at h
  · obtain ⟨metrics, -, h⟩ := bind_eq_ok.mp h
    obtain ⟨filter, -, h⟩ := bind_eq_ok.mp h
    cases h
    exact .inl ⟨filter, rfl⟩
  · obtain ⟨filter, -, h⟩ := bind_eq_ok.mp h
    obtain ⟨output, -, h⟩ := bind_eq_ok.mp h
    cases h
    exact .inr ⟨filter, output, rfl⟩

/-- A join that `readJoin` reads has metrics, and not more than a tuple has slots. -/
theorem readJoin_eq_ok {metrics : Json} {root : List (String × Json)} {plan : Plan}
    (h : readJoin metrics root = .ok plan) :
    ∃ filter output, plan = join filter output ∧ filter.metrics ≠ [] ∧
      filter.metrics.length ≤ maxSlots := by
  obtain ⟨items, -, h⟩ := bind_eq_ok.mp h
  obtain ⟨names, -, h⟩ := bind_eq_ok.mp h
  split at h
  next => cases h
  next hwidth =>
    obtain ⟨output, -, h⟩ := bind_eq_ok.mp h
    split at h
    next => cases h
    next =>
      obtain ⟨filter, hfilter, h⟩ := bind_eq_ok.mp h
      cases h
      simp only [Bool.or_eq_true, decide_eq_true_eq, not_or, Nat.not_lt, List.isEmpty_iff] at hwidth
      rw [← metrics_read hfilter] at hwidth
      exact ⟨filter, output, rfl, hwidth⟩

theorem readAggregate_eq_ok {target : Json} {root : List (String × Json)} {plan : Plan}
    (h : readAggregate target root = .ok plan) : ∃ filter f, plan = aggregate filter f := by
  obtain ⟨entries, -, h⟩ := bind_eq_ok.mp h
  split at h
  · cases h
  · cases h
  · obtain ⟨f, -, h⟩ := bind_eq_ok.mp h
    obtain ⟨filter, -, h⟩ := bind_eq_ok.mp h
    cases h
    exact ⟨filter, f, rfl⟩

/-- **A join that `ofJson` reads** names a metric, and not more than a tuple has slots. -/
theorem metrics_of_ofJson {document : Json} {filter : PointFilter} {output : Output}
    (h : ofJson document = .ok (.join filter output)) :
    filter.metrics ≠ [] ∧ filter.metrics.length ≤ maxSlots := by
  obtain ⟨root, -, h⟩ := bind_eq_ok.mp h
  dsimp only at h
  split at h
  · cases h
  · split at h
    · obtain ⟨_, heq⟩ | ⟨_, _, heq⟩ := readSelect_eq_ok h <;> cases heq
    · obtain ⟨_, _, heq, hmetrics⟩ := readJoin_eq_ok h
      cases heq
      exact hmetrics
    · obtain ⟨_, _, heq⟩ := readAggregate_eq_ok h
      cases heq
    · cases h

/-- **A plan that is read is `Narrow`.** -/
theorem narrow_of_ofJson {document : Json} {plan : Plan} (h : ofJson document = .ok plan) :
    plan.Narrow := by
  cases plan with
  | join filter output => exact (metrics_of_ofJson h).2
  | _ => trivial

theorem proper_listed? {target : String} {metrics : Parsed (List String)}
    (h : listed? target = some metrics) : metrics.Proper := by
  rw [listed?] at h
  split at h
  · split at h <;> cases h
    · exact .ok _
    · exact .ok _
    · exact .error (by decide)
  · cases h

theorem proper_readSelect (target : Json) (root : List (String × Json)) :
    Proper (readSelect target root) := by
  refine .bind (.required _) fun text => ?_
  split
  next metrics hlisted =>
    exact .bind (proper_listed? hlisted) fun metrics =>
      .bind (PointFilter.proper_read metrics root) fun filter => .pure _
  next =>
    exact .bind (PointFilter.proper_read _ root) fun filter =>
      .bind (Output.proper_read root) fun output => .pure _

theorem proper_readJoin (metrics : Json) (root : List (String × Json)) :
    Proper (readJoin metrics root) := by
  refine .bind (.required _) fun items => .bind (.mapM (fun m => .required _) items) fun names => ?_
  split
  · exact .error (by decide)
  · refine .bind (Output.proper_read root) fun output => ?_
    split
    · exact .error (by decide)
    · exact .bind (PointFilter.proper_read names root) fun filter => .pure _

theorem proper_readAggregate (target : Json) (root : List (String × Json)) :
    Proper (readAggregate target root) := by
  refine .bind (.required _) fun entries => ?_
  split
  · exact .error (by decide)
  · exact .error (by decide)
  · exact .bind (.required _) fun f => .bind (PointFilter.proper_read _ root) fun filter => .pure _

/-- **A document is refused** with one of the `refusals`. -/
theorem refusal_of_ofJson {document : Json} {status : Status}
    (h : ofJson document = .error status) : status ∈ refusals := by
  have hproper : Proper (ofJson document) := by
    refine .bind (.required _) fun root => ?_
    dsimp only
    split
    · exact .error (by decide)
    · split
      · exact proper_readSelect _ root
      · exact proper_readJoin _ root
      · exact proper_readAggregate _ root
      · exact .error (by decide)
  exact hproper status h

/-! ### Plain selects -/

/-- What does not begin like a listing is not one to `listed?`. -/
theorem listed?_eq_none {target : String} (h : ¬ namesTarget.toList <+: target.toList) :
    listed? target = none := by
  rw [listed?]
  exact if_neg fun hprefix => h (List.isPrefixOf_iff_prefix.mp hprefix)

/-- **A select without clauses** is read by `ofJson` as the plan to give all points of its
metric. -/
theorem ofJson_select {metric : String} (h : ¬ namesTarget.toList <+: metric.toList) :
    ofJson (Query.document ⟨.select metric, {}⟩) = .ok (.select ⟨[metric], {}, none⟩ {}) := by
  have hselect : ofJson (Query.document ⟨.select metric, {}⟩) =
      readSelect (.text metric) [("select", .text metric)] := rfl
  rw [hselect]
  refine bind_eq_ok.mpr ⟨metric, rfl, ?_⟩
  rw [listed?_eq_none h]
  rfl

/-- **A select that begins like a listing** is refused by `ofJson` or read as one. -/
theorem ofJson_select_of_isPrefix {metric : String} (h : namesTarget.toList <+: metric.toList) :
    (∃ status, ofJson (Query.document ⟨.select metric, {}⟩) = .error status) ∨
      ∃ f, ofJson (Query.document ⟨.select metric, {}⟩) = .ok (.names f) := by
  have hselect : ofJson (Query.document ⟨.select metric, {}⟩) =
      readSelect (.text metric) [("select", .text metric)] := rfl
  have hlisted : listed? metric ≠ none := by
    rw [listed?, if_pos (List.isPrefixOf_iff_prefix.mpr h)]
    split <;> simp
  rw [hselect]
  cases hread : readSelect (.text metric) [("select", .text metric)] with
  | error status => exact .inl ⟨status, rfl⟩
  | ok plan =>
    obtain ⟨target, htarget, hread⟩ := bind_eq_ok.mp hread
    obtain rfl : metric = target := Except.ok.inj htarget
    split at hread
    · obtain ⟨metrics, -, hread⟩ := bind_eq_ok.mp hread
      obtain ⟨f, -, hread⟩ := bind_eq_ok.mp hread
      exact .inr ⟨f, hread.symm⟩
    next hnone => exact absurd hnone hlisted

/-- **The listing of a metric** is read by `ofJson` as the plan to list its series. -/
theorem ofJson_listing (metric : String) :
    ofJson (Listing.document { metric := some metric }) = .ok (.names ⟨[metric], {}, none⟩) := by
  have hselect : ofJson (Listing.document { metric := some metric }) =
      readSelect (.text (namesTarget ++ ":" ++ metric))
        [("select", .text (namesTarget ++ ":" ++ metric))] := rfl
  have hlisted : listed? (namesTarget ++ ":" ++ metric) = some (.ok [metric]) := by
    simp [listed?, String.toList_append, List.append_assoc]
  rw [hselect]
  refine bind_eq_ok.mpr ⟨_, rfl, ?_⟩
  rw [hlisted]
  rfl

end Plan

/-- A listing of a metric, by `ofMetric`, needs no more than the metric. -/
theorem Listing.ofMetric_eq {metric : String} (h : Text.isBlankText metric = false) :
    Listing.ofMetric metric = .ok { metric := some metric } := by
  simp [ofMetric, h]

/-- A select needs no more than a metric for `build`. -/
theorem Query.build_select {metric : String} (h : Text.isBlankText metric = false) :
    Query.build (.select metric) [] = .ok ⟨.select metric, {}⟩ := by
  simp [build, Subject.tidy, Draft.ofList, Subject.check, h]

end TimeSeries
