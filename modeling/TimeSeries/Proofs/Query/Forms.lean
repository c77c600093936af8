import TimeSeries.Proofs.Query.Documents

/-!
# Forms of documents

`Plan.Form` says, for each plan, what fields an object has to have to be read as it, and
`Plan.form_of_ofJson` and `Plan.ofJson_of_form` that these are the objects that are read as the
plan. So the objects that ask for a listing are known by their fields (`Listing.asked_iff`). A
reader looks at its own fields only, so what becomes of a plan when one field is set can be read off
the form: a page can be asked for (`Plan.ofJson_withPage`), and another range
(`Plan.ofJson_withRange`).
-/

namespace TimeSeries

open Parsed

/-! ### Parts in the right shape -/

namespace Parsed

theorem required_eq_ok {α : Type} {part : Option α} {a : α} (h : required part = .ok a) :
    part = some a := by
  cases part with
  | none => cases h
  | some _ =>
    cases h
    rfl

theorem required_text_eq_ok {j : Json} {text : String} (h : required j.text? = .ok text) :
    j = .text text := by
  have hpart := required_eq_ok h
  cases j <;> cases hpart
  rfl

/-- A list that is read as texts is one of texts. -/
theorem mapM_text_eq_ok {items : List Json} {texts : List String}
    (h : (items.mapM fun v => required v.text?) = .ok texts) : items = texts.map .text := by
  induction items generalizing texts with
  | nil =>
    cases h
    rfl
  | cons item items ih =>
    rw [List.mapM_cons] at h
    obtain ⟨text, htext, h⟩ := bind_eq_ok.mp h
    obtain ⟨rest, hrest, h⟩ := bind_eq_ok.mp h
    cases h
    rw [List.map_cons, ← ih hrest, required_text_eq_ok htext]

end Parsed

/-! ### Readers of clauses -/

section Readers

variable {root root' : List (String × Json)} {metrics : List String} {f : PointFilter} {o : Output}

theorem PointFilter.read_eq_ok_iff :
    PointFilter.read metrics root = .ok f ↔
      f.metrics = metrics ∧ readTag root = .ok f.tag ∧ readRange root = .ok f.range := by
  constructor
  · intro h
    obtain ⟨tag, htag, h⟩ := bind_eq_ok.mp h
    obtain ⟨range, hrange, h⟩ := bind_eq_ok.mp h
    cases h
    exact ⟨rfl, htag, hrange⟩
  · rintro ⟨rfl, htag, hrange⟩
    exact bind_eq_ok.mpr ⟨_, htag, bind_eq_ok.mpr ⟨_, hrange, rfl⟩⟩

theorem Output.read_eq_ok_iff :
    Output.read root = .ok o ↔ readOrder root = .ok o.order ∧ readFilters root = .ok o.filters ∧
      readCount root "limit" = .ok o.limit ∧
      ∃ offset, readCount root "offset" = .ok offset ∧ o.offset = offset.getD 0 := by
  constructor
  · intro h
    obtain ⟨order, horder, h⟩ := bind_eq_ok.mp h
    obtain ⟨filters, hfilters, h⟩ := bind_eq_ok.mp h
    obtain ⟨limit, hlimit, h⟩ := bind_eq_ok.mp h
    obtain ⟨offset, hoffset, h⟩ := bind_eq_ok.mp h
    cases h
    exact ⟨horder, hfilters, hlimit, offset, hoffset, rfl⟩
  · rintro ⟨horder, hfilters, hlimit, offset, hoffset, heq⟩
    refine bind_eq_ok.mpr ⟨_, horder, bind_eq_ok.mpr ⟨_, hfilters, bind_eq_ok.mpr ⟨_, hlimit,
      bind_eq_ok.mpr ⟨_, hoffset, ?_⟩⟩⟩⟩
    rw [← heq]
    rfl

theorem PointFilter.readTag_congr (h : Json.field? root' "where" = Json.field? root "where") :
    readTag root' = readTag root := by
  rw [readTag, readTag, h]

theorem PointFilter.readRange_congr (h : Json.field? root' "range" = Json.field? root "range") :
    readRange root' = readRange root := by
  rw [readRange, readRange, h]

theorem Output.readOrder_congr (h : Json.field? root' "order-by" = Json.field? root "order-by") :
    readOrder root' = readOrder root := by
  rw [readOrder, readOrder, h]

theorem Output.readFilters_congr (h : Json.field? root' "filter" = Json.field? root "filter") :
    readFilters root' = readFilters root := by
  rw [readFilters, readFilters, h]

theorem Output.readCount_congr {key : String}
    (h : Json.field? root' key = Json.field? root key) :
    readCount root' key = readCount root key := by
  rw [readCount, readCount, h]

end Readers

/-! ### Forms -/

namespace Plan

/-- **Ungrouped** objects have none of the three groupings. -/
structure Ungrouped (root : List (String × Json)) : Prop where
  /-- values are not collected into bins -/
  aggregate : Json.field? root "group-aggregate" = none
  /-- no tags are left out of names -/
  group : Json.field? root "group-by-tag" = none
  /-- nor are the only ones kept -/
  pivot : Json.field? root "pivot-by-tag" = none

/-- **Forms**: which fields an object has that is read as a `Plan`. -/
inductive Form (root : List (String × Json)) : Plan → Prop
  /-- a select whose target is that of a listing -/
  | names {target : String} {f : PointFilter}
    (hselect : Json.field? root "select" = some (.text target))
    (hlisted : listed? target = some (.ok f.metrics))
    (hfilter : PointFilter.read f.metrics root = .ok f) : Form root (names f)
  /-- a select of any other metric -/
  | select {metric : String} {f : PointFilter} {o : Output}
    (hselect : Json.field? root "select" = some (.text metric))
    (hunlisted : listed? metric = none)
    (hfilter : PointFilter.read [metric] root = .ok f)
    (houtput : Output.read root = .ok o) : Form root (select f o)
  /-- a join of one metric up to as many as a tuple has slots, without filters -/
  | join {f : PointFilter} {o : Output}
    (hselect : Json.field? root "select" = none)
    (hjoin : Json.field? root "join" = some (.array (f.metrics.map .text)))
    (hsome : f.metrics ≠ [])
    (hnarrow : f.metrics.length ≤ maxSlots)
    (hfilter : PointFilter.read f.metrics root = .ok f)
    (houtput : Output.read root = .ok o)
    (hunfiltered : o.filters = []) : Form root (join f o)
  /-- an aggregate of one metric -/
  | aggregate {metric : String} {f : PointFilter} {fn : Aggregate}
    (hselect : Json.field? root "select" = none)
    (hjoin : Json.field? root "join" = none)
    (haggregate : Json.field? root "aggregate" = some (.object [(metric, .text fn.name)]))
    (hfilter : PointFilter.read [metric] root = .ok f) : Form root (aggregate f fn)

variable {root : List (String × Json)} {plan : Plan}

theorem form_of_readSelect {target : Json} (hselect : Json.field? root "select" = some target)
    (h : readSelect target root = .ok plan) : Form root plan := by
  obtain ⟨text, htext, hread⟩ := bind_eq_ok.mp h
  rw [required_text_eq_ok htext] at hselect
  split at hread
  next hlisted =>
    obtain ⟨metrics, hmetrics, hread⟩ := bind_eq_ok.mp hread
    obtain ⟨f, hfilter, hread⟩ := bind_eq_ok.mp hread
    cases hread
    obtain rfl := metrics_read hfilter
    rw [hmetrics] at hlisted
    exact .names hselect hlisted hfilter
  next hlisted =>
    obtain ⟨f, hfilter, hread⟩ := bind_eq_ok.mp hread
    obtain ⟨o, houtput, hread⟩ := bind_eq_ok.mp hread
    cases hread
    exact .select hselect hlisted hfilter houtput

theorem form_of_readJoin {target : Json} (hselect : Json.field? root "select" = none)
    (hjoin : Json.field? root "join" = some target) (h : readJoin target root = .ok plan) :
    Form root plan := by
  obtain ⟨items, hitems, hread⟩ := bind_eq_ok.mp h
  obtain ⟨metrics, hmetrics, hread⟩ := bind_eq_ok.mp hread
  split at hread
  next => cases hread
  next hwidth =>
    obtain ⟨o, houtput, hread⟩ := bind_eq_ok.mp hread
    split at hread
    next => cases hread
    next hfilters =>
      obtain ⟨f, hfilter, hread⟩ := bind_eq_ok.mp hread
      cases hread
      obtain rfl := metrics_read hfilter
      have htarget : target = .array (f.metrics.map .text) := by
        have hlist := required_eq_ok hitems
        rw [← mapM_text_eq_ok hmetrics]
        cases target <;> cases hlist
        rfl
      simp only [Bool.or_eq_true, decide_eq_true_eq, not_or, Nat.not_lt, List.isEmpty_iff] at hwidth
      exact .join hselect (htarget ▸ hjoin) hwidth.1 hwidth.2 hfilter houtput
        (by simpa using hfilters)

theorem form_of_readAggregate {target : Json} (hselect : Json.field? root "select" = none)
    (hjoin : Json.field? root "join" = none)
    (haggregate : Json.field? root "aggregate" = some target)
    (h : readAggregate target root = .ok plan) : Form root plan := by
  obtain ⟨entries, hentries, hread⟩ := bind_eq_ok.mp h
  have htarget : target = .object entries := by
    have hobject := required_eq_ok hentries
    cases target <;> cases hobject
    rfl
  split at hread
  · cases hread
  · cases hread
  next metric text =>
    obtain ⟨fn, hfn, hread⟩ := bind_eq_ok.mp hread
    obtain ⟨f, hfilter, hread⟩ := bind_eq_ok.mp hread
    cases hread
    obtain ⟨name, htext, hname⟩ := Option.bind_eq_some_iff.mp (required_eq_ok hfn)
    have hfound := List.find?_some hname
    have hfunction : text = .text fn.name := by
      rw [beq_iff_eq.mp hfound]
      cases text <;> cases htext
      rfl
    rw [htarget, hfunction] at haggregate
    exact .aggregate hselect hjoin haggregate hfilter

/-- **A document that `ofJson` reads** has the form of its plan. -/
theorem form_of_ofJson {j : Json} (h : ofJson j = .ok plan) :
    ∃ root, j = .object root ∧ Ungrouped root ∧ Form root plan := by
  obtain ⟨root, hroot, hread⟩ := bind_eq_ok.mp h
  have hobject : j = .object root := by
    have hobject := required_eq_ok hroot
    cases j <;> cases hobject
    rfl
  dsimp only at hread
  split at hread
  next => cases hread
  next hgroups =>
    simp only [Bool.or_eq_true, not_or, Bool.not_eq_true, Option.isSome_eq_false_iff,
      Option.isNone_iff_eq_none] at hgroups
    refine ⟨root, hobject, ⟨hgroups.1.1, hgroups.1.2, hgroups.2⟩, ?_⟩
    split at hread
    next hselect => exact form_of_readSelect hselect hread
    next hselect hjoin => exact form_of_readJoin hselect hjoin hread
    next hselect hjoin haggregate => exact form_of_readAggregate hselect hjoin haggregate hread
    next => cases hread

/-- **A document of some `Form`** is read as the plan. -/
theorem ofJson_of_form (hungrouped : Ungrouped root) (h : Form root plan) :
    ofJson (.object root) = .ok plan := by
  rw [ofJson_object hungrouped.aggregate hungrouped.group hungrouped.pivot]
  cases h with
  | names hselect hlisted hfilter =>
    rw [hselect]
    refine bind_eq_ok.mpr ⟨_, rfl, ?_⟩
    rw [hlisted]
    exact bind_eq_ok.mpr ⟨_, rfl, bind_eq_ok.mpr ⟨_, hfilter, rfl⟩⟩
  | select hselect hlisted hfilter houtput =>
    rw [hselect]
    refine bind_eq_ok.mpr ⟨_, rfl, ?_⟩
    rw [hlisted]
    exact bind_eq_ok.mpr ⟨_, hfilter, bind_eq_ok.mpr ⟨_, houtput, rfl⟩⟩
  | @join f o hselect hjoin hsome hnarrow hfilter houtput hfilters =>
    rw [hselect, hjoin]
    refine bind_eq_ok.mpr ⟨_, rfl, bind_eq_ok.mpr ⟨_, Parsed.mapM_text f.metrics, ?_⟩⟩
    rw [if_neg (by simpa [hsome] using hnarrow)]
    refine bind_eq_ok.mpr ⟨_, houtput, ?_⟩
    rw [if_neg (by simp [hfilters])]
    exact bind_eq_ok.mpr ⟨_, hfilter, rfl⟩
  | @aggregate metric f fn hselect hjoin haggregate hfilter =>
    rw [hselect, hjoin, haggregate]
    refine bind_eq_ok.mpr ⟨_, rfl, bind_eq_ok.mpr ⟨fn, ?_, bind_eq_ok.mpr ⟨_, hfilter, rfl⟩⟩⟩
    exact congrArg required (Aggregate.ofName?_name fn)

end Plan

/-! ### Listings -/

/-- **A tag restriction is written** as one tag with one text or a list of texts. -/
def TagFilter.Written (root : List (String × Json)) : Option TagFilter → Prop
  | none => Json.field? root "where" = none
  | some clause =>
    (∃ value, clause.values = [value] ∧
      Json.field? root "where" = some (.object [(clause.tag, .text value)])) ∨
    Json.field? root "where" = some (.object [(clause.tag, .array (clause.values.map .text))])

section Listings

variable {root : List (String × Json)}

theorem PointFilter.readTag_eq_ok_iff {tag : Option TagFilter} :
    readTag root = .ok tag ↔ TagFilter.Written root tag := by
  constructor
  · intro h
    rw [readTag] at h
    split at h
    next hnone =>
      cases h
      exact hnone
    next clause hclause =>
      split at h
      · cases h
      · cases h
      · cases h
      next name value hobject =>
        cases h
        have hfields : clause = .object [(name, .text value)] := by
          cases clause <;> cases hobject
          rfl
        exact .inl ⟨value, rfl, hfields ▸ hclause⟩
      next name items hobject =>
        obtain ⟨values, hvalues, h⟩ := bind_eq_ok.mp h
        cases h
        have hfields : clause = .object [(name, .array (values.map .text))] := by
          rw [← mapM_text_eq_ok hvalues]
          cases clause <;> cases hobject
          rfl
        exact .inr (hfields ▸ hclause)
      · cases h
  · intro h
    rw [readTag]
    cases tag with
    | none =>
      have hwhere : Json.field? root "where" = none := h
      rw [hwhere]
    | some clause =>
      obtain ⟨name, values⟩ := clause
      obtain ⟨value, rfl, hwhere⟩ | hwhere := h
      · rw [hwhere]
        rfl
      · rw [hwhere]
        exact bind_eq_ok.mpr ⟨_, Parsed.mapM_text values, rfl⟩

/-- **The targets of listings**, as `listed?` tells them: all series, or those of one metric. -/
theorem Plan.listed?_eq_ok_iff {target : String} {metrics : List String} :
    listed? target = some (.ok metrics) ↔
      ∃ metric : Option String, target = Listing.target { metric } ∧ metrics = metric.toList := by
  constructor
  · intro h
    rw [listed?] at h
    split at h
    next hprefix =>
      obtain ⟨rest, hrest⟩ := List.isPrefixOf_iff_prefix.mp hprefix
      rw [← hrest, List.drop_left] at h
      split at h
      · cases h
        rw [List.append_nil] at hrest
        exact ⟨none, (String.toList_injective hrest).symm, rfl⟩
      next metric =>
        cases h
        refine ⟨some (String.ofList metric), String.toList_injective ?_, rfl⟩
        simp [Listing.target, ← hrest]
      · cases h
    next => cases h
  · rintro ⟨_ | metric, rfl, rfl⟩
    · rfl
    · simp [listed?, Listing.target]

/-- **Objects that ask for a listing**: its target and its tag restriction are there, nothing is
grouped, and the range can be read, though a listing has no use for it. -/
structure Listing.Asked (l : Listing) (root : List (String × Json)) : Prop where
  /-- nothing is grouped -/
  ungrouped : Plan.Ungrouped root
  /-- the target -/
  target : Json.field? root "select" = some (.text l.target)
  /-- the tag restriction -/
  tag : TagFilter.Written root l.tag
  /-- the range -/
  range : ∃ range, PointFilter.readRange root = .ok range

/-- **The objects that ask for a `Listing`** are those that are read as one. -/
theorem Listing.asked_iff {l : Listing} :
    l.Asked root ↔
      ∃ range, Plan.ofJson (.object root) = .ok (.names ⟨l.metric.toList, range, l.tag⟩) := by
  constructor
  · rintro ⟨hungrouped, htarget, htag, range, hrange⟩
    exact ⟨range, Plan.ofJson_of_form hungrouped (.names htarget
      (Plan.listed?_eq_ok_iff.mpr ⟨l.metric, rfl, rfl⟩)
      (PointFilter.read_eq_ok_iff.mpr ⟨rfl, PointFilter.readTag_eq_ok_iff.mpr htag, hrange⟩))⟩
  · rintro ⟨range, hplan⟩
    obtain ⟨_, ⟨⟩, hungrouped, hform⟩ := Plan.form_of_ofJson hplan
    cases hform with
    | names hselect hlisted hfilter =>
      obtain ⟨-, htag, hrange⟩ := PointFilter.read_eq_ok_iff.mp hfilter
      obtain ⟨metric, rfl, hmetric⟩ := Plan.listed?_eq_ok_iff.mp hlisted
      obtain rfl : l.metric = metric := by simpa using congrArg List.head? hmetric
      exact ⟨hungrouped, hselect, PointFilter.readTag_eq_ok_iff.mp htag, range, hrange⟩

end Listings

/-! ### Another page, another range -/

/-- The `PointFilter` with a range. -/
def PointFilter.ranged (r : TimeRange) (f : PointFilter) : PointFilter := { f with range := r }

@[simp] theorem PointFilter.range_ranged (r : TimeRange) (f : PointFilter) :
    (f.ranged r).range = r := rfl

@[simp] theorem PointFilter.metrics_ranged (r : TimeRange) (f : PointFilter) :
    (f.ranged r).metrics = f.metrics := rfl

namespace Plan

/-- The order, the filters and the page of a `Plan` whose rows have these. -/
def output? : Plan → Option Output
  | select _ o | join _ o => some o
  | names _ | aggregate _ _ => none

/-- The plan with other clauses. -/
def revise (g : PointFilter → PointFilter) (u : Output → Output) : Plan → Plan
  | names f => names (g f)
  | select f o => select (g f) (u o)
  | join f o => join (g f) (u o)
  | aggregate f fn => aggregate (g f) fn

/-- **The plan with a page**: at most `k` rows, from the row with number `n` on. -/
def paged (k n : Nat) : Plan → Plan := revise id fun o => { o with limit := some k, offset := n }

/-- **The plan with a range.** -/
def ranged (r : TimeRange) : Plan → Plan := revise (PointFilter.ranged r) id

variable {root root' : List (String × Json)} {plan : Plan}

theorem Ungrouped.congr (h : Ungrouped root)
    (haggregate : Json.field? root' "group-aggregate" = Json.field? root "group-aggregate")
    (hgroup : Json.field? root' "group-by-tag" = Json.field? root "group-by-tag")
    (hpivot : Json.field? root' "pivot-by-tag" = Json.field? root "pivot-by-tag") :
    Ungrouped root' :=
  ⟨haggregate.trans h.aggregate, hgroup.trans h.group, hpivot.trans h.pivot⟩

/-- **A `Form` with other clauses**, which have the same metrics and the same filters. -/
theorem Form.revise {g : PointFilter → PointFilter} {u : Output → Output} (h : Form root plan)
    (hselect : Json.field? root' "select" = Json.field? root "select")
    (hjoin : Json.field? root' "join" = Json.field? root "join")
    (haggregate : Json.field? root' "aggregate" = Json.field? root "aggregate")
    (hmetrics : ∀ f, (g f).metrics = f.metrics)
    (hfilters : ∀ o, (u o).filters = o.filters)
    (hfilter : ∀ metrics f, PointFilter.read metrics root = .ok f →
      PointFilter.read metrics root' = .ok (g f))
    (houtput : ∀ o, Output.read root = .ok o → Output.read root' = .ok (u o)) :
    Form root' (plan.revise g u) := by
  cases h with
  | names htarget hlisted hread =>
    refine .names (hselect.trans htarget) ?_ ?_
    · rw [hmetrics]
      exact hlisted
    · rw [hmetrics]
      exact hfilter _ _ hread
  | select htarget hunlisted hread ho =>
    exact .select (hselect.trans htarget) hunlisted (hfilter _ _ hread) (houtput _ ho)
  | join hnone htarget hsome hnarrow hread ho hunfiltered =>
    refine .join (hselect.trans hnone) (hjoin.trans ?_) ?_ ?_ ?_ (houtput _ ho) ?_
    · rw [hmetrics]
      exact htarget
    · rw [hmetrics]
      exact hsome
    · rw [hmetrics]
      exact hnarrow
    · rw [hmetrics]
      exact hfilter _ _ hread
    · rw [hfilters]
      exact hunfiltered
  | aggregate hnone hnone' htarget hread =>
    exact .aggregate (hselect.trans hnone) (hjoin.trans hnone') (haggregate.trans htarget)
      (hfilter _ _ hread)

end Plan

namespace Json

/-- **The document with a page**: at most `k` rows, from the row with number `n` on. -/
def withPage (k n : UInt64) (root : List (String × Json)) : List (String × Json) :=
  putField "offset" (.ofWord n) (putField "limit" (.ofWord k) root)

/-- **The document with a range.** -/
def withRange (a b : Timestamp) (root : List (String × Json)) : List (String × Json) :=
  putField "range" (.object [("from", .ofWord a), ("to", .ofWord b)]) root

end Json

namespace Plan

variable {root : List (String × Json)} {plan : Plan}

/-- **A page is read by `ofJson` as it was asked for**, and the rest of the plan is as it was. -/
theorem ofJson_withPage (h : ofJson (.object root) = .ok plan) (k n : UInt64) :
    ofJson (.object (Json.withPage k n root)) = .ok (plan.paged k.toNat n.toNat) := by
  obtain ⟨_, ⟨⟩, hungrouped, hform⟩ := form_of_ofJson h
  have hkeep : ∀ key, "offset" ≠ key → "limit" ≠ key →
      Json.field? (Json.withPage k n root) key = Json.field? root key := by
    intro key hoffset hlimit
    rw [Json.withPage, Json.field?_putField, if_neg hoffset, Json.field?_putField, if_neg hlimit]
  refine ofJson_of_form (hungrouped.congr (hkeep _ (by decide) (by decide))
    (hkeep _ (by decide) (by decide)) (hkeep _ (by decide) (by decide)))
    (hform.revise (hkeep _ (by decide) (by decide)) (hkeep _ (by decide) (by decide))
      (hkeep _ (by decide) (by decide)) (fun _ => rfl) (fun _ => rfl) ?_ ?_)
  · intro metrics f hread
    rw [PointFilter.read_eq_ok_iff] at hread ⊢
    rwa [PointFilter.readTag_congr (hkeep "where" (by decide) (by decide)),
      PointFilter.readRange_congr (hkeep "range" (by decide) (by decide))]
  · intro o hread
    rw [Output.read_eq_ok_iff] at hread ⊢
    obtain ⟨horder, hfilters, -⟩ := hread
    rw [Output.readOrder_congr (hkeep "order-by" (by decide) (by decide)),
      Output.readFilters_congr (hkeep "filter" (by decide) (by decide))]
    have hlimit : Json.field? (Json.withPage k n root) "limit" = some (.ofWord k) := by
      rw [Json.withPage, Json.field?_putField, if_neg (by decide), Json.field?_putField, if_pos rfl]
    have hoffset : Json.field? (Json.withPage k n root) "offset" = some (.ofWord n) := by
      rw [Json.withPage, Json.field?_putField, if_pos rfl]
    exact ⟨horder, hfilters, @Output.readCount_of_field _ _ (some k) hlimit, some n.toNat,
      @Output.readCount_of_field _ _ (some n) hoffset, rfl⟩

/-- **A range is read by `ofJson` as it was asked for**, and the rest of the plan is as it was. -/
theorem ofJson_withRange (h : ofJson (.object root) = .ok plan) (a b : Timestamp) :
    ofJson (.object (Json.withRange a b root)) = .ok (plan.ranged ⟨some a, some b⟩) := by
  obtain ⟨_, ⟨⟩, hungrouped, hform⟩ := form_of_ofJson h
  have hkeep : ∀ key, "range" ≠ key →
      Json.field? (Json.withRange a b root) key = Json.field? root key := by
    intro key hrange
    rw [Json.withRange, Json.field?_putField, if_neg hrange]
  refine ofJson_of_form (hungrouped.congr (hkeep _ (by decide)) (hkeep _ (by decide))
    (hkeep _ (by decide))) (hform.revise (hkeep _ (by decide)) (hkeep _ (by decide))
      (hkeep _ (by decide)) (fun _ => rfl) (fun _ => rfl) ?_ ?_)
  · intro metrics f hread
    rw [PointFilter.read_eq_ok_iff] at hread ⊢
    obtain ⟨hmetrics, htag, -⟩ := hread
    rw [PointFilter.readTag_congr (hkeep "where" (by decide))]
    refine ⟨hmetrics, htag, ?_⟩
    have hrange : Json.field? (Json.withRange a b root) "range" =
        some (.object [("from", .ofWord a), ("to", .ofWord b)]) := by
      rw [Json.withRange, Json.field?_putField, if_pos rfl]
    rw [PointFilter.readRange, hrange]
    rfl
  · intro o hread
    rw [Output.read_eq_ok_iff] at hread ⊢
    rwa [Output.readOrder_congr (hkeep "order-by" (by decide)),
      Output.readFilters_congr (hkeep "filter" (by decide)),
      Output.readCount_congr (hkeep "limit" (by decide)),
      Output.readCount_congr (hkeep "offset" (by decide))]

end Plan

end TimeSeries
