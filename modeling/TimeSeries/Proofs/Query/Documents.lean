import TimeSeries.Proofs.Query.Filters

/-!
# Documents of queries, read back

A query is written field by field (`Query.parts`), each key once and a clause that is not
there not at all; a reader looks one field up and does not depend on the others. So each
clause is read as it was written, on its own: the range if it has a start, the tag, the
order, the filters in force and the page.

From these a document without groupings is read as the plan that the query says
(`Plan.ofJson_select_parts`, `Plan.ofJson_join_parts`, `Plan.ofJson_aggregate_parts`), and
a plain query is answered as if its plan had been put to the store itself
(`Store.query_of_build`).
-/

namespace TimeSeries

open Parsed

/-! ### What is written -/

/-- The value of the field for a range, if the range has a start. -/
def TimeRange.json? (r : TimeRange) : Option Json :=
  r.start.map fun start =>
    .ofFields (Json.present [("from", some (.ofWord start)), ("to", r.stop.map .ofWord)])

/-- What is written of a range: nothing if it has no start. -/
def TimeRange.written (r : TimeRange) : TimeRange := if r.start.isSome then r else {}

/-- A range that starts if it stops is written as it is. -/
theorem TimeRange.written_eq {r : TimeRange} (h : r.stop.isSome → r.start.isSome) :
    r.written = r := by
  obtain ⟨start, stop⟩ := r
  cases start with
  | some start => rfl
  | none =>
    cases stop with
    | none => rfl
    | some stop => cases h rfl

/-- The value of the field for a `TagFilter`. -/
def TagFilter.json (f : TagFilter) : Json := .ofFields [(f.tag, .ofTexts f.values)]

namespace Clauses

/-- The field for a grouping by these tags, if there are any. -/
def groupPart (key : String) (tags : List String) : String × Option Json :=
  (key, if tags.isEmpty then none else some (.ofTexts tags))

/-- The fields for the groupings, with or without a value. -/
def groupParts (c : Clauses) : List (String × Option Json) :=
  [groupPart "group-by-tag" c.groupBy, groupPart "pivot-by-tag" c.pivotBy]

/-- The fields for order, filters and paging, with or without a value. -/
def outputParts (c : Clauses) : List (String × Option Json) :=
  [("order-by", c.order.map fun o => .text o.name), ("filter", ValueFilter.json? c.filters),
    ("limit", c.limit.map .ofWord), ("offset", c.offset.map .ofWord)]

theorem rangeFields_eq (c : Clauses) : c.rangeFields = Json.present [("range", c.range.json?)] := by
  rw [rangeFields, TimeRange.json?]
  cases c.range.start with
  | none => rfl
  | some start => cases c.range.stop <;> rfl

theorem tagFields_eq (c : Clauses) :
    c.tagFields = Json.present [("where", c.tag.map TagFilter.json)] := by
  rw [tagFields]
  cases c.tag <;> rfl

theorem groupFields_eq (c : Clauses) : c.groupFields = Json.present c.groupParts := by
  rw [groupFields, groupParts, groupPart, groupPart]
  split <;> split <;> rfl

theorem filterFields_eq (c : Clauses) :
    c.filterFields = Json.present [("filter", ValueFilter.json? c.filters)] := by
  rw [filterFields, ValueFilter.json?]
  split <;> rfl

theorem outputFields_eq (c : Clauses) : c.outputFields = Json.present c.outputParts := by
  rw [outputFields, filterFields_eq, Json.toList_map_field, Json.toList_map_field,
    Json.toList_map_field, ← Json.present_append, ← Json.present_append, ← Json.present_append]
  rfl

/-- The output that clauses ask for: by series and from the first row on, unless they say
otherwise. -/
def output (c : Clauses) : Output :=
  ⟨c.order.getD .series, c.filters, c.limit.map UInt64.toNat, (c.offset.map UInt64.toNat).getD 0⟩

/-- **Ungrouped** clauses: no tags are left out of names, nor the only ones kept. -/
def Ungrouped (c : Clauses) : Prop := c.groupBy = [] ∧ c.pivotBy = []

end Clauses

namespace Query

variable {metric : String} {metrics : List String} {f : Aggregate} {c : Clauses}

/-- **The fields of a query**, each with the value it is written with, if it is. -/
def parts (q : Query) : List (String × Option Json) :=
  let range := ("range", q.clauses.range.json?)
  let tag := ("where", q.clauses.tag.map TagFilter.json)
  match q.subject with
  | .select metric =>
    ("select", some (.text metric)) ::
      range :: tag :: (q.clauses.groupParts ++ q.clauses.outputParts)
  | .aggregate metric f =>
    ("aggregate", some (.ofFields [(metric, .text f.name)])) ::
      range :: (q.clauses.groupParts ++ [tag])
  | .join metrics =>
    ("join", some (.ofTexts metrics)) :: range :: tag :: q.clauses.outputParts
  | .bins metrics step fs =>
    let bins := Json.ofFields
      [("metric", .ofTexts metrics), ("step", .ofWord (stepWord step)),
        ("func", .ofTexts (fs.map Aggregate.name))]
    ("group-aggregate", some bins) ::
      range :: tag :: (q.clauses.groupParts ++ q.clauses.outputParts)

/-- The fields of a query's document. -/
def root (q : Query) : List (String × Json) := Json.entries (Json.present q.parts)

/-- **A `document` is its fields.** -/
theorem document_eq (q : Query) : q.document = .object q.root := by
  obtain ⟨subject, c⟩ := q
  cases subject <;>
    simp only [document, root, parts, c.rangeFields_eq, c.tagFields_eq, c.groupFields_eq,
      c.outputFields_eq, ← Json.present_append, Json.ofFields_eq] <;>
    rfl

/-- A query names each key once. -/
theorem nodup_parts (q : Query) : (q.parts.map Prod.fst).Nodup := by
  obtain ⟨subject, c⟩ := q
  cases subject with
  | select metric =>
    have h : ["select", "range", "where", "group-by-tag", "pivot-by-tag", "order-by", "filter",
      "limit", "offset"].Nodup := by decide
    exact h
  | aggregate metric f =>
    have h : ["aggregate", "range", "group-by-tag", "pivot-by-tag", "where"].Nodup := by decide
    exact h
  | join metrics =>
    have h : ["join", "range", "where", "order-by", "filter", "limit", "offset"].Nodup := by decide
    exact h
  | bins metrics step fs =>
    have h : ["group-aggregate", "range", "where", "group-by-tag", "pivot-by-tag", "order-by",
      "filter", "limit", "offset"].Nodup := by decide
    exact h

/-- To look a field up by `field?` in a document gives what the query wrote under that key. -/
theorem field?_root (q : Query) (k : String) : Json.field? q.root k = Json.part? q.parts k :=
  Json.field?_present q.nodup_parts k

end Query

/-! ### What is read -/

section Readers

variable {root : List (String × Json)}

theorem PointFilter.readBound_of_field {range : List (String × Json)} {key : String}
    {bound : Option Timestamp} (h : Json.field? range key = bound.map Json.ofWord) :
    PointFilter.readBound range key = .ok bound := by
  rw [readBound, h]
  cases bound <;> rfl

/-- **A range is read by `readRange` as it was `written`.** -/
theorem PointFilter.readRange_of_field {r : TimeRange}
    (h : Json.field? root "range" = r.json?) :
    PointFilter.readRange root = .ok r.written := by
  obtain ⟨start, stop⟩ := r
  rw [readRange, h]
  cases start with
  | none => rfl
  | some start =>
    have hends : ∀ k, Json.field? (Json.entries (Json.present
        [("from", some (Json.ofWord start)), ("to", stop.map Json.ofWord)])) k =
        Json.part? [("from", some (Json.ofWord start)), ("to", stop.map Json.ofWord)] k := by
      have h : ["from", "to"].Nodup := by decide
      exact Json.field?_present h
    exact bind_eq_ok.mpr ⟨_, rfl, bind_eq_ok.mpr ⟨some start, readBound_of_field (hends "from"),
      bind_eq_ok.mpr ⟨stop, readBound_of_field (hends "to"), rfl⟩⟩⟩

/-- A list of texts is read as it was written. -/
theorem Parsed.mapM_text (texts : List String) :
    ((texts.map Json.text).mapM fun v => required v.text?) = .ok texts :=
  Parsed.mapM_map fun _ _ => rfl

/-- **A tag restriction is read by `readTag` as it was written.** -/
theorem PointFilter.readTag_of_field {tag : Option TagFilter}
    (h : Json.field? root "where" = tag.map TagFilter.json) :
    PointFilter.readTag root = .ok tag := by
  rw [readTag, h]
  cases tag with
  | none => rfl
  | some filter => exact bind_eq_ok.mpr ⟨_, Parsed.mapM_text filter.values, rfl⟩

/-- Which points a query asks for `PointFilter.read` reads as it was written. -/
theorem PointFilter.read_of_fields {c : Clauses} (metrics : List String)
    (hrange : Json.field? root "range" = c.range.json?)
    (htag : Json.field? root "where" = c.tag.map TagFilter.json) :
    PointFilter.read metrics root = .ok ⟨metrics, c.range.written, c.tag⟩ :=
  bind_eq_ok.mpr ⟨_, readTag_of_field htag, bind_eq_ok.mpr ⟨_, readRange_of_field hrange, rfl⟩⟩

theorem Output.readOrder_of_field {order : Option RowOrder}
    (h : Json.field? root "order-by" = order.map fun o => .text o.name) :
    Output.readOrder root = .ok (order.getD .series) := by
  rw [readOrder, h]
  cases order with
  | none => rfl
  | some order => cases order <;> rfl

theorem Output.readCount_of_field {key : String} {count : Option UInt64}
    (h : Json.field? root key = count.map Json.ofWord) :
    Output.readCount root key = .ok (count.map UInt64.toNat) := by
  rw [readCount, h]
  cases count <;> rfl

/-- **Order and page are read as they were written**, and so are the filters in force. -/
theorem Output.read_of_fields {c : Clauses}
    (hfinite : ∀ f ∈ c.filters, f.threshold.isFinite)
    (horder : Json.field? root "order-by" = c.order.map fun o => .text o.name)
    (hfilter : Json.field? root "filter" = ValueFilter.json? c.filters)
    (hlimit : Json.field? root "limit" = c.limit.map Json.ofWord)
    (hoffset : Json.field? root "offset" = c.offset.map Json.ofWord) :
    ∃ kept, Output.read root = .ok { c.output with filters := kept } ∧
      ∀ f, f ∈ kept ↔ f ∈ ValueFilter.inForce c.filters := by
  obtain ⟨kept, hread, hkept⟩ := readFilters_of_field hfinite hfilter
  refine ⟨kept, ?_, hkept⟩
  exact bind_eq_ok.mpr ⟨_, readOrder_of_field horder, bind_eq_ok.mpr ⟨_, hread,
    bind_eq_ok.mpr ⟨_, readCount_of_field hlimit,
      bind_eq_ok.mpr ⟨_, readCount_of_field hoffset, rfl⟩⟩⟩⟩

end Readers

/-! ### Plans -/

namespace Clauses

/-- Clauses that group nothing write neither grouping. -/
theorem Ungrouped.groupParts {c : Clauses} (h : c.Ungrouped) :
    c.groupParts = [("group-by-tag", none), ("pivot-by-tag", none)] := by
  rw [Clauses.groupParts, h.1, h.2]
  rfl

/-- Clauses that group something write at least one of the groupings. -/
theorem isSome_of_grouped {c : Clauses} (h : ¬ c.Ungrouped) :
    ((groupPart "group-by-tag" c.groupBy).2.isSome ||
      (groupPart "pivot-by-tag" c.pivotBy).2.isSome) = true := by
  rw [groupPart, groupPart, Ungrouped] at *
  cases hby : c.groupBy with
  | cons tag tags => rfl
  | nil =>
    cases hpivot : c.pivotBy with
    | cons tag tags => rfl
    | nil => exact absurd ⟨hby, hpivot⟩ h

end Clauses

namespace Plan

variable {metric : String} {metrics : List String} {f : Aggregate} {c : Clauses}

/-- **An object without groupings** is read by the first of the three subjects it has. -/
theorem ofJson_object {root : List (String × Json)}
    (haggregate : Json.field? root "group-aggregate" = none)
    (hgroup : Json.field? root "group-by-tag" = none)
    (hpivot : Json.field? root "pivot-by-tag" = none) :
    ofJson (.object root) =
      match Json.field? root "select", Json.field? root "join", Json.field? root "aggregate" with
      | some target, _, _ => readSelect target root
      | none, some metrics, _ => readJoin metrics root
      | none, none, some target => readAggregate target root
      | none, none, none => .error .queryParsingError := by
  refine if_neg ?_
  dsimp only
  rw [haggregate, hgroup, hpivot]
  exact Bool.false_ne_true

/-- **A grouped select is refused.** -/
theorem ofJson_select_grouped (h : ¬ c.Ungrouped) :
    ofJson (Query.document ⟨.select metric, c⟩) = .error .notImplemented := by
  have hfield := Query.field?_root ⟨.select metric, c⟩
  rw [Query.document_eq]
  refine if_pos ?_
  dsimp only
  rw [hfield "group-by-tag", hfield "pivot-by-tag", Bool.or_assoc]
  exact Bool.or_eq_true_iff.mpr (.inr (Clauses.isSome_of_grouped h))

/-- **A select is read as the plan it says**, with the filters in force. -/
theorem ofJson_select_parts
    (hungrouped : c.Ungrouped)
    (hfinite : ∀ f ∈ c.filters, f.threshold.isFinite)
    (hpoints : ¬ namesTarget.toList <+: metric.toList) :
    ∃ kept, ofJson (Query.document ⟨.select metric, c⟩) =
        .ok (.select ⟨[metric], c.range.written, c.tag⟩ { c.output with filters := kept }) ∧
      ∀ f, f ∈ kept ↔ f ∈ ValueFilter.inForce c.filters := by
  have hfield := Query.field?_root ⟨.select metric, c⟩
  rw [Query.parts, hungrouped.groupParts] at hfield
  have hfilter := PointFilter.read_of_fields (c := c) [metric] (hfield "range") (hfield "where")
  obtain ⟨kept, houtput, hkept⟩ := Output.read_of_fields hfinite (hfield "order-by")
    (hfield "filter") (hfield "limit") (hfield "offset")
  refine ⟨kept, ?_, hkept⟩
  rw [Query.document_eq, ofJson_object (hfield _) (hfield _) (hfield _), hfield "select"]
  refine bind_eq_ok.mpr ⟨metric, rfl, ?_⟩
  rw [listed?_eq_none hpoints]
  exact bind_eq_ok.mpr ⟨_, hfilter, bind_eq_ok.mpr ⟨_, houtput, rfl⟩⟩

/-- **A join is read as the plan it says.** -/
theorem ofJson_join_parts
    (hsome : metrics ≠ [])
    (hnarrow : metrics.length ≤ maxSlots)
    (hfilters : c.filters = []) :
    ofJson (Query.document ⟨.join metrics, c⟩) =
      .ok (.join ⟨metrics, c.range.written, c.tag⟩ c.output) := by
  have hfield := Query.field?_root ⟨.join metrics, c⟩
  have hfilter := PointFilter.read_of_fields (c := c) metrics (hfield "range") (hfield "where")
  obtain ⟨kept, houtput, hkept⟩ := Output.read_of_fields (by simp [hfilters])
    (hfield "order-by") (hfield "filter") (hfield "limit") (hfield "offset")
  obtain rfl : kept = c.filters := by
    rw [hfilters] at hkept ⊢
    exact List.eq_nil_iff_forall_not_mem.mpr fun f hf => (by cases (hkept f).mp hf)
  rw [Query.document_eq, ofJson_object (hfield _) (hfield _) (hfield _), hfield "select", hfield "join"]
  refine bind_eq_ok.mpr ⟨_, rfl, bind_eq_ok.mpr ⟨_, Parsed.mapM_text metrics, ?_⟩⟩
  rw [if_neg (by simpa [hsome] using hnarrow)]
  refine bind_eq_ok.mpr ⟨_, houtput, ?_⟩
  rw [if_neg (by simp [hfilters])]
  exact bind_eq_ok.mpr ⟨_, hfilter, rfl⟩

/-- **An aggregate is read as the plan it says.** -/
theorem ofJson_aggregate_parts (hungrouped : c.Ungrouped) :
    ofJson (Query.document ⟨.aggregate metric f, c⟩) =
      .ok (.aggregate ⟨[metric], c.range.written, c.tag⟩ f) := by
  have hfield := Query.field?_root ⟨.aggregate metric f, c⟩
  rw [Query.parts, hungrouped.groupParts] at hfield
  have hfilter := PointFilter.read_of_fields (c := c) [metric] (hfield "range") (hfield "where")
  rw [Query.document_eq, ofJson_object (hfield _) (hfield _) (hfield _), hfield "select", hfield "join",
    hfield "aggregate"]
  refine bind_eq_ok.mpr ⟨_, rfl, bind_eq_ok.mpr ⟨f, ?_, bind_eq_ok.mpr ⟨_, hfilter, rfl⟩⟩⟩
  cases f <;> rfl

end Plan

end TimeSeries
