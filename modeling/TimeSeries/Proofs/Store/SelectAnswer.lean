import Mathlib.Data.List.Nodup
import Mathlib.Data.String.Basic
import TimeSeries.Proofs.Cursor.Stream
import TimeSeries.Proofs.Query.Forms
import TimeSeries.Proofs.Store.Answers
import TimeSeries.Proofs.Store.Sorting

/-!
# What a select answers

The points of a store are numbered in the order they were written. A select takes those that match
its clauses (`Store.Matches`), each once, and sorts them by a key that points may share: a point
comes before another one if its key does (`RowKey.Before`), or if the two have one key and it was
written earlier, whichever way time is walked. Then it gives one page of them.

Main result: `Store.query_of_select`.
-/

namespace TimeSeries

/-! ### Ranges -/

namespace TimeRange

variable (r : TimeRange)

/-- **What a range covers**: the timestamps from its start, which is among them, up to its stop,
which is not, in the direction that it is walked in. A bound that is missing does not restrict. -/
def Covers (ts : Timestamp) : Prop :=
  if r.isBackward then (∀ a ∈ r.start, ts ≤ a) ∧ ∀ b ∈ r.stop, b < ts
  else (∀ a ∈ r.start, a ≤ ts) ∧ ∀ b ∈ r.stop, ts < b

/-- **Earlier**, in the direction that a range is walked in. -/
def Earlier (a b : Timestamp) : Prop := if r.isBackward then b < a else a < b

instance (r : TimeRange) (a b : Timestamp) : Decidable (r.Earlier a b) := by
  unfold Earlier
  infer_instance

/-- Nothing is earlier than itself. -/
theorem ne_of_earlier {a b : Timestamp} (h : r.Earlier a b) : a ≠ b := by
  rw [Earlier] at h
  split at h
  · exact (UInt64.ne_of_lt h).symm
  · exact UInt64.ne_of_lt h

theorem contains_iff_covers (ts : Timestamp) : r.contains ts = true ↔ r.Covers ts := by
  obtain ⟨_ | a, _ | b⟩ := r
  · simp [Covers, contains, isBackward]
  · simp [Covers, contains, isBackward]
  · simp [Covers, contains, isBackward]
  · by_cases hback : b < a <;> simp [Covers, contains, isBackward, hback, and_comm]

end TimeRange

namespace Store

/-! ### The order of rows -/

theorem timeLe_iff_earlier (r : TimeRange) (a b : Timestamp) :
    timeLe r a b = true ↔ r.Earlier a b ∨ a = b := by
  rw [timeLe, TimeRange.Earlier]
  split
  · rw [decide_eq_true_eq, UInt64.le_iff_lt_or_eq, eq_comm]
  · rw [decide_eq_true_eq, UInt64.le_iff_lt_or_eq]

/-- **One `RowKey` before another**: by the first part and, where that is equal, by the second. -/
def RowKey.Before (r : TimeRange) (o : RowOrder) (a b : RowKey) : Prop :=
  match o with
  | .series => a.text < b.text ∨ a.text = b.text ∧ r.Earlier a.timestamp b.timestamp
  | .time => r.Earlier a.timestamp b.timestamp ∨ a.timestamp = b.timestamp ∧ a.text < b.text

instance (r : TimeRange) (o : RowOrder) (a b : RowKey) : Decidable (a.Before r o b) := by
  unfold RowKey.Before
  cases o <;> infer_instance

/-- No key is before itself. -/
theorem RowKey.ne_of_before {r : TimeRange} {o : RowOrder} {a b : RowKey} (h : a.Before r o b) :
    a ≠ b := by
  rintro rfl
  cases o with
  | series =>
    obtain hlt | ⟨-, hearlier⟩ := h
    · exact String.lt_irrefl _ hlt
    · exact r.ne_of_earlier hearlier rfl
  | time =>
    obtain hearlier | ⟨-, hlt⟩ := h
    · exact r.ne_of_earlier hearlier rfl
    · exact String.lt_irrefl _ hlt

/-- Rows are in order, by `RowKey.le`, if one is before the other, or they have the same key. -/
theorem RowKey.le_iff_before (r : TimeRange) (o : RowOrder) (a b : RowKey) :
    RowKey.le r o a b = true ↔ a.Before r o b ∨ a = b := by
  obtain ⟨text, timestamp⟩ := a
  obtain ⟨text', timestamp'⟩ := b
  cases o with
  | series =>
    rw [RowKey.le_series, timeLe_iff_earlier, and_or_left, RowKey.mk.injEq, RowKey.Before, or_assoc]
  | time =>
    rw [RowKey.le_time, timeLe_iff_earlier, RowKey.mk.injEq, RowKey.Before, or_assoc,
      and_comm (a := text = text'), ← and_or_left,
      ← le_iff_lt_or_eq]
    refine or_congr_left ⟨?_, fun h => ⟨.inl h, r.ne_of_earlier h⟩⟩
    rintro ⟨hearlier | hsame, hdiffer⟩
    · exact hearlier
    · exact absurd hsame hdiffer

/-! ### Points that match -/

/-- **A point matches** a filter under the name of its series: its timestamp is in the range, the
name has one of the metrics and, if a tag is asked for, that tag with one of the values. -/
structure Matches (s : Store) (f : PointFilter) (m : Match) : Prop where
  /-- the range covers its timestamp -/
  covered : f.range.Covers m.point.timestamp
  /-- the name is that of its series -/
  named : s.name? m.point.series = some m.name
  /-- the metric is one of those asked for -/
  metric : Series.metric m.name ∈ f.metrics
  /-- the tag has one of the values asked for -/
  tag : ∀ clause ∈ f.tag, ∃ tag ∈ Series.tags m.name, tag.name = clause.tag ∧
    tag.value ∈ clause.values

/-- **A `PointFilter` accepts a name** by its metric and one of its tags. -/
theorem accepts_iff (f : PointFilter) (name : String) :
    f.accepts name = true ↔ (f.metrics = [] ∨ Series.metric name ∈ f.metrics) ∧
      ∀ clause ∈ f.tag,
        ∃ tag ∈ Series.tags name, tag.name = clause.tag ∧ tag.value ∈ clause.values := by
  rw [PointFilter.accepts, Bool.and_eq_true]
  refine and_congr (by simp) ?_
  cases f.tag <;> simp [TagFilter.accepts]

theorem matchAt?_iff_matches {s : Store} {f : PointFilter} (hmetrics : f.metrics ≠ []) {p : Point}
    {m : Match} : s.matchAt? f p = some m ↔ m.point = p ∧ s.Matches f m := by
  rw [matchAt?_eq_some]
  refine and_congr_right ?_
  rintro rfl
  rw [accepts_iff, or_iff_right hmetrics, TimeRange.contains_iff_covers]
  exact ⟨fun ⟨hnamed, hcovered, hmetric, htag⟩ => ⟨hcovered, hnamed, hmetric, htag⟩,
    fun h => ⟨h.named, h.covered, h.metric, h.tag⟩⟩

/-- **The matches with their numbers**: what matches, and its place among the points. -/
def numbered (s : Store) (f : PointFilter) : List (Match × Nat) :=
  s.points.zipIdx.filterMap fun e => (s.matchAt? f e.1).map fun m => (m, e.2)

variable {s : Store} {f : PointFilter}

theorem map_fst_numbered (s : Store) (f : PointFilter) :
    (s.numbered f).map Prod.fst = s.matching f := by
  have hpoints : s.points = s.points.zipIdx.map Prod.fst := by simp
  rw [numbered, List.map_filterMap, matching_eq, hpoints, List.filterMap_map, ← hpoints]
  refine List.filterMap_congr fun e _ => ?_
  rw [Option.map_map]
  exact Option.map_id_apply

theorem mem_numbered (hmetrics : f.metrics ≠ []) {m : Match} {i : Nat} :
    (m, i) ∈ s.numbered f ↔ s.points[i]? = some m.point ∧ s.Matches f m := by
  rw [numbered, List.mem_filterMap]
  constructor
  · rintro ⟨⟨p, j⟩, hp, hm⟩
    obtain ⟨n, hn, heq⟩ := Option.map_eq_some_iff.mp hm
    cases heq
    obtain ⟨rfl, hmatches⟩ := (matchAt?_iff_matches hmetrics).mp hn
    exact ⟨List.mk_mem_zipIdx_iff_getElem?.mp hp, hmatches⟩
  · rintro ⟨hp, hmatches⟩
    refine ⟨(m.point, i), List.mk_mem_zipIdx_iff_getElem?.mpr hp, ?_⟩
    rw [(matchAt?_iff_matches hmetrics).mpr ⟨rfl, hmatches⟩]
    rfl

theorem pairwise_numbered (s : Store) (f : PointFilter) :
    (s.numbered f).Pairwise fun a b => a.2 < b.2 := by
  have hindices : (s.points.zipIdx.map Prod.snd).Pairwise (· < ·) := by
    rw [List.zipIdx_map_snd]
    exact List.pairwise_lt_range'
  refine List.pairwise_filterMap.mpr ((List.pairwise_map.mp hindices).imp ?_)
  intro a b hlt m hm n hn
  obtain ⟨_, -, rfl⟩ := Option.map_eq_some_iff.mp hm
  obtain ⟨_, -, rfl⟩ := Option.map_eq_some_iff.mp hn
  exact hlt

/-! ### The rows of a select -/

/-- A `page` of rows is a slice of them. -/
theorem page_eq {α : Type} (o : Output) (rows : List α) :
    o.page rows = (rows.drop o.offset).take (o.limit.getD rows.length) := by
  rw [Output.page]
  cases o.limit with
  | some limit => rfl
  | none => exact (List.take_of_length_le (by simp)).symm

theorem page_map {α β : Type} (o : Output) (g : α → β) (rows : List α) :
    o.page (rows.map g) = (o.page rows).map g := by
  rw [page_eq, page_eq, List.length_map, List.map_take, List.map_drop]

/-- **One match before another** among the rows of a select: its key is `Before` the other's or, if
they share one, it was written first. -/
def Precedes (r : TimeRange) (o : RowOrder) (a b : Match × Nat) : Prop :=
  a.1.key.Before r o b.1.key ∨ a.1.key = b.1.key ∧ a.2 < b.2

instance (r : TimeRange) (o : RowOrder) (a b : Match × Nat) : Decidable (Precedes r o a b) := by
  unfold Precedes
  infer_instance

/-- No two matches precede each other. -/
theorem not_precedes_of_precedes {r : TimeRange} {o : RowOrder} {a b : Match × Nat}
    (h : Precedes r o a b) : ¬Precedes r o b a := by
  rintro (hbefore' | ⟨hkey', hlt'⟩)
  · have hle' := (RowKey.le_iff_before r o _ _).mpr (.inl hbefore')
    obtain hbefore | ⟨hkey, -⟩ := h
    · have hle := (RowKey.le_iff_before r o _ _).mpr (.inl hbefore)
      exact RowKey.ne_of_before hbefore (RowKey.le_antisymm r o hle hle')
    · exact RowKey.ne_of_before hbefore' hkey.symm
  · obtain hbefore | ⟨-, hlt⟩ := h
    · exact RowKey.ne_of_before hbefore hkey'.symm
    · exact Nat.lt_asymm hlt hlt'

/-- **The rows of a `select`**, with their numbers: the matches that pass all filters, in order. -/
def ranked (s : Store) (f : PointFilter) (o : Output) : List (Match × Nat) :=
  ((s.numbered f).filter fun e => o.keeps e.1.point.value).mergeSort
    fun a b => RowKey.le f.range o.order a.1.key b.1.key

theorem mem_ranked (hmetrics : f.metrics ≠ []) {o : Output} {m : Match} {i : Nat} :
    (m, i) ∈ s.ranked f o ↔ s.points[i]? = some m.point ∧ s.Matches f m ∧
      ∀ v ∈ o.filters, v.passes m.point.value = true := by
  rw [ranked, List.mem_mergeSort, List.mem_filter, mem_numbered hmetrics, and_assoc, Output.keeps,
    List.all_eq_true]

/-- No point is in `ranked` twice. -/
theorem nodup_ranked (s : Store) (f : PointFilter) (o : Output) :
    ((s.ranked f o).map Prod.snd).Nodup := by
  have hnumbered := (pairwise_numbered s f).filter fun e => o.keeps e.1.point.value
  refine ((List.mergeSort_perm _ _).map Prod.snd).nodup_iff.mpr ?_
  exact List.pairwise_map.mpr (hnumbered.imp Nat.ne_of_lt)

/-- **The order of the `ranked` rows**: by their keys, and those that share one as they were
written. -/
theorem pairwise_ranked (s : Store) (f : PointFilter) (o : Output) :
    (s.ranked f o).Pairwise (Precedes f.range o.order) := by
  have htrans : ∀ a b c : Match × Nat, RowKey.le f.range o.order a.1.key b.1.key = true →
      RowKey.le f.range o.order b.1.key c.1.key = true →
      RowKey.le f.range o.order a.1.key c.1.key = true :=
    fun a b c => RowKey.le_trans f.range o.order a.1.key b.1.key c.1.key
  have hsorted := stablySorted_mergeSort htrans
    (fun a b => RowKey.le_total f.range o.order a.1.key b.1.key)
    ((s.numbered f).filter fun e => o.keeps e.1.point.value)
  refine (hsorted.pairwise htrans ((pairwise_numbered s f).filter _)).imp ?_
  rintro a b ⟨hle, htie⟩
  obtain hbefore | hkey := (RowKey.le_iff_before f.range o.order a.1.key b.1.key).mp hle
  · exact .inl hbefore
  · exact .inr ⟨hkey, htie ((RowKey.le_iff_before f.range o.order b.1.key a.1.key).mpr
      (.inr hkey.symm))⟩

/-- A `select` gives the records of a page of its rows. -/
theorem select_eq (s : Store) (f : PointFilter) (o : Output) :
    s.select f o = (o.page (s.ranked f o)).map fun e => e.1.record := by
  have hrows : (s.ranked f o).map Prod.fst =
      ((s.matching f).filter fun m => o.keeps m.point.value).mergeSort
        fun a b => RowKey.le f.range o.order a.key b.key := by
    rw [← map_fst_numbered, List.filter_map, ranked]
    exact List.map_mergeSort fun a _ b _ => rfl
  rw [select, ← hrows, page_map, List.map_map]
  rfl

theorem readAlone_record {m : Match} (hnamed : s.name? m.point.series = some m.name) :
    readAlone s.name? m.record.encode =
      .ok ⟨some m.name, some m.point.timestamp, [m.point.value]⟩ := by
  have hencodable : m.record.Encodable := trivial
  exact readAlone_of_resolve hencodable hnamed

end Store

/-- A select asks for the metric that its document names. -/
theorem Plan.metric_of_ofJson {j : Json} {f : PointFilter} {o : Output}
    (h : Plan.ofJson j = .ok (.select f o)) :
    ∃ root metric, j.object? = some root ∧ Json.field? root "select" = some (.text metric) ∧
      f.metrics = [metric] := by
  obtain ⟨root, rfl, -, hform⟩ := form_of_ofJson h
  cases hform with
  | select hselect _ hfilter _ => exact ⟨root, _, rfl, hselect, metrics_read hfilter⟩

namespace Store

/-- **What a select answers.** Its rows are a page of a list of matches with their numbers, which
has each point, by its number, just if it matches the clauses and its value passes every filter, and
then once. The list is in the order of keys, names of series and timestamps, and points that share a
key are in the order they were written. The store stays as it was. -/
theorem query_of_select {j : Json} {f : PointFilter} {o : Output}
    (hplan : Plan.ofJson j = .ok (.select f o)) (s : Store) :
    (∃ root metric, j.object? = some root ∧ Json.field? root "select" = some (.text metric) ∧
      f.metrics = [metric]) ∧
    ∃ rows : List (Match × Nat), (rows.map Prod.snd).Nodup ∧
      (∀ m i, (m, i) ∈ rows ↔ s.points[i]? = some m.point ∧ s.Matches f m ∧
        ∀ v ∈ o.filters, v.passes m.point.value = true) ∧
      rows.Pairwise (Precedes f.range o.order) ∧
      ∃ records, s.query (some j) = (.ok records, s) ∧
        records.map (fun r => readAlone s.name? r.encode) =
          ((rows.drop o.offset).take (o.limit.getD rows.length)).map fun e =>
            .ok ⟨some e.1.name, some e.1.point.timestamp, [e.1.point.value]⟩ := by
  obtain ⟨root, metric, hroot, hselect, hmetric⟩ := Plan.metric_of_ofJson hplan
  have hmetrics : f.metrics ≠ [] := by
    rw [hmetric]
    exact List.cons_ne_nil metric []
  have hquery : s.query (some j) = (.ok (s.select f o), s) := by
    rw [query, hplan]
    rfl
  refine ⟨⟨root, metric, hroot, hselect, hmetric⟩, s.ranked f o, nodup_ranked s f o,
    fun m i => mem_ranked hmetrics, pairwise_ranked s f o, s.select f o, hquery, ?_⟩
  rw [select_eq, ← page_eq, List.map_map]
  refine List.map_congr_left fun e he => ?_
  obtain ⟨-, hmatches, -⟩ := (mem_ranked hmetrics).mp (mem_of_mem_page he)
  dsimp only [Function.comp_apply]
  rw [readAlone_record hmatches.named]

/-- A range that is walked backwards, a tag, a filter, the order of time and a page. Two points
share a key, and are in the order they were written; of the others one is of another metric, one is
where the range stops, and one is no number. -/
theorem query_of_select_backward :
    let s := ofSeries ["m host=a", "m host=b", "n host=a"]
      [⟨1, 5, Double.ofWord 1⟩, ⟨2, 9, Double.ofWord 2⟩, ⟨3, 5, Double.ofWord 3⟩,
        ⟨1, 2, Double.ofWord 4⟩, ⟨2, 7, Double.nan⟩, ⟨1, 5, Double.ofWord 6⟩]
    let j : Json := .object [("select", .text "m"),
      ("range", .object [("from", .number (.word 9)), ("to", .number (.word 2))]),
      ("where", .object [("host", .array [.text "a", .text "b"])]), ("order-by", .text "time"),
      ("filter", .object [("ge", .number (.word 1))]), ("offset", .number (.word 1)),
      ("limit", .number (.word 2))]
    let f : PointFilter := ⟨["m"], ⟨some 9, some 2⟩, some ⟨"host", ["a", "b"]⟩⟩
    let o : Output := ⟨.time, [⟨.ge, Double.ofWord 1⟩], some 2, 1⟩
    Plan.ofJson j = .ok (.select f o) ∧ ∃ records, s.query (some j) = (.ok records, s) ∧
      records.map (fun r => readAlone s.name? r.encode) =
        [.ok ⟨some "m host=a", some 5, [Double.ofWord 1]⟩,
          .ok ⟨some "m host=a", some 5, [Double.ofWord 6]⟩] := by
  intro s j f o
  have hplan : Plan.ofJson j = .ok (.select f o) := by decide +kernel
  obtain ⟨-, rows, hnodup, hmem, hrows, records, hquery, hrecords⟩ := query_of_select hplan s
  have hnumbered : (s.numbered f).filter (fun e => o.keeps e.1.point.value) =
      [(⟨"m host=a", 1, 5, Double.ofWord 1⟩, 0), (⟨"m host=b", 2, 9, Double.ofWord 2⟩, 1),
        (⟨"m host=a", 1, 5, Double.ofWord 6⟩, 5)] := by decide +kernel
  have hperm : rows.Perm (s.ranked f o) :=
    (List.perm_ext_iff_of_nodup (List.Nodup.of_map _ hnodup)
      (List.Nodup.of_map _ (nodup_ranked s f o))).mpr
      fun ⟨m, i⟩ => (hmem m i).trans (mem_ranked (List.cons_ne_nil "m" [])).symm
  have hlist : rows = [(⟨"m host=b", 2, 9, Double.ofWord 2⟩, 1),
      (⟨"m host=a", 1, 5, Double.ofWord 1⟩, 0), (⟨"m host=a", 1, 5, Double.ofWord 6⟩, 5)] := by
    refine List.Perm.eq_of_pairwise
      (fun a b _ _ hab hba => absurd hba (not_precedes_of_precedes hab)) hrows
      (by decide +kernel) (hperm.trans ((List.mergeSort_perm _ _).trans ?_))
    rw [hnumbered]
    decide +kernel
  rw [hlist] at hrecords
  exact ⟨hplan, records, hquery, hrecords⟩

end Store

end TimeSeries
