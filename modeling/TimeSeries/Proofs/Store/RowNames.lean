import TimeSeries.Proofs.Series.Canonical
import TimeSeries.Proofs.Store.AggregateAnswer

/-!
# The names of rows are read back

The name of a joined row is put together of the metrics that were asked for and of the tags of the
series that were joined; the name of a reduced series is that of the series, with the function
behind the metric. A row takes its name apart again, and finds what it was made of, if the metrics
are plain (`Series.PlainMetric`): words, so that the head of the name ends where they do, without
`|`, so that each of them is one item, and without an aggregate behind a `:`, so that an item is a
metric. Nothing is asked of tags.

Main result: `Store.rows_read_back`.
-/

namespace TimeSeries

namespace Series

/-! ### Plain metrics and items -/

/-- **A plain metric** is a word, and `Plain`. -/
structure PlainMetric (metric : String) : Prop where
  /-- it is not empty -/
  ne_empty : metric ≠ ""
  /-- it has no blanks -/
  unbroken : ∀ c ∈ metric.toList, Text.isBlank c = false
  /-- it has no `|` and no aggregate -/
  plain : Plain metric

variable {metric : String} {metrics : List String}

instance : DecidablePred PlainMetric := fun metric =>
  decidable_of_iff (metric ≠ "" ∧ metric.toList.all (fun c => !Text.isBlank c) ∧ Plain metric)
    ⟨fun ⟨hne, hunbroken, hplain⟩ => ⟨hne, by simpa using hunbroken, hplain⟩,
      fun h => ⟨h.ne_empty, by simpa using h.unbroken, h.plain⟩⟩

theorem PlainMetric.ne_nil (h : PlainMetric metric) : metric.toList ≠ [] := by
  simpa using h.ne_empty

/-- A plain metric is an item without an aggregate, by `splitItem`. -/
theorem PlainMetric.splitItem_eq (h : PlainMetric metric) :
    splitItem metric.toList = (metric, none) := by
  have hnone := (snd_splitItem_eq_none_iff metric.toList).mpr h.plain.2
  have hmetric := (splitItem_fst_eq_iff metric.toList).mpr hnone
  rw [String.ofList_toList] at hmetric
  exact Prod.ext hmetric hnone

/-! ### Heads of joined rows -/

/-- The head of the name of a joined row. -/
def joinHead (metrics : List String) : List Char := ['|'].intercalate (metrics.map String.toList)

theorem joinHead_ne_nil (hmetrics : metrics ≠ [])
    (hplain : ∀ metric ∈ metrics, PlainMetric metric) : joinHead metrics ≠ [] := by
  obtain ⟨metric, rest, rfl⟩ := List.exists_cons_of_ne_nil hmetrics
  have hmetric := (hplain metric List.mem_cons_self).ne_nil
  cases rest with
  | nil =>
    rw [joinHead, List.map_singleton, List.intercalate_singleton]
    exact hmetric
  | cons next rest =>
    rw [joinHead, List.map_cons, List.map_cons, List.intercalate_cons_cons, List.append_assoc]
    exact List.append_ne_nil_of_left_ne_nil hmetric _

theorem joinHead_unbroken (hplain : ∀ metric ∈ metrics, PlainMetric metric) :
    ∀ c ∈ joinHead metrics, Text.isBlank c = false := by
  induction metrics with
  | nil => exact List.forall_mem_nil _
  | cons metric rest ih =>
    obtain ⟨hmetric, hrest⟩ := List.forall_mem_cons.mp hplain
    cases rest with
    | nil =>
      rw [joinHead, List.map_singleton, List.intercalate_singleton]
      exact hmetric.unbroken
    | cons next rest =>
      rw [joinHead, List.map_cons, List.map_cons, List.intercalate_cons_cons]
      refine List.forall_mem_append.mpr ⟨List.forall_mem_append.mpr ⟨hmetric.unbroken, ?_⟩, ?_⟩
      · exact List.forall_mem_singleton.mpr (by decide)
      · exact ih hrest

/-- **The items of a joined row** are the metrics. -/
theorem splitOn_joinHead (hmetrics : metrics ≠ [])
    (hplain : ∀ metric ∈ metrics, PlainMetric metric) :
    ((joinHead metrics).splitOn '|').map splitItem = metrics.map fun metric => (metric, none) := by
  have hbar : ∀ item ∈ metrics.map String.toList, '|' ∉ item := by
    intro item hitem
    obtain ⟨metric, hmetric, rfl⟩ := List.mem_map.mp hitem
    exact (hplain metric hmetric).plain.1
  rw [joinHead, List.splitOn_intercalate '|' hbar (by simpa using hmetrics), List.map_map]
  exact List.map_congr_left fun metric hmetric => (hplain metric hmetric).splitItem_eq

end Series

namespace Store

open Series

variable {name text metric : String} {metrics : List String}

/-! ### Names that a store makes -/

/-- **A written name** is the canonical name of a text, whose first word is a plain metric. -/
def PlainlyWritten (name : String) : Prop :=
  ∃ text, Series.normalize text = some name ∧ PlainMetric (Series.token text)

theorem PlainlyWritten.plainMetric (h : PlainlyWritten name) : PlainMetric (Series.metric name) := by
  obtain ⟨text, hname, hplain⟩ := h
  rw [(Series.metric_normalize_iff hname).mpr hplain.plain]
  exact hplain

/-- **A name that is `PlainlyWritten`** is its metric, a space and its tags. -/
theorem PlainlyWritten.toList_eq (h : PlainlyWritten name) :
    name.toList = (Series.metric name).toList ++ ' ' :: (tagText name).toList := by
  obtain ⟨text, hname, hplain⟩ := h
  rw [(Series.metric_normalize_iff hname).mpr hplain.plain]
  conv_lhs => rw [eq_token_append_tagText hname]
  simp

theorem PlainlyWritten.tags_eq (h : PlainlyWritten name) :
    Series.tags name = (Text.words (tagText name).toList).filterMap Tag.ofWord? := by
  have hplain := h.plainMetric
  rw [Series.tags, splitHead_of_append h.toList_eq hplain.ne_nil hplain.unbroken]

theorem splitHead_joinName (hmetrics : metrics ≠ [])
    (hplain : ∀ metric ∈ metrics, PlainMetric metric) (tags : String) :
    Series.splitHead (joinName metrics tags) = (joinHead metrics, tags.toList) :=
  splitHead_of_append (nameOf_joinName metrics tags) (joinHead_ne_nil hmetrics hplain)
    (joinHead_unbroken hplain)

theorem items_joinName (hmetrics : metrics ≠ [])
    (hplain : ∀ metric ∈ metrics, PlainMetric metric) (tags : String) :
    Series.items (joinName metrics tags) = metrics.map fun metric => (metric, none) := by
  rw [Series.items, splitHead_joinName hmetrics hplain, splitOn_joinHead hmetrics hplain]

/-- **The `joinName` of a row** shows the metrics and the tags that it was made of, and no
aggregates. -/
theorem read_joinName (hmetrics : metrics ≠ [])
    (hplain : ∀ metric ∈ metrics, PlainMetric metric) (tags : String) :
    Series.metrics (joinName metrics tags) = metrics ∧
      Series.aggregates (joinName metrics tags) = [] ∧
      Series.tags (joinName metrics tags) = (Text.words tags.toList).filterMap Tag.ofWord? := by
  have hhead := splitHead_joinName hmetrics hplain tags
  have hitems := items_joinName hmetrics hplain tags
  have hne : (joinHead metrics).isEmpty = false := by
    simpa using joinHead_ne_nil hmetrics hplain
  refine ⟨?_, ?_, ?_⟩
  · rw [Series.metrics, hhead, hitems, hne, List.map_map]
    exact List.map_id metrics
  · rw [Series.aggregates, hitems, List.filterMap_map]
    exact List.filterMap_eq_nil_iff.mpr fun metric _ => rfl
  · rw [Series.tags, hhead]

/-- **The `aggregateName` of a reduced series** shows its metric, the function and its tags. -/
theorem read_aggregateName (h : PlainlyWritten name) (f : Aggregate) :
    Series.metric (aggregateName f name) = Series.metric name ∧
      Series.aggregates (aggregateName f name) = [f] ∧
      Series.tags (aggregateName f name) = Series.tags name := by
  have hfunction : ∀ c ∈ f.name.toList, Text.isBlank c = false ∧ c ≠ '|' := by
    have hname : f.name.toList.all (fun c => !Text.isBlank c && c != '|') := by cases f <;> decide
    simpa using hname
  have hplain := h.plainMetric
  have hspace : ' ' ∉ (Series.metric name).toList := fun hmem =>
    absurd (hplain.unbroken ' ' hmem) (by decide)
  let item := (Series.metric name).toList ++ ':' :: f.name.toList
  have hitem : ∀ c ∈ item, Text.isBlank c = false ∧ c ≠ '|' := by
    refine List.forall_mem_append.mpr ⟨fun c hc => ⟨hplain.unbroken c hc, ?_⟩,
      List.forall_mem_cons.mpr ⟨by decide, hfunction⟩⟩
    rintro rfl
    exact hplain.plain.1 hc
  have htoList : (aggregateName f name).toList = item ++ ' ' :: (tagText name).toList := by
    rw [aggregateName, h.toList_eq, Text.cutFirst_append hspace]
    simp [item]
  have hhead : Series.splitHead (aggregateName f name) = (item, (tagText name).toList) :=
    splitHead_of_append htoList (by simp [item]) fun c hc => (hitem c hc).1
  -- the head has one item, and the function is cut off from it
  have hitems : Series.items (aggregateName f name) = [(Series.metric name, some f)] := by
    have hbar : '|' ∉ item := fun hmem => (hitem '|' hmem).2 rfl
    rw [Series.items, hhead, List.splitOn_eq_singleton hbar, List.map_singleton,
      splitItem_aggregate, String.ofList_toList]
  refine ⟨?_, ?_, ?_⟩
  · rw [Series.metric, hitems]
    rfl
  · rw [Series.aggregates, hitems]
    rfl
  · rw [Series.tags, hhead, h.tags_eq]

/-! ### Stores with plain names -/

/-- **A plainly named store**: the series of each point has a written name with a plain metric.
Writers register no other than written names, so this is so as long as what they write begins with
plain metrics (`PlainlyNamed.write`). -/
def PlainlyNamed (s : Store) : Prop :=
  ∀ p ∈ s.points, ∃ name, s.name? p.series = some name ∧ PlainlyWritten name

variable {s s' : Store} {f : PointFilter}

theorem PlainlyNamed.of_grows (h : s.PlainlyNamed) (hgrows : s.Grows s') : s'.PlainlyNamed := by
  intro p hp
  rw [hgrows.points] at hp
  obtain ⟨name, hname, hplain⟩ := h p hp
  exact ⟨name, hgrows.name? hname, hplain⟩

/-- **Writing a point** to a series with a plain name leaves the store `PlainlyNamed`. -/
theorem PlainlyNamed.write (h : s.PlainlyNamed) (hplain : PlainlyWritten name)
    (hcount : (s.enlist name).2.Countable) {timestamp : Timestamp} {value : Double}
    (happend : (s.enlist name).2.append? ⟨(s.enlist name).1, timestamp, value⟩ = some s') :
    s'.PlainlyNamed := by
  rw [append?, name?_enlist hcount] at happend
  cases happend
  refine List.forall_mem_append.mpr ⟨h.of_grows (enlist_grows s name), ?_⟩
  exact List.forall_mem_singleton.mpr ⟨name, name?_enlist hcount, hplain⟩

theorem PlainlyNamed.of_matches (h : s.PlainlyNamed) {m : Match} (hm : m.point ∈ s.points)
    (hmatches : s.Matches f m) : PlainlyWritten m.name := by
  obtain ⟨name, hname, hplain⟩ := h m.point hm
  rw [hmatches.named] at hname
  exact Option.some.inj hname ▸ hplain

/-! ### Rows -/

/-- **A row that was joined** at a key, and is read as such: its metrics are those that were asked
for, with a value for each, there are no aggregates, and the tags are those of every series that has
a point in it. -/
structure ReadsJoined (s : Store) (f : PointFilter) (key : RowKey) (row : Row) : Prop where
  /-- it has the timestamp of the key -/
  timestamp : row.timestamp = some key.timestamp
  /-- points were joined into it -/
  joined : ∃ slot e, s.Belongs f key slot e
  /-- the metrics, in the order of the slots -/
  metrics : row.metrics = f.metrics
  /-- a value for each of them -/
  length_values : row.values.length = f.metrics.length
  /-- which is that of the last written of the points that belong there -/
  values : ∀ k value, row.values[k]? = some value →
    ∃ slot, s.Holds f key k slot ∧ slot.getD Double.nan = value
  /-- no aggregates -/
  aggregates : row.aggregates = []
  /-- the tags of every series that was joined into it -/
  tags : ∀ slot e, s.Belongs f key slot e → row.tags = Series.tags e.1.name

/-- **A row that was reduced** from a series, and is read as such: it shows the metric, the function
with its value, and the tags of the series. -/
structure ReadsReduced (s : Store) (f : PointFilter) (fn : Aggregate) (metric name : String)
    (row : Row) : Prop where
  /-- it is the row of the series -/
  series : row.series = some (aggregateName fn name)
  /-- which has a point that matches -/
  source : ∃ m, m.point ∈ s.points ∧ s.Matches f m ∧ m.name = name
  /-- the metric -/
  metric : row.metric = some metric
  /-- the function -/
  aggregates : row.aggregates = [fn]
  /-- there is one value -/
  length_values : row.values.length = 1
  /-- which is the value of the function -/
  valueOf : row.valueOf fn = row.value
  /-- the tags of the series -/
  tags : row.tags = Series.tags name

theorem readsJoined_of_mem (hs : s.PlainlyNamed) (hmetrics : f.metrics ≠ [])
    (hplain : ∀ metric ∈ f.metrics, PlainMetric metric) {o : Output} {row : JoinRow}
    (hrow : row ∈ s.joinRows f o) :
    s.ReadsJoined f row.key ⟨some (joinName f.metrics row.key.text), some row.key.timestamp,
      row.slots.map fun slot => slot.getD Double.nan⟩ := by
  have hbegun : row ∈ joinPoints f.metrics (s.matching f) := List.mem_mergeSort.mp hrow
  obtain ⟨hread, haggregates, htags⟩ := read_joinName hmetrics hplain row.key.text
  have hwidth := length_slots_joinRows s f o row hrow
  refine ⟨rfl, ?_, hread, ?_, fun k value hvalue => ?_, haggregates, fun slot e he => ?_⟩
  · -- the row was begun at the key of a point
    have hkeys : row.key ∈ (joinPoints f.metrics (s.matching f)).map JoinRow.key ↔
        ∃ m ∈ s.matching f, (m.place f.metrics).1 = row.key :=
      (keys_joinPoints fun m hm => metric_mem_of_mem_matching hmetrics hm).2 row.key
    obtain ⟨m, hm, hkey⟩ := hkeys.mp (List.mem_map_of_mem hbegun)
    rw [← map_fst_numbered] at hm
    obtain ⟨e, he, rfl⟩ := List.mem_map.mp hm
    exact ⟨_, e, (belongs_iff hmetrics).mpr ⟨he, Prod.ext hkey rfl⟩⟩
  · rw [List.length_map, hwidth]
  · rw [List.getElem?_map, Option.map_eq_some_iff] at hvalue
    obtain ⟨slot, hslot, hvalue⟩ := hvalue
    exact ⟨slot, holds_joinPoints hmetrics hbegun hslot, hvalue⟩
  · have hwritten := hs.of_matches (List.mem_of_getElem? he.point) he.matched
    rw [hwritten.tags_eq, tagText_eq_iff.mpr he.tags, ← htags]
    rfl

theorem readsReduced_of_mem (hs : s.PlainlyNamed) {metric : String} (hmetric : f.metrics = [metric])
    {fn : Aggregate} {row : Reduced} (hrow : row ∈ reduceAll fn (s.matching f)) :
    s.ReadsReduced f fn metric row.name
      ⟨some (aggregateName fn row.name), some row.timestamp, [row.value]⟩ := by
  have hmetrics : f.metrics ≠ [] := by
    rw [hmetric]
    exact List.cons_ne_nil metric []
  have hname : row.name ∈ seriesNames (s.matching f) := by
    rw [← map_name_reduceAll fn]
    exact List.mem_map_of_mem hrow
  obtain ⟨m, hm, hname⟩ := mem_seriesNames.mp hname
  obtain ⟨hpoint, hmatches⟩ := (mem_matching_iff_matches hmetrics).mp hm
  have hwritten := hs.of_matches hpoint hmatches
  have hshown := hmatches.metric
  rw [hmetric, List.mem_singleton] at hshown
  rw [hname] at hwritten hshown
  obtain ⟨hread, haggregates, htags⟩ := read_aggregateName hwritten fn
  have haggregates' : Row.aggregates ⟨some (aggregateName fn row.name), some row.timestamp,
      [row.value]⟩ = [fn] := haggregates
  refine ⟨rfl, ⟨m, hpoint, hmatches, hname⟩, ?_, haggregates, rfl, ?_, htags⟩
  · rw [Row.metric, Option.map_some, hread, hshown]
  · rw [Row.valueOf, haggregates', List.findIdx?_cons, beq_self_eq_true]
    rfl

/-! ### Answers -/

/-- Each of the second is related to one of the first. -/
theorem exists_of_forall₂ {α β : Type} {R : α → β → Prop} {as : List α} {bs : List β}
    (h : List.Forall₂ R as bs) : ∀ b ∈ bs, ∃ a ∈ as, R a b := by
  induction h with
  | nil => exact List.forall_mem_nil _
  | @cons a _ as _ hab _ ih =>
    refine List.forall_mem_cons.mpr ⟨⟨a, List.mem_cons_self, hab⟩, fun b hb => ?_⟩
    obtain ⟨a', ha', hab'⟩ := ih b hb
    exact ⟨a', List.mem_cons_of_mem _ ha', hab'⟩

theorem rows_of_plain_join (hs : s.PlainlyNamed) {j : Json} {o : Output}
    (hplan : Plan.ofJson j = .ok (.join f o)) (hcount : (s.query (some j)).2.Countable)
    (hplain : ∀ metric ∈ f.metrics, PlainMetric metric) :
    ∃ records s', s.query (some j) = (.ok records, s') ∧ ∀ r ∈ records, ∃ key row,
      readAlone s'.name? r.encode = .ok row ∧ s.ReadsJoined f key row := by
  obtain ⟨hmetrics, hnarrow⟩ := Plan.metrics_of_ofJson hplan
  have hquery : s.query (some j) = (.ok (s.join f o).1, (s.join f o).2) := by
    rw [query, hplan]
    rfl
  have hwidth : ∀ row ∈ o.page (s.joinRows f o), row.slots.length ≤ maxSlots := fun row hrow => by
    rw [length_slots_joinRows s f o row (mem_of_mem_page hrow)]
    exact hnarrow
  rw [hquery, join] at hcount
  refine ⟨_, _, hquery, fun r hr => ?_⟩
  have htells := tells_registerAll hwidth s hcount
  obtain ⟨row, hrow, hrecord⟩ := exists_of_forall₂ htells r hr
  obtain ⟨name, hname, hread⟩ := hrecord.read
  obtain rfl := hname.eq_joinName
  exact ⟨row.key, _, hread, readsJoined_of_mem hs hmetrics hplain (mem_of_mem_page hrow)⟩

theorem rows_of_plain_aggregate (hs : s.PlainlyNamed) {j : Json} {fn : Aggregate} {metric : String}
    (hplan : Plan.ofJson j = .ok (.aggregate f fn)) (hcount : (s.query (some j)).2.Countable)
    (hmetric : f.metrics = [metric]) :
    ∃ records s', s.query (some j) = (.ok records, s') ∧ ∀ r ∈ records, ∃ name row,
      readAlone s'.name? r.encode = .ok row ∧ s.ReadsReduced f fn metric name row := by
  have hquery : s.query (some j) = (.ok (s.aggregate f fn).1, (s.aggregate f fn).2) := by
    rw [query, hplan]
    rfl
  rw [hquery, aggregate] at hcount
  refine ⟨_, _, hquery, fun r hr => ?_⟩
  have hreads := map_readAlone_registerReduced fn s (reduceAll fn (s.matching f)) hcount
  obtain ⟨row, hrow, hread⟩ := List.mem_map.mp (hreads ▸ List.mem_map_of_mem hr)
  exact ⟨row.name, _, hread.symm, readsReduced_of_mem hs hmetric hrow⟩

/-- **The names of rows are read back.** Let the series of a store have plain names. A join of plain
metrics is answered by rows that show just these metrics, in the order of the slots, with a value
for each, no aggregates, and the tags of every series that was joined. An aggregate is answered by
rows that show the metric, the function with its value, and the tags of the series. Either leaves a
store in which the series have plain names. -/
theorem rows_read_back {s : Store} {j : Json} (hs : s.PlainlyNamed)
    (hcount : (s.query (some j)).2.Countable) :
    (s.query (some j)).2.PlainlyNamed ∧
    (∀ f o, Plan.ofJson j = .ok (.join f o) →
      (∃ root, j.object? = some root ∧
        Json.field? root "join" = some (.array (f.metrics.map .text))) ∧
      ((∀ metric ∈ f.metrics, PlainMetric metric) →
        ∃ records s', s.query (some j) = (.ok records, s') ∧ ∀ r ∈ records, ∃ key row,
          readAlone s'.name? r.encode = .ok row ∧ s.ReadsJoined f key row)) ∧
    ∀ f fn, Plan.ofJson j = .ok (.aggregate f fn) → ∃ root metric, j.object? = some root ∧
      Json.field? root "aggregate" = some (.object [(metric, .text fn.name)]) ∧
      f.metrics = [metric] ∧
      ∃ records s', s.query (some j) = (.ok records, s') ∧ ∀ r ∈ records, ∃ name row,
        readAlone s'.name? r.encode = .ok row ∧ s.ReadsReduced f fn metric name row := by
  refine ⟨hs.of_grows (grows_query s (some j)), fun f o hplan => ?_, fun f fn hplan => ?_⟩
  · exact ⟨(Plan.texts_of_ofJson hplan).1, rows_of_plain_join hs hplan hcount⟩
  · obtain ⟨root, metric, hroot, haggregate, hmetric⟩ := Plan.metric_of_aggregate hplan
    exact ⟨root, metric, hroot, haggregate, hmetric,
      rows_of_plain_aggregate hs hplan hcount hmetric⟩

/-- A metric with a `:` in it, and a tag with `|`, `=` and `:`. -/
theorem rows_read_back_colon :
    let s := ofSeries ["net:in host=a|b=:c", "cpu host=a|b=:c"]
      [⟨1, 5, Double.ofWord 1⟩, ⟨2, 5, Double.ofWord 2⟩]
    let j : Json := .object [("join", .array [.text "net:in", .text "cpu"])]
    let f : PointFilter := ⟨["net:in", "cpu"], {}, none⟩
    s.PlainlyNamed ∧ (s.query (some j)).2.Countable ∧ ∃ r s' key row,
      s.query (some j) = (.ok [r], s') ∧ readAlone s'.name? r.encode = .ok row ∧
      s.ReadsJoined f key row ∧ row.series = some "net:in|cpu host=a|b=:c" ∧
      row.metrics = ["net:in", "cpu"] := by
  intro s j f
  have hfirst : PlainlyWritten "net:in host=a|b=:c" :=
    ⟨"net:in host=a|b=:c", by decide +kernel, by decide⟩
  have hsecond : PlainlyWritten "cpu host=a|b=:c" :=
    ⟨"cpu host=a|b=:c", by decide +kernel, by decide⟩
  -- the store as its two points are written
  have hempty : PlainlyNamed empty := List.forall_mem_nil _
  have hs : s.PlainlyNamed :=
    (hempty.write hfirst (by decide) rfl).write hsecond (by decide) rfl
  have hplan : Plan.ofJson j = .ok (.join f {}) := by decide +kernel
  have hbegun : joinPoints f.metrics (s.matching f) =
      [⟨⟨"host=a|b=:c", 5⟩, [some (Double.ofWord 1), some (Double.ofWord 2)]⟩] := by
    decide +kernel
  have hrows : s.joinRows f {} = joinPoints f.metrics (s.matching f) := by
    refine List.mergeSort_of_pairwise (l := joinPoints f.metrics (s.matching f)) ?_
    rw [hbegun]
    decide +kernel
  have hquery : s.query (some j) = (.ok [.tuple 3 5 [some (Double.ofWord 1), some (Double.ofWord 2)]],
      s.addName "net:in|cpu host=a|b=:c") := by
    rw [query, hplan]
    dsimp only [answer, join]
    rw [hrows, hbegun]
    decide +kernel
  have hcount : (s.query (some j)).2.Countable := by
    rw [hquery]
    decide +kernel
  have hplain : ∀ metric ∈ f.metrics, PlainMetric metric :=
    List.forall_mem_cons.mpr ⟨by decide, List.forall_mem_singleton.mpr (by decide)⟩
  obtain ⟨-, hjoin, -⟩ := rows_read_back hs hcount
  obtain ⟨records, s', hanswer, hread⟩ := (hjoin f {} hplan).2 hplain
  rw [hquery] at hanswer
  cases hanswer
  obtain ⟨key, row, hrow, hjoined⟩ := hread _ List.mem_cons_self
  have hseries : row.series = some "net:in|cpu host=a|b=:c" := by
    have hshown : (readAlone
        (s.addName "net:in|cpu host=a|b=:c").name?
        (Record.tuple 3 5 [some (Double.ofWord 1), some (Double.ofWord 2)]).encode).map Row.series =
          .ok (some "net:in|cpu host=a|b=:c") := by decide +kernel
    rw [hrow] at hshown
    exact Except.ok.inj hshown
  exact ⟨hs, hcount, _, _, key, row, hquery, hrow, hjoined, hseries, hjoined.metrics⟩

end Store

end TimeSeries
