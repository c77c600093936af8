import Mathlib.Data.List.Dedup
import Mathlib.Data.List.Induction
import TimeSeries.Proofs.Series.Metrics
import TimeSeries.Proofs.Store.Answers

/-!
# Where the points of a join are found

A join puts each point at its place (`Store.Match.place`): the row of its tags and its
timestamp, the slot of the metric that the name of its series shows. What is put at a place
takes the place of what was there, so of the points that share a place the last one is
found (`Store.slotAt_joinPoints`), and there are as many values in the rows as there are
different places (`Store.present_joinPoints`).

So a join keeps every point if and only if no two share a place. The points of different
series do not where the series have canonical names with plain metrics
(`Store.name_eq_of_place`), for then a name can be told from the metric it shows and from
its tags. It may be otherwise: `m` and `m:max` show the same metric.
-/

namespace TimeSeries.Store

/-! ### Values in rows -/

/-- The value in a slot of the row at a key. -/
def slotAt (rows : List JoinRow) (key : RowKey) (slot : Nat) : Option Double :=
  (rows.find? fun row => row.key == key).bind fun row => row.slots[slot]?.join

/-- The number of values in some slots. -/
def filled (slots : List (Option Double)) : Nat := slots.countP Option.isSome

/-- The number of values in some rows. -/
def present (rows : List JoinRow) : Nat := filled (rows.flatMap JoinRow.slots)

theorem present_cons (row : JoinRow) (rows : List JoinRow) :
    present (row :: rows) = filled row.slots + present rows := by
  rw [present, List.flatMap_cons, filled, List.countP_append]
  rfl

theorem slotAt_cons (row : JoinRow) (rows : List JoinRow) (key : RowKey) (slot : Nat) :
    slotAt (row :: rows) key slot =
      if row.key = key then row.slots[slot]?.join else slotAt rows key slot := by
  by_cases h : row.key = key
  · simp [slotAt, h]
  · simp [slotAt, h]

theorem exists_row_of_slotAt {rows : List JoinRow} {key : RowKey} {slot : Nat} {value : Double}
    (h : slotAt rows key slot = some value) :
    ∃ row ∈ rows, row.key = key ∧ row.slots[slot]? = some (some value) := by
  obtain ⟨row, hfind, hslot⟩ := Option.bind_eq_some_iff.mp h
  exact ⟨row, List.mem_of_find?_eq_some hfind, by simpa using List.find?_some hfind,
    Option.join_eq_some_iff.mp hslot⟩

section PutSlot

variable {width slot : Nat} {key : RowKey} {value : Double} {rows : List JoinRow}

/-- No value is in the slots that a row begins with. -/
theorem join_getElem?_replicate (width j : Nat) :
    ((List.replicate width none)[j]? : Option (Option Double)).join = none := by
  rw [List.getElem?_replicate]
  split <;> rfl

theorem join_getElem?_set {slots : List (Option Double)} (h : slot < slots.length) (j : Nat) :
    (slots.set slot (some value))[j]?.join = if slot = j then some value else slots[j]?.join := by
  rw [List.getElem?_set]
  split <;> rfl

/-- **A value that `putSlot` puts at a place is found there**, and nothing else is changed. -/
theorem slotAt_putSlot (hwidth : ∀ row ∈ rows, row.slots.length = width) (hslot : slot < width)
    (k : RowKey) (j : Nat) :
    slotAt (putSlot width key slot value rows) k j =
      if key = k ∧ slot = j then some value else slotAt rows k j := by
  induction rows with
  | nil =>
    rw [putSlot, slotAt_cons, join_getElem?_set (by simpa using hslot), join_getElem?_replicate]
    by_cases hk : key = k <;> simp [hk, slotAt]
  | cons row rows ih =>
    have hrow := hwidth row List.mem_cons_self
    have ih := ih fun row hrow => hwidth row (List.mem_cons_of_mem _ hrow)
    rw [putSlot]
    split
    next hkey =>
      rw [slotAt_cons, slotAt_cons, join_getElem?_set (by rw [hrow]; exact hslot), hkey]
      by_cases hk : key = k <;> simp [hk]
    next hkey =>
      rw [slotAt_cons, slotAt_cons, ih]
      by_cases hk : row.key = k
      · rw [if_pos hk, if_pos hk, if_neg fun h => hkey (hk.trans h.1.symm)]
      · rw [if_neg hk, if_neg hk]

theorem filled_set {slots : List (Option Double)} (h : slot < slots.length) :
    filled (slots.set slot (some value)) =
      filled slots + if slots[slot]?.join.isSome then 0 else 1 := by
  induction slots generalizing slot with
  | nil => cases h
  | cons first slots ih =>
    cases slot with
    | zero => cases first <;> simp [filled]
    | succ slot =>
      have ih := ih (Nat.lt_of_succ_lt_succ h)
      rw [filled, filled] at ih
      simp only [filled, List.set_cons_succ, List.countP_cons, List.getElem?_cons_succ, ih]
      omega

/-- **A value is added** by `putSlot` if its place was empty, and else takes that of another. -/
theorem present_putSlot (hwidth : ∀ row ∈ rows, row.slots.length = width) (hslot : slot < width) :
    present (putSlot width key slot value rows) =
      present rows + if (slotAt rows key slot).isSome then 0 else 1 := by
  induction rows with
  | nil =>
    have hempty : filled (List.replicate width none) = 0 := by simp [filled, List.countP_replicate]
    rw [putSlot, present_cons, filled_set (by simpa using hslot), hempty, join_getElem?_replicate]
    rfl
  | cons row rows ih =>
    have hrow := hwidth row List.mem_cons_self
    have ih := ih fun row hrow => hwidth row (List.mem_cons_of_mem _ hrow)
    rw [putSlot]
    split
    next hkey =>
      rw [present_cons, present_cons, filled_set (by rw [hrow]; exact hslot), slotAt_cons,
        if_pos hkey]
      omega
    next hkey =>
      rw [present_cons, present_cons, ih, slotAt_cons, if_neg hkey]
      omega

end PutSlot

/-! ### Places -/

/-- **Place** of a point in a join of some metrics: the key of its row, and its slot in it. -/
def Match.place (metrics : List String) (m : Match) : RowKey × Nat :=
  (⟨tagText m.name, m.point.timestamp⟩, metrics.idxOf (Series.metric m.name))

variable {metrics : List String} {ms : List Match}

theorem place_lt {m : Match} (h : Series.metric m.name ∈ metrics) :
    (m.place metrics).2 < metrics.length := List.idxOf_lt_length_iff.mpr h

/-- A point of one of the metrics is put at its place. -/
theorem joinPoint_of_mem {m : Match} (h : Series.metric m.name ∈ metrics) (rows : List JoinRow) :
    joinPoint metrics rows m =
      putSlot metrics.length (m.place metrics).1 (m.place metrics).2 m.point.value rows := by
  have hidx : metrics.idxOf? (Series.metric m.name) =
      some (metrics.idxOf (Series.metric m.name)) := by
    cases hfound : metrics.idxOf? (Series.metric m.name) with
    | none => exact absurd h (List.idxOf?_eq_none_iff.mp hfound)
    | some slot => rw [List.idxOf_eq_getD_idxOf?, hfound, Option.getD_some]
  rw [joinPoint, hidx]
  rfl

/-- The rows of some points, in the order they are begun. -/
def joinPoints (metrics : List String) (ms : List Match) : List JoinRow :=
  ms.foldl (joinPoint metrics) []

theorem length_slots_joinPoints (metrics : List String) (ms : List Match) :
    ∀ row ∈ joinPoints metrics ms, row.slots.length = metrics.length :=
  length_slots_foldl (fun row hrow => by cases hrow) ms

theorem joinPoints_concat (ms : List Match) (m : Match) :
    joinPoints metrics (ms ++ [m]) = joinPoint metrics (joinPoints metrics ms) m :=
  List.foldl_concat _ _ _ _

/-- **What is found at a place** is the last of the points that share it. -/
theorem slotAt_joinPoints (hmetrics : ∀ m ∈ ms, Series.metric m.name ∈ metrics) (key : RowKey)
    (slot : Nat) :
    slotAt (joinPoints metrics ms) key slot =
      (ms.reverse.find? fun m => m.place metrics == (key, slot)).map fun m => m.point.value := by
  induction ms using List.reverseRecOn with
  | nil => rfl
  | append_singleton ms m ih =>
    have hm := hmetrics m (by simp)
    have ih := ih fun m hm => hmetrics m (List.mem_append_left _ hm)
    rw [joinPoints_concat, joinPoint_of_mem hm,
      slotAt_putSlot (length_slots_joinPoints _ _) (place_lt hm), ih, List.reverse_append,
      List.reverse_singleton, List.singleton_append]
    by_cases hplace : m.place metrics = (key, slot)
    · rw [if_pos (Prod.ext_iff.mp hplace), List.find?_cons_of_pos (by simpa using hplace)]
      rfl
    · rw [if_neg fun h => hplace (Prod.ext h.1 h.2),
        List.find?_cons_of_neg (by simpa using hplace)]

/-- There is a value at a place if a point has it. -/
theorem isSome_slotAt_joinPoints (hmetrics : ∀ m ∈ ms, Series.metric m.name ∈ metrics)
    (place : RowKey × Nat) :
    (slotAt (joinPoints metrics ms) place.1 place.2).isSome ↔
      place ∈ ms.map (Match.place metrics) := by
  rw [slotAt_joinPoints hmetrics, Option.isSome_map, List.find?_isSome]
  simp

/-- **A join has as many values as there are different places.** -/
theorem present_joinPoints (hmetrics : ∀ m ∈ ms, Series.metric m.name ∈ metrics) :
    present (joinPoints metrics ms) =
      ((ms.map (Match.place metrics)).reverse.dedup).length := by
  induction ms using List.reverseRecOn with
  | nil => rfl
  | append_singleton ms m ih =>
    have hm := hmetrics m (by simp)
    have hms := fun m hm => hmetrics m (List.mem_append_left _ hm)
    have hsome := isSome_slotAt_joinPoints hms (m.place metrics)
    rw [joinPoints_concat, joinPoint_of_mem hm,
      present_putSlot (length_slots_joinPoints _ _) (place_lt hm), ih hms, List.map_append,
      List.reverse_append, List.map_singleton, List.reverse_singleton, List.singleton_append]
    by_cases hplace : m.place metrics ∈ ms.map (Match.place metrics)
    · rw [if_pos (hsome.mpr hplace), List.dedup_cons_of_mem (List.mem_reverse.mpr hplace),
        Nat.add_zero]
    · rw [if_neg (mt hsome.mp hplace),
        List.dedup_cons_of_notMem (mt List.mem_reverse.mp hplace), List.length_cons]

/-- **No point is lost** if and only if no two share a place. -/
theorem present_joinPoints_eq_length_iff
    (hmetrics : ∀ m ∈ ms, Series.metric m.name ∈ metrics) :
    present (joinPoints metrics ms) = ms.length ↔ (ms.map (Match.place metrics)).Nodup := by
  rw [present_joinPoints hmetrics, ← List.nodup_reverse, ← List.dedup_eq_self]
  constructor
  · intro hlength
    exact (List.dedup_sublist _).eq_of_length (by simpa using hlength)
  · intro heq
    rw [heq]
    simp

/-- Where no two points share a place, each is found at its own. -/
theorem slotAt_place (hmetrics : ∀ m ∈ ms, Series.metric m.name ∈ metrics)
    (hplaces : (ms.map (Match.place metrics)).Nodup) {m : Match} (hm : m ∈ ms) :
    slotAt (joinPoints metrics ms) (m.place metrics).1 (m.place metrics).2 =
      some m.point.value := by
  have hfind : ms.reverse.find? (fun n => n.place metrics == m.place metrics) = some m := by
    have hsome : (ms.reverse.find? fun n => n.place metrics == m.place metrics).isSome :=
      List.find?_isSome.mpr ⟨m, List.mem_reverse.mpr hm, beq_self_eq_true (m.place metrics)⟩
    obtain ⟨n, hn⟩ := Option.isSome_iff_exists.mp hsome
    have hmem := List.mem_reverse.mp (List.mem_of_find?_eq_some hn)
    have hsame : n.place metrics = m.place metrics := by simpa using List.find?_some hn
    rw [hn, List.inj_on_of_nodup_map hplaces hmem hm hsame]
  rw [slotAt_joinPoints hmetrics, hfind, Option.map_some]

/-! ### Names -/

/-- **A canonical name** is the first word of what was normalized, a space and the tags. -/
theorem eq_token_append_tagText {text name : String} (h : Series.normalize text = some name) :
    name = Series.token text ++ " " ++ tagText name := by
  obtain ⟨hspace, tags, hname⟩ := Series.exists_of_normalize h
  have htags : tagText name = String.ofList tags := by
    rw [tagText, hname, Text.cutFirst_append hspace]
  rw [htags]
  refine String.toList_injective ?_
  simp [hname]

/-- **A name can be told from its metric and its tags** if it is canonical and the metric is
plain. -/
theorem name_eq_of_place {m n : Match} {text text' : String}
    (hm : Series.normalize text = some m.name)
    (hn : Series.normalize text' = some n.name)
    (hplain : Series.Plain (Series.token text))
    (hplain' : Series.Plain (Series.token text'))
    (hmetric : Series.metric m.name ∈ metrics)
    (hplace : m.place metrics = n.place metrics) :
    m.name = n.name := by
  obtain ⟨hkey, hslot⟩ := Prod.mk.inj hplace
  have htags : tagText m.name = tagText n.name := congrArg RowKey.text hkey
  have hsame : Series.metric m.name = Series.metric n.name := (List.idxOf_inj hmetric).mp hslot
  rw [(Series.metric_normalize_iff hm).mpr hplain,
    (Series.metric_normalize_iff hn).mpr hplain'] at hsame
  rw [eq_token_append_tagText hm, eq_token_append_tagText hn, hsame, htags]

/-! ### Points that match -/

/-- A point that matches shows one of the metrics, if the filter has any. -/
theorem metric_mem_of_mem_matching {s : Store} {f : PointFilter} (hmetrics : f.metrics ≠ [])
    {m : Match} (h : m ∈ s.matching f) : Series.metric m.name ∈ f.metrics := by
  obtain ⟨-, -, -, haccepts⟩ := mem_matching.mp h
  obtain ⟨hmetric, -⟩ := (Bool.and_eq_true _ _).mp haccepts
  simpa [hmetrics] using hmetric

/-- The name of the series and the timestamp of a point. -/
def pointKey (s : Store) (p : Point) : Option String × Timestamp :=
  (s.name? p.series, p.timestamp)

/-- Points that differ in series or timestamp match with different keys. -/
theorem nodup_keys_matching {s : Store} (h : (s.points.map s.pointKey).Nodup) (f : PointFilter) :
    ((s.matching f).map Match.key).Nodup := by
  rw [matching_eq]
  refine List.pairwise_map.mpr (List.pairwise_filterMap.mpr ?_)
  refine (List.pairwise_map.mp h).imp fun {p q} hne m hm n hn heq => hne ?_
  obtain ⟨rfl, hname, -⟩ := matchAt?_eq_some.mp hm
  obtain ⟨rfl, hname', -⟩ := matchAt?_eq_some.mp hn
  obtain ⟨hsame, htimestamp⟩ := RowKey.mk.inj heq
  rw [pointKey, pointKey, hname, hname', hsame, htimestamp]

/-- **Joinable** points: those of different series do not share a place. -/
def Joinable (metrics : List String) (ms : List Match) : Prop :=
  ∀ m ∈ ms, ∀ n ∈ ms, m.place metrics = n.place metrics → m.name = n.name

/-- No two points share a place if those of one series differ in timestamp, and those of
different series do not share a place. -/
theorem nodup_places_iff (hkeys : (ms.map Match.key).Nodup) :
    (ms.map (Match.place metrics)).Nodup ↔ Joinable metrics ms := by
  constructor
  · intro hplaces m hm n hn hplace
    rw [List.inj_on_of_nodup_map hplaces hm hn hplace]
  · intro hjoinable
    refine (List.nodup_map_iff_inj_on hkeys.of_map).mpr fun m hm n hn hplace => ?_
    refine List.inj_on_of_nodup_map hkeys hm hn ?_
    have htimestamp := congrArg (fun place => place.1.timestamp) hplace
    exact congrArg₂ RowKey.mk (hjoinable m hm n hn hplace) htimestamp

/-- **Points of canonical names with plain metrics are joinable.** -/
theorem joinable_of_plain (hmetrics : ∀ m ∈ ms, Series.metric m.name ∈ metrics)
    (hplain : ∀ m ∈ ms, ∃ text, Series.normalize text = some m.name ∧
      Series.Plain (Series.token text)) :
    Joinable metrics ms := by
  intro m hm n hn hplace
  obtain ⟨text, hname, htext⟩ := hplain m hm
  obtain ⟨text', hname', htext'⟩ := hplain n hn
  exact name_eq_of_place hname hname' htext htext' (hmetrics m hm) hplace

/-! ### Records -/

/-- The slots of a record, if it has any. -/
def recordSlots : Record → List (Option Double)
  | .tuple _ _ slots => slots
  | _ => []

theorem recordSlots_registerAll (s : Store) (rows : List JoinRow) :
    (registerAll (registerJoin metrics) s rows).1.flatMap recordSlots =
      rows.flatMap JoinRow.slots := by
  induction rows generalizing s with
  | nil => rfl
  | cons row rows ih => exact congrArg (row.slots ++ ·) (ih _)

/-- Each row of a join has its record, under the name of all metrics and the tags of the row. -/
theorem exists_record_of_mem {s : Store} {rows : List JoinRow} {row : JoinRow}
    (hcount : (registerAll (registerJoin metrics) s rows).2.Countable) (hrow : row ∈ rows) :
    ∃ id, .tuple id row.key.timestamp row.slots ∈ (registerAll (registerJoin metrics) s rows).1 ∧
      (registerAll (registerJoin metrics) s rows).2.name? id =
        some (joinName metrics row.key.text) := by
  induction rows generalizing s with
  | nil => cases hrow
  | cons first rows ih =>
    rcases List.mem_cons.mp hrow with rfl | hrow
    · have hgrows := grows_registerAll (grows_registerJoin metrics)
        (registerJoin metrics s row).2 rows
      have hname := name?_register (.of_grows hgrows hcount)
      exact ⟨_, List.mem_cons_self, hgrows.name? hname⟩
    · obtain ⟨id, hid, hname⟩ := ih hcount hrow
      exact ⟨id, List.mem_cons_of_mem _ hid, hname⟩

/-- **A join keeps the points it matches** if and only if those of different series do not share
a place: tags, timestamp and the metric that the name shows. Then the rows have as many values as
there are points, and each point is found in the row of its tags and its timestamp, in the slot
of its metric. Points of canonical names with plain metrics do not share a place. -/
theorem query_of_join {s : Store} {j : Json} {f : PointFilter} {o : Output}
    (hplan : Plan.ofJson j = .ok (.join f o))
    (hlimit : o.limit = none)
    (hoffset : o.offset = 0)
    (hkeys : (s.points.map s.pointKey).Nodup)
    (hcount : (s.query (some j)).2.Countable) :
    ∃ records s', s.query (some j) = (.ok records, s') ∧
      (filled (records.flatMap recordSlots) = (s.matching f).length ↔
        Joinable f.metrics (s.matching f)) ∧
      (Joinable f.metrics (s.matching f) → ∀ m ∈ s.matching f, ∃ id slots,
        .tuple id m.point.timestamp slots ∈ records ∧
        s'.name? id = some (joinName f.metrics (tagText m.name)) ∧
        slots[f.metrics.idxOf (Series.metric m.name)]? = some (some m.point.value)) ∧
      ((∀ m ∈ s.matching f, ∃ text, Series.normalize text = some m.name ∧
        Series.Plain (Series.token text)) → Joinable f.metrics (s.matching f)) := by
  have hmetrics : ∀ m ∈ s.matching f, Series.metric m.name ∈ f.metrics := fun m hm =>
    metric_mem_of_mem_matching (Plan.metrics_of_ofJson hplan).1 hm
  have hquery : s.query (some j) = (.ok (s.join f o).1, (s.join f o).2) := by
    rw [query, hplan]
    rfl
  have hpage : o.page (s.joinRows f o) = s.joinRows f o := by
    rw [Output.page, hlimit, hoffset, List.drop_zero]
  have hperm : (s.joinRows f o).Perm (joinPoints f.metrics (s.matching f)) :=
    List.mergeSort_perm _ _
  have hplaces : ((s.matching f).map (Match.place f.metrics)).Nodup ↔
      Joinable f.metrics (s.matching f) := nodup_places_iff (nodup_keys_matching hkeys f)
  rw [hquery, join, hpage] at hcount
  rw [hquery, join, hpage]
  refine ⟨_, _, rfl, ?_, fun hjoinable m hm => ?_, joinable_of_plain hmetrics⟩
  · have hpresent : present (s.joinRows f o) = present (joinPoints f.metrics (s.matching f)) :=
      (hperm.flatMap_right _).countP_eq _
    rw [recordSlots_registerAll, ← present, hpresent, present_joinPoints_eq_length_iff hmetrics, hplaces]
  · obtain ⟨row, hrow, hkey, hslot⟩ :=
      exists_row_of_slotAt (slotAt_place hmetrics (hplaces.mpr hjoinable) hm)
    obtain ⟨id, hid, hname⟩ := exists_record_of_mem hcount (hperm.mem_iff.mpr hrow)
    rw [hkey] at hid hname
    exact ⟨id, row.slots, hid, hname, hslot⟩

/-- Two metrics at one timestamp fill the two slots of one row. -/
theorem query_of_join_two_metrics :
    let s := ofSeries ["m host=a", "n host=a"]
      [⟨1, 5, Double.ofWord 1⟩, ⟨2, 5, Double.ofWord 2⟩]
    let j := Query.document ⟨.join ["m", "n"], { range := ⟨some 0, none⟩ }⟩
    ∃ records s', s.query (some j) = (.ok records, s') ∧
      filled (records.flatMap recordSlots) = 2 := by
  intro s j
  have hplan : Plan.ofJson j = .ok (.join ⟨["m", "n"], ⟨some 0, none⟩, none⟩ {}) := rfl
  have hmatching : s.matching ⟨["m", "n"], ⟨some 0, none⟩, none⟩ =
      [⟨"m host=a", ⟨1, 5, Double.ofWord 1⟩⟩, ⟨"n host=a", ⟨2, 5, Double.ofWord 2⟩⟩] := by
    decide +kernel
  have hplain : ∀ m ∈ s.matching ⟨["m", "n"], ⟨some 0, none⟩, none⟩, ∃ text,
      Series.normalize text = some m.name ∧ Series.Plain (Series.token text) := by
    rw [hmatching]
    intro m hm
    rcases List.mem_cons.mp hm with rfl | hm
    · exact ⟨"m host=a", Series.normalize_of_words ['m'] "host=a".toList ⟨"host", "a"⟩ rfl rfl,
        by decide⟩
    · obtain rfl := List.mem_singleton.mp hm
      exact ⟨"n host=a", Series.normalize_of_words ['n'] "host=a".toList ⟨"host", "a"⟩ rfl rfl,
        by decide⟩
  have hcount : (s.query (some j)).2.Countable := by
    have hrows : (s.matching ⟨["m", "n"], ⟨some 0, none⟩, none⟩).foldl (joinPoint ["m", "n"]) [] =
        [⟨⟨"host=a", 5⟩, [some (Double.ofWord 1), some (Double.ofWord 2)]⟩] := by decide +kernel
    rw [query, hplan]
    dsimp only [answer, join, joinRows]
    rw [hrows, List.mergeSort_singleton]
    decide +kernel
  obtain ⟨records, s', hquery, hlength, -, hjoinable⟩ :=
    query_of_join hplan rfl rfl (by decide +kernel) hcount
  refine ⟨records, s', hquery, (hlength.mpr (hjoinable hplain)).trans ?_⟩
  rw [hmatching]
  rfl

/-- The points of `m` and of `m:max` share a place, and the earlier of them is lost. -/
theorem query_of_join_max :
    let s := ofSeries ["m host=a", "m:max host=a"]
      [⟨1, 5, Double.ofWord 1⟩, ⟨2, 5, Double.ofWord 2⟩]
    let f : PointFilter := ⟨["m", "m:max"], ⟨some 0, none⟩, none⟩
    let j := Query.document ⟨.join ["m", "m:max"], { range := ⟨some 0, none⟩ }⟩
    let records : List Record := [.tuple 3 5 [some (Double.ofWord 2), none]]
    Query.build (.join ["m", "m:max"]) [.start 0] =
      .ok ⟨.join ["m", "m:max"], { range := ⟨some 0, none⟩ }⟩ ∧
      (∀ name ∈ s.names, Series.normalize name = some name) ∧
      (s.points.map s.pointKey).Nodup ∧
      (s.query (some j)).1 = .ok records ∧
      (s.matching f).length = 2 ∧ filled (records.flatMap recordSlots) = 1 := by
  intro s f j records
  have hplan : Plan.ofJson j = .ok (.join f {}) := rfl
  have hrows : (s.matching f).foldl (joinPoint f.metrics) [] =
      [⟨⟨"host=a", 5⟩, [some (Double.ofWord 2), none]⟩] := by decide +kernel
  refine ⟨rfl, ?_, by decide +kernel, ?_, by decide +kernel, rfl⟩
  · intro name hname
    rcases List.mem_cons.mp hname with rfl | hname
    · exact Series.normalize_of_words ['m'] "host=a".toList ⟨"host", "a"⟩ rfl rfl
    · obtain rfl := List.mem_singleton.mp hname
      exact Series.normalize_of_words "m:max".toList "host=a".toList ⟨"host", "a"⟩ rfl rfl
  · rw [query, hplan]
    dsimp only [answer, join, joinRows]
    rw [hrows, List.mergeSort_singleton]
    decide +kernel

end TimeSeries.Store
