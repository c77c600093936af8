import Mathlib.Data.List.Forall2
import TimeSeries.Proofs.Store.JoinPlaces
import TimeSeries.Proofs.Store.SelectAnswer

/-!
# What a join answers

A join puts points side by side: there is one row for each pair of tags and timestamp that a point
has which matches, and in the row one slot for each of the metrics that are asked for. The tags are
what follows the first space of a name (`Store.TagsOf`). A slot has the value of the last written of
the points that belong there (`Store.Holds`). A metric that is asked for twice has its points in the
first of its slots only. The rows are put in order, a page of them is cut out, and their names are
registered: the metrics with `|` between them, a space and the tags (`Store.NameOf`).

Main result: `Store.rows_of_join`.
-/

namespace TimeSeries

namespace Store

/-! ### Names and tags -/

/-- **The tags of a name** as a text: what follows its first space, and nothing if it has none. -/
def TagsOf (name tags : String) : Prop :=
  (∃ head, ' ' ∉ head ∧ name.toList = head ++ ' ' :: tags.toList) ∨
    ' ' ∉ name.toList ∧ tags = ""

theorem tagText_eq_iff {name tags : String} : tagText name = tags ↔ TagsOf name tags := by
  rw [tagText]
  cases hcut : Text.cutFirst ' ' name.toList with
  | none =>
    have hspace := Text.cutFirst_eq_none.mp hcut
    constructor
    · rintro rfl
      exact .inr ⟨hspace, rfl⟩
    · rintro (⟨head, -, hname⟩ | ⟨-, rfl⟩)
      · exact absurd (by rw [hname]; simp) hspace
      · rfl
  | some cut =>
    obtain ⟨head, after⟩ := cut
    obtain ⟨hname, hhead⟩ := Text.cutFirst_eq_some hcut
    constructor
    · rintro rfl
      exact .inl ⟨head, hhead, by rw [String.toList_ofList, hname]⟩
    · rintro (⟨head', hhead', hname'⟩ | ⟨hspace, -⟩)
      · -- there is one first space only
        rw [hname', Text.cutFirst_append hhead'] at hcut
        cases hcut
        exact String.ofList_toList
      · exact absurd (by rw [hname]; simp) hspace

/-- **The name of a joined row**: the metrics with `|` between them, a space and the tags. -/
def NameOf (metrics : List String) (tags name : String) : Prop :=
  name.toList = ['|'].intercalate (metrics.map String.toList) ++ ' ' :: tags.toList

theorem nameOf_joinName (metrics : List String) (tags : String) :
    NameOf metrics tags (joinName metrics tags) := by
  simp [NameOf, joinName]

/-- There is one such name, `joinName`. -/
theorem NameOf.eq_joinName {metrics : List String} {tags name : String}
    (h : NameOf metrics tags name) : name = joinName metrics tags :=
  String.toList_inj.mp (h.trans (nameOf_joinName metrics tags).symm)

/-! ### Rows and their keys -/

section Keys

variable {metrics : List String} {ms : List Match} {rows : List JoinRow}

/-- A row is begun by `putSlot` at a key where there was none. -/
theorem keys_putSlot (width : Nat) (key : RowKey) (slot : Nat) (value : Double)
    (rows : List JoinRow) :
    (putSlot width key slot value rows).map JoinRow.key =
      if key ∈ rows.map JoinRow.key then rows.map JoinRow.key
      else rows.map JoinRow.key ++ [key] := by
  induction rows with
  | nil => rfl
  | cons row rows ih =>
    rw [putSlot]
    by_cases hkey : row.key = key
    · rw [if_pos hkey, List.map_cons, if_pos (hkey ▸ List.mem_cons_self), List.map_cons]
    · rw [if_neg hkey, List.map_cons, ih, List.map_cons]
      by_cases hmem : key ∈ rows.map JoinRow.key
      · rw [if_pos hmem, if_pos (List.mem_cons_of_mem _ hmem)]
      · rw [if_neg hmem, if_neg (by simpa [Ne.symm hkey] using hmem), List.cons_append]

theorem mem_keys_putSlot {width slot : Nat} {key k : RowKey} {value : Double} :
    k ∈ (putSlot width key slot value rows).map JoinRow.key ↔
      k ∈ rows.map JoinRow.key ∨ key = k := by
  rw [keys_putSlot]
  split
  next hmem =>
    refine ⟨.inl, ?_⟩
    rintro (hk | rfl)
    · exact hk
    · exact hmem
  next => rw [List.mem_append, List.mem_singleton, eq_comm]

theorem nodup_keys_putSlot {width slot : Nat} {key : RowKey} {value : Double}
    (hnodup : (rows.map JoinRow.key).Nodup) :
    ((putSlot width key slot value rows).map JoinRow.key).Nodup := by
  rw [keys_putSlot]
  split
  · exact hnodup
  next hmem =>
    rw [← List.concat_eq_append]
    exact hnodup.concat hmem

/-- **One row of `joinPoints` for each key** that a point has. -/
theorem keys_joinPoints (hmetrics : ∀ m ∈ ms, Series.metric m.name ∈ metrics) :
    ((joinPoints metrics ms).map JoinRow.key).Nodup ∧
      ∀ key, key ∈ (joinPoints metrics ms).map JoinRow.key ↔
        ∃ m ∈ ms, (m.place metrics).1 = key := by
  induction ms using List.reverseRecOn with
  | nil => exact ⟨List.nodup_nil, fun key => by simp [joinPoints]⟩
  | append_singleton ms m ih =>
    have hm := hmetrics m (by simp)
    obtain ⟨hnodup, hkeys⟩ := ih fun m hm => hmetrics m (List.mem_append_left _ hm)
    rw [joinPoints_concat, joinPoint_of_mem hm]
    refine ⟨nodup_keys_putSlot hnodup, fun key => ?_⟩
    rw [mem_keys_putSlot, hkeys]
    simp only [List.mem_append, List.mem_singleton, or_and_right, exists_or, exists_eq_left]

/-- The slots of a row are what `slotAt` finds at its key, if no other row has that key. -/
theorem slotAt_of_mem (hnodup : (rows.map JoinRow.key).Nodup) {row : JoinRow} (hrow : row ∈ rows)
    (slot : Nat) : slotAt rows row.key slot = row.slots[slot]?.join := by
  induction rows with
  | nil => cases hrow
  | cons first rows ih =>
    obtain ⟨hfirst, hnodup⟩ := List.nodup_cons.mp hnodup
    rw [slotAt_cons]
    rcases List.mem_cons.mp hrow with rfl | hrow
    · rw [if_pos rfl]
    · have hne : first.key ≠ row.key := fun h => hfirst (h ▸ List.mem_map_of_mem hrow)
      rw [if_neg hne, ih hnodup hrow]

end Keys

/-! ### The last written point -/

/-- What `find?` gives from the end of a list comes after all others that are alike. -/
theorem last_of_find?_reverse {α : Type} {R : α → α → Prop} {p : α → Bool} {l : List α} {b : α}
    (hR : l.Pairwise R) (hfind : l.reverse.find? p = some b) :
    b ∈ l ∧ p b = true ∧ ∀ a ∈ l, p a = true → a = b ∨ R a b := by
  obtain ⟨hb, later, earlier, hsplit, hlater⟩ := List.find?_eq_some_iff_append.mp hfind
  have hl : l = earlier.reverse ++ b :: later.reverse := by
    rw [← List.reverse_reverse l, hsplit]
    simp
  rw [hl] at hR ⊢
  refine ⟨by simp, hb, fun a ha hpa => ?_⟩
  rcases List.mem_append.mp ha with ha | ha
  · exact .inr ((List.pairwise_append.mp hR).2.2 a ha b List.mem_cons_self)
  · rcases List.mem_cons.mp ha with rfl | ha
    · exact .inl rfl
    · have hne := hlater a (List.mem_reverse.mp ha)
      rw [hpa] at hne
      cases hne

variable {s : Store} {f : PointFilter}

/-- **A point belongs** to a slot of the row at a key: it `Matches`, has the tags and the timestamp
of the key, and the slot is the first one of its metric. It comes with its number. -/
structure Belongs (s : Store) (f : PointFilter) (key : RowKey) (slot : Nat) (e : Match × Nat) :
    Prop where
  /-- it is the point with this number -/
  point : s.points[e.2]? = some e.1.point
  /-- it matches -/
  matched : s.Matches f e.1
  /-- the tags are those of the key -/
  tags : TagsOf e.1.name key.text
  /-- the timestamp is that of the key -/
  timestamp : e.1.point.timestamp = key.timestamp
  /-- the slot is one of its metric -/
  metric : f.metrics[slot]? = some (Series.metric e.1.name)
  /-- and no slot before it is -/
  first : ∀ j < slot, f.metrics[j]? ≠ some (Series.metric e.1.name)

/-- **What a slot holds**: nothing if no point `Belongs` to it, and else the value of the one that
was written last. -/
def Holds (s : Store) (f : PointFilter) (key : RowKey) (slot : Nat) : Option Double → Prop
  | none => ∀ e, ¬s.Belongs f key slot e
  | some value => ∃ e, s.Belongs f key slot e ∧ e.1.point.value = value ∧
      ∀ e', s.Belongs f key slot e' → e'.2 ≤ e.2

/-- The first index of a metric, `idxOf`. -/
theorem idxOf_eq_iff {metrics : List String} {metric : String} (h : metric ∈ metrics)
    (slot : Nat) : metrics.idxOf metric = slot ↔
      metrics[slot]? = some metric ∧ ∀ j < slot, metrics[j]? ≠ some metric := by
  have hfound : metrics[metrics.idxOf metric]? = some metric := by
    rw [List.getElem?_eq_getElem (List.idxOf_lt_length_iff.mpr h), List.getElem_idxOf]
  have hbefore : ∀ j < metrics.idxOf metric, metrics[j]? ≠ some metric := by
    intro j hj hget
    obtain ⟨hlength, hget⟩ := List.getElem?_eq_some_iff.mp hget
    have hne := List.not_of_lt_findIdx hj
    rw [hget, beq_self_eq_true] at hne
    cases hne
  constructor
  · rintro rfl
    exact ⟨hfound, hbefore⟩
  · rintro ⟨hslot, hfirst⟩
    obtain hlt | heq | hgt := Nat.lt_trichotomy (metrics.idxOf metric) slot
    · exact absurd hfound (hfirst _ hlt)
    · exact heq
    · exact absurd hslot (hbefore slot hgt)

theorem belongs_iff (hmetrics : f.metrics ≠ []) {key : RowKey} {slot : Nat} {e : Match × Nat} :
    s.Belongs f key slot e ↔ e ∈ s.numbered f ∧ e.1.place f.metrics = (key, slot) := by
  rw [show e = (e.1, e.2) from rfl, mem_numbered hmetrics, Match.place, Prod.mk.injEq]
  constructor
  · intro h
    refine ⟨⟨h.point, h.matched⟩, ?_, (idxOf_eq_iff h.matched.metric _).mpr ⟨h.metric, h.first⟩⟩
    rw [tagText_eq_iff.mpr h.tags, h.timestamp]
  · rintro ⟨⟨hpoint, hmatches⟩, rfl, hslot⟩
    obtain ⟨hmetric, hfirst⟩ := (idxOf_eq_iff hmatches.metric slot).mp hslot
    exact ⟨hpoint, hmatches, tagText_eq_iff.mp rfl, rfl, hmetric, hfirst⟩

/-- **What the rows of `joinPoints` hold.** -/
theorem holds_joinPoints (hmetrics : f.metrics ≠ []) {row : JoinRow}
    (hrow : row ∈ joinPoints f.metrics (s.matching f)) {k : Nat} {slot : Option Double}
    (hslot : row.slots[k]? = some slot) : s.Holds f row.key k slot := by
  have hmatching : ∀ m ∈ s.matching f, Series.metric m.name ∈ f.metrics :=
    fun m hm => metric_mem_of_mem_matching hmetrics hm
  have hfound : slot = ((s.numbered f).reverse.find? fun e =>
      e.1.place f.metrics == (row.key, k)).map fun e => e.1.point.value := by
    have hat := slotAt_of_mem (keys_joinPoints hmatching).1 hrow k
    rw [hslot, Option.join_some, slotAt_joinPoints hmatching, ← map_fst_numbered,
      ← List.map_reverse, List.find?_map, Option.map_map] at hat
    exact hat.symm
  have hplace : ∀ e, s.Belongs f row.key k e ↔
      e ∈ s.numbered f ∧ (e.1.place f.metrics == (row.key, k)) = true := by
    intro e
    rw [belongs_iff hmetrics, beq_iff_eq]
  cases hfind : (s.numbered f).reverse.find? fun e => e.1.place f.metrics == (row.key, k) with
  | none =>
    rw [hfind] at hfound
    subst hfound
    intro e he
    obtain ⟨hmem, hat⟩ := (hplace e).mp he
    exact List.find?_eq_none.mp hfind e (List.mem_reverse.mpr hmem) hat
  | some e =>
    rw [hfind] at hfound
    subst hfound
    obtain ⟨hmem, hat, hlast⟩ := last_of_find?_reverse (pairwise_numbered s f) hfind
    refine ⟨e, (hplace e).mpr ⟨hmem, hat⟩, rfl, fun e' he' => ?_⟩
    obtain ⟨hmem', hat'⟩ := (hplace e').mp he'
    obtain rfl | hlt := hlast e' hmem' hat'
    · exact Nat.le_refl _
    · exact Nat.le_of_lt hlt

/-! ### The rows in order -/

/-- No two of the `joinRows` have the same key. -/
theorem nodup_keys_joinRows (hmetrics : f.metrics ≠ []) (o : Output) :
    ((s.joinRows f o).map JoinRow.key).Nodup := by
  have hperm : (s.joinRows f o).Perm (joinPoints f.metrics (s.matching f)) :=
    List.mergeSort_perm _ _
  have hkeys : ((joinPoints f.metrics (s.matching f)).map JoinRow.key).Nodup :=
    (keys_joinPoints fun m hm => metric_mem_of_mem_matching hmetrics hm).1
  exact (hperm.map JoinRow.key).nodup_iff.mpr hkeys

/-- **The `joinRows` are in order.** -/
theorem pairwise_joinRows (hmetrics : f.metrics ≠ []) (o : Output) :
    (s.joinRows f o).Pairwise fun a b => a.key.Before f.range o.order b.key := by
  have htrans : ∀ a b c : JoinRow, RowKey.le f.range o.order a.key b.key = true →
      RowKey.le f.range o.order b.key c.key = true → RowKey.le f.range o.order a.key c.key = true :=
    fun a b c => RowKey.le_trans f.range o.order a.key b.key c.key
  have htotal : ∀ a b : JoinRow,
      (RowKey.le f.range o.order a.key b.key || RowKey.le f.range o.order b.key a.key) = true :=
    fun a b => RowKey.le_total f.range o.order a.key b.key
  have hordered : (s.joinRows f o).Pairwise fun a b =>
      RowKey.le f.range o.order a.key b.key = true := List.pairwise_mergeSort htrans htotal _
  refine (hordered.and (List.pairwise_map.mp (nodup_keys_joinRows hmetrics o))).imp ?_
  rintro a b ⟨hle, hne⟩
  exact ((RowKey.le_iff_before f.range o.order a.key b.key).mp hle).resolve_right hne

/-! ### Records -/

/-- **The record of a joined row**, in the store that the answer leaves: a tuple of its slots, of
which just those with a value are marked as present, under the name of all metrics and the tags. -/
structure Tells (s : Store) (metrics : List String) (row : JoinRow) (r : Record) : Prop where
  /-- it is a tuple of the slots -/
  tuple : ∃ id, r = .tuple id row.key.timestamp row.slots
  /-- its bytes tell the slots that have a value from those that have none -/
  present : ∃ h, Header.parse r.encode = .ok h ∧
    SlotMap.slots h.value = row.slots.map Option.isSome
  /-- it is read as a row with the name of the metrics and the tags -/
  read : ∃ name, NameOf metrics row.key.text name ∧
    readAlone s.name? r.encode = .ok ⟨some name, some row.key.timestamp,
      row.slots.map fun slot => slot.getD Double.nan⟩

theorem tells_of_name? {metrics : List String} {row : JoinRow} {id : SeriesId}
    (hwidth : row.slots.length ≤ maxSlots)
    (hname : s.name? id = some (joinName metrics row.key.text)) :
    s.Tells metrics row (.tuple id row.key.timestamp row.slots) := by
  have hencodable : (Record.tuple id row.key.timestamp row.slots).Encodable := hwidth
  exact ⟨⟨id, rfl⟩, ⟨_, Record.parse_encode hencodable, Record.slots_slotMap hwidth⟩,
    _, nameOf_joinName metrics row.key.text, readAlone_of_resolve hencodable hname⟩

/-- **Each row has its record** in `registerAll`, made by a step whose names are still there in the
end. -/
theorem forall₂_registerAll {α : Type} {step : Store → α → Record × Store}
    (hgrows : ∀ (s : Store) (row : α), s.Grows (step s row).2) (s : Store) (rows : List α) :
    List.Forall₂ (fun row r => ∃ earlier : Store, (step earlier row).1 = r ∧
        (step earlier row).2.Grows (registerAll step s rows).2)
      rows (registerAll step s rows).1 := by
  induction rows generalizing s with
  | nil => exact .nil
  | cons row rows ih =>
    exact .cons ⟨s, rfl, grows_registerAll hgrows (step s row).2 rows⟩ (ih (step s row).2)

theorem tells_registerAll {metrics : List String} {rows : List JoinRow}
    (hwidth : ∀ row ∈ rows, row.slots.length ≤ maxSlots) (s : Store)
    (hcount : (registerAll (registerJoin metrics) s rows).2.Countable) :
    List.Forall₂ ((registerAll (registerJoin metrics) s rows).2.Tells metrics) rows
      (registerAll (registerJoin metrics) s rows).1 := by
  have hrecords := forall₂_registerAll (grows_registerJoin metrics) s rows
  refine ((List.forall₂_and_left rows _).mpr ⟨hwidth, hrecords⟩).imp ?_
  rintro row _ ⟨hslots, earlier, rfl, hgrows⟩
  exact tells_of_name? hslots (hgrows.name? (name?_register (.of_grows hgrows hcount)))

end Store

/-! ### Documents of joins -/

/-- A join asks for the metrics that its document lists, and has no filters. -/
theorem Plan.texts_of_ofJson {j : Json} {f : PointFilter} {o : Output}
    (h : Plan.ofJson j = .ok (.join f o)) :
    (∃ root, j.object? = some root ∧
      Json.field? root "join" = some (.array (f.metrics.map .text))) ∧ o.filters = [] := by
  obtain ⟨root, rfl, -, hform⟩ := form_of_ofJson h
  cases hform with
  | join _ hjoin _ _ _ _ hunfiltered => exact ⟨⟨root, rfl, hjoin⟩, hunfiltered⟩

namespace Store

theorem mem_matching_iff_matches {s : Store} {f : PointFilter} (hmetrics : f.metrics ≠ [])
    {m : Match} : m ∈ s.matching f ↔ m.point ∈ s.points ∧ s.Matches f m := by
  rw [matching_eq, List.mem_filterMap]
  constructor
  · rintro ⟨p, hp, hm⟩
    obtain ⟨rfl, hmatches⟩ := (matchAt?_iff_matches hmetrics).mp hm
    exact ⟨hp, hmatches⟩
  · rintro ⟨hp, hmatches⟩
    exact ⟨m.point, hp, (matchAt?_iff_matches hmetrics).mpr ⟨rfl, hmatches⟩⟩

/-- **What a join answers.** Before paging there is one row for each pair of tags and timestamp that
a matching point has, and no other, in the order of these pairs. A row has one slot for each of the
metrics, from one up to as many as a record has room for, and each slot holds the value of the last
written of the points that belong to it. The records are those of a page of the rows, and are read
as rows under the name that is made of the metrics and the tags. -/
theorem rows_of_join {s : Store} {j : Json} {f : PointFilter} {o : Output}
    (hplan : Plan.ofJson j = .ok (.join f o)) (hcount : (s.query (some j)).2.Countable) :
    (∃ root, j.object? = some root ∧
      Json.field? root "join" = some (.array (f.metrics.map .text))) ∧ o.filters = [] ∧
    f.metrics ≠ [] ∧ f.metrics.length ≤ maxSlots ∧
    ∃ rows : List JoinRow, (rows.map JoinRow.key).Nodup ∧
      (rows.Pairwise fun a b => a.key.Before f.range o.order b.key) ∧
      (∀ key, (∃ row ∈ rows, row.key = key) ↔
        ∃ m, m.point ∈ s.points ∧ s.Matches f m ∧ TagsOf m.name key.text ∧
          m.point.timestamp = key.timestamp) ∧
      (∀ row ∈ rows, row.slots.length = f.metrics.length ∧
        ∀ k slot, row.slots[k]? = some slot → s.Holds f row.key k slot) ∧
      ∃ records s', s.query (some j) = (.ok records, s') ∧
        List.Forall₂ (s'.Tells f.metrics)
          ((rows.drop o.offset).take (o.limit.getD rows.length)) records := by
  obtain ⟨hdocument, hfilters⟩ := Plan.texts_of_ofJson hplan
  obtain ⟨hmetrics, hnarrow⟩ := Plan.metrics_of_ofJson hplan
  have hquery : s.query (some j) = (.ok (s.join f o).1, (s.join f o).2) := by
    rw [query, hplan]
    rfl
  have hperm : (s.joinRows f o).Perm (joinPoints f.metrics (s.matching f)) :=
    List.mergeSort_perm _ _
  have hwidth := length_slots_joinRows s f o
  rw [hquery, join] at hcount
  refine ⟨hdocument, hfilters, hmetrics, hnarrow, s.joinRows f o, nodup_keys_joinRows hmetrics o,
    pairwise_joinRows hmetrics o, fun key => ?_,
    fun row hrow => ⟨hwidth row hrow, fun k slot hslot => ?_⟩, _, _, hquery, ?_⟩
  · have hkeys : key ∈ (joinPoints f.metrics (s.matching f)).map JoinRow.key ↔
        ∃ m ∈ s.matching f, (m.place f.metrics).1 = key :=
      (keys_joinPoints fun m hm => metric_mem_of_mem_matching hmetrics hm).2 key
    rw [← (hperm.map JoinRow.key).mem_iff, List.mem_map] at hkeys
    obtain ⟨text, timestamp⟩ := key
    rw [hkeys]
    simp only [mem_matching_iff_matches hmetrics, Match.place, RowKey.mk.injEq, and_assoc,
      tagText_eq_iff]
  · exact holds_joinPoints hmetrics (hperm.mem_iff.mp hrow) hslot
  · rw [← page_eq]
    refine tells_registerAll (fun row hrow => ?_) s hcount
    rw [hwidth row (mem_of_mem_page hrow)]
    exact hnarrow

/-- A metric that is asked for twice, a point that is no number and one that is written again. -/
theorem rows_of_join_repeated :
    let s := ofSeries ["m host=a", "n host=a", "m host=b"]
      [⟨1, 5, Double.ofWord 1⟩, ⟨2, 5, Double.nan⟩, ⟨3, 5, Double.ofWord 3⟩,
        ⟨1, 5, Double.ofWord 4⟩]
    let j : Json := .object [("join", .array [.text "m", .text "n", .text "m"])]
    let f : PointFilter := ⟨["m", "n", "m"], {}, none⟩
    Plan.ofJson j = .ok (.join f {}) ∧ (s.query (some j)).2.Countable ∧
      ∃ (rows : List JoinRow) (records : List Record) (s' : Store),
        rows.map JoinRow.slots = [[some (Double.ofWord 4), some Double.nan, none],
          [some (Double.ofWord 3), none, none]] ∧
        (∀ row ∈ rows, ∀ k slot, row.slots[k]? = some slot → s.Holds f row.key k slot) ∧
        s.query (some j) = (.ok records, s') ∧ List.Forall₂ (s'.Tells f.metrics) rows records ∧
        (records.map fun r => (readAlone s'.name? r.encode).map Row.series) =
          [.ok (some "m|n|m host=a"), .ok (some "m|n|m host=b")] := by
  intro s j f
  have hplan : Plan.ofJson j = .ok (.join f {}) := by decide +kernel
  have hbegun : joinPoints f.metrics (s.matching f) =
      [⟨⟨"host=a", 5⟩, [some (Double.ofWord 4), some Double.nan, none]⟩,
        ⟨⟨"host=b", 5⟩, [some (Double.ofWord 3), none, none]⟩] := by decide +kernel
  have hrows : s.joinRows f {} = joinPoints f.metrics (s.matching f) := by
    refine List.mergeSort_of_pairwise (l := joinPoints f.metrics (s.matching f)) ?_
    rw [hbegun]
    decide +kernel
  have hquery : s.query (some j) = (.ok
      [.tuple 4 5 [some (Double.ofWord 4), some Double.nan, none],
        .tuple 5 5 [some (Double.ofWord 3), none, none]],
      (s.addName "m|n|m host=a").addName "m|n|m host=b") := by
    rw [query, hplan]
    dsimp only [answer, join]
    rw [hrows, hbegun]
    decide +kernel
  have hcount : (s.query (some j)).2.Countable := by
    rw [hquery]
    decide +kernel
  obtain ⟨-, -, -, -, rows, -, -, -, hholds, records, s', hanswer, htells⟩ :=
    rows_of_join hplan hcount
  have hpage : (rows.drop 0).take rows.length = rows := List.take_length
  rw [show (rows.drop ({} : Output).offset).take (({} : Output).limit.getD rows.length) = rows
    from hpage] at htells
  refine ⟨hplan, hcount, rows, records, s', ?_, fun row hrow => (hholds row hrow).2, hanswer,
    htells, ?_⟩
  · rw [hquery] at hanswer
    cases hanswer
    cases htells with
    | cons hfirst htells =>
      cases htells with
      | cons hsecond htells =>
        cases htells
        obtain ⟨_, hfirst⟩ := hfirst.tuple
        obtain ⟨_, hsecond⟩ := hsecond.tuple
        rw [List.map_cons, List.map_cons, ← (Record.tuple.inj hfirst).2.2,
          ← (Record.tuple.inj hsecond).2.2, List.map_nil]
  · rw [hquery] at hanswer
    cases hanswer
    decide +kernel

end Store

end TimeSeries
