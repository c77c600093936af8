import TimeSeries.Proofs.Client.EquivalentStores
import TimeSeries.Proofs.Client.MetricLookup
import TimeSeries.Proofs.Client.Reordering
import TimeSeries.Proofs.Engine.Coherence

/-!
# Stores in lockstep

A write enlists its series before its point is tried, so that one that is given up leaves a name
behind, of which there may be no point: a stray. Two stores stand side by side if the first lists at
most a stray more than the second, and the same was written to both (`Store.Beside`). Whatever is
written to both or asked of both, they stand side by side after it, and their answers are read as
the same items, one after another, but for the ids of series that have no name. Only a listing may
have one item more, in its place: that of the stray (`Store.Beside.items_answer`).
-/

namespace TimeSeries

open Cursor

/-! ### Lists with a stray -/

/-- **A stray at most**: `names` has the members of `names'`, in whatever order, and perhaps one
more that `names'` has not. -/
def Astray (stray : Option String) (names names' : List String) : Prop :=
  names.Perm names' ∨ ∃ name ∈ stray, name ∉ names' ∧ names.Perm (name :: names')

namespace Astray

variable {stray : Option String} {names names' : List String}

/-- A name is added to both, unless it is there, and they stay `Astray`. -/
theorem add (h : Astray stray names names') (name : String) :
    Astray stray (if name ∈ names then names else names ++ [name])
      (if name ∈ names' then names' else names' ++ [name]) := by
  obtain hperm | ⟨first, hstray, hnew, hperm⟩ := h
  · simp only [hperm.mem_iff]
    split
    · exact .inl hperm
    · exact .inl (hperm.append_right _)
  · simp only [hperm.mem_iff, List.mem_cons]
    by_cases hfirst : name = first
    · -- the stray is no stray any more
      subst hfirst
      rw [if_pos (.inl rfl), if_neg hnew]
      exact .inl (hperm.trans (List.perm_append_singleton _ _).symm)
    · simp only [hfirst, false_or]
      split
      · exact .inr ⟨first, hstray, hnew, hperm⟩
      · refine .inr ⟨first, hstray, ?_, hperm.append_right _⟩
        simpa [Ne.symm hfirst] using hnew

theorem filter (h : Astray stray names names') (p : String → Bool) :
    Astray stray (names.filter p) (names'.filter p) := by
  obtain hperm | ⟨name, hstray, hnew, hperm⟩ := h
  · exact .inl (hperm.filter p)
  · have hfiltered := hperm.filter p
    rw [List.filter_cons] at hfiltered
    split at hfiltered
    · exact .inr ⟨name, hstray, fun hmem => hnew (List.mem_filter.mp hmem).1, hfiltered⟩
    · exact .inl hfiltered

/-- **In order**, by `List.mergeSort`, the two are the same but for the stray in its place. -/
theorem sorted (h : Astray stray names names') :
    (names.mergeSort fun a b => a ≤ b) = (names'.mergeSort fun a b => a ≤ b) ∨
      ∃ name ∈ stray, ∃ front back, (names.mergeSort fun a b => a ≤ b) = front ++ name :: back ∧
        (names'.mergeSort fun a b => a ≤ b) = front ++ back := by
  obtain hperm | ⟨name, hstray, -, hperm⟩ := h
  · exact .inl (sorted_names_of_perm hperm)
  · obtain ⟨front, back, hwith, hwithout, -⟩ :=
      List.mergeSort_cons names_le_trans names_le_total name names'
    exact .inr ⟨name, hstray, front, back, (sorted_names_of_perm hperm).trans hwith, hwithout⟩

end Astray

/-! ### Stores side by side -/

namespace Store

variable {stray : Option String} {s s' : Store} {name : String}

/-- **Stores side by side**: `Sound` stores that have the same `log`, of which the first lists at
most a stray more than the second and has all its names. -/
structure Beside (stray : Option String) (s s' : Store) : Prop where
  /-- the first is sound -/
  sound : s.Sound
  /-- the second is sound -/
  sound' : s'.Sound
  /-- the same was written, to series that have a name -/
  logged : ∃ l : List Written, s.log = l.map some ∧ s'.log = l.map some
  /-- at most a stray more is listed -/
  listed : Astray stray s.listedNames s'.listedNames
  /-- the second has no names beside those of the first -/
  names : s'.names ⊆ s.names

theorem Beside.countable (h : Beside stray s s') (hcount : s.Countable) : s'.Countable :=
  h.sound'.countable_of_subset h.names hcount

/-- A `Coherent` store stands beside itself. -/
theorem Coherent.beside (h : s.Coherent) (stray : Option String) : Beside stray s s := by
  obtain ⟨hsound, hpointed⟩ := coherent_iff.mp h
  obtain ⟨l, hlog⟩ := hpointed.exists_log
  exact ⟨hsound, hsound, ⟨l, hlog, hlog⟩, .inl (.refl _), fun _ => id⟩

theorem Beside.empty (stray : Option String) : Beside stray empty empty := coherent_empty.beside stray

/-- **A name that `enlist` adds to the first store alone** is a stray. -/
theorem Coherent.beside_of_enlist (h : s.Coherent) (hcount : (s.enlist name).2.Countable) :
    Beside (some name) (s.enlist name).2 s := by
  obtain ⟨hsound, hpointed⟩ := coherent_iff.mp h
  obtain ⟨l, hlog⟩ := hpointed.exists_log
  have hgrows := enlist_grows s name
  refine ⟨hsound.enlist name, hsound, ⟨l, log_of_grows hgrows hlog, hlog⟩, ?_,
    hgrows.names.subset⟩
  rw [hsound.listedNames_enlist hcount]
  split
  · exact .inl (.refl _)
  next hnew => exact .inr ⟨name, rfl, hnew, List.perm_append_singleton _ _⟩

/-- **A name that `enlist` adds to both.** -/
theorem Beside.enlist (h : Beside stray s s') (hcount : (s.enlist name).2.Countable) :
    (s'.enlist name).2.Countable ∧ Beside stray (s.enlist name).2 (s'.enlist name).2 := by
  have hnames := names_enlist_subset h.names name
  have hcount' := (h.sound'.enlist name).countable_of_subset hnames hcount
  obtain ⟨l, hlog, hlog'⟩ := h.logged
  refine ⟨hcount', h.sound.enlist name, h.sound'.enlist name,
    ⟨l, log_of_grows (enlist_grows s name) hlog, log_of_grows (enlist_grows s' name) hlog'⟩, ?_,
    hnames⟩
  rw [h.sound.listedNames_enlist hcount, h.sound'.listedNames_enlist hcount']
  exact h.listed.add name

/-- **A point that is written to both**, to the series of the same name, by `withPoint`. -/
theorem Beside.withPoint (h : Beside stray s s') {id id' : SeriesId} (hname : s.name? id = some name)
    (hname' : s'.name? id' = some name) (timestamp : Timestamp) (value : Double) :
    Beside stray (s.withPoint ⟨id, timestamp, value⟩) (s'.withPoint ⟨id', timestamp, value⟩) := by
  obtain ⟨l, hlog, hlog'⟩ := h.logged
  refine ⟨h.sound.withPoints _, h.sound'.withPoints _,
    ⟨l ++ [⟨name, timestamp, value⟩], ?_, ?_⟩, h.listed, h.names⟩
  · rw [log_withPoint _ hname, hlog, List.map_append]
    rfl
  · rw [log_withPoint _ hname', hlog', List.map_append]
    rfl

/-! ### Answers -/

theorem Beside.answer (h : Beside stray s s') (p : Plan) (hcount : (s.answer p).2.Countable) :
    Beside stray (s.answer p).2 (s'.answer p).2 := by
  obtain ⟨l, hlog, hlog'⟩ := h.logged
  have hgrows := grows_answer s p
  have hgrows' := grows_answer s' p
  have hcount' := Countable.of_grows hgrows hcount
  refine ⟨sound_answer h.sound p, sound_answer h.sound' p,
    ⟨l, log_of_grows hgrows hlog, log_of_grows hgrows' hlog'⟩, ?_,
    names_answer_subset hlog hlog' h.names p⟩
  rw [h.sound.listedNames_grow hcount' hgrows (listed_answer s p),
    h.sound'.listedNames_grow (h.countable hcount') hgrows' (listed_answer s' p)]
  exact h.listed

theorem Beside.query (h : Beside stray s s') (document : Option Json)
    (hcount : (s.query document).2.Countable) :
    Beside stray (s.query document).2 (s'.query document).2 := by
  cases document with
  | none => exact h
  | some j =>
    simp only [Store.query] at hcount ⊢
    cases hplan : Plan.ofJson j with
    | error status => exact h
    | ok p =>
      rw [hplan] at hcount
      exact h.answer p hcount

/-! ### What is seen of records -/

/-- **What is seen of a record** when `readAlone` reads it: its row, and how long it is when it is
delivered. -/
def sight (s : Store) (r : Record) : Row × Nat := (s.row r, r.encode.length)

theorem map_sight (s : Store) (records : List Record) :
    records.map s.sight = (records.map s.row).zip (records.map fun r => r.encode.length) :=
  List.zip_map'.symm

/-- Records of which `sight` shows no tail are as long as a header. -/
theorem lengths_of_tail {records : List Record} (htail : ∀ r ∈ records, r.tail = []) :
    (records.map fun r => r.encode.length) = List.replicate records.length headerSize := by
  rw [List.eq_replicate_iff, List.length_map]
  refine ⟨rfl, fun length hlength => ?_⟩
  obtain ⟨r, hr, rfl⟩ := List.mem_map.mp hlength
  rw [Record.length_encode, htail r hr]
  rfl

theorem map_registerAll {α β : Type} {step : Store → α → Record × Store} {g : Record → β}
    {gOf : α → β} (hstep : ∀ (s : Store) (row : α), g (step s row).1 = gOf row) (s : Store)
    (rows : List α) : (registerAll step s rows).1.map g = rows.map gOf := by
  induction rows generalizing s with
  | nil => rfl
  | cons row rows ih => exact congrArg₂ _ (hstep s row) (ih _)

/-- **The same is seen of both `answer`s** to any plan but a listing. -/
theorem Beside.sight_answer (h : Beside stray s s') {p : Plan} (hp : ∀ f, p ≠ .names f)
    (hcount : (s.answer p).2.Countable) :
    (s'.answer p).1.map (s'.answer p).2.sight = (s.answer p).1.map (s.answer p).2.sight := by
  obtain ⟨l, hlog, hlog'⟩ := h.logged
  have hrows : (s'.answer p).1.map (s'.answer p).2.row = (s.answer p).1.map (s.answer p).2.row := by
    rw [rows_answer hlog p hcount, rows_answer hlog' p ((h.answer p hcount).countable hcount)]
    cases p with
    | names f => exact absurd rfl (hp f)
    | _ => rfl
  have hlength : (s'.answer p).1.length = (s.answer p).1.length := by
    simpa using congrArg List.length hrows
  -- only joins have records of different lengths
  have hplain : (∀ (s : Store), ∀ r ∈ (s.answer p).1, r.tail = []) →
      ((s'.answer p).1.map fun r => r.encode.length) =
        (s.answer p).1.map fun r => r.encode.length := by
    intro htail
    rw [lengths_of_tail (htail s), lengths_of_tail (htail s'), hlength]
  rw [map_sight, map_sight, hrows]
  congr 1
  cases p with
  | names f => exact absurd rfl (hp f)
  | select f o =>
    refine hplain fun s r hr => ?_
    obtain ⟨m, -, rfl⟩ := List.mem_map.mp hr
    rfl
  | aggregate f fn =>
    exact hplain fun s => forall_registerAll (P := fun r => r.tail = []) (fun _ _ _ => rfl) s
  | join f o =>
    have hlengths : ∀ (s : Store), s.log = l.map some →
        ((s.answer (.join f o)).1.map fun r => r.encode.length) =
          (Plan.joined l f o).map fun row =>
            (Record.tuple 0 row.key.timestamp row.slots).encode.length := by
      intro s hlog
      rw [← joinRows_eq hlog]
      refine map_registerAll (fun s row => ?_) s _
      rw [Record.length_encode, Record.length_encode]
      rfl
    rw [hlengths s hlog, hlengths s' hlog']

/-- The `sight` of what `list` gives, for each name that is listed. -/
theorem sight_list (s : Store) (f : PointFilter) :
    (s.list f).map s.sight =
      ((s.listedNames.filter f.accepts).mergeSort fun a b => a ≤ b).map fun name =>
        (⟨some name, some 0, []⟩, headerSize) := by
  have htail : ∀ r ∈ s.list f, r.tail = [] := by
    intro r hr
    obtain ⟨e, -, rfl⟩ := List.mem_map.mp hr
    rfl
  have hlength : (s.list f).length =
      ((s.listedNames.filter f.accepts).mergeSort fun a b => a ≤ b).length := by
    simpa using congrArg List.length (rows_list s f)
  rw [map_sight, rows_list, lengths_of_tail htail, hlength, ← List.map_const', List.zip_map']

end Store

/-! ### Items -/

/-- **The same item**, but for the id of a series that has no name (`unresolvedSeries`). -/
inductive SameItem : Item Row → Item Row → Prop where
  /-- the same row -/
  | row (row : Row) : SameItem (.ok row) (.ok row)
  /-- some series without a name -/
  | unresolved (id id' : SeriesId) :
      SameItem (.error (.unresolvedSeries id)) (.error (.unresolvedSeries id'))
  /-- the same failure -/
  | failed (failure : Failure) : SameItem (.error failure) (.error failure)

/-- **The same items**, one after another. -/
abbrev SameItems : List (Item Row) → List (Item Row) → Prop := List.Forall₂ SameItem

theorem SameItem.refl (item : Item Row) : SameItem item item := by
  cases item with
  | ok row => exact .row row
  | error failure => exact .failed failure

theorem SameItems.refl (items : List (Item Row)) : SameItems items items :=
  List.forall₂_same.mpr fun item _ => .refl item

/-- **An item more**, somewhere among the `SameItems`: the row that lists a name, or a failure in
its place. -/
def ItemMore (name : String) (items items' : List (Item Row)) : Prop :=
  ∃ front item back, items = front ++ item :: back ∧ SameItems (front ++ back) items' ∧
    ∀ row, item = .ok row → row = ⟨some name, some 0, []⟩

section Rations

variable {s s' : Store} {forgotten : List String} {limit? : Option Nat} {r r' : Record}
  {records records' : List Record}

/-- What `readAlone` makes of a record if some names are forgotten. -/
theorem readAlone_recall (hr : r.Encodable) :
    readAlone (s.recall forgotten) r.encode =
      match ((s.row r).series).filter fun name => !forgotten.contains name with
      | some name => .ok ⟨some name, (s.row r).timestamp, (s.row r).values⟩
      | none => .error (.unresolvedSeries r.series) := by
  rw [readAlone_encode hr]
  rfl

/-- Records of equal `sight` are read as the `SameItem`. -/
theorem sameItem_of_sight (hr : r.Encodable) (hr' : r'.Encodable) (h : s'.sight r' = s.sight r) :
    SameItem (readAlone (s.recall forgotten) r.encode)
      (readAlone (s'.recall forgotten) r'.encode) := by
  have hrow : s'.row r' = s.row r := congrArg Prod.fst h
  rw [readAlone_recall hr, readAlone_recall hr', hrow]
  cases ((s.row r).series).filter fun name => !forgotten.contains name with
  | some name => exact .row _
  | none => exact .unresolved _ _

/-- **Records of equal `sight`** are dealt out as the `SameItems`. -/
theorem sameItems_of_sight (hencodable : ∀ r ∈ records, r.Encodable)
    (hencodable' : ∀ r ∈ records', r.Encodable)
    (h : records'.map s'.sight = records.map s.sight) :
    SameItems (rationed limit? (readAlone (s.recall forgotten)) (records.map Record.encode))
      (rationed limit? (readAlone (s'.recall forgotten)) (records'.map Record.encode)) := by
  induction records generalizing records' with
  | nil =>
    rw [List.map_nil, List.map_eq_nil_iff] at h
    subst h
    exact .nil
  | cons r records ih =>
    obtain ⟨r', rest, rfl, hsight, hrest⟩ := List.map_eq_cons_iff.mp h
    have hlength : r'.encode.length = r.encode.length := congrArg Prod.snd hsight
    rw [List.map_cons, List.map_cons, rationed, rationed, hlength]
    split
    · refine .cons (sameItem_of_sight (hencodable r List.mem_cons_self)
        (hencodable' r' List.mem_cons_self) hsight) (ih ?_ ?_ hrest)
      · exact fun r hr => hencodable r (List.mem_cons_of_mem _ hr)
      · exact fun r hr => hencodable' r (List.mem_cons_of_mem _ hr)
    · exact .refl _

/-- What is `rationed` of records that are as long as a header: all of them, or nothing but that
they are too long. -/
theorem rationed_of_lengths {length : Nat} (hlengths : ∀ r ∈ records, r.encode.length = length)
    (read : Bytes → Item Row) :
    rationed limit? read (records.map Record.encode) =
      if ∀ limit ∈ limit?, length ≤ limit then records.map fun r => read r.encode
      else if records = [] then [] else [.error (.engine .overflow)] := by
  split
  next hroom =>
    rw [rationed_of_room, List.map_map]
    · rfl
    · intro limit hlimit record hrecord
      obtain ⟨r, hr, rfl⟩ := List.mem_map.mp hrecord
      rw [hlengths r hr]
      exact hroom limit hlimit
  next hroom =>
    cases records with
    | nil => rfl
    | cons r records =>
      rw [List.map_cons, rationed, hlengths r List.mem_cons_self, if_neg hroom]
      rfl

/-- Where there is room for all, all are read as the `SameItems`. -/
theorem sameItems_map_of_sight (hencodable : ∀ r ∈ records, r.Encodable)
    (hencodable' : ∀ r ∈ records', r.Encodable) (h : records'.map s'.sight = records.map s.sight) :
    SameItems (records.map fun r => readAlone (s.recall forgotten) r.encode)
      (records'.map fun r => readAlone (s'.recall forgotten) r.encode) := by
  have hsame : SameItems (rationed none (readAlone (s.recall forgotten))
      (records.map Record.encode)) (rationed none (readAlone (s'.recall forgotten))
      (records'.map Record.encode)) := sameItems_of_sight hencodable hencodable' h
  have hall : ∀ (records : List Bytes), ∀ limit ∈ (none : Option Nat), ∀ record ∈ records,
      record.length ≤ limit := fun _ _ hlimit => by cases hlimit
  rw [rationed_of_room (hall _), rationed_of_room (hall _), List.map_map, List.map_map] at hsame
  exact hsame

/-- **A record more** is read as `ItemMore`, if it lists a name. -/
theorem itemMore_of_sight {name : String} {before after : List Record}
    (hencodable : ∀ other ∈ before ++ r :: after, other.Encodable)
    (hencodable' : ∀ other ∈ records', other.Encodable) (hrow : s.row r = ⟨some name, some 0, []⟩)
    (h : records'.map s'.sight = (before ++ after).map s.sight) :
    ItemMore name ((before ++ r :: after).map fun r => readAlone (s.recall forgotten) r.encode)
      (records'.map fun r => readAlone (s'.recall forgotten) r.encode) := by
  have hothers : ∀ other ∈ before ++ after, other.Encodable := by
    intro other hother
    simp only [List.mem_append, List.mem_cons] at hencodable hother
    exact hencodable other (hother.imp_right .inr)
  refine ⟨before.map _, _, after.map _, by rw [List.map_append, List.map_cons], ?_,
    fun row hread => ?_⟩
  · rw [← List.map_append]
    exact sameItems_map_of_sight hothers hencodable' h
  rw [readAlone_recall (hencodable r (by simp)), hrow] at hread
  dsimp only at hread
  split at hread
  next name' hname' =>
    obtain rfl : name = name' := Option.some.inj (Option.filter_eq_some_iff.mp hname').1
    exact (Except.ok.inj hread).symm
  next => cases hread

end Rations

namespace Store

variable {stray : Option String} {s s' : Store}

/-- The records that `list` gives are headers. -/
theorem header_of_mem_list {f : PointFilter} {r : Record} (hr : r ∈ s.list f) :
    r.Encodable ∧ r.encode.length = headerSize := by
  obtain ⟨e, -, rfl⟩ := List.mem_map.mp hr
  exact ⟨trivial, Record.length_encode _⟩

/-- **A `list`** of the first of two stores has the `SameItems` as that of the second, or one
more. -/
theorem Beside.items_list (h : Beside stray s s') (f : PointFilter) (limit? : Option Nat)
    (forgotten : List String) :
    let items := rationed limit? (readAlone (s.recall forgotten)) ((s.list f).map Record.encode)
    let items' := rationed limit? (readAlone (s'.recall forgotten)) ((s'.list f).map Record.encode)
    SameItems items items' ∨ ∃ name ∈ stray, ItemMore name items items' := by
  intro items items'
  have hencodable : ∀ r ∈ s.list f, r.Encodable := fun r hr => (header_of_mem_list hr).1
  have hencodable' : ∀ r ∈ s'.list f, r.Encodable := fun r hr => (header_of_mem_list hr).1
  have hsight := s.sight_list f
  have hsight' := s'.sight_list f
  obtain hsame | ⟨name, hstray, front, back, hwith, hwithout⟩ := (h.listed.filter f.accepts).sorted
  · rw [hsame, ← hsight'] at hsight
    exact .inl (sameItems_of_sight hencodable hencodable' hsight.symm)
  -- the record of the stray, and those around it
  rw [hwith, List.map_append, List.map_cons] at hsight
  obtain ⟨before, rest, hlist, hbefore, hrest⟩ := List.map_eq_append_iff.mp hsight
  obtain ⟨r, after, rfl, hr, hafter⟩ := List.map_eq_cons_iff.mp hrest
  have hothers : (s'.list f).map s'.sight = (before ++ after).map s.sight := by
    rw [hsight', hwithout, List.map_append, List.map_append, hbefore, hafter]
  have hitems : items = _ := rationed_of_lengths (fun r hr => (header_of_mem_list hr).2) _
  have hitems' : items' = _ := rationed_of_lengths (fun r hr => (header_of_mem_list hr).2) _
  rw [hitems, hitems']
  split
  · rw [hlist] at hencodable ⊢
    exact .inr ⟨name, hstray,
      itemMore_of_sight hencodable hencodable' (congrArg Prod.fst hr) hothers⟩
  · -- there is no room for a single record
    rw [if_neg (by rw [hlist]; simp)]
    split
    · exact .inr ⟨name, hstray, [], _, [], rfl, .nil, fun row hrow => by cases hrow⟩
    · exact .inl (.refl _)

/-- **The `answer`s of two stores side by side** are read as the `SameItems`, with the names that
there are after it, under whatever limit and whatever is forgotten; a listing may have one more
(`ItemMore`). -/
theorem Beside.items_answer (h : Beside stray s s') {p : Plan} (hnarrow : p.Narrow)
    (hcount : (s.answer p).2.Countable) (limit? : Option Nat) (forgotten : List String) :
    let items := rationed limit? (readAlone ((s.answer p).2.recall forgotten))
      ((s.answer p).1.map Record.encode)
    let items' := rationed limit? (readAlone ((s'.answer p).2.recall forgotten))
      ((s'.answer p).1.map Record.encode)
    SameItems items items' ∨ ∃ f, p = .names f ∧ ∃ name ∈ stray, ItemMore name items items' := by
  intro items items'
  by_cases hp : ∃ f, p = .names f
  · obtain ⟨f, rfl⟩ := hp
    exact (h.items_list f limit? forgotten).imp_right fun hmore => ⟨f, rfl, hmore⟩
  · refine .inl (sameItems_of_sight (encodable_answer hnarrow) (encodable_answer hnarrow)
      (h.sight_answer (fun f hf => hp ⟨f, hf⟩) hcount))

end Store

end TimeSeries
