import TimeSeries.Proofs.Client.SelectHistory
import TimeSeries.Proofs.Series.Metrics

/-!
# Finding what was written

A point is written under a name, and later it is looked for under the first word of that name.
Whatever the state of the world is, a listing of that word gives the canonical name exactly if
the word is plain, and a select of it gives the point exactly if, besides, it does not begin as
a listing does: `Session.found_of_write`. What misses the point otherwise is not the store,
which has it (`Store.Shows`), but the metric that is read off the name
(`Series.metric_normalize_iff`) and the target that is read as that of a listing.
-/

namespace TimeSeries

open Cursor

/-! ### What a store shows -/

namespace Store

/-- **A store shows what was written**: it has the point, and it lists the series. -/
structure Shows (st : Store) (written : Written) : Prop where
  /-- one of its points is the one that was written -/
  point : ∃ p ∈ st.points, st.name? p.series = some written.series ∧
    p.timestamp = written.timestamp ∧ p.value = written.value
  /-- one of the ids that it lists stands for the series -/
  listed : ∃ id ∈ st.listed, st.name? id = some written.series

theorem mem_listed_enlist (st : Store) (name : String) :
    (st.enlist name).1 ∈ (st.enlist name).2.listed := by
  rw [enlist]
  dsimp only
  split
  next h => simpa using h
  next => simp

/-- A store `Shows` what is written to it. -/
theorem shows_of_write {st : Store} {name : String} (timestamp : Timestamp) (value : Double)
    (hcount : (st.enlist name).2.Countable) :
    ((st.enlist name).2.withPoint ⟨(st.enlist name).1, timestamp, value⟩).Shows
      ⟨name, timestamp, value⟩ := by
  have hname := name?_enlist hcount
  exact ⟨⟨⟨(st.enlist name).1, timestamp, value⟩, by simp [withPoint], hname, rfl, rfl⟩,
    _, mem_listed_enlist st name, hname⟩

theorem mem_listing {st : Store} {f : PointFilter} {e : String × SeriesId} :
    e ∈ st.listing f ↔ e.2 ∈ st.listed ∧ st.name? e.2 = some e.1 ∧ f.accepts e.1 = true := by
  rw [listing, List.mem_mergeSort, List.mem_filter, List.mem_filterMap, ← and_assoc]
  refine and_congr_left' ?_
  constructor
  · rintro ⟨id, hid, he⟩
    obtain ⟨name, hname, rfl⟩ := Option.map_eq_some_iff.mp he
    exact ⟨hid, hname⟩
  · rintro ⟨hid, hname⟩
    exact ⟨e.2, hid, by simp [hname]⟩

end Store

/-! ### What is read of what a store shows -/

section Shown

variable {st : Store} {written : Written} {forgotten : List String}

/-- The `name?` of a series, unless it is forgotten. -/
def Store.recall (st : Store) (forgotten : List String) (id : SeriesId) : Option String :=
  (st.name? id).filter fun name => !forgotten.contains name

theorem Memory.Serves.idToSeries_eq_recall {m : Memory} {session : Handle} {file : FileKey}
    (h : m.Serves session file st) : m.idToSeries session = st.recall m.forgotten := by
  funext id
  rw [Memory.idToSeries, h.store?_eq, Option.bind_some, Store.recall]

/-- What `readAlone` gives of a record is a row if its series has a name that is not forgotten. -/
theorem readAlone_eq_ok {r : Record} (hencodable : r.Encodable) {row : Row} :
    readAlone (st.recall forgotten) r.encode = .ok row ↔
      ∃ name, st.name? r.series = some name ∧ name ∉ forgotten ∧
        ⟨some name, some r.timestamp, r.values⟩ = row := by
  rw [readAlone_encode hencodable, Store.recall]
  constructor
  · intro hrow
    split at hrow
    next name hname =>
      obtain ⟨hname, hkept⟩ := Option.filter_eq_some_iff.mp hname
      exact ⟨name, hname, by simpa using hkept, Except.ok.inj hrow⟩
    next => cases hrow
  · rintro ⟨name, hname, hkept, rfl⟩
    simp [hname, Option.filter_some, hkept]

/-- **A `select` of a metric gives the point** of a store that `Shows` it if the name is of the
metric, and only then. -/
theorem mem_items_select (hshows : st.Shows written) (hkept : written.series ∉ forgotten)
    (metric : String) :
    (.ok written.row : Item Row) ∈ (st.select ⟨[metric], {}, none⟩ {}).map (fun r =>
        readAlone (st.recall forgotten) r.encode) ↔
      Series.metric written.series = metric := by
  have hselect : ∀ r, r ∈ st.select ⟨[metric], {}, none⟩ {} ↔
      ∃ m ∈ st.matching ⟨[metric], {}, none⟩, m.record = r := by
    intro r
    simp [Store.select, Output.page, Output.keeps]
  constructor
  · intro hmem
    obtain ⟨r, hr, hread⟩ := List.mem_map.mp hmem
    obtain ⟨m, hm, rfl⟩ := (hselect r).mp hr
    obtain ⟨name, hname, -, hrow⟩ := (readAlone_eq_ok (r := m.record) trivial).mp hread
    obtain ⟨-, hname', -, haccepts⟩ := Store.mem_matching.mp hm
    -- the row names the series that the point is of, and that one passed the filter
    obtain rfl : m.name = name := Option.some.inj (hname'.symm.trans hname)
    have hseries : m.name = written.series := by
      simpa [Written.row] using congrArg Row.series hrow
    simpa [PointFilter.accepts, hseries] using haccepts
  · rintro rfl
    obtain ⟨p, hp, hname, htimestamp, hvalue⟩ := hshows.point
    have hm : (⟨written.series, p⟩ : Store.Match) ∈
        st.matching ⟨[Series.metric written.series], {}, none⟩ :=
      Store.mem_matching.mpr ⟨hp, hname, by simp [TimeRange.contains],
        by simp [PointFilter.accepts]⟩
    refine List.mem_map.mpr ⟨_, (hselect _).mpr ⟨_, hm, rfl⟩, ?_⟩
    refine (readAlone_eq_ok (r := .scalar p.series p.timestamp p.value) trivial).mpr
      ⟨written.series, hname, hkept, ?_⟩
    simp [Written.row, Record.timestamp, Record.values, htimestamp, hvalue]

/-- **A `list` of a metric gives the name** of a store that `Shows` it if it is of the metric, and
only then. -/
theorem mem_items_list (hshows : st.Shows written) (hkept : written.series ∉ forgotten)
    (metric : String) :
    (∃ row, (.ok row : Item Row) ∈ (st.list ⟨[metric], {}, none⟩).map (fun r =>
        readAlone (st.recall forgotten) r.encode) ∧
      row.series = some written.series) ↔
      Series.metric written.series = metric := by
  constructor
  · rintro ⟨row, hmem, hseries⟩
    obtain ⟨r, hr, hread⟩ := List.mem_map.mp hmem
    obtain ⟨e, he, rfl⟩ := List.mem_map.mp hr
    obtain ⟨name, hname, -, rfl⟩ := (readAlone_eq_ok (r := .seriesOnly e.2) trivial).mp hread
    obtain ⟨-, hname', haccepts⟩ := Store.mem_listing.mp he
    obtain rfl : e.1 = name := Option.some.inj (hname'.symm.trans hname)
    have hseries : e.1 = written.series := Option.some.inj hseries
    simpa [PointFilter.accepts, hseries] using haccepts
  · rintro rfl
    obtain ⟨id, hid, hname⟩ := hshows.listed
    have he : (written.series, id) ∈ st.listing ⟨[Series.metric written.series], {}, none⟩ :=
      Store.mem_listing.mpr ⟨hid, hname, by simp [PointFilter.accepts]⟩
    exact ⟨_, List.mem_map.mpr ⟨_, List.mem_map.mpr ⟨_, he, rfl⟩,
      (readAlone_eq_ok (r := .seriesOnly id) trivial).mpr ⟨written.series, hname, hkept, rfl⟩⟩, rfl⟩

/-- The rows of `list` have no values. -/
theorem values_of_mem_list {f : PointFilter} {resolve : SeriesId → Option String} {row : Row}
    (h : (.ok row : Item Row) ∈ (st.list f).map fun r => readAlone resolve r.encode) :
    row.values = [] := by
  obtain ⟨r, hr, hread⟩ := List.mem_map.mp h
  obtain ⟨e, -, rfl⟩ := List.mem_map.mp hr
  rw [readAlone_encode (r := .seriesOnly e.2) trivial] at hread
  split at hread
  · cases hread
    rfl
  · cases hread

end Shown

/-! ### Names one after another -/

namespace NameCursor

variable {σ : Type} {E : Engine σ} {c c' : Cursor} {w w' : World σ}

/-- **The item of a call** of `NameCursor.next`, if nothing happens between the calls. -/
def itemAt (E : Engine σ) : (call : Nat) → NameCursor → World σ → Option (Item String)
  | 0, n, w => (n.next E w).1
  | call + 1, n, w =>
    let (_, n, w) := n.next E w
    itemAt E call n w

/-- The name that an item is about. -/
def nameOf (item : Item Row) : Item String := item.map fun row => row.series.getD ""

/-- **An item of `Cursor.next` is passed on** if it is a failure or has a series. -/
theorem next_of_next {item : Option (Item Row)} (h : c.next E w = (item, c', w'))
    (hitem : ∀ row, item = some (.ok row) → ∃ name, row.series = some name) :
    NameCursor.next E ⟨c⟩ w = (item.map nameOf, ⟨c'⟩, w') := by
  rw [next, budget, nextWithin, h]
  rcases item with _ | failure | row
  · rfl
  · rfl
  · obtain ⟨name, hname⟩ := hitem row rfl
    simp only [hname, Option.map_some, nameOf, Except.map, Option.getD_some]

/-- **Names are read off the rows**, one for each. -/
theorem itemAt_eq {items : List (Item Row)}
    (h : ∀ call, Cursor.itemAt E call quietly c w = items[call]?)
    (hitems : ∀ row, .ok row ∈ items → ∃ name, row.series = some name) (call : Nat) :
    itemAt E call ⟨c⟩ w = (items.map nameOf)[call]? := by
  induction call generalizing c w items with
  | zero =>
    rcases hnext : c.next E w with ⟨item, c', w'⟩
    obtain hzero : item = items[0]? := (itemAt_zero hnext).symm.trans (h 0)
    have hname := next_of_next hnext fun row hrow =>
      hitems row (List.mem_of_getElem? (hzero.symm.trans hrow))
    rw [itemAt, hname, hzero, List.getElem?_map]
  | succ call ih =>
    rcases hnext : c.next E w with ⟨item, c', w'⟩
    obtain hzero : item = items[0]? := (itemAt_zero hnext).symm.trans (h 0)
    have hname := next_of_next hnext fun row hrow =>
      hitems row (List.mem_of_getElem? (hzero.symm.trans hrow))
    have htail : ∀ call, Cursor.itemAt E call quietly c' w' = items.tail[call]? := by
      intro call
      rw [List.getElem?_tail, ← h (call + 1), itemAt_succ call hnext, quietly_shift]
    rw [itemAt, hname]
    dsimp only
    rw [ih htail fun row hrow => hitems row (List.mem_of_mem_tail hrow), List.map_tail,
      List.getElem?_tail]

end NameCursor

/-! ### Writing and looking for it -/

namespace Series

/-- The `token` of a name is not blank. -/
theorem isBlankText_token {text name : String} (h : normalize text = some name) :
    Text.isBlankText (token text) = false := by
  rw [normalize] at h
  rw [Text.isBlankText, token]
  split at h
  · cases h
  next word rest hwords =>
    have hword : word ∈ Text.words text.toList := by simp [hwords]
    obtain ⟨hne, hblank⟩ := Text.of_mem_words hword
    obtain ⟨c, cs, rfl⟩ := List.exists_cons_of_ne_nil hne
    simp [hwords, hblank c List.mem_cons_self]

end Series

namespace Session

variable {parse : String → Option Json} {s : Session} {session : Handle} {w w' : World Memory}
  {series name : String} {timestamp : Timestamp} {value : Double} {st : Store} {file : FileKey}

/-- **A `write` that succeeds** is one in an open session that `Serves` a store. -/
theorem serves_of_write
    (hwrite : s.write (Memory.engine parse) series timestamp value w = (.ok (), w')) :
    w.channel.panic = none ∧
      ∃ session file st, s.handle = some session ∧ w.engine.Serves session file st := by
  have hok := congrArg Prod.fst hwrite
  cases hpanic : w.channel.panic with
  | some message => simp [write, checkHandle, World.check, hpanic] at hok
  | none =>
    cases hhandle : s.handle with
    | none => simp [write_of_closed parse hpanic hhandle] at hok
    | some session =>
      refine ⟨rfl, session, ?_⟩
      rw [write, hhandle, checkHandle_some hpanic] at hok
      dsimp only at hok
      split at hok
      · cases hok
      simp only [Engine.ask, Memory.engine, Memory.answer, Memory.onEngine,
        Memory.seriesToId] at hok
      cases hname : Series.normalize series with
      | none => simp [hname] at hok
      | some name =>
        cases hst : w.engine.store? session with
        | none => simp [hname, hst] at hok
        | some st =>
          obtain ⟨file, hfile, hfind⟩ := Option.bind_eq_some_iff.mp hst
          exact ⟨file, st, rfl, hfile, hfind⟩

/-- **What a `write` leaves behind**: a store that `Shows` the point. Nothing else changes but the
number of writes to be refused. -/
theorem shows_of_write
    (hwrite : s.write (Memory.engine parse) series timestamp value w = (.ok (), w'))
    (hfits : w'.engine.Fits) :
    w'.channel.panic = none ∧ ∃ name session file st, Series.normalize series = some name ∧
      s.handle = some session ∧ w'.engine.Serves session file st ∧
      st.Shows ⟨name, timestamp, value⟩ ∧ w'.engine.rawResults = w.engine.rawResults ∧
      w'.engine.forgotten = w.engine.forgotten ∧ w'.engine.chunkLimit = w.engine.chunkLimit := by
  obtain ⟨hpanic, session, file, st, hhandle, hserves⟩ := serves_of_write hwrite
  obtain ⟨failure, w'', _, _, hfailed, -⟩ | ⟨name, w'', busy, hwritten, hname, hbecomes⟩ :=
    write_becomes parse series timestamp value hpanic hhandle hserves
  · rw [hwrite] at hfailed
    cases hfailed
  · obtain rfl : w' = w'' := congrArg Prod.snd (hwrite.symm.trans hwritten)
    have hserves' : w'.engine.Serves session file
        ((st.enlist name).2.withPoint ⟨(st.enlist name).1, timestamp, value⟩) := by
      rw [hbecomes.engine]
      exact (hserves.withStore _).refusing busy
    have hcount : ((st.enlist name).2.withPoint
        ⟨(st.enlist name).1, timestamp, value⟩).Countable := hfits file _ hserves'.find_eq
    have hshows := Store.shows_of_write timestamp value hcount
    refine ⟨hbecomes.no_panic hpanic, name, session, file, _, hname, hhandle, hserves', hshows, ?_⟩
    rw [hbecomes.engine]
    exact ⟨rfl, rfl, rfl⟩

variable {written : Written} {metric : String}

/-- Records with an empty `tail` are of the size of a header. -/
theorem room_of_headerSize (hlimit : ∀ limit ∈ w.engine.chunkLimit, headerSize ≤ limit)
    {records : List Record} (htail : ∀ r ∈ records, r.tail = []) :
    ∀ limit ∈ w.engine.chunkLimit, ∀ r ∈ records, r.encode.length ≤ limit := by
  intro limit hsome r hr
  rw [Record.length_encode, htail r hr]
  exact hlimit limit hsome

/-- **A select of a metric gives the point** of a store that `Shows` it if the name is of the metric
and the metric does not begin as a listing does, and only then. -/
theorem select_of_shows (hpanic : w.channel.panic = none) (hraw : w.engine.rawResults = [])
    (husable : s.settings.Usable) (hhandle : s.handle = some session)
    (hserves : w.engine.Serves session file st) (hshows : st.Shows written)
    (hlimit : ∀ limit ∈ w.engine.chunkLimit, headerSize ≤ limit)
    (hkept : written.series ∉ w.engine.forgotten)
    (hparse : parse (Query.text ⟨.select metric, {}⟩) =
      some (Query.document ⟨.select metric, {}⟩)) :
    ∃ c w', s.query (Memory.engine parse) ⟨.select metric, {}⟩ w = (.ok c, w') ∧
      (.ok written.row ∈ (c.items (Memory.engine parse) w').1 ↔
        Series.metric written.series = metric ∧ ¬ namesTarget.toList <+: metric.toList) := by
  by_cases hplain : namesTarget.toList <+: metric.toList
  · -- it is answered like a listing, in which no row has a value
    simp only [hplain, not_true_eq_false, and_false, iff_false]
    obtain ⟨status, hplan⟩ | ⟨f, hplan⟩ := Plan.ofJson_select_of_isPrefix hplain
    · have hquery : st.query (parse (Query.text ⟨.select metric, {}⟩)) = (.error status, st) := by
        simp [hparse, Store.query, hplan]
      obtain ⟨w', hopen, hitems, -⟩ :=
        items_of_refusal hpanic hraw husable hhandle hserves hquery
      exact ⟨_, w', hopen, by simp [hitems]⟩
    · have hquery : st.query (parse (Query.text ⟨.select metric, {}⟩)) = (.ok (st.list f), st) := by
        simp [hparse, Store.query, hplan, Store.answer]
      have htail : ∀ r ∈ st.list f, r.tail = [] := by
        intro r hr
        obtain ⟨e, -, rfl⟩ := List.mem_map.mp hr
        rfl
      obtain ⟨w', hopen, -, hitems, -⟩ := items_of_answer hpanic hraw husable hhandle hserves hquery
        (room_of_headerSize hlimit htail)
      refine ⟨_, w', hopen, fun hmem => ?_⟩
      rw [hitems] at hmem
      exact absurd (values_of_mem_list hmem) (List.cons_ne_nil _ _)
  · simp only [hplain, not_false_eq_true, and_true]
    have hquery : st.query (parse (Query.text ⟨.select metric, {}⟩)) =
        (.ok (st.select ⟨[metric], {}, none⟩ {}), st) := by
      simp [hparse, Store.query, Plan.ofJson_select hplain, Store.answer]
    have htail : ∀ r ∈ st.select ⟨[metric], {}, none⟩ {}, r.tail = [] := by
      intro r hr
      obtain ⟨m, -, rfl⟩ := List.mem_map.mp hr
      rfl
    obtain ⟨w', hopen, hbecomes, hitems, -⟩ := items_of_answer hpanic hraw husable hhandle hserves
      hquery (room_of_headerSize hlimit htail)
    have hserves' : w'.engine.Serves session file st := by
      rw [hbecomes.engine]
      exact ⟨hserves.file_eq, Table.find?_put_self _ _ _⟩
    have hforgotten : w'.engine.forgotten = w.engine.forgotten := by rw [hbecomes.engine]; rfl
    rw [hserves'.idToSeries_eq_recall, hforgotten] at hitems
    refine ⟨_, w', hopen, ?_⟩
    rw [hitems]
    exact mem_items_select hshows hkept metric

/-- **A listing of a metric gives the name** of a store that `Shows` it if it is of the metric, and
only then. -/
theorem listing_of_shows (hpanic : w.channel.panic = none) (hraw : w.engine.rawResults = [])
    (husable : s.settings.Usable) (hhandle : s.handle = some session)
    (hserves : w.engine.Serves session file st) (hshows : st.Shows written)
    (hlimit : ∀ limit ∈ w.engine.chunkLimit, headerSize ≤ limit)
    (hkept : written.series ∉ w.engine.forgotten)
    (hparse : parse (Listing.text { metric := some metric }) =
      some (Listing.document { metric := some metric })) :
    ∃ n w', s.listing (Memory.engine parse) { metric := some metric } w = (.ok n, w') ∧
      ((∃ call, n.itemAt (Memory.engine parse) call w' = some (.ok written.series)) ↔
        Series.metric written.series = metric) := by
  have hquery : st.query (parse (Listing.text { metric := some metric })) =
      (.ok (st.list ⟨[metric], {}, none⟩), st) := by
    simp [hparse, Store.query, Plan.ofJson_listing, Store.answer]
  have htail : ∀ r ∈ st.list ⟨[metric], {}, none⟩, r.tail = [] := by
    intro r hr
    obtain ⟨e, -, rfl⟩ := List.mem_map.mp hr
    rfl
  obtain ⟨w', hopen, hbecomes, -, hitemAt⟩ := items_of_answer hpanic hraw husable hhandle hserves
    hquery (room_of_headerSize hlimit htail)
  have hserves' : w'.engine.Serves session file st := by
    rw [hbecomes.engine]
    exact ⟨hserves.file_eq, Table.find?_put_self _ _ _⟩
  have hforgotten : w'.engine.forgotten = w.engine.forgotten := by rw [hbecomes.engine]; rfl
  rw [hserves'.idToSeries_eq_recall, hforgotten] at hitemAt
  have hnames : ∀ row, (.ok row : Item Row) ∈ (st.list ⟨[metric], {}, none⟩).map (fun r =>
      readAlone (st.recall w.engine.forgotten) r.encode) → ∃ name, row.series = some name := by
    intro row hrow
    obtain ⟨r, hr, hread⟩ := List.mem_map.mp hrow
    obtain ⟨e, -, rfl⟩ := List.mem_map.mp hr
    obtain ⟨name, -, -, rfl⟩ := (readAlone_eq_ok (r := .seriesOnly e.2) trivial).mp hread
    exact ⟨name, rfl⟩
  refine ⟨⟨.ofHandle session w.engine.nextHandle s.settings.buffer⟩, w', ?_, ?_⟩
  · simp [listing, hopen, Except.map]
  rw [← mem_items_list hshows hkept metric]
  simp only [NameCursor.itemAt_eq hitemAt hnames, ← List.mem_iff_getElem?]
  constructor
  · intro hmem
    obtain ⟨item, hitem, hname⟩ := List.mem_map.mp hmem
    rcases item with failure | row
    · cases hname
    · obtain ⟨name, hseries⟩ := hnames row hitem
      refine ⟨row, hitem, ?_⟩
      simpa [NameCursor.nameOf, Except.map, hseries] using hname
  · rintro ⟨row, hitem, hseries⟩
    refine List.mem_map.mpr ⟨_, hitem, ?_⟩
    simp [NameCursor.nameOf, Except.map, hseries]

/-- **Finding what was written**: in whatever state a `write` of a point succeeds, a select and a
listing can be built, by `Query.build` and `Listing.build`, of the `token` of the name it was
written with. Their texts being read as they were meant, the select gives the point, under the
canonical name, exactly if the word is plain and does not begin as a listing does; and the listing
gives the name exactly if the word is plain. The session has settings that are `Usable`, the engine
has room for a header in what it delivers and no bytes waiting in place of an answer, and the name
is not one that it was made to forget. -/
theorem found_of_write (husable : s.settings.Usable) (hraw : w.engine.rawResults = [])
    (hlimit : ∀ limit ∈ w.engine.chunkLimit, headerSize ≤ limit)
    (hkept : ∀ name ∈ Series.normalize series, name ∉ w.engine.forgotten)
    (hwrite : s.write (Memory.engine parse) series timestamp value w = (.ok (), w'))
    (hfits : w'.engine.Fits) :
    ∃ name q l, Series.normalize series = some name ∧
      Query.build (.select (Series.token series)) [] = .ok q ∧
      Listing.ofMetric (Series.token series) = .ok l ∧
      (parse q.text = some q.document →
        ∃ c w'', s.query (Memory.engine parse) q w' = (.ok c, w'') ∧
          (.ok ⟨some name, some timestamp, [value]⟩ ∈ (c.items (Memory.engine parse) w'').1 ↔
            Series.Plain (Series.token series) ∧
              ¬ namesTarget.toList <+: (Series.token series).toList)) ∧
      (parse l.text = some l.document →
        ∃ n w'', s.listing (Memory.engine parse) l w' = (.ok n, w'') ∧
          ((∃ call, n.itemAt (Memory.engine parse) call w'' = some (.ok name)) ↔
            Series.Plain (Series.token series))) := by
  obtain ⟨hpanic, name, session, file, st, hname, hhandle, hserves, hshows, hraw', hforgotten,
    hlimit'⟩ := shows_of_write hwrite hfits
  have hblank := Series.isBlankText_token hname
  rw [← hraw'] at hraw
  rw [← hlimit'] at hlimit
  have hkept' : name ∉ w'.engine.forgotten := by
    rw [hforgotten]
    exact hkept name hname
  refine ⟨name, _, _, hname, Query.build_select hblank, Listing.ofMetric_eq hblank, ?_, ?_⟩
  · intro hparse
    rw [← Series.metric_normalize_iff hname]
    exact select_of_shows hpanic hraw husable hhandle hserves hshows hlimit hkept' hparse
  · intro hparse
    rw [← Series.metric_normalize_iff hname]
    exact listing_of_shows hpanic hraw husable hhandle hserves hshows hlimit hkept' hparse

/-- A point of `cpu` is found under it. -/
theorem found_of_cpu :
    let select : Query := ⟨.select "cpu", {}⟩
    let names : Listing := { metric := some "cpu" }
    let parse : String → Option Json := fun text =>
      if text = select.text then some select.document else some names.document
    let s : Session := ⟨some 2, {}⟩
    let value := Double.ofWord 3
    ∃ w', s.write (Memory.engine parse) "cpu host=a" 5 value (Workspace.begun parse).world =
        (.ok (), w') ∧
      (∃ c v, s.query (Memory.engine parse) select w' = (.ok c, v) ∧
        .ok ⟨some "cpu host=a", some 5, [value]⟩ ∈ (c.items (Memory.engine parse) v).1) ∧
      ∃ n v, s.listing (Memory.engine parse) names w' = (.ok n, v) ∧
        ∃ call, n.itemAt (Memory.engine parse) call v = some (.ok "cpu host=a") := by
  intro select names parse s value
  obtain ⟨w', hwrite, hengine⟩ :=
    Workspace.write_begun parse value (by decide) Series.normalize_cpu
  have hfits : w'.engine.Fits := by
    rw [hengine]
    exact Workspace.fits_begunEngine parse value _
  obtain ⟨name, q, l, hname, hq, hl, hselect, hlisting⟩ := found_of_write
    ⟨by decide, by decide⟩ rfl (fun limit hlimit => by cases hlimit) (fun name _ => by rintro ⟨⟩)
    hwrite hfits
  obtain rfl : "cpu host=a" = name := Option.some.inj (Series.normalize_cpu.symm.trans hname)
  obtain rfl : select = q := Except.ok.inj hq
  obtain rfl : names = l := Except.ok.inj hl
  have hnames : names.text ≠ select.text := by decide
  obtain ⟨c, v, hquery, hitems⟩ := hselect (if_pos rfl)
  obtain ⟨n, v', hlist, hitem⟩ := hlisting (if_neg hnames)
  exact ⟨w', hwrite, ⟨c, v, hquery, hitems.mpr (by decide)⟩, n, v', hlist, hitem.mpr (by decide)⟩

/-- A point of `cpu:max` is not found under it: the metric of its name is `cpu`. -/
theorem missed_of_cpu_max :
    let select : Query := ⟨.select "cpu:max", {}⟩
    let parse : String → Option Json := fun _ => some select.document
    let value := Double.ofWord 3
    let ws := Workspace.begun parse
    ∃ H s w' c v, Reached parse ws H ∧ ws.sessions.find? "s" = some s ∧
      s.it.write (Memory.engine parse) "cpu:max host=a" 5 value ws.world = (.ok (), w') ∧
      Series.normalize "cpu:max host=a" = some "cpu:max host=a" ∧
      Series.token "cpu:max host=a" = "cpu:max" ∧
      Query.build (.select "cpu:max") [] = .ok select ∧ parse select.text = some select.document ∧
      s.it.query (Memory.engine parse) select w' = (.ok c, v) ∧
      .ok ⟨some "cpu:max host=a", some 5, [value]⟩ ∉ (c.items (Memory.engine parse) v).1 := by
  intro select parse value ws
  have hname : Series.normalize "cpu:max host=a" = some "cpu:max host=a" :=
    Series.normalize_of_words "cpu:max".toList "host=a".toList ⟨"host", "a"⟩ rfl rfl
  obtain ⟨w', hwrite, hengine⟩ := Workspace.write_begun parse value (by decide) hname
  have hfits : w'.engine.Fits := by
    rw [hengine]
    exact Workspace.fits_begunEngine parse value _
  obtain ⟨hpanic, name, session, file, st, hname', hhandle, hserves, hshows, hraw, hforgotten,
    hlimit⟩ := shows_of_write hwrite hfits
  obtain rfl : "cpu:max host=a" = name := Option.some.inj (hname.symm.trans hname')
  have hparse : parse (Query.text ⟨.select "cpu:max", {}⟩) = some select.document := rfl
  obtain ⟨c, v, hquery, hitems⟩ := select_of_shows hpanic hraw ⟨by decide, by decide⟩ hhandle hserves
    hshows (by rw [hlimit]; exact fun limit hlimit => by cases hlimit)
    (by rw [hforgotten]; rintro ⟨⟩) hparse
  refine ⟨_, _, w', c, v, Reached.begun parse, rfl, hwrite, hname, by decide, rfl, rfl, hquery,
    fun hmem => ?_⟩
  exact absurd (hitems.mp hmem).1 (by decide)

end Session

end TimeSeries
