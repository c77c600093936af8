import TimeSeries.Proofs.Client.SelectHistory
import TimeSeries.Proofs.Client.ServedCommands
import TimeSeries.Proofs.Store.Listed

/-!
# What answers show

Rows name their series, so no id is seen in an answer: what is shown of it depends on the log
of the store and on the names it lists, and on nothing else. `Plan.rows` makes the rows of a
plan from these two, and `Store.rows_answer` says that they are the rows of the answer, under
whatever ids the store keeps its names and gets to keep those of the answer.
-/

namespace TimeSeries

namespace Store

/-- The `Match` that a written point makes, without an id. -/
def Match.ofWritten (w : Written) : Match := ⟨w.series, ⟨0, w.timestamp, w.value⟩⟩

/-- The `Row` that shows a joined row. -/
def JoinRow.row (metrics : List String) (r : JoinRow) : Row :=
  ⟨some (joinName metrics r.key.text), some r.key.timestamp,
    r.slots.map fun slot => slot.getD Double.nan⟩

/-- The `Row` that shows a reduced series. -/
def Reduced.row (f : Aggregate) (r : Reduced) : Row :=
  ⟨some (aggregateName f r.name), some r.timestamp, [r.value]⟩

end Store

/-- The points of a `log` that a filter lets through. -/
def PointFilter.matches (f : PointFilter) (log : List Written) : List Store.Match :=
  (log.filter fun w => f.range.contains w.timestamp && f.accepts w.series).map .ofWritten

namespace Plan

open Store

/-- The joined rows of a plan, made from a `log` as `Store.joinRows` makes them from a store. -/
def joined (log : List Written) (f : PointFilter) (o : Output) : List JoinRow :=
  o.page (((f.matches log).foldl (joinPoint f.metrics) []).mergeSort
    fun a b => RowKey.le f.range o.order a.key b.key)

/-- **The rows of a plan**, made from a `log` and from the names that are `listed`. -/
def rows (log : List Written) (listed : List String) : Plan → List Row
  | names f => ((listed.filter f.accepts).mergeSort fun a b => a ≤ b).map fun name =>
    ⟨some name, some 0, []⟩
  | select f o =>
    (o.page (((f.matches log).filter fun m => o.keeps m.point.value).mergeSort
      fun a b => RowKey.le f.range o.order a.key b.key)).map fun m => m.written.row
  | join f o => (joined log f o).map (JoinRow.row f.metrics)
  | aggregate f fn => (reduceAll fn (f.matches log)).map (Reduced.row fn)

/-- The names that `Store.answer` registers for a plan. -/
def registered (log : List Written) : Plan → List String
  | names _ | select _ _ => []
  | join f o => (joined log f o).map fun row => joinName f.metrics row.key.text
  | aggregate f fn => (reduceAll fn (f.matches log)).map fun r => aggregateName fn r.name

end Plan

theorem Output.page_map {α β : Type} (o : Output) (g : α → β) (rows : List α) :
    o.page (rows.map g) = (o.page rows).map g := by
  rw [page, page]
  split
  · rw [List.map_take, List.map_drop]
  · rw [List.map_drop]

/-- A point without the id of its series. -/
def Point.bare (p : Point) : Point := { p with series := 0 }

namespace Store

variable {s s' : Store} {l : List Written}

/-! ### Points without ids -/

/-- A `Match` without its id. -/
def Match.bare (m : Match) : Match := .ofWritten m.written

theorem matching_bare (hlog : s.log = l.map some) (f : PointFilter) :
    (s.matching f).map Match.bare = f.matches l := by
  rw [PointFilter.matches, ← matching_of_log hlog, List.map_map]
  rfl

/-- Joining, by `joinPoint`, makes nothing of ids. -/
theorem foldl_joinPoint_bare (metrics : List String) (ms : List Match) (rows : List JoinRow) :
    (ms.map Match.bare).foldl (joinPoint metrics) rows = ms.foldl (joinPoint metrics) rows := by
  rw [List.foldl_map]
  rfl

theorem smallest_bare (best : Point) (ps : List Point) :
    smallest best.bare (ps.map Point.bare) = (smallest best ps).bare := by
  induction ps generalizing best with
  | nil => rfl
  | cons p ps ih =>
    rw [List.map_cons, smallest, smallest, ← ih]
    congr 1
    exact (apply_ite Point.bare _ _ _).symm

theorem largest_bare (best : Point) (ps : List Point) :
    largest best.bare (ps.map Point.bare) = (largest best ps).bare := by
  induction ps generalizing best with
  | nil => rfl
  | cons p ps ih =>
    rw [List.map_cons, largest, largest, ← ih]
    congr 1
    exact (apply_ite Point.bare _ _ _).symm

theorem reduce_bare (f : Aggregate) (p : Point) (ps : List Point) :
    reduce f p.bare (ps.map Point.bare) = reduce f p ps := by
  have hlatest : latest p.bare (ps.map Point.bare) = (latest p ps).bare := by
    rw [latest, latest, List.getLastD_eq_getLast?, List.getLastD_eq_getLast?, List.getLast?_map]
    cases ps.getLast? <;> rfl
  have hvalues : (p.bare :: ps.map Point.bare).map Point.value = (p :: ps).map Point.value := by
    rw [← List.map_cons, List.map_map]
    rfl
  simp only [reduce, hlatest, hvalues, smallest_bare, largest_bare, List.length_map]
  cases f <;> rfl

theorem seriesPoints_bare (ms : List Match) (name : String) :
    seriesPoints (ms.map Match.bare) name = (seriesPoints ms name).map Point.bare := by
  have hsorted := List.map_mergeSort (f := Point.bare)
    (r := fun a b => a.timestamp ≤ b.timestamp) (s := fun a b => a.timestamp ≤ b.timestamp)
    (l := (ms.filter fun m => m.name == name).map Match.point) fun a _ b _ => rfl
  rw [seriesPoints, seriesPoints, List.filter_map, List.map_map, hsorted, List.map_map]
  rfl

/-- Reducing, by `reduceAll`, makes nothing of ids. -/
theorem reduceAll_bare (f : Aggregate) (ms : List Match) :
    reduceAll f (ms.map Match.bare) = reduceAll f ms := by
  have hnames : seriesNames (ms.map Match.bare) = seriesNames ms := by
    rw [seriesNames, seriesNames, List.map_map]
    rfl
  rw [reduceAll, reduceAll, hnames]
  refine List.filterMap_congr fun name _ => ?_
  rw [seriesPoints_bare]
  cases seriesPoints ms name with
  | nil => rfl
  | cons p ps => simp only [List.map_cons, reduce_bare]

/-! ### One lemma for each sort of plan -/

/-- A `listing` is of the `listedNames`, in order. -/
theorem map_fst_listing (s : Store) (f : PointFilter) :
    (s.listing f).map Prod.fst =
      (s.listedNames.filter f.accepts).mergeSort fun a b => a ≤ b := by
  rw [listing, List.map_mergeSort (f := Prod.fst) (s := fun a b : String => a ≤ b)
    fun a _ b _ => rfl]
  congr 1
  rw [List.filter_filterMap, List.map_filterMap, listedNames, List.filter_filterMap]
  refine List.filterMap_congr fun id _ => ?_
  cases s.name? id with
  | none => rfl
  | some name => by_cases haccepts : f.accepts name = true <;> simp [Option.filter, haccepts]

theorem rows_list (s : Store) (f : PointFilter) :
    (s.list f).map s.row =
      ((s.listedNames.filter f.accepts).mergeSort fun a b => a ≤ b).map fun name =>
        ⟨some name, some 0, []⟩ := by
  rw [← map_fst_listing, list, List.map_map, List.map_map]
  refine List.map_congr_left fun e he => ?_
  obtain ⟨id, -, hid⟩ := List.mem_filterMap.mp (List.mem_filter.mp (List.mem_mergeSort.mp he)).1
  obtain ⟨name, hname, rfl⟩ := Option.map_eq_some_iff.mp hid
  simp [row, Record.series, Record.timestamp, Record.values, hname]

theorem rows_select_plan (hlog : s.log = l.map some) (f : PointFilter) (o : Output) :
    (s.select f o).map s.row =
      (o.page (((f.matches l).filter fun m => o.keeps m.point.value).mergeSort
        fun a b => RowKey.le f.range o.order a.key b.key)).map fun m => m.written.row := by
  have hsorted : ((f.matches l).filter fun m => o.keeps m.point.value).mergeSort
        (fun a b => RowKey.le f.range o.order a.key b.key) =
      (((s.matching f).filter fun m => o.keeps m.point.value).mergeSort
        fun a b => RowKey.le f.range o.order a.key b.key).map Match.bare := by
    rw [← matching_bare hlog, List.filter_map]
    exact (List.map_mergeSort (f := Match.bare) fun a _ b _ => rfl).symm
  rw [hsorted, Output.page_map, select, List.map_map, List.map_map]
  refine List.map_congr_left fun m hm => ?_
  have hm := (List.mem_filter.mp (List.mem_mergeSort.mp (mem_of_mem_page hm))).1
  simp [row, Written.row, Match.record, Match.bare, Match.ofWritten, Match.written, Record.series,
    Record.timestamp, Record.values, name?_of_mem_matching hm]

theorem joinRows_eq (hlog : s.log = l.map some) (f : PointFilter) (o : Output) :
    o.page (s.joinRows f o) = Plan.joined l f o := by
  rw [joinRows, Plan.joined, ← matching_bare hlog, foldl_joinPoint_bare]

section RegisterAll

variable {α : Type} {step : Store → α → Record × Store} {nameOf : α → String} {rowOf : α → Row}

/-- **Rows that are registered** by `registerAll` are shown by the names they are registered by. -/
theorem rows_registerAll
    (hstep : ∀ (s : Store) (row : α), (step s row).2 = (s.register (nameOf row)).2)
    (hid : ∀ (s : Store) (row : α), (step s row).1.series = (s.register (nameOf row)).1)
    (hrow : ∀ (s s' : Store) (row : α), s'.name? (step s row).1.series = some (nameOf row) →
      s'.row (step s row).1 = rowOf row)
    (s : Store) (rows : List α) (hcount : (registerAll step s rows).2.Countable) :
    (registerAll step s rows).1.map (registerAll step s rows).2.row = rows.map rowOf := by
  induction rows generalizing s with
  | nil => rfl
  | cons row rows ih =>
    have hrest : (step s row).2.Grows (registerAll step (step s row).2 rows).2 :=
      grows_registerAll (fun s row => by rw [hstep]; exact register_grows s _) _ rows
    have hname : (step s row).2.name? (step s row).1.series = some (nameOf row) := by
      have hcount' := Countable.of_grows hrest hcount
      rw [hstep] at hcount' ⊢
      rw [hid]
      exact name?_register hcount'
    exact congrArg₂ _ (hrow s _ row (hrest.name? hname)) (ih _ hcount)

end RegisterAll

/-- **The rows of an `answer`** are those that `Plan.rows` makes of the `log` and the `listedNames`,
if the names can be counted. -/
theorem rows_answer (hlog : s.log = l.map some) (p : Plan) (hcount : (s.answer p).2.Countable) :
    (s.answer p).1.map (s.answer p).2.row = p.rows l s.listedNames := by
  cases p with
  | names f => exact rows_list s f
  | select f o => exact rows_select_plan hlog f o
  | join f o =>
    rw [Plan.rows, ← joinRows_eq hlog]
    exact @rows_registerAll _ (registerJoin f.metrics)
      (fun row => joinName f.metrics row.key.text) (JoinRow.row f.metrics)
      (fun _ _ => rfl) (fun _ _ => rfl) (fun _ _ _ hname => by rw [row, hname]; rfl) s _ hcount
  | aggregate f fn =>
    rw [Plan.rows, ← matching_bare hlog, reduceAll_bare]
    exact @rows_registerAll _ (registerReduced fn)
      (fun r => aggregateName fn r.name) (Reduced.row fn)
      (fun _ _ => rfl) (fun _ _ => rfl) (fun _ _ _ hname => by rw [row, hname]; rfl) s _ hcount

/-- **The names after an `answer`** are those before and those it has `registered`. -/
theorem mem_names_answer (hlog : s.log = l.map some) (p : Plan) {n : String} :
    n ∈ (s.answer p).2.names ↔ n ∈ s.names ∨ n ∈ p.registered l := by
  cases p with
  | names f => simp [answer, Plan.registered]
  | select f o => simp [answer, Plan.registered]
  | join f o =>
    rw [Plan.registered, ← joinRows_eq hlog]
    exact mem_names_registerAll (fun _ _ => rfl) s _
  | aggregate f fn =>
    rw [Plan.registered, ← matching_bare hlog, reduceAll_bare]
    exact mem_names_registerAll (fun _ _ => rfl) s _

end Store

end TimeSeries
