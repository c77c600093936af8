import TimeSeries.Proofs.Query.Plan
import TimeSeries.Proofs.Sample.RoundTrip
import TimeSeries.Proofs.Store.Names
import TimeSeries.Store.Answer

/-!
# The records of an answer

Whatever a store is asked, its answer travels: every record can be encoded
(`Store.encodable_query`), and its series has a name in the store as the answer leaves it
(`Store.named_query`). The names that joins and aggregates make up for their rows are
registered before the records are given out; the store only grows by them
(`Store.grows_query`).
-/

namespace TimeSeries.Store

/-- **Named records**: the series has a `name?`. -/
def Names (s : Store) (r : Record) : Prop := ∃ name, s.name? r.series = some name

theorem Names.of_grows {s s' : Store} {r : Record} (h : s.Grows s') (hr : s.Names r) :
    s'.Names r := by
  obtain ⟨name, hname⟩ := hr
  exact ⟨name, h.name? hname⟩

/-! ### Rows that are registered one after another -/

section RegisterAll

variable {α : Type} {step : Store → α → Record × Store}

theorem grows_registerAll (hstep : ∀ (s : Store) (row : α), s.Grows (step s row).2) (s : Store)
    (rows : List α) :
    s.Grows (registerAll step s rows).2 := by
  induction rows generalizing s with
  | nil => exact .refl s
  | cons row rows ih => exact (hstep s row).trans (ih _)

/-- What is so of the record of each row is so of all. -/
theorem forall_registerAll {P : Record → Prop} {rows : List α}
    (hstep : ∀ s, ∀ row ∈ rows, P (step s row).1) (s : Store) :
    ∀ r ∈ (registerAll step s rows).1, P r := by
  induction rows generalizing s with
  | nil => intro r hr; cases hr
  | cons row rows ih =>
    intro r hr
    rcases List.mem_cons.mp hr with rfl | hr
    · exact hstep s row List.mem_cons_self
    · exact ih (fun s row hrow => hstep s row (List.mem_cons_of_mem _ hrow)) _ r hr

/-- Names that `registerAll` registered early are still there in the end. -/
theorem names_registerAll (hgrows : ∀ (s : Store) (row : α), s.Grows (step s row).2)
    (hstep : ∀ (s : Store) (row : α),
      (step s row).2.Countable → (step s row).2.Names (step s row).1)
    (s : Store) (rows : List α) (hcount : (registerAll step s rows).2.Countable) :
    ∀ r ∈ (registerAll step s rows).1, (registerAll step s rows).2.Names r := by
  induction rows generalizing s with
  | nil => intro r hr; cases hr
  | cons row rows ih =>
    intro r hr
    have hrest := grows_registerAll hgrows (step s row).2 rows
    rcases List.mem_cons.mp hr with rfl | hr
    · exact .of_grows hrest (hstep s row (.of_grows hrest hcount))
    · exact ih _ hcount r hr

end RegisterAll

/-! ### Joins -/

theorem mem_of_mem_page {α : Type} {o : Output} {rows : List α} {row : α} (h : row ∈ o.page rows) :
    row ∈ rows := by
  rw [Output.page] at h
  split at h
  · exact List.mem_of_mem_drop (List.mem_of_mem_take h)
  · exact List.mem_of_mem_drop h

/-- What is so of a row that is begun, and stays so when a slot is set, is so of all rows of
`putSlot`. -/
theorem forall_putSlot {P : JoinRow → Prop} {width slot : Nat} {key : RowKey} {value : Double}
    {rows : List JoinRow} (hbegun : P ⟨key, (List.replicate width none).set slot (some value)⟩)
    (hset : ∀ row, P row → P { row with slots := row.slots.set slot (some value) })
    (h : ∀ row ∈ rows, P row) : ∀ row ∈ putSlot width key slot value rows, P row := by
  induction rows with
  | nil =>
    intro row hrow
    obtain rfl := List.mem_singleton.mp hrow
    exact hbegun
  | cons first rows ih =>
    have hfirst := h first List.mem_cons_self
    have hrows := fun row hrow => h row (List.mem_cons_of_mem _ hrow)
    intro row hrow
    rw [putSlot] at hrow
    split at hrow
    · rcases List.mem_cons.mp hrow with rfl | hrow
      · exact hset first hfirst
      · exact hrows row hrow
    · rcases List.mem_cons.mp hrow with rfl | hrow
      · exact hfirst
      · exact ih hrows row hrow

/-- A row of a join has one slot for each metric. -/
theorem length_slots_putSlot {width slot : Nat} {key : RowKey} {value : Double}
    {rows : List JoinRow} (h : ∀ row ∈ rows, row.slots.length = width) :
    ∀ row ∈ putSlot width key slot value rows, row.slots.length = width := by
  refine forall_putSlot ?_ (fun row hrow => ?_) h
  · rw [List.length_set, List.length_replicate]
  · rw [List.length_set, hrow]

/-- Rows of points have one slot for each metric. -/
theorem length_slots_foldl {metrics : List String} {rows : List JoinRow}
    (h : ∀ row ∈ rows, row.slots.length = metrics.length) (ms : List Match) :
    ∀ row ∈ ms.foldl (joinPoint metrics) rows, row.slots.length = metrics.length := by
  induction ms generalizing rows with
  | nil => exact h
  | cons m ms ih =>
    refine ih ?_
    rw [joinPoint]
    split
    · exact length_slots_putSlot h
    · exact h

theorem length_slots_joinRows (s : Store) (f : PointFilter) (o : Output) :
    ∀ row ∈ s.joinRows f o, row.slots.length = f.metrics.length := by
  intro row hrow
  exact length_slots_foldl (fun row hrow => by cases hrow) _ row (List.mem_mergeSort.mp hrow)

/-! ### Points that match -/

section Matching

variable {s : Store} {f : PointFilter} {p : Point} {m : Match}

/-- The `Match` of a point, if the filter lets it through. -/
def matchAt? (s : Store) (f : PointFilter) (p : Point) : Option Match :=
  if f.range.contains p.timestamp then
    match s.name? p.series with
    | some name => if f.accepts name then some ⟨name, p⟩ else none
    | none => none
  else none

theorem matching_eq (s : Store) (f : PointFilter) :
    s.matching f = s.points.filterMap (s.matchAt? f) := rfl

theorem matchAt?_eq_some :
    s.matchAt? f p = some m ↔ m.point = p ∧ s.name? p.series = some m.name ∧
      f.range.contains p.timestamp = true ∧ f.accepts m.name = true := by
  rw [matchAt?]
  constructor
  · intro hm
    split at hm
    next hrange =>
      split at hm
      next name hname =>
        split at hm
        next haccepts =>
          cases hm
          exact ⟨rfl, hname, hrange, haccepts⟩
        next => cases hm
      next => cases hm
    next => cases hm
  · rintro ⟨rfl, hname, hrange, haccepts⟩
    simp [hrange, hname, haccepts]

/-- **The points that are `matching`** have a name that the filter accepts, and lie in its range. -/
theorem mem_matching :
    m ∈ s.matching f ↔ m.point ∈ s.points ∧ s.name? m.point.series = some m.name ∧
      f.range.contains m.point.timestamp = true ∧ f.accepts m.name = true := by
  rw [matching_eq, List.mem_filterMap]
  constructor
  · rintro ⟨p, hp, hm⟩
    obtain ⟨rfl, hrest⟩ := matchAt?_eq_some.mp hm
    exact ⟨hp, hrest⟩
  · rintro ⟨hp, hrest⟩
    exact ⟨m.point, hp, matchAt?_eq_some.mpr ⟨rfl, hrest⟩⟩

/-- A point that matches has a name. -/
theorem name?_of_mem_matching (h : m ∈ s.matching f) : s.name? m.point.series = some m.name :=
  (mem_matching.mp h).2.1

end Matching

/-! ### One lemma for each sort of plan -/

theorem names_select {s : Store} {f : PointFilter} {o : Output} :
    ∀ r ∈ s.select f o, s.Names r := by
  intro r hr
  obtain ⟨m, hm, rfl⟩ := List.mem_map.mp hr
  have hm := (List.mem_filter.mp (List.mem_mergeSort.mp (mem_of_mem_page hm))).1
  exact ⟨m.name, name?_of_mem_matching hm⟩

theorem names_list {s : Store} {f : PointFilter} : ∀ r ∈ s.list f, s.Names r := by
  intro r hr
  obtain ⟨e, he, rfl⟩ := List.mem_map.mp hr
  have he := (List.mem_filter.mp (List.mem_mergeSort.mp he)).1
  obtain ⟨id, -, hid⟩ := List.mem_filterMap.mp he
  obtain ⟨name, hname, rfl⟩ := Option.map_eq_some_iff.mp hid
  exact ⟨name, hname⟩

theorem grows_registerJoin (metrics : List String) (s : Store) (row : JoinRow) :
    s.Grows (registerJoin metrics s row).2 := register_grows s _

theorem grows_registerReduced (f : Aggregate) (s : Store) (row : Reduced) :
    s.Grows (registerReduced f s row).2 := register_grows s _

/-! ### All plans -/

/-- **An `answer` only adds names.** -/
theorem grows_answer (s : Store) (p : Plan) : s.Grows (s.answer p).2 := by
  cases p with
  | names f => exact .refl s
  | select f o => exact .refl s
  | join f o => exact grows_registerAll (grows_registerJoin f.metrics) s _
  | aggregate f fn => exact grows_registerAll (grows_registerReduced fn) s _

theorem encodable_answer {s : Store} {p : Plan} (hp : p.Narrow) :
    ∀ r ∈ (s.answer p).1, r.Encodable := by
  cases p with
  | names f =>
    intro r hr
    obtain ⟨e, -, rfl⟩ := List.mem_map.mp hr
    trivial
  | select f o =>
    intro r hr
    obtain ⟨m, -, rfl⟩ := List.mem_map.mp hr
    trivial
  | join f o =>
    refine forall_registerAll (fun s row hrow => ?_) s
    have hlength := length_slots_joinRows _ f o row (mem_of_mem_page hrow)
    exact Nat.le_trans (Nat.le_of_eq hlength) hp
  | aggregate f fn =>
    refine forall_registerAll (fun s row hrow => ?_) s
    trivial

theorem names_answer {s : Store} {p : Plan} (hcount : (s.answer p).2.Countable) :
    ∀ r ∈ (s.answer p).1, (s.answer p).2.Names r := by
  cases p with
  | names f => exact names_list
  | select f o => exact names_select
  | join f o =>
    exact names_registerAll (grows_registerJoin f.metrics)
      (fun s row h => ⟨_, name?_register h⟩) s _ hcount
  | aggregate f fn =>
    exact names_registerAll (grows_registerReduced fn)
      (fun s row h => ⟨_, name?_register h⟩) s _ hcount

/-! ### Documents -/

variable {s s' : Store} {document : Option Json} {records : List Record}

/-- A `query` that is answered was read as a plan. -/
theorem exists_plan_of_query (h : s.query document = (.ok records, s')) :
    ∃ j plan, document = some j ∧ Plan.ofJson j = .ok plan ∧ s.answer plan = (records, s') := by
  cases document with
  | none => cases h
  | some j =>
    simp only [query] at h
    split at h
    next => cases h
    next plan hplan =>
      cases h
      exact ⟨j, plan, rfl, hplan, rfl⟩

/-- **Every record of an answer is `Encodable`.** -/
theorem encodable_query (h : (s.query document).1 = .ok records) : ∀ r ∈ records, r.Encodable := by
  obtain ⟨j, plan, -, hplan, hanswer⟩ := exists_plan_of_query (Prod.ext h rfl)
  have hrecords := encodable_answer (s := s) (Plan.narrow_of_ofJson hplan)
  rw [hanswer] at hrecords
  exact hrecords

/-- **Every record of an answer has a name** in the store that `query` leaves. -/
theorem names_query (h : s.query document = (.ok records, s')) (hcount : s'.Countable) :
    ∀ r ∈ records, s'.Names r := by
  obtain ⟨j, plan, -, -, hanswer⟩ := exists_plan_of_query h
  have hnames := names_answer (s := s) (p := plan) (by rw [hanswer]; exact hcount)
  rw [hanswer] at hnames
  exact hnames

/-- **A `query` only adds names.** -/
theorem grows_query (s : Store) (document : Option Json) : s.Grows (s.query document).2 := by
  cases document with
  | none => exact .refl s
  | some j =>
    simp only [query]
    split
    · exact .refl s
    · exact grows_answer s _

/-- **A `query` that is refused** leaves the store as it was, and is refused properly, with one of
the `refusals`. -/
theorem refused_query {status : Status} (h : s.query document = (.error status, s')) :
    s' = s ∧ status ∈ Parsed.refusals := by
  cases document with
  | none =>
    cases h
    exact ⟨rfl, by decide⟩
  | some j =>
    simp only [query] at h
    split at h
    next hplan =>
      cases h
      exact ⟨rfl, Plan.refusal_of_ofJson hplan⟩
    next => cases h

end TimeSeries.Store
