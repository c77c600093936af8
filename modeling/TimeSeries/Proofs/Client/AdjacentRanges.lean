import TimeSeries.Proofs.Client.EquivalentStores
import TimeSeries.Proofs.Client.QueryPages
import TimeSeries.Proofs.Query.Bounds
import TimeSeries.Proofs.Store.SelectAnswer

/-!
# Adjacent ranges

A range that is cut at a timestamp between its bounds falls into two: each timestamp that it covers
is covered by one of them, and those of the first are walked through before those of the second
(`TimeRange.Falls`). That is so in either direction, as the start of a range belongs to it and the
stop does not; where a part is empty, its direction does not matter. If the rows of a query are
ordered by time, its rows are those of the first part followed by those of the second
(`Plan.rows_of_falls`): points that share a timestamp are in one part, and rows that share one too.

Main result: `Store.gives_of_between`.
-/

namespace TimeSeries

open Store

/-! ### Ranges that fall into two -/

namespace TimeRange

variable {r first second : TimeRange} {a b c ts ts' : Timestamp}

/-- **A range `r` falls into two**, `first` and `second`, that are walked through one after the
other. -/
structure Falls (r first second : TimeRange) : Prop where
  /-- it covers what one of them covers -/
  covers : ∀ ts, r.contains ts = (first.contains ts || second.contains ts)
  /-- what the first covers is earlier than what the second covers -/
  earlier : ∀ ts ts', first.contains ts = true → second.contains ts' = true → r.Earlier ts ts'
  /-- the first is walked in the same direction, unless it is empty -/
  first : ∀ ts, first.contains ts = true → first.isBackward = r.isBackward
  /-- so is the second -/
  second : ∀ ts, second.contains ts = true → second.isBackward = r.isBackward

theorem isBackward_between : (⟨some a, some b⟩ : TimeRange).isBackward = decide (b < a) := rfl

theorem contains_between :
    (⟨some a, some b⟩ : TimeRange).contains ts = true ↔
      b < a ∧ b < ts ∧ ts ≤ a ∨ a ≤ ts ∧ ts < b := by
  rw [contains]
  dsimp only
  split
  next hback =>
    rw [Bool.and_eq_true, decide_eq_true_iff, decide_eq_true_iff]
    constructor
    · exact fun h => .inl ⟨hback, h⟩
    · rintro (⟨-, h⟩ | ⟨hle, hlt⟩)
      · exact h
      · exact absurd (UInt64.lt_of_le_of_lt hle hlt) (UInt64.lt_asymm hback)
  next hforth =>
    rw [Bool.and_eq_true, decide_eq_true_iff, decide_eq_true_iff]
    constructor
    · exact .inr
    · rintro (⟨hback, -⟩ | h)
      · exact absurd hback hforth
      · exact h

/-- **A range `a..c` that is cut** at a timestamp `b` between its bounds `Falls` into `a..b` and
`b..c`. -/
theorem falls_of_between (h : a ≤ b ∧ b ≤ c ∨ c ≤ b ∧ b ≤ a) :
    Falls ⟨some a, some c⟩ ⟨some a, some b⟩ ⟨some b, some c⟩ := by
  simp only [UInt64.le_iff_toNat_le] at h
  constructor
  · intro ts
    rw [Bool.eq_iff_iff, Bool.or_eq_true, contains_between, contains_between, contains_between]
    simp only [UInt64.lt_iff_toNat_lt, UInt64.le_iff_toNat_le]
    omega
  · intro ts ts' hts hts'
    rw [contains_between] at hts hts'
    simp only [UInt64.lt_iff_toNat_lt, UInt64.le_iff_toNat_le] at hts hts'
    simp only [Earlier, isBackward_between, decide_eq_true_iff, UInt64.lt_iff_toNat_lt]
    split <;> omega
  · intro ts hts
    rw [contains_between] at hts
    rw [isBackward_between, isBackward_between, decide_eq_decide]
    simp only [UInt64.lt_iff_toNat_lt, UInt64.le_iff_toNat_le] at hts ⊢
    omega
  · intro ts hts
    rw [contains_between] at hts
    rw [isBackward_between, isBackward_between, decide_eq_decide]
    simp only [UInt64.lt_iff_toNat_lt, UInt64.le_iff_toNat_le] at hts ⊢
    omega

theorem Falls.covers_first (h : Falls r first second) (hts : first.contains ts = true) :
    r.contains ts = true := by
  rw [h.covers, hts, Bool.true_or]

theorem Falls.covers_second (h : Falls r first second) (hts : second.contains ts = true) :
    r.contains ts = true := by
  rw [h.covers, hts, Bool.or_true]

/-- What `r` covers is covered by `second` if it is not by `first`. -/
theorem Falls.not_first (h : Falls r first second) (hts : r.contains ts = true) :
    (!first.contains ts) = second.contains ts := by
  cases hfirst : first.contains ts with
  | false =>
    rw [h.covers, hfirst, Bool.false_or] at hts
    rw [hts, Bool.not_false]
  | true =>
    cases hsecond : second.contains ts with
    | false => rfl
    | true => exact absurd rfl (r.ne_of_earlier (h.earlier ts ts hfirst hsecond))

end TimeRange

open TimeRange

/-! ### Rows by time -/

namespace Store

variable {r first second part : TimeRange}

/-- What is sorted by `RowKey.le` does not depend on `isBackward` if the range covers nothing of
it. -/
theorem mergeSort_part {α : Type} {key : α → RowKey}
    (hpart : ∀ ts, part.contains ts = true → part.isBackward = r.isBackward) {xs : List α}
    (hxs : ∀ x ∈ xs, part.contains (key x).timestamp = true) :
    (xs.mergeSort fun x y => RowKey.le r .time (key x) (key y)) =
      xs.mergeSort fun x y => RowKey.le part .time (key x) (key y) := by
  cases xs with
  | nil => simp
  | cons x xs =>
    have hsame := hpart _ (hxs x List.mem_cons_self)
    have hle : RowKey.le r .time = RowKey.le part .time := by
      funext a b
      simp only [RowKey.le, timeLe, hsame]
    rw [hle]

/-- **What is sorted by time** is sorted part by part, if the range `Falls` into two. -/
theorem mergeSort_of_falls {α : Type} {key : α → RowKey} (hfalls : Falls r first second)
    {xs : List α} (hxs : ∀ x ∈ xs, r.contains (key x).timestamp = true) :
    (xs.mergeSort fun x y => RowKey.le r .time (key x) (key y)) =
      ((xs.filter fun x => first.contains (key x).timestamp).mergeSort
        fun x y => RowKey.le first .time (key x) (key y)) ++
      (xs.filter fun x => second.contains (key x).timestamp).mergeSort
        fun x y => RowKey.le second .time (key x) (key y) := by
  have hrest : (xs.filter fun x => !first.contains (key x).timestamp) =
      xs.filter fun x => second.contains (key x).timestamp :=
    List.filter_congr fun x hx => hfalls.not_first (hxs x hx)
  have hfirst : ∀ x ∈ xs.filter fun x => first.contains (key x).timestamp,
      first.contains (key x).timestamp = true := fun x hx => (List.mem_filter.mp hx).2
  have hsecond : ∀ x ∈ xs.filter fun x => second.contains (key x).timestamp,
      second.contains (key x).timestamp = true := fun x hx => (List.mem_filter.mp hx).2
  rw [← mergeSort_part hfalls.first hfirst, ← mergeSort_part hfalls.second hsecond, ← hrest]
  refine mergeSort_eq_append (fun x y z => RowKey.le_trans r .time (key x) (key y) (key z))
    (fun x y => RowKey.le_total r .time (key x) (key y)) fun x hx y hy hin hout => ?_
  have hearlier : r.Earlier (key x).timestamp (key y).timestamp := by
    refine hfalls.earlier _ _ hin ?_
    rw [← hfalls.not_first (hxs y hy), hout, Bool.not_false]
  have hle := (RowKey.le_iff_before r .time (key x) (key y)).mpr (.inl (.inl hearlier))
  cases hback : RowKey.le r .time (key y) (key x) with
  | false => rfl
  | true =>
    have hsame := congrArg RowKey.timestamp (RowKey.le_antisymm r .time hle hback)
    exact absurd hsame (r.ne_of_earlier hearlier)

/-! ### Rows of a join at some times -/

theorem filter_putSlot (keep : Timestamp → Bool) (width : Nat) (key : RowKey) (slot : Nat)
    (value : Double) (rows : List JoinRow) :
    ((putSlot width key slot value rows).filter fun row => keep row.key.timestamp) =
      if keep key.timestamp then
        putSlot width key slot value (rows.filter fun row => keep row.key.timestamp)
      else rows.filter fun row => keep row.key.timestamp := by
  induction rows with
  | nil => cases hkeep : keep key.timestamp <;> simp [putSlot, hkeep]
  | cons row rows ih =>
    rw [putSlot]
    by_cases hkey : row.key = key
    · subst hkey
      cases hkeep : keep row.key.timestamp <;> simp [putSlot, hkeep]
    · rw [if_neg hkey, List.filter_cons, List.filter_cons, ih]
      cases hkeep : keep key.timestamp <;> cases hrow : keep row.key.timestamp <;>
        simp [putSlot, hkey]

/-- **Rows at some times**: those that `joinPoint` makes of the points at these times. -/
theorem filter_foldl_joinPoint (keep : Timestamp → Bool) (metrics : List String) (ms : List Match)
    (rows : List JoinRow) :
    ((ms.foldl (joinPoint metrics) rows).filter fun row => keep row.key.timestamp) =
      (ms.filter fun m => keep m.point.timestamp).foldl (joinPoint metrics)
        (rows.filter fun row => keep row.key.timestamp) := by
  induction ms generalizing rows with
  | nil => rfl
  | cons m ms ih =>
    have hpoint : (joinPoint metrics rows m).filter (fun row => keep row.key.timestamp) =
        if keep m.point.timestamp then
          joinPoint metrics (rows.filter fun row => keep row.key.timestamp) m
        else rows.filter fun row => keep row.key.timestamp := by
      rw [joinPoint, joinPoint]
      split
      · exact filter_putSlot keep _ _ _ _ rows
      · exact (ite_self _).symm
    rw [List.foldl_cons, ih, hpoint, List.filter_cons]
    cases keep m.point.timestamp <;> rfl

end Store

/-! ### The rows of a plan -/

section Plans

variable {r first second part : TimeRange} {plan : Plan} {o : Output} {l : List Written}
  {listed : List String}

/-- The `matches` in a part of a range. -/
theorem PointFilter.matches_part (f : PointFilter)
    (hpart : ∀ ts, part.contains ts = true → r.contains ts = true) (l : List Written) :
    (f.ranged part).matches l =
      ((f.ranged r).matches l).filter fun m => part.contains m.point.timestamp := by
  rw [PointFilter.matches, PointFilter.matches, List.filter_map, List.filter_filter]
  refine congrArg _ (List.filter_congr fun w _ => ?_)
  have haccepts : ∀ q, (f.ranged q).accepts w.series = f.accepts w.series := fun _ => rfl
  rw [haccepts, haccepts, range_ranged, range_ranged]
  cases hts : part.contains w.timestamp with
  | false => simp [Match.ofWritten, hts]
  | true => simp [Match.ofWritten, hts, hpart _ hts]

theorem PointFilter.contains_of_mem_matches {f : PointFilter} {m : Match} (h : m ∈ f.matches l) :
    f.range.contains m.point.timestamp = true := by
  obtain ⟨w, hw, rfl⟩ := List.mem_map.mp h
  exact ((Bool.and_eq_true _ _).mp (List.mem_filter.mp hw).2).1

/-- The points of a select, in the order of `RowKey.le`. -/
theorem Plan.sorted_of_falls (hfalls : r.Falls first second) (f : PointFilter) (o : Output)
    (l : List Written) :
    ((((f.ranged r).matches l).filter fun m => o.keeps m.point.value).mergeSort
        fun a b => RowKey.le r .time a.key b.key) =
      ((((f.ranged first).matches l).filter fun m => o.keeps m.point.value).mergeSort
        fun a b => RowKey.le first .time a.key b.key) ++
      (((f.ranged second).matches l).filter fun m => o.keeps m.point.value).mergeSort
        fun a b => RowKey.le second .time a.key b.key := by
  have hcovered : ∀ m ∈ ((f.ranged r).matches l).filter (fun m => o.keeps m.point.value),
      r.contains m.key.timestamp = true := fun m hm =>
    PointFilter.contains_of_mem_matches (List.mem_filter.mp hm).1
  rw [mergeSort_of_falls hfalls hcovered,
    f.matches_part (fun ts => hfalls.covers_first) l,
    f.matches_part (fun ts => hfalls.covers_second) l]
  simp only [List.filter_filter, Match.key, Bool.and_comm]

/-- The rows of a join, as `joined` orders them. -/
theorem Plan.joined_of_falls (hfalls : r.Falls first second) (horder : o.order = .time)
    (hlimit : o.limit = none) (hoffset : o.offset = 0) (f : PointFilter) (l : List Written) :
    joined l (f.ranged r) o =
      joined l (f.ranged first) o ++ joined l (f.ranged second) o := by
  have hcovered : ∀ row ∈ ((f.ranged r).matches l).foldl (joinPoint f.metrics) [],
      r.contains row.key.timestamp = true :=
    timestamp_joinPoints (T := fun ts => r.contains ts = true)
      (fun m hm => PointFilter.contains_of_mem_matches hm) fun row hrow => by cases hrow
  rw [joined, joined, joined, page_of_unpaged hlimit hoffset, page_of_unpaged hlimit hoffset,
    page_of_unpaged hlimit hoffset, horder, PointFilter.range_ranged,
    PointFilter.metrics_ranged, mergeSort_of_falls hfalls hcovered,
    filter_foldl_joinPoint first.contains, filter_foldl_joinPoint second.contains,
    f.matches_part (fun ts => hfalls.covers_first) l,
    f.matches_part (fun ts => hfalls.covers_second) l]
  rfl

/-- **The `rows` of a range that `Falls` into two** are those of the first part and then those of
the second, if they are ordered by time. -/
theorem Plan.rows_of_falls (hfalls : r.Falls first second) (houtput : plan.output? = some o)
    (horder : o.order = .time) (hlimit : o.limit = none) (hoffset : o.offset = 0) :
    (plan.ranged r).rows l listed =
      (plan.ranged first).rows l listed ++ (plan.ranged second).rows l listed := by
  cases plan with
  | names f => cases houtput
  | select f o =>
    cases houtput
    simp only [ranged, revise, rows, id, page_of_unpaged hlimit hoffset, horder,
      PointFilter.range_ranged]
    rw [sorted_of_falls hfalls, List.map_append]
  | join f o =>
    cases houtput
    simp only [ranged, revise, rows, id, PointFilter.metrics_ranged]
    rw [joined_of_falls hfalls horder hlimit hoffset, List.map_append]
  | aggregate f fn => cases houtput

/-- So it is with the names that are `registered`. -/
theorem Plan.registered_of_falls (hfalls : r.Falls first second) (houtput : plan.output? = some o)
    (horder : o.order = .time) (hlimit : o.limit = none) (hoffset : o.offset = 0) :
    (plan.ranged r).registered l =
      (plan.ranged first).registered l ++ (plan.ranged second).registered l := by
  cases plan with
  | names f => cases houtput
  | select f o => rfl
  | join f o =>
    cases houtput
    simp only [ranged, revise, registered, id, PointFilter.metrics_ranged]
    rw [joined_of_falls hfalls horder hlimit hoffset, List.map_append]
  | aggregate f fn => cases houtput

end Plans

namespace Store

variable {s : Store} {root : List (String × Json)} {plan : Plan} {o : Output} {a b c : Timestamp}

/-- **Adjacent ranges**: `query` of a select of points or a join that orders its rows by time
`Gives`, for a range that is cut at a timestamp between its bounds, the rows of the one part and
then those of the other, whichever way it is walked. -/
theorem gives_of_between (hplan : Plan.ofJson (.object root) = .ok plan)
    (houtput : plan.output? = some o) (horder : o.order = .time) (hlimit : o.limit = none)
    (hoffset : o.offset = 0) (hbetween : a ≤ b ∧ b ≤ c ∨ c ≤ b ∧ b ≤ a) (hcoherent : s.Coherent)
    (hcount : (s.query (some (.object (Json.withRange a c root)))).2.Countable) :
    ∃ rows more s₁ s₂ s₃, s.Gives (.object (Json.withRange a b root)) rows s₁ ∧
      s.Gives (.object (Json.withRange b c root)) more s₂ ∧
      s.Gives (.object (Json.withRange a c root)) (rows ++ more) s₃ := by
  obtain ⟨hsound, hpointed⟩ := coherent_iff.mp hcoherent
  obtain ⟨l, hlog⟩ := hpointed.exists_log
  have hfalls := TimeRange.falls_of_between hbetween
  have hwhole := Plan.ofJson_withRange hplan a c
  have hanswer : (s.query (some (.object (Json.withRange a c root)))).2 =
      (s.answer (plan.ranged ⟨some a, some c⟩)).2 := by rw [query, hwhole]
  rw [hanswer] at hcount
  have hnames : ∀ part : Plan, (∀ n ∈ part.registered l,
      n ∈ (plan.ranged ⟨some a, some c⟩).registered l) → (s.answer part).2.Countable := by
    intro part hpart
    refine (sound_answer hsound part).countable_of_subset (fun n hn => ?_) hcount
    rw [mem_names_answer hlog] at hn ⊢
    exact hn.imp_right (hpart n)
  rw [Plan.registered_of_falls hfalls houtput horder hlimit hoffset] at hnames
  have hrows := gives_of_ofJson hlog (Plan.ofJson_withRange hplan a b)
    (hnames _ fun n hn => List.mem_append_left _ hn)
  have hmore := gives_of_ofJson hlog (Plan.ofJson_withRange hplan b c)
    (hnames _ fun n hn => List.mem_append_right _ hn)
  have hall := gives_of_ofJson hlog hwhole hcount
  rw [Plan.rows_of_falls hfalls houtput horder hlimit hoffset] at hall
  exact ⟨_, _, _, _, _, hrows, hmore, hall⟩

/-- A range that is walked backwards is cut at a timestamp that two points share: it belongs to the
second part, which starts there. -/
theorem gives_of_between_backward :
    let s := ofSeries ["m host=a", "m host=b"]
      [⟨1, 7, ⟨0⟩⟩, ⟨1, 5, Double.nan⟩, ⟨2, 5, Double.negZero⟩, ⟨1, 2, ⟨0⟩⟩]
    let root : List (String × Json) := [("order-by", .text "time"), ("select", .text "m")]
    s.Coherent ∧ s.Gives (.object (Json.withRange 7 5 root)) [⟨some "m host=a", some 7, [⟨0⟩]⟩] s ∧
      s.Gives (.object (Json.withRange 5 2 root))
        [⟨some "m host=a", some 5, [Double.nan]⟩, ⟨some "m host=b", some 5, [Double.negZero]⟩] s ∧
      s.Gives (.object (Json.withRange 7 2 root)) [⟨some "m host=a", some 7, [⟨0⟩]⟩,
        ⟨some "m host=a", some 5, [Double.nan]⟩, ⟨some "m host=b", some 5, [Double.negZero]⟩] s := by
  intro s root
  have hplan : Plan.ofJson (.object root) = .ok (.select ⟨["m"], {}, none⟩ ⟨.time, [], none, 0⟩) := by
    decide +kernel
  have hcoherent : s.Coherent := coherent_iff.mpr ⟨sound_ofSeries _ _, by decide +kernel⟩
  have hstore : ∀ a b, (s.query (some (.object (Json.withRange a b root)))).2 = s := by
    intro a b
    rw [query, Plan.ofJson_withRange hplan]
    rfl
  have hfirst : s.Gives (.object (Json.withRange 7 5 root)) [⟨some "m host=a", some 7, [⟨0⟩]⟩] s := by
    refine ⟨[.scalar 1 7 ⟨0⟩], ?_, by decide +kernel⟩
    rw [query, Plan.ofJson_withRange hplan]
    dsimp only [Plan.ranged, Plan.revise, answer, select]
    rw [List.mergeSort_of_pairwise (by decide +kernel)]
    decide +kernel
  have hsecond : s.Gives (.object (Json.withRange 5 2 root))
      [⟨some "m host=a", some 5, [Double.nan]⟩, ⟨some "m host=b", some 5, [Double.negZero]⟩] s := by
    refine ⟨[.scalar 1 5 Double.nan, .scalar 2 5 Double.negZero], ?_, by decide +kernel⟩
    rw [query, Plan.ofJson_withRange hplan]
    dsimp only [Plan.ranged, Plan.revise, answer, select]
    rw [List.mergeSort_of_pairwise (by decide +kernel)]
    decide +kernel
  obtain ⟨rows, more, s₁, s₂, s₃, hrows, hmore, hwhole⟩ :=
    gives_of_between hplan rfl rfl rfl rfl (a := 7) (b := 5) (c := 2) (by decide) hcoherent
      (by rw [hstore]; decide)
  obtain ⟨rfl, -⟩ := hrows.unique hfirst
  obtain ⟨rfl, -⟩ := hmore.unique hsecond
  have hstays : s₃ = s := by
    obtain ⟨_, hquery, -⟩ := hwhole
    exact (congrArg Prod.snd hquery).symm.trans (hstore 7 2)
  rw [hstays] at hwhole
  exact ⟨hcoherent, hfirst, hsecond, hwhole⟩

end Store

end TimeSeries
