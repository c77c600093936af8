import TimeSeries.Proofs.Distinct
import TimeSeries.Proofs.Store.JoinAnswer

/-!
# What an aggregate answers

An aggregate has one record for each series that has a point which matches, in the order of their
names. The points of a series are taken in their course: by timestamp and, at one timestamp, as they
were written (`Store.Course`). The function of the aggregate picks one of them (`Aggregate.Picks`),
which gives the timestamp, and makes a value of it and the others (`Aggregate.value`). Values are
compared in an order where every pattern of bits has its own place (`Double.Below`), and ties are
not all decided in one way: of the smallest values the earliest is picked, of the largest the
latest.

Main result: `Store.rows_of_aggregate`.
-/

namespace TimeSeries

/-! ### The order of values -/

namespace Double

/-- **Below** another value: a negative one is below every other one and, of two, the one of larger
magnitude is. So negative zero is below zero, and a NaN is farther out than infinity. -/
def Below (a b : Double) : Prop :=
  match a.isNegative, b.isNegative with
  | true, true => b.magnitude < a.magnitude
  | true, false => True
  | false, true => False
  | false, false => a.magnitude < b.magnitude

theorem below_iff_rank {a b : Double} : a.Below b ↔ a.rank < b.rank := by
  rw [Below, rank, rank]
  cases a.isNegative <;> cases b.isNegative <;> simp
  all_goals omega

/-- **Every pattern of bits has its own `rank`.** -/
theorem eq_of_rank_eq {a b : Double} (h : a.rank = b.rank) : a = b := by
  obtain ⟨a⟩ := a
  obtain ⟨b⟩ := b
  have hbits : a.toNat = b.toNat := by
    have ha := a.toNat_lt
    have hb := b.toNat_lt
    by_cases hnegative : signBit ≤ a.toNat <;> by_cases hnegative' : signBit ≤ b.toNat <;>
      simp [rank, isNegative, magnitude, hnegative, hnegative'] at h <;>
      simp only [signBit] at hnegative hnegative' h <;> omega
  rw [UInt64.toNat_inj.mp hbits]

/-- Of two values one is `Below`, unless they are the same. -/
theorem eq_or_below_of_rank_le {a b : Double} (h : a.rank ≤ b.rank) : a = b ∨ a.Below b := by
  rw [below_iff_rank]
  exact (Int.le_iff_eq_or_lt.mp h).imp_left eq_of_rank_eq

end Double

/-! ### Points that are picked -/

/-- **The earliest of the smallest**: the values before it are above it, and of those after it none
is `Below`. -/
def Least (points : List Point) (p : Point) : Prop :=
  ∃ before after, points = before ++ p :: after ∧ (∀ q ∈ before, p.value.Below q.value) ∧
    ∀ q ∈ after, p.value = q.value ∨ p.value.Below q.value

/-- **The latest of the largest**: of the values before it none is above, and those after it are
`Below` it. -/
def Greatest (points : List Point) (p : Point) : Prop :=
  ∃ before after, points = before ++ p :: after ∧
    (∀ q ∈ before, q.value = p.value ∨ q.value.Below p.value) ∧ ∀ q ∈ after, q.value.Below p.value

section Picked

variable {points : List Point} {best p q : Point}

theorem Least.rank_le (h : Least points p) (hq : q ∈ points) : p.value.rank ≤ q.value.rank := by
  obtain ⟨before, after, rfl, hbefore, hafter⟩ := h
  rcases List.mem_append.mp hq with hq | hq
  · exact Int.le_of_lt (Double.below_iff_rank.mp (hbefore q hq))
  · rcases List.mem_cons.mp hq with rfl | hq
    · exact Int.le_refl _
    · obtain heq | hbelow := hafter q hq
      · rw [heq]
      · exact Int.le_of_lt (Double.below_iff_rank.mp hbelow)

/-- A point above the least may come before it. -/
theorem Least.cons (h : Least points p) (hbelow : p.value.Below q.value) :
    Least (q :: points) p := by
  obtain ⟨before, after, rfl, hbefore, hafter⟩ := h
  exact ⟨q :: before, after, rfl, List.forall_mem_cons.mpr ⟨hbelow, hbefore⟩, hafter⟩

/-- A point that is not below the first may come next. -/
theorem Least.insert (h : Least (best :: points) p) (hle : best.value.rank ≤ q.value.rank) :
    Least (best :: q :: points) p := by
  obtain ⟨before, after, hsplit, hbefore, hafter⟩ := h
  cases before with
  | nil =>
    obtain ⟨rfl, rfl⟩ := List.cons.inj hsplit
    have hq := Double.eq_or_below_of_rank_le hle
    exact ⟨[], q :: points, rfl, hbefore, List.forall_mem_cons.mpr ⟨hq, hafter⟩⟩
  | cons _ before =>
    obtain ⟨rfl, rfl⟩ := List.cons.inj hsplit
    obtain ⟨hbest, hbefore⟩ := List.forall_mem_cons.mp hbefore
    have hq := Int.lt_of_lt_of_le (Double.below_iff_rank.mp hbest) hle
    exact ⟨best :: q :: before, after, rfl, List.forall_mem_cons.mpr ⟨hbest,
      List.forall_mem_cons.mpr ⟨Double.below_iff_rank.mpr hq, hbefore⟩⟩, hafter⟩

theorem Greatest.rank_le (h : Greatest points p) (hq : q ∈ points) :
    q.value.rank ≤ p.value.rank := by
  obtain ⟨before, after, rfl, hbefore, hafter⟩ := h
  rcases List.mem_append.mp hq with hq | hq
  · obtain heq | hbelow := hbefore q hq
    · rw [heq]
    · exact Int.le_of_lt (Double.below_iff_rank.mp hbelow)
  · rcases List.mem_cons.mp hq with rfl | hq
    · exact Int.le_refl _
    · exact Int.le_of_lt (Double.below_iff_rank.mp (hafter q hq))

/-- A point that is not above the greatest may come before it. -/
theorem Greatest.cons (h : Greatest points p) (hle : q.value.rank ≤ p.value.rank) :
    Greatest (q :: points) p := by
  obtain ⟨before, after, rfl, hbefore, hafter⟩ := h
  have hq := Double.eq_or_below_of_rank_le hle
  exact ⟨q :: before, after, rfl, List.forall_mem_cons.mpr ⟨hq, hbefore⟩, hafter⟩

/-- A point below the first may come next. -/
theorem Greatest.insert (h : Greatest (best :: points) p) (hbelow : q.value.Below best.value) :
    Greatest (best :: q :: points) p := by
  have hle := h.rank_le List.mem_cons_self
  obtain ⟨before, after, hsplit, hbefore, hafter⟩ := h
  cases before with
  | nil =>
    obtain ⟨rfl, rfl⟩ := List.cons.inj hsplit
    exact ⟨[], q :: points, rfl, hbefore, List.forall_mem_cons.mpr ⟨hbelow, hafter⟩⟩
  | cons _ before =>
    obtain ⟨rfl, rfl⟩ := List.cons.inj hsplit
    obtain ⟨hbest, hbefore⟩ := List.forall_mem_cons.mp hbefore
    have hq := Int.lt_of_lt_of_le (Double.below_iff_rank.mp hbelow) hle
    exact ⟨best :: q :: before, after, rfl, List.forall_mem_cons.mpr ⟨hbest,
      List.forall_mem_cons.mpr ⟨.inr (Double.below_iff_rank.mpr hq), hbefore⟩⟩, hafter⟩

end Picked

namespace Store

/-- **What `smallest` gives** is the earliest of the smallest. -/
theorem least_smallest (best : Point) (ps : List Point) :
    Least (best :: ps) (smallest best ps) := by
  induction ps generalizing best with
  | nil => exact ⟨[], [], rfl, List.forall_mem_nil _, List.forall_mem_nil _⟩
  | cons p ps ih =>
    rw [smallest]
    by_cases hless : p.value.rank < best.value.rank
    · rw [if_pos hless]
      have hle := (ih p).rank_le List.mem_cons_self
      exact (ih p).cons (Double.below_iff_rank.mpr (Int.lt_of_le_of_lt hle hless))
    · rw [if_neg hless]
      exact (ih best).insert (Int.not_lt.mp hless)

/-- **What `largest` gives** is the latest of the largest. -/
theorem greatest_largest (best : Point) (ps : List Point) :
    Greatest (best :: ps) (largest best ps) := by
  induction ps generalizing best with
  | nil => exact ⟨[], [], rfl, List.forall_mem_nil _, List.forall_mem_nil _⟩
  | cons p ps ih =>
    rw [largest]
    by_cases hless : p.value.rank < best.value.rank
    · rw [if_pos hless]
      exact (ih best).insert (Double.below_iff_rank.mpr hless)
    · rw [if_neg hless]
      have hle := (ih p).rank_le List.mem_cons_self
      exact (ih p).cons (Int.le_trans (Int.not_lt.mp hless) hle)

end Store

/-! ### What points are reduced to -/

namespace Aggregate

/-- **Which of the points an `Aggregate` picks**, if they are given in the order of time: the first
one, one with an extreme value, and otherwise the last one. -/
def Picks (f : Aggregate) (points : List Point) (p : Point) : Prop :=
  match f with
  | .first => points.head? = some p
  | .min | .minTimestamp => Least points p
  | .max | .maxTimestamp => Greatest points p
  | .last | .count | .sum | .mean => points.getLast? = some p

/-- **The value of an `Aggregate`** that picks a point. Sums and means are made of all values in the
order they are given in, and of nothing else. -/
def value (f : Aggregate) (points : List Point) (p : Point) : Double :=
  match f with
  | .first | .last | .min | .max => p.value
  | .minTimestamp | .maxTimestamp => Double.ofWord p.timestamp
  | .count => Double.ofWord (UInt64.ofNat points.length)
  | .sum => Double.sum (points.map Point.value)
  | .mean =>
    (Double.sum (points.map Point.value)).div (Double.ofWord (UInt64.ofNat points.length))

end Aggregate

namespace Store

/-- **To `reduce`** points gives the timestamp of the one that the aggregate `Picks`, and the
value. -/
theorem picks_reduce (f : Aggregate) (p : Point) (ps : List Point) :
    ∃ q, f.Picks (p :: ps) q ∧ reduce f p ps = (q.timestamp, f.value (p :: ps) q) := by
  have hlast : (p :: ps).getLast? = some (latest p ps) := by
    rw [List.getLast?_cons, latest, List.getLastD_eq_getLast?]
  cases f with
  | first => exact ⟨p, rfl, rfl⟩
  | min | minTimestamp => exact ⟨smallest p ps, least_smallest p ps, rfl⟩
  | max | maxTimestamp => exact ⟨largest p ps, greatest_largest p ps, rfl⟩
  | last | count | sum | mean => exact ⟨latest p ps, hlast, rfl⟩

/-! ### The points of a series -/

variable {s : Store} {f : PointFilter}

/-- **The course of a series**: its matches with their numbers, by timestamp and, at one timestamp,
as they were written. -/
structure Course (s : Store) (f : PointFilter) (name : String) (course : List (Match × Nat)) :
    Prop where
  /-- a point is there, by its number, just if it matches and its series has the name -/
  mem : ∀ m i, (m, i) ∈ course ↔ s.points[i]? = some m.point ∧ s.Matches f m ∧ m.name = name
  /-- they are in order, each once -/
  ordered : course.Pairwise fun a b => a.1.point.timestamp < b.1.point.timestamp ∨
    a.1.point.timestamp = b.1.point.timestamp ∧ a.2 < b.2

theorem exists_course (hmetrics : f.metrics ≠ []) (name : String) :
    ∃ course, s.Course f name course ∧
      seriesPoints (s.matching f) name = course.map fun e => e.1.point := by
  have htrans := stamps_le_trans fun e : Match × Nat => e.1.point.timestamp
  have htotal := stamps_le_total fun e : Match × Nat => e.1.point.timestamp
  let own := (s.numbered f).filter fun e => e.1.name == name
  have hsorted := stablySorted_mergeSort htrans htotal own
  refine ⟨own.mergeSort fun a b => a.1.point.timestamp ≤ b.1.point.timestamp, ⟨fun m i => ?_, ?_⟩,
    ?_⟩
  · rw [List.mem_mergeSort, List.mem_filter, mem_numbered hmetrics, beq_iff_eq, and_assoc]
  · refine (hsorted.pairwise htrans ((pairwise_numbered s f).filter _)).imp ?_
    rintro a b ⟨hle, htie⟩
    obtain hlt | heq := UInt64.le_iff_lt_or_eq.mp (of_decide_eq_true hle)
    · exact .inl hlt
    · exact .inr ⟨heq, htie (decide_eq_true (UInt64.le_of_eq heq.symm))⟩
  · rw [seriesPoints, ← map_fst_numbered, List.filter_map, List.map_map, List.map_mergeSort]
    · rfl
    · intro a _ b _
      rfl

/-! ### The series that have points -/

theorem mem_seriesNames {ms : List Match} {name : String} :
    name ∈ seriesNames ms ↔ ∃ m ∈ ms, m.name = name := by
  rw [seriesNames, List.mem_mergeSort, List.mem_eraseDups, List.mem_map]

/-- **Names of series are ascending** in `seriesNames`, each once. -/
theorem pairwise_seriesNames (ms : List Match) : (seriesNames ms).Pairwise (· < ·) :=
  pairwise_sorted_names (nodup_eraseDups (ms.map Match.name))

/-- Each of the `seriesNames` has points to reduce. -/
theorem seriesPoints_ne_nil {ms : List Match} {name : String} (h : name ∈ seriesNames ms) :
    seriesPoints ms name ≠ [] := by
  obtain ⟨m, hm, rfl⟩ := mem_seriesNames.mp h
  have hmem : m.point ∈ seriesPoints ms m.name :=
    List.mem_mergeSort.mpr (List.mem_map_of_mem (List.mem_filter.mpr ⟨hm, beq_self_eq_true _⟩))
  exact List.ne_nil_of_mem hmem

/-- **Each series is reduced** by `reduceAll`. -/
theorem map_name_reduceAll (fn : Aggregate) (ms : List Match) :
    (reduceAll fn ms).map Reduced.name = seriesNames ms := by
  rw [reduceAll, List.map_filterMap]
  refine (List.filterMap_congr fun name hname => ?_).trans List.filterMap_some
  have hpoints := seriesPoints_ne_nil hname
  cases h : seriesPoints ms name with
  | nil => exact absurd h hpoints
  | cons p ps => rfl

theorem reduced_of_mem {fn : Aggregate} {ms : List Match} {row : Reduced}
    (h : row ∈ reduceAll fn ms) : ∃ q, fn.Picks (seriesPoints ms row.name) q ∧
      row.timestamp = q.timestamp ∧ row.value = fn.value (seriesPoints ms row.name) q := by
  obtain ⟨name, -, hrow⟩ := List.mem_filterMap.mp h
  cases hpoints : seriesPoints ms name with
  | nil =>
    rw [hpoints] at hrow
    cases hrow
  | cons p ps =>
    rw [hpoints] at hrow
    cases hrow
    obtain ⟨q, hq, hreduce⟩ := picks_reduce fn p ps
    dsimp only
    rw [hpoints, hreduce]
    exact ⟨q, hq, rfl, rfl⟩

/-! ### Records -/

/-- **Each series that is reduced has its record**, which `readAlone` gives under the name of the
aggregate in the store that the answer leaves. -/
theorem map_readAlone_registerReduced (fn : Aggregate) (s : Store) (rows : List Reduced)
    (hcount : (registerAll (registerReduced fn) s rows).2.Countable) :
    (registerAll (registerReduced fn) s rows).1.map
        (fun r => readAlone (registerAll (registerReduced fn) s rows).2.name? r.encode) =
      rows.map fun row => .ok ⟨some (aggregateName fn row.name), some row.timestamp, [row.value]⟩ := by
  have hrecords := forall₂_registerAll (grows_registerReduced fn) s rows
  have hread : List.Forall₂ (fun row (r : Record) =>
      readAlone (registerAll (registerReduced fn) s rows).2.name? r.encode =
        .ok ⟨some (aggregateName fn row.name), some row.timestamp, [row.value]⟩)
      rows (registerAll (registerReduced fn) s rows).1 := by
    refine hrecords.imp ?_
    rintro row _ ⟨earlier, rfl, hgrows⟩
    have hencodable : (registerReduced fn earlier row).1.Encodable := trivial
    exact readAlone_of_resolve hencodable
      (hgrows.name? (name?_register (.of_grows hgrows hcount)))
  rw [← List.forall₂_eq_eq_eq, List.forall₂_map_left_iff, List.forall₂_map_right_iff]
  exact hread.flip

end Store

/-- An aggregate asks for the metric and the function that its document names. -/
theorem Plan.metric_of_aggregate {j : Json} {f : PointFilter} {fn : Aggregate}
    (h : Plan.ofJson j = .ok (.aggregate f fn)) :
    ∃ root metric, j.object? = some root ∧
      Json.field? root "aggregate" = some (.object [(metric, .text fn.name)]) ∧
      f.metrics = [metric] := by
  obtain ⟨root, rfl, -, hform⟩ := form_of_ofJson h
  cases hform with
  | aggregate _ _ haggregate hfilter => exact ⟨root, _, rfl, haggregate, metrics_read hfilter⟩

namespace Store

/-- **What an aggregate answers.** There is one row for each name of a series that a point has which
matches, ascending by name. Its points are those that match, in their course; the function picks one
of them, which gives the timestamp, and the value. There is one record for each row, and in the
store that the answer leaves it is read as that timestamp and that value under the name that the
aggregate makes of the one of the series. -/
theorem rows_of_aggregate {s : Store} {j : Json} {f : PointFilter} {fn : Aggregate}
    (hplan : Plan.ofJson j = .ok (.aggregate f fn)) (hcount : (s.query (some j)).2.Countable) :
    (∃ root metric, j.object? = some root ∧
      Json.field? root "aggregate" = some (.object [(metric, .text fn.name)]) ∧
      f.metrics = [metric]) ∧
    ∃ rows : List Reduced, (rows.map Reduced.name).Pairwise (· < ·) ∧
      (∀ name, name ∈ rows.map Reduced.name ↔
        ∃ m, m.point ∈ s.points ∧ s.Matches f m ∧ m.name = name) ∧
      (∀ row ∈ rows, ∃ course, s.Course f row.name course ∧
        ∃ p, fn.Picks (course.map fun e => e.1.point) p ∧ row.timestamp = p.timestamp ∧
          row.value = fn.value (course.map fun e => e.1.point) p) ∧
      ∃ records s', s.query (some j) = (.ok records, s') ∧
        records.map (fun r => readAlone s'.name? r.encode) = rows.map fun row =>
          .ok ⟨some (aggregateName fn row.name), some row.timestamp, [row.value]⟩ := by
  obtain ⟨root, metric, hroot, haggregate, hmetric⟩ := Plan.metric_of_aggregate hplan
  have hmetrics : f.metrics ≠ [] := by
    rw [hmetric]
    exact List.cons_ne_nil metric []
  have hquery : s.query (some j) = (.ok (s.aggregate f fn).1, (s.aggregate f fn).2) := by
    rw [query, hplan]
    rfl
  rw [hquery, aggregate] at hcount
  refine ⟨⟨root, metric, hroot, haggregate, hmetric⟩, reduceAll fn (s.matching f), ?_,
    fun name => ?_, fun row hrow => ?_, _, _, hquery,
    map_readAlone_registerReduced fn s _ hcount⟩
  · rw [map_name_reduceAll]
    exact pairwise_seriesNames _
  · rw [map_name_reduceAll, mem_seriesNames]
    simp only [mem_matching_iff_matches hmetrics, and_assoc]
  · obtain ⟨course, hcourse, hpoints⟩ := exists_course hmetrics row.name
    obtain ⟨p, hpicks, htimestamp, hvalue⟩ := reduced_of_mem hrow
    rw [hpoints] at hpicks hvalue
    exact ⟨course, hcourse, p, hpicks, htimestamp, hvalue⟩

/-- The smallest value of the first series is one that is no number. The second series has its
smallest value twice, which is negative zero and so below zero; the earlier of the two points is
picked, though it was written last. -/
theorem rows_of_aggregate_min :
    let s := ofSeries ["m host=b", "m host=a"]
      [⟨2, 2, Double.nan⟩, ⟨1, 9, Double.negZero⟩, ⟨1, 5, ⟨0⟩⟩, ⟨1, 3, Double.nan⟩,
        ⟨2, 2, Double.invalid⟩, ⟨1, 7, Double.negZero⟩]
    let j : Json := .object [("aggregate", .object [("m", .text "min")])]
    let f : PointFilter := ⟨["m"], {}, none⟩
    Plan.ofJson j = .ok (.aggregate f .min) ∧ (s.query (some j)).2.Countable ∧
      ∃ rows : List Reduced,
        (rows.map fun row => (Except.ok ⟨some (aggregateName .min row.name), some row.timestamp,
            [row.value]⟩ : Except Failure Row)) =
          [.ok ⟨some "m:min host=a", some 2, [Double.invalid]⟩,
            .ok ⟨some "m:min host=b", some 7, [Double.negZero]⟩] ∧
        ∀ row ∈ rows, ∃ course, s.Course f row.name course ∧
          ∃ p, Least (course.map fun e => e.1.point) p ∧ row.timestamp = p.timestamp ∧
            row.value = p.value := by
  intro s j f
  have hplan : Plan.ofJson j = .ok (.aggregate f .min) := by decide +kernel
  have hnames : seriesNames (s.matching f) = ["m host=a", "m host=b"] := by
    refine List.mergeSort_of_pairwise (l := ["m host=a", "m host=b"]) ?_
    decide +kernel
  have hfirst : seriesPoints (s.matching f) "m host=a" =
      [⟨2, 2, Double.nan⟩, ⟨2, 2, Double.invalid⟩] := by
    have hown : ((s.matching f).filter fun m => m.name == "m host=a").map Match.point =
        [⟨2, 2, Double.nan⟩, ⟨2, 2, Double.invalid⟩] := by decide +kernel
    rw [seriesPoints, hown]
    exact List.mergeSort_of_pairwise (by decide +kernel)
  have hsecond : seriesPoints (s.matching f) "m host=b" = [⟨1, 3, Double.nan⟩, ⟨1, 5, ⟨0⟩⟩,
      ⟨1, 7, Double.negZero⟩, ⟨1, 9, Double.negZero⟩] := by
    have hperm : (((s.matching f).filter fun m => m.name == "m host=b").map Match.point).Perm
        [⟨1, 3, Double.nan⟩, ⟨1, 5, ⟨0⟩⟩, ⟨1, 7, Double.negZero⟩, ⟨1, 9, Double.negZero⟩] := by
      decide +kernel
    rw [seriesPoints, mergeSort_eq_of_perm (stamps_le_trans Point.timestamp)
      (stamps_le_total Point.timestamp) hperm (by decide +kernel)]
    exact List.mergeSort_of_pairwise (by decide +kernel)
  have hquery : s.query (some j) =
      (.ok [.scalar 3 2 Double.invalid, .scalar 4 7 Double.negZero],
        (s.addName "m:min host=a").addName "m:min host=b") := by
    rw [query, hplan]
    dsimp only [answer, aggregate, reduceAll]
    rw [hnames]
    simp only [List.filterMap_cons, hfirst, hsecond]
    decide +kernel
  have hcount : (s.query (some j)).2.Countable := by
    rw [hquery]
    decide +kernel
  obtain ⟨-, rows, -, -, hcourses, records, s', hanswer, hrecords⟩ := rows_of_aggregate hplan hcount
  rw [hquery] at hanswer
  cases hanswer
  refine ⟨hplan, hcount, rows, ?_, hcourses⟩
  rw [← hrecords]
  decide +kernel

end Store

end TimeSeries
