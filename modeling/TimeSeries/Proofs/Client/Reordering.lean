import TimeSeries.Proofs.Client.RowsFromLog
import TimeSeries.Proofs.Store.AggregateAnswer

/-!
# Rows do not depend on the order of writes

If no two points of a series have the same timestamp, the rows of a select, an aggregate or a
listing are the same whatever order the points were written in, and whatever order their series
were listed in (`Plan.rows_of_perm`). For the rows of a select are sorted by keys that do not tie,
the points that are reduced by timestamps that do not, and the series that are reduced or listed by
names that do not. So stores that differ in order only have the same in prospect
(`Store.prospect_of_perm`). Joins are left out: there two series can share the place of a value.
-/

namespace TimeSeries

open Store

/-- The series and the timestamp of a point that was `Written`. -/
def Written.key (w : Written) : RowKey := ⟨w.series, w.timestamp⟩

/-- **Joins** put points of several series side by side. -/
def Plan.IsJoin : Plan → Prop
  | join .. => True
  | _ => False

variable {l l' : List Written} {ms ms' : List Match} {listed listed' : List String}

/-! ### Points that are let through -/

/-- **Apart**: no two points have the same `key`. -/
def Store.Match.Apart (ms : List Match) : Prop := ∀ m ∈ ms, ∀ n ∈ ms, m.key = n.key → m = n

theorem Store.Match.Apart.filter (h : Match.Apart ms) (p : Match → Bool) :
    Match.Apart (ms.filter p) := by
  intro m hm n hn hkey
  exact h m (List.mem_filter.mp hm).1 n (List.mem_filter.mp hn).1 hkey

theorem PointFilter.matches_perm (f : PointFilter) (hperm : l.Perm l') :
    (f.matches l).Perm (f.matches l') :=
  (hperm.filter _).map _

theorem PointFilter.apart_matches (f : PointFilter) (hkeys : (l.map Written.key).Nodup) :
    Match.Apart (f.matches l) := by
  intro m hm n hn hkey
  obtain ⟨w, hw, rfl⟩ := List.mem_map.mp hm
  obtain ⟨v, hv, rfl⟩ := List.mem_map.mp hn
  have hsame : w.key = v.key := hkey
  rw [List.inj_on_of_nodup_map hkeys (List.mem_filter.mp hw).1 (List.mem_filter.mp hv).1 hsame]

/-! ### Sorting -/

/-- Points that are `Apart` are sorted to the same rows. -/
theorem Store.sorted_matches_of_perm (r : TimeRange) (o : RowOrder) (hperm : ms.Perm ms')
    (hapart : Match.Apart ms) :
    (ms.mergeSort fun a b => RowKey.le r o a.key b.key) =
      ms'.mergeSort fun a b => RowKey.le r o a.key b.key := by
  apply mergeSort_eq_of_perm _ _ hperm
  · intro m hm n hn hmn hnm
    exact hapart m hm n hn (RowKey.le_antisymm r o hmn hnm)
  · intro a b c
    exact RowKey.le_trans r o a.key b.key c.key
  · intro a b
    exact RowKey.le_total r o a.key b.key

/-- Names are sorted to the same list. -/
theorem sorted_names_of_perm {names names' : List String} (hperm : names.Perm names') :
    (names.mergeSort fun a b => a ≤ b) = names'.mergeSort fun a b => a ≤ b := by
  refine mergeSort_eq_of_perm names_le_trans names_le_total hperm ?_
  intro a _ b _ hab hba
  exact String.le_antisymm (of_decide_eq_true hab) (of_decide_eq_true hba)

/-! ### Aggregates -/

theorem Store.seriesNames_of_perm (hperm : ms.Perm ms') : seriesNames ms = seriesNames ms' := by
  apply sorted_names_of_perm
  rw [List.perm_ext_iff_of_nodup (nodup_eraseDups _) (nodup_eraseDups _)]
  intro name
  rw [List.mem_eraseDups, List.mem_eraseDups]
  exact (hperm.map Match.name).mem_iff

/-- The `seriesPoints` of one series are in the order of time, in which they do not tie. -/
theorem Store.seriesPoints_of_perm (hperm : ms.Perm ms') (hapart : Match.Apart ms) (name : String) :
    seriesPoints ms name = seriesPoints ms' name := by
  refine mergeSort_eq_of_perm (stamps_le_trans Point.timestamp) (stamps_le_total Point.timestamp)
    ((hperm.filter _).map _) ?_
  intro a ha b hb hab hba
  obtain ⟨m, hm, rfl⟩ := List.mem_map.mp ha
  obtain ⟨n, hn, rfl⟩ := List.mem_map.mp hb
  obtain ⟨hm, hmname⟩ := List.mem_filter.mp hm
  obtain ⟨hn, hnname⟩ := List.mem_filter.mp hn
  have hkey : m.key = n.key := by
    rw [Match.key, Match.key, eq_of_beq hmname, eq_of_beq hnname,
      UInt64.le_antisymm (of_decide_eq_true hab) (of_decide_eq_true hba)]
  rw [hapart m hm n hn hkey]

theorem Store.reduceAll_of_perm (fn : Aggregate) (hperm : ms.Perm ms') (hapart : Match.Apart ms) :
    reduceAll fn ms = reduceAll fn ms' := by
  rw [reduceAll, reduceAll, seriesNames_of_perm hperm]
  simp only [seriesPoints_of_perm hperm hapart]

/-! ### Plans -/

/-- **The order of writes does not matter** to the `rows` of a plan that is not a join. -/
theorem Plan.rows_of_perm {p : Plan} (hplain : ¬p.IsJoin) (hperm : l.Perm l')
    (hkeys : (l.map Written.key).Nodup) (hlisted : listed.Perm listed') :
    p.rows l listed = p.rows l' listed' := by
  cases p with
  | names f => rw [rows, rows, sorted_names_of_perm (hlisted.filter _)]
  | select f o =>
    have hapart := (f.apart_matches hkeys).filter fun m => o.keeps m.point.value
    rw [rows, rows, sorted_matches_of_perm f.range o.order ((f.matches_perm hperm).filter _) hapart]
  | join f o => exact absurd trivial hplain
  | aggregate f fn =>
    rw [rows, rows, reduceAll_of_perm fn (f.matches_perm hperm) (f.apart_matches hkeys)]

/-- **Stores that differ in order only** have the same in `prospect`, unless it is asked for a
join. -/
theorem Store.prospect_of_perm {s s' : Store} {document : Option Json} (hlog : s.log = l.map some)
    (hlog' : s'.log = l'.map some) (hperm : l.Perm l') (hkeys : (l.map Written.key).Nodup)
    (hlisted : s.listedNames.Perm s'.listedNames)
    (hplain : ∀ j p, document = some j → Plan.ofJson j = .ok p → ¬p.IsJoin)
    (hcount : (s.query document).2.Countable) (hcount' : (s'.query document).2.Countable) :
    s.prospect document = s'.prospect document := by
  cases document with
  | none => rfl
  | some j =>
    rw [prospect, prospect]
    simp only [Store.query] at hcount hcount' ⊢
    cases hplan : Plan.ofJson j with
    | error status => rfl
    | ok p =>
      rw [hplan] at hcount hcount'
      dsimp only at hcount hcount' ⊢
      rw [rows_answer hlog p hcount, rows_answer hlog' p hcount',
        p.rows_of_perm (hplain j p rfl hplan) hperm hkeys hlisted]

end TimeSeries
