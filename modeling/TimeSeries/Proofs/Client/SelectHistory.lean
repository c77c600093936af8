import TimeSeries.Proofs.Client.RunAnswers
import TimeSeries.Proofs.Store.Sorting

/-!
# Reading what was written

A select without clauses gives back the history of its file: every point of its metric that
was written and not removed, once, by the canonical name of its series, in order of series and
time (`Reached.items_of_select`). The points that a store gives are those of its log
(`Store.matching_of_log`), and the log is the history.
-/

namespace TimeSeries

open Cursor

namespace Written

/-- **The order of what was `Written`**: by series, then by time. -/
def le (a b : Written) : Bool :=
  a.series < b.series || (a.series == b.series && a.timestamp ≤ b.timestamp)

/-- The `Row` that shows what was written. -/
def row (w : Written) : Row := ⟨some w.series, some w.timestamp, [w.value]⟩

end Written

/-! ### Points and logs -/

namespace Store

/-- What a `Match` shows was written. -/
def Match.written (m : Match) : Written := ⟨m.name, m.point.timestamp, m.point.value⟩

variable {s : Store} {l : List Written}

/-- **The points that are `matching`** are those of the log that a filter lets through. -/
theorem matching_of_log (hlog : s.log = l.map some) (f : PointFilter) :
    (s.matching f).map Match.written =
      l.filter fun w => f.range.contains w.timestamp && f.accepts w.series := by
  have hl : l = s.points.filterMap fun p =>
      (s.name? p.series).map fun name => ⟨name, p.timestamp, p.value⟩ := by
    have hid : s.log.filterMap id = l := by
      rw [hlog, List.filterMap_map]
      exact List.filterMap_some
    rw [← hid, log, List.filterMap_map]
    rfl
  rw [hl, List.filter_filterMap, matching, List.map_filterMap]
  refine List.filterMap_congr fun p hp => ?_
  rcases hname : s.name? p.series with _ | name
  · simp
  · by_cases hrange : f.range.contains p.timestamp = true
    · by_cases haccepts : f.accepts name = true
      · simp [Option.filter_some, hrange, haccepts, Match.written]
      · simp [Option.filter_some, hrange, haccepts]
    · simp [Option.filter_some, hrange]

/-- **The rows of a `select`** that only filters, in a range that is walked forwards: the points
that match, sorted by `Written.le`. -/
theorem rows_select (s : Store) {f : PointFilter} (hforward : f.range.isBackward = false) :
    (s.select f {}).map s.row =
      (((s.matching f).map Match.written).mergeSort Written.le).map Written.row := by
  have hkeeps : (s.matching f).filter (fun m => Output.keeps {} m.point.value) = s.matching f :=
    List.filter_eq_self.mpr fun m hm => rfl
  have hselect : s.select f {} =
      ((s.matching f).mergeSort fun a b => RowKey.le f.range .series a.key b.key).map
        Match.record := by
    rw [select, hkeeps]
    rfl
  have hle : ∀ a ∈ s.matching f, ∀ b ∈ s.matching f,
      RowKey.le f.range .series a.key b.key = Written.le a.written b.written := by
    intro a ha b hb
    rw [RowKey.le, timeLe, hforward]
    rfl
  rw [hselect, ← List.map_mergeSort hle, List.map_map, List.map_map]
  refine List.map_congr_left fun m hm => ?_
  have hname := name?_of_mem_matching (List.mem_mergeSort.mp hm)
  simp [row, Written.row, Match.record, Match.written, Record.series, Record.timestamp,
    Record.values, hname]

end Store

/-! ### The order of what was written -/

namespace Written

theorem le_eq (a b : Written) :
    a.le b = Store.RowKey.le {} .series ⟨a.series, a.timestamp⟩ ⟨b.series, b.timestamp⟩ := rfl

theorem stablySorted (ws : List Written) : StablySorted le ws (ws.mergeSort le) := by
  refine stablySorted_mergeSort (fun a b c hab hbc => ?_) (fun a b => ?_) ws
  · rw [le_eq] at hab hbc ⊢
    exact Store.RowKey.le_trans {} .series _ _ _ hab hbc
  · rw [le_eq, le_eq]
    exact Store.RowKey.le_total {} .series _ _

end Written

/-! ### Selects along a run -/

/-- **Reading what was written**: in a workspace that is `Reached`, every open session works on a
file, and `Query.build` makes a select of a metric, unless the metric is blank or begins like a
listing. If its `text` is read as it was meant, then `query` gives a cursor over one row for each
point of the metric in the history of the file and nothing else: the rows are the points, sorted by
series and time, and those with the same series and time are in the order they were written. -/
theorem Reached.items_of_select {parse : String → Option Json} {ws : Workspace Memory}
    {H : History} (h : Reached parse ws H) {label : Label} {s : Child Session} {session : Handle}
    (hs : ws.sessions.find? label = some s) (hhandle : s.it.handle = some session)
    {metric : String} (hblank : Text.isBlankText metric = false)
    (hplain : ¬ namesTarget.toList <+: metric.toList) :
    ∃ file q, ws.file? label = some file ∧ Query.build (.select metric) [] = .ok q ∧
      (parse q.text = some q.document →
        ∃ points c w', s.it.query (Memory.engine parse) q ws.world = (.ok c, w') ∧
          StablySorted Written.le ((H file).filter fun p => Series.metric p.series == metric)
            points ∧
          (c.items (Memory.engine parse) w').1 = points.map (fun p => .ok p.row) ∧
          ∀ call, itemAt (Memory.engine parse) call quietly c w' =
            (points.map fun p => .ok p.row)[call]?) := by
  have horder := h.inOrder
  obtain ⟨d, st, hd, hserves⟩ := horder.tied.serves hs hhandle
  refine ⟨d.file.key, ⟨.select metric, {}⟩, Workspace.file?_eq hs hd, Query.build_select hblank, ?_⟩
  intro hparse
  -- the select is answered from the store and leaves it as it is
  have hquery : st.query (parse (Query.text ⟨.select metric, {}⟩)) =
      (.ok (st.select ⟨[metric], {}, none⟩ {}), st) := by
    rw [hparse, Store.query]
    dsimp only
    rw [Plan.ofJson_select hplain]
    rfl
  -- the log of the store is the history of the file
  have hmatching : (st.matching ⟨[metric], {}, none⟩).map Store.Match.written =
      (H d.file.key).filter fun p => Series.metric p.series == metric := by
    rw [Store.matching_of_log (horder.recorded.log_eq hserves.find_eq)]
    refine List.filter_congr fun p hp => ?_
    rw [Bool.eq_iff_iff]
    simp [TimeRange.contains, PointFilter.accepts]
  have hrows := Store.rows_select st (f := ⟨[metric], {}, none⟩) rfl
  rw [hmatching] at hrows
  obtain ⟨w', hopen, -, hitems, hitemAt⟩ := horder.rows_of_answer (horder.tied.sessions_usable hs)
    hhandle hserves hquery (h.fits _ st hserves.find_eq)
  have hshown := congrArg (List.map (Except.ok : Row → Item Row)) hrows
  rw [List.map_map, List.map_map] at hshown
  refine ⟨_, _, w', hopen, Written.stablySorted _, hitems.trans hshown, fun call => ?_⟩
  exact (hitemAt call).trans (congrArg (·[call]?) hshown)

/-- A point that is written is read. -/
theorem Reached.items_of_written_point :
    let parse : String → Option Json := fun _ => some (Query.document ⟨.select "cpu", {}⟩)
    let value := Double.ofWord 3
    let ws := Workspace.begunWith parse value
    ∃ H s q c w', Reached parse ws H ∧ ws.sessions.find? "s" = some s ∧
      Query.build (.select "cpu") [] = .ok q ∧
      s.it.query (Memory.engine parse) q ws.world = (.ok c, w') ∧
      (c.items (Memory.engine parse) w').1 = [.ok ⟨some "cpu host=a", some 5, [value]⟩] := by
  intro parse value ws
  obtain ⟨H, hreached, hhistory, -⟩ := Reached.begunWith parse value
  have hs : ws.sessions.find? "s" = some ⟨"d", some 2, {}⟩ :=
    Workspace.begunWith_session parse value
  obtain ⟨file, q, hfile, hbuild, hselect⟩ :=
    @Reached.items_of_select _ _ _ hreached _ _ _ hs rfl "cpu" (by decide) (by decide)
  obtain rfl : ["a.akumuli"] = file :=
    Option.some.inj ((Workspace.begunWith_file parse value).symm.trans hfile)
  obtain rfl : ⟨.select "cpu", {}⟩ = q := Except.ok.inj hbuild
  obtain ⟨points, c, w', hquery, hsorted, hitems, -⟩ := hselect rfl
  have hmetric : Series.metric "cpu host=a" = "cpu" := rfl
  rw [hhistory, List.filter_singleton, hmetric] at hsorted
  have hpoints : points = [⟨"cpu host=a", 5, value⟩] := List.perm_singleton.mp hsorted.perm
  rw [hpoints] at hitems
  exact ⟨H, _, _, c, w', hreached, hs, hbuild, hquery, hitems⟩

end TimeSeries
