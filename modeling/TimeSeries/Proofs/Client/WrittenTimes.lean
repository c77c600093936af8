import TimeSeries.Json.Reader
import TimeSeries.Proofs.Client.FilledFiles
import TimeSeries.Proofs.Query.Forms
import TimeSeries.Proofs.Store.SelectAnswer
import TimeSeries.Proofs.Time.Instants

/-!
# Times that are written and read

A point that is written at an instant has the timestamp of that, and its history keeps it as long as
the file is not removed (`Workspace.history_grows`, `Later.reached`). A select that asks for it
(`Written.AskedBy`) gives a row with that timestamp (`InOrder.row_mem_of_history`), and the time of
the row is the instant again. Only the points of a metric that begins like a listing are given by no
select (`InOrder.unlisted_of_row_mem`).

Main result: `Reached.time_of_writeAt`.
-/

namespace TimeSeries

/-! ### Runs that spare a file -/

namespace Workspace

variable {parse : String → Option Json} {ws : Workspace Memory} {H : History} {file : FileKey}

/-- **An `Event` that spares a file** does not remove it. -/
def Spares (parse : String → Option Json) (file : FileKey) (ws : Workspace Memory) : Event → Prop
  | .command (.remove directory name) =>
    (Database.remove (Memory.engine parse) directory name ws.world).1 = .ok () →
      (databasePath directory name).key ≠ file
  | _ => True

theorem historyOf_grows (label : Label) (written : Session → World Memory → List Written) :
    H file <+: ws.historyOf label H written file := by
  rw [historyOf]
  cases ws.sessions.find? label with
  | none => exact List.prefix_rfl
  | some s =>
    cases ws.file? label with
    | none => exact List.prefix_rfl
    | some own =>
      dsimp only [History.add]
      split
      · exact List.prefix_append _ _
      · exact List.prefix_rfl

/-- **The `history` of a file only grows** by events that it `Spares`. -/
theorem history_grows {e : Event} (h : ws.Spares parse file e) :
    H file <+: ws.history parse H e file := by
  cases e with
  | command c =>
    cases c with
    | write | writeAt | writeAll =>
      rw [history]
      exact historyOf_grows _ _
    | remove directory name =>
      rw [history]
      rw [Spares] at h
      cases hremoved : (Database.remove (Memory.engine parse) directory name ws.world).1 with
      | error failure => exact List.prefix_rfl
      | ok =>
        have hkept : H.clear (databasePath directory name).key file = H file :=
          if_neg (Ne.symm (h hremoved))
        exact ⟨[], (List.append_nil _).trans hkept.symm⟩
    | _ => exact List.prefix_rfl
  | files | disturb => exact List.prefix_rfl

end Workspace

/-- **Later workspaces**: what becomes of a workspace by `Quiet` events that the caller can cause
and that spare a file. -/
inductive Later (parse : String → Option Json) (file : FileKey) (ws : Workspace Memory) :
    Workspace Memory → Prop where
  /-- nothing has happened -/
  | now : Later parse file ws ws
  /-- one event more -/
  | step {ws' : Workspace Memory} (e : Event) : Later parse file ws ws' → ws'.Allows e → e.Quiet →
      ws'.Spares parse file e → (ws'.react parse e).world.engine.Fits →
      Later parse file ws (ws'.react parse e)

/-- **What was written is kept**: `Later` on, the history of the file has it. -/
theorem Later.reached {parse : String → Option Json} {file : FileKey} {ws ws' : Workspace Memory}
    {H : History} (h : Later parse file ws ws') (hreached : Reached parse ws H) :
    ∃ H', Reached parse ws' H' ∧ H file <+: H' file := by
  induction h with
  | now => exact ⟨H, hreached, List.prefix_rfl⟩
  | step e _ hallows hquiet hspares hfits ih =>
    obtain ⟨H', hreached', hgrows⟩ := ih
    exact ⟨_, hreached'.step e hallows hquiet hfits,
      hgrows.trans (Workspace.history_grows hspares)⟩

/-- **A `writeAt` that succeeds**: the instant has a `timestamp?`, and the point is in the history
of the file that the session works on. -/
theorem InOrder.mem_history_of_writeAt {parse : String → Option Json} {ws : Workspace Memory}
    {H : History} {label : Label} {series : String} {t : Instant} {value : Double}
    (h : InOrder ws H)
    (hok : (ws.run (Memory.engine parse) (.writeAt label series t value)).1 = .ok) :
    ∃ name file ts, Series.normalize series = some name ∧ ws.OpenOn label file ∧
      t.timestamp? = some ts ∧
      ⟨name, ts, value⟩ ∈ ws.history parse H (.command (.writeAt label series t value)) file := by
  simp only [Workspace.run, Workspace.withSession] at hok
  split at hok
  next => cases hok
  next s hs =>
    rw [Session.writeAt] at hok
    cases htime : t.timestamp? with
    | none =>
      rw [htime] at hok
      cases hok
    | some ts =>
      rw [htime] at hok
      dsimp only at hok
      cases hhandle : s.it.handle with
      | none =>
        rw [Session.write_of_closed parse h.panic hhandle] at hok
        cases hok
      | some session =>
        obtain ⟨d, st, hd, hserves⟩ := h.tied.serves hs hhandle
        obtain ⟨failure, w', _, _, hwrite, -⟩ | ⟨name, w', _, hwrite, hname, -⟩ :=
          Session.write_becomes parse series ts value h.panic hhandle hserves
        · rw [hwrite] at hok
          cases hok
        · have hfile := Workspace.file?_eq hs hd
          refine ⟨name, d.file.key, ts, hname, ⟨s, session, hs, hhandle, hfile⟩, rfl, ?_⟩
          simp [Workspace.history, Workspace.historyOf, hs, hfile, htime, Session.writeAt, hwrite,
            Session.written, hname, History.add]

/-! ### Selects that ask for a point -/

/-- **A `Source` that is read as a select.** -/
def Source.Selects (parse : String → Option Json) (source : Source) (f : PointFilter) (o : Output) :
    Prop :=
  ∃ text document, source.render = .ok text ∧ parse text = some document ∧
    Plan.ofJson document = .ok (.select f o)

/-- **A select asks for what was written**: its clauses let the point through, and it has no
page. -/
structure Written.AskedBy (w : Written) (f : PointFilter) (o : Output) : Prop where
  /-- the range covers the timestamp -/
  covered : f.range.Covers w.timestamp
  /-- the metric is one of those asked for -/
  metric : Series.metric w.series ∈ f.metrics
  /-- the tag has one of the values asked for -/
  tag : ∀ clause ∈ f.tag, ∃ tag ∈ Series.tags w.series, tag.name = clause.tag ∧
    tag.value ∈ clause.values
  /-- the value passes every filter -/
  kept : ∀ v ∈ o.filters, v.passes w.value = true
  /-- there is no limit -/
  unlimited : o.limit = none
  /-- no rows are skipped -/
  unskipped : o.offset = 0

namespace Store

variable {st : Store} {l : List Written} {w : Written} {f : PointFilter} {o : Output}

/-- What is in the `log` was written to a point. -/
theorem exists_point_of_log (hlog : st.log = l.map some) (hw : w ∈ l) :
    ∃ p ∈ st.points, st.name? p.series = some w.series ∧ p.timestamp = w.timestamp ∧
      p.value = w.value := by
  have hmem : some w ∈ st.log := by
    rw [hlog]
    exact List.mem_map_of_mem hw
  obtain ⟨p, hp, hshown⟩ := List.mem_map.mp hmem
  obtain ⟨name, hname, rfl⟩ := Option.map_eq_some_iff.mp hshown
  exact ⟨p, hp, hname, rfl, rfl⟩

/-- **A `select` gives the points that it asks for**, as `AskedBy` says. -/
theorem row_mem_select (hlog : st.log = l.map some) (hw : w ∈ l) (hasked : w.AskedBy f o) :
    w.row ∈ (st.select f o).map st.row := by
  obtain ⟨p, hp, hname, htimestamp, hvalue⟩ := exists_point_of_log hlog hw
  obtain ⟨i, hi⟩ := List.mem_iff_getElem?.mp hp
  have hmatches : st.Matches f ⟨w.series, p⟩ :=
    ⟨htimestamp ▸ hasked.covered, hname, hasked.metric, hasked.tag⟩
  have hranked : ((⟨w.series, p⟩ : Match), i) ∈ st.ranked f o :=
    (mem_ranked (List.ne_nil_of_mem hasked.metric)).mpr ⟨hi, hmatches, hvalue ▸ hasked.kept⟩
  have hpage : o.page (st.ranked f o) = st.ranked f o := by
    rw [page_eq, hasked.unlimited, hasked.unskipped, List.drop_zero, Option.getD_none,
      List.take_length]
  rw [select_eq, hpage, List.map_map]
  refine List.mem_map.mpr ⟨_, hranked, ?_⟩
  simp [row, Match.record, Record.series, Record.timestamp, Record.values, hname, htimestamp,
    hvalue, Written.row]

/-- The rows of `select` are those of series of its metrics. -/
theorem metric_of_row_mem_select (hmetrics : f.metrics ≠ []) {r : Row}
    (h : r ∈ (st.select f o).map st.row) :
    ∃ name, r.series = some name ∧ Series.metric name ∈ f.metrics := by
  rw [select_eq, List.map_map] at h
  obtain ⟨⟨m, i⟩, he, rfl⟩ := List.mem_map.mp h
  obtain ⟨-, hmatches, -⟩ := (mem_ranked hmetrics).mp (mem_of_mem_page he)
  exact ⟨m.name, hmatches.named, hmatches.metric⟩

end Store

/-- **A select is of a metric that does not begin like a listing.** -/
theorem Plan.unlisted_of_ofJson {j : Json} {f : PointFilter} {o : Output}
    (h : ofJson j = .ok (.select f o)) :
    ∃ metric, f.metrics = [metric] ∧ ¬namesTarget.toList <+: metric.toList := by
  obtain ⟨root, rfl, -, hform⟩ := form_of_ofJson h
  cases hform with
  | @select metric _ _ hselect hunlisted hfilter =>
    refine ⟨metric, metrics_read hfilter, fun hbegins => ?_⟩
    rw [listed?, if_pos (List.isPrefixOf_iff_prefix.mpr hbegins)] at hunlisted
    split at hunlisted <;> cases hunlisted

namespace InOrder

variable {parse : String → Option Json} {ws : Workspace Memory} {H : History} {label : Label}
  {file : FileKey} {source : Source} {f : PointFilter} {o : Output}

/-- **The `rows` of a select** in an open session are those of the store of its file. -/
theorem rows_of_selects (h : InOrder ws H) (hfits : ws.world.engine.Fits)
    (hopen : ws.OpenOn label file) (hselects : source.Selects parse f o) :
    ∃ st : Store, st.log = (H file).map some ∧
      (ws.run (Memory.engine parse) (.rows label source)).1 =
        .items (((st.select f o).map st.row).map .ok) := by
  obtain ⟨s, session, hs, hhandle, hfile⟩ := hopen
  obtain ⟨d, st, hd, hserves⟩ := h.tied.serves hs hhandle
  obtain rfl : d.file.key = file := Option.some.inj ((Workspace.file?_eq hs hd).symm.trans hfile)
  obtain ⟨text, document, hrender, hparse, hplan⟩ := hselects
  have hquery : st.query (parse text) = (.ok (st.select f o), st) := by
    rw [hparse, Store.query, hplan]
    rfl
  obtain ⟨-, hanswer⟩ := h.run_rows parse hs hhandle hserves hrender
  rw [Store.prospect, hquery] at hanswer
  exact ⟨st, h.recorded.log_eq hserves.find_eq, hanswer (hfits _ st hserves.find_eq)⟩

/-- **What was written and not removed is read** by `rows` of every select that asks for it. -/
theorem row_mem_of_history (h : InOrder ws H) (hfits : ws.world.engine.Fits)
    (hopen : ws.OpenOn label file) (hselects : source.Selects parse f o) {w : Written}
    (hw : w ∈ H file) (hasked : w.AskedBy f o) :
    ∃ items, (ws.run (Memory.engine parse) (.rows label source)).1 = .items items ∧
      .ok w.row ∈ items := by
  obtain ⟨st, hlog, hanswer⟩ := h.rows_of_selects hfits hopen hselects
  exact ⟨_, hanswer, List.mem_map_of_mem (Store.row_mem_select hlog hw hasked)⟩

/-- **No select gives a row** of a metric that begins like a listing. -/
theorem unlisted_of_row_mem (h : InOrder ws H) (hfits : ws.world.engine.Fits)
    (hopen : ws.OpenOn label file) (hselects : source.Selects parse f o) {items : List (Item Row)}
    {row : Row} (hitems : (ws.run (Memory.engine parse) (.rows label source)).1 = .items items)
    (hrow : .ok row ∈ items) :
    ∃ name, row.series = some name ∧
      ¬namesTarget.toList <+: (Series.metric name).toList := by
  obtain ⟨metric, hmetrics, hunlisted⟩ : ∃ metric, f.metrics = [metric] ∧
      ¬namesTarget.toList <+: metric.toList := by
    obtain ⟨_, _, -, -, hplan⟩ := hselects
    exact Plan.unlisted_of_ofJson hplan
  obtain ⟨st, -, hanswer⟩ := h.rows_of_selects hfits hopen hselects
  obtain rfl := Answer.items.inj (hanswer.symm.trans hitems)
  obtain ⟨_, hmem, heq⟩ := List.mem_map.mp hrow
  cases heq
  obtain ⟨name, hseries, hmetric⟩ := Store.metric_of_row_mem_select
    (by rw [hmetrics]; exact List.cons_ne_nil _ _) hmem
  rw [hmetrics, List.mem_singleton] at hmetric
  exact ⟨name, hseries, hmetric ▸ hunlisted⟩

end InOrder

/-! ### Written and read back -/

/-- A plain select needs no more than its metric. -/
theorem Source.render_select {metric : String} (h : Text.isBlankText metric = false) :
    (query (.ok (.select metric)) []).render = .ok (Query.text ⟨.select metric, {}⟩) := by
  rw [render, Query.build_select h]
  rfl

/-- A plain select asks for all points of its metric. -/
theorem Written.askedBy_select (w : Written) :
    w.AskedBy ⟨[Series.metric w.series], {}, none⟩ {} where
  covered := (TimeRange.contains_iff_covers {} w.timestamp).mp rfl
  metric := List.mem_singleton_self _
  tag := nofun
  kept := nofun
  unlimited := rfl
  unskipped := rfl

/-- **A point is read back** at an instant: `rows` of a source gives one with its name, its value
and that time. -/
def Workspace.ReadsBack (parse : String → Option Json) (ws : Workspace Memory) (label : Label)
    (source : Source) (name : String) (t : Instant) (value : Double) : Prop :=
  ∃ items row, (ws.run (Memory.engine parse) (.rows label source)).1 = .items items ∧
    .ok row ∈ items ∧ row.series = some name ∧ row.values = [value] ∧ row.time = some t

section ReadsBack

variable {parse : String → Option Json} {ws : Workspace Memory} {H : History} {label : Label}
  {file : FileKey} {source : Source} {f : PointFilter} {o : Output} {name : String} {t : Instant}
  {ts : Timestamp} {value : Double}

/-- **What was written is read back** at the instant of its timestamp, as `ReadsBack` says. -/
theorem Reached.readsBack (h : Reached parse ws H) (hopen : ws.OpenOn label file)
    (hselects : source.Selects parse f o) (hmem : ⟨name, ts, value⟩ ∈ H file)
    (hasked : Written.AskedBy ⟨name, ts, value⟩ f o) (htime : Instant.ofTimestamp? ts = some t) :
    ws.ReadsBack parse label source name t value := by
  obtain ⟨items, hitems, hrow⟩ := h.inOrder.row_mem_of_history h.fits hopen hselects hmem hasked
  exact ⟨items, _, hitems, hrow, rfl, rfl, htime⟩

/-- **No select reads a point back** of a metric that begins like a listing. -/
theorem Reached.not_readsBack (h : Reached parse ws H) (hopen : ws.OpenOn label file)
    (hselects : source.Selects parse f o)
    (hlisted : namesTarget.toList <+: (Series.metric name).toList) :
    ¬ws.ReadsBack parse label source name t value := by
  rintro ⟨items, row, hitems, hrow, hseries, -⟩
  obtain ⟨name', hseries', hunlisted⟩ :=
    h.inOrder.unlisted_of_row_mem h.fits hopen hselects hitems hrow
  obtain rfl := Option.some.inj (hseries.symm.trans hseries')
  exact hunlisted hlisted

end ReadsBack

/-- **Times that are written and read.** A timestamp is the count of nanoseconds of an instant,
where this fits a signed word and then a word; the instant of a timestamp is that of its count,
where this fits a signed word. So exactly the timestamps below `2 ^ 63` are those of instants, and
exactly the ordinary instants from the start of 1970 to `2 ^ 63 - 1` nanoseconds after it have
timestamps; the two conversions undo each other and keep the order.

Hence a point that is written at an ordinary instant is read back at that instant: in whatever
becomes of the workspace while its file is spared, and in any session that is open on the file, by
every select that asks for it. Such a select is the one of its metric without clauses, unless the
metric begins like a listing; if it does, no select reads the point back. -/
theorem Reached.time_of_writeAt (parse : String → Option Json) :
    (∀ t : Instant, t.timestamp? = (Instant.signed? t.total).bind Instant.word?) ∧
    (∀ ts : Timestamp, Instant.ofTimestamp? ts = (Instant.signed? ts.toNat).map Instant.ofTotal) ∧
    (∀ ts : Timestamp, ((Instant.ofTimestamp? ts).isSome ↔ ts.toNat < Instant.timestamps) ∧
      ∀ t ∈ Instant.ofTimestamp? ts, t.timestamp? = some ts) ∧
    (∀ t : Instant, t.Ordinary →
      (t.timestamp?.isSome ↔ 0 ≤ t.total ∧ t.total ≤ Instant.timestamps - 1) ∧
      ∀ ts ∈ t.timestamp?, Instant.ofTimestamp? ts = some t) ∧
    (∀ t t' : Instant, t.Ordinary → t'.Ordinary → ∀ ts ∈ t.timestamp?, ∀ ts' ∈ t'.timestamp?,
      (t.Before t' ↔ ts < ts')) ∧
    ∀ (ws : Workspace Memory) (H : History) (label : Label) (series : String) (t : Instant)
      (value : Double), Reached parse ws H → t.Ordinary →
      let write := Command.writeAt label series t value
      (ws.run (Memory.engine parse) write).1 = .ok →
      (ws.react parse (.command write)).world.engine.Fits →
      ∃ name file ts, Series.normalize series = some name ∧ ws.OpenOn label file ∧
        t.timestamp? = some ts ∧
        ∀ ws' other, Later parse file (ws.react parse (.command write)) ws' →
          ws'.OpenOn other file →
          (∀ source f o, source.Selects parse f o → Written.AskedBy ⟨name, ts, value⟩ f o →
            ws'.ReadsBack parse other source name t value) ∧
          let q : Query := ⟨.select (Series.metric name), {}⟩
          if namesTarget.toList <+: (Series.metric name).toList then
            ∀ source f o, source.Selects parse f o →
              ¬ws'.ReadsBack parse other source name t value
          else
            ∀ source, source.render = .ok q.text → parse q.text = some q.document →
              ws'.ReadsBack parse other source name t value := by
  refine ⟨Instant.timestamp?_eq_bind, Instant.ofTimestamp?_eq_map, fun ts => ?_, fun t ht => ?_,
    fun t t' ht ht' ts hts ts' hts' => Instant.before_iff_timestamp_lt ht ht' hts hts', ?_⟩
  · refine ⟨Instant.isSome_ofTimestamp?_iff, fun t ht => ?_⟩
    exact (Instant.timestamp?_eq_some_iff_ofTimestamp? (Instant.ordinary_of_ofTimestamp? ht)).mpr ht
  · exact ⟨Instant.isSome_timestamp?_iff.trans (and_congr_right' Int.le_sub_one_iff.symm),
      fun ts hts => (Instant.timestamp?_eq_some_iff_ofTimestamp? ht).mp hts⟩
  · intro ws H label series t value hreached ht write hok hfits
    obtain ⟨name, file, ts, hname, hopen, hts, hmem⟩ := hreached.inOrder.mem_history_of_writeAt hok
    refine ⟨name, file, ts, hname, hopen, hts, fun ws' other hlater hopen' => ?_⟩
    obtain ⟨H', hreached', hgrows⟩ := hlater.reached
      (hreached.step (.command write) trivial trivial hfits)
    have htime := (Instant.timestamp?_eq_some_iff_ofTimestamp? ht).mp hts
    refine ⟨fun source f o hselects hasked =>
      hreached'.readsBack hopen' hselects (hgrows.subset hmem) hasked htime, ?_⟩
    intro q
    split
    next hlisted =>
      intro source f o hselects
      exact hreached'.not_readsBack hopen' hselects hlisted
    next hunlisted =>
      intro source hrender hparse
      exact hreached'.readsBack hopen' ⟨_, _, hrender, hparse, Plan.ofJson_select hunlisted⟩
        (hgrows.subset hmem) (Written.askedBy_select _) htime

/-- The command `writeAt` succeeds in the workspace `begun`. -/
theorem Workspace.run_writeAt_begun (parse : String → Option Json) {series name : String}
    {t : Instant} {ts : Timestamp} (value : Double)
    (hlength : series.utf8ByteSize ≤ Series.maxNameBytes)
    (hname : Series.normalize series = some name) (hts : t.timestamp? = some ts) :
    ((begun parse).run (Memory.engine parse) (.writeAt "s" series t value)).1 = .ok := by
  have hserves : (begun parse).world.engine.Serves 2 ["a.akumuli"] .empty := ⟨rfl, rfl⟩
  have hone : 1 < UInt64.size := by decide
  have hs : (begun parse).sessions.find? "s" = some ⟨"d", some 2, {}⟩ := rfl
  obtain ⟨w, hwrite, -⟩ := @Session.write_of_idle parse 2 ["a.akumuli"] .empty
    (begun parse).world ⟨some 2, {}⟩ _ _ ts value rfl rfl hserves rfl hlength hname hone
  simp only [run, withSession, hs, Session.writeAt, hts, hwrite]
  rfl

/-- At the last instant that has a timestamp a point is written, and it is read back in another
session by a select of the points from then on. -/
theorem Reached.time_of_last_write :
    let last : Instant := ⟨9223372036, 854775807⟩
    let value := Double.ofWord 3
    let source : Source := .query (.ok (.select "cpu")) [.startAt last, .filter .gt (.ofWord 2)]
    let ws := ((Workspace.begun Json.parse?).react Json.parse?
      (.command (.writeAt "s" "cpu host=a" last value))).react Json.parse?
      (.command (.openSession "r" "d"))
    last.total = Instant.timestamps - 1 ∧ Instant.ofTimestamp? 9223372036854775807 = some last ∧
      ws.ReadsBack Json.parse? "r" source "cpu host=a" last value := by
  intro last value source ws
  obtain ⟨-, -, -, hinstants, -, hread⟩ := Reached.time_of_writeAt Json.parse?
  have hts : last.timestamp? = some 9223372036854775807 := by decide +kernel
  obtain ⟨name, file, ts, hname, ⟨_, _, _, _, hfile⟩, hts', hlater⟩ :=
    hread _ _ "s" "cpu host=a" last value (Reached.begun Json.parse?) (by decide)
      (Workspace.run_writeAt_begun _ value (by decide) Series.normalize_cpu hts)
      (Memory.fits_of_values (by decide +kernel))
  obtain rfl : "cpu host=a" = name := Option.some.inj (Series.normalize_cpu.symm.trans hname)
  obtain rfl : ["a.akumuli"] = file := Option.some.inj hfile
  obtain rfl : 9223372036854775807 = ts := Option.some.inj (hts.symm.trans hts')
  have hbegun : Later Json.parse? ["a.akumuli"] _ ws := Later.now.step
    (.command (.openSession "r" "d")) (by decide +kernel : Workspace.sessionInUse _ "r" = false)
    trivial trivial (Memory.fits_of_values (by decide +kernel))
  have hopen : ws.OpenOn "r" ["a.akumuli"] :=
    ⟨⟨"d", some 3, {}⟩, 3, by decide +kernel, rfl, by decide +kernel⟩
  obtain ⟨hasked, -⟩ := hlater ws "r" hbegun hopen
  let refinements : List Refinement := [.startAt last, .filter .gt (.ofWord 2)]
  let f : PointFilter := ⟨["cpu"], ⟨some 9223372036854775807, none⟩, none⟩
  let o : Output := { filters := [⟨.gt, .ofWord 2⟩] }
  let text := Query.text ⟨.select "cpu", (Draft.ofList refinements).clauses⟩
  have hplan : (Json.parse? text).map Plan.ofJson = some (.ok (.select f o)) := by decide +kernel
  obtain ⟨document, hparse, hdocument⟩ := Option.map_eq_some_iff.mp hplan
  have hbuild : Query.build (.select "cpu") refinements =
      .ok ⟨.select "cpu", (Draft.ofList refinements).clauses⟩ := by decide +kernel
  have hrender : source.render = .ok text := by
    rw [Source.render, hbuild]
    rfl
  exact ⟨by decide, (hinstants last (by decide)).2 _ hts,
    hasked source f o ⟨text, document, hrender, hparse, hdocument⟩
      ⟨(f.range.contains_iff_covers _).mp (by decide +kernel), by decide +kernel, nofun,
        by decide +kernel, rfl, rfl⟩⟩

/-- **A metric that begins like a listing is not read back**: the write succeeds, but no select
gives the point, and the one of its metric gives the name of the series in its place. -/
theorem Reached.untimed_of_listed_metric :
    let t : Instant := ⟨0, 5⟩
    let value := Double.ofWord 3
    let write := Command.writeAt "s" "meta:names host=a" t value
    let ws := (Workspace.begun Json.parse?).react Json.parse? (.command write)
    ((Workspace.begun Json.parse?).run (Memory.engine Json.parse?) write).1 = .ok ∧ t.Ordinary ∧
      t.timestamp? = some 5 ∧ ws.OpenOn "s" ["a.akumuli"] ∧
      (∀ source f o, source.Selects Json.parse? f o →
        ¬ws.ReadsBack Json.parse? "s" source "meta:names host=a" t value) ∧
      (ws.run (Memory.engine Json.parse?) (.rows "s" (.query (.ok (.select "meta:names")) []))).1 =
        .items [.ok ⟨some "meta:names host=a", some 0, []⟩] := by
  intro t value write ws
  have hname : Series.normalize "meta:names host=a" = some "meta:names host=a" :=
    Series.normalize_of_words "meta:names".toList "host=a".toList ⟨"host", "a"⟩ rfl rfl
  have hts : t.timestamp? = some 5 := by decide +kernel
  have hok := Workspace.run_writeAt_begun Json.parse? value (by decide) hname hts
  have hreached : Reached Json.parse? ws _ := (Reached.begun Json.parse?).step (.command write)
    trivial trivial (Memory.fits_of_values (by decide +kernel))
  have hs : ws.sessions.find? "s" = some ⟨"d", some 2, {}⟩ := by decide +kernel
  have hopen : ws.OpenOn "s" ["a.akumuli"] := ⟨_, 2, hs, rfl, by decide +kernel⟩
  refine ⟨hok, by decide, hts, hopen, ?_, ?_⟩
  · intro source f o hselects
    exact hreached.not_readsBack hopen hselects (by decide +kernel)
  · let st := Store.ofSeries ["meta:names host=a"] [⟨1, 5, value⟩]
    have hserves : ws.world.engine.Serves 2 ["a.akumuli"] st :=
      ⟨by decide +kernel, by decide +kernel⟩
    let text := Query.text ⟨.select "meta:names", {}⟩
    have hplan : (Json.parse? text).map Plan.ofJson = some (.ok (.names ⟨[], {}, none⟩)) := by
      decide +kernel
    obtain ⟨document, hparse, hdocument⟩ := Option.map_eq_some_iff.mp hplan
    have hlist : st.list ⟨[], {}, none⟩ = [.seriesOnly 1] := by decide +kernel
    have hquery : st.query (Json.parse? text) = (.ok [.seriesOnly 1], st) := by
      rw [hparse, Store.query, hdocument]
      exact congrArg (fun records => (Except.ok records, st)) hlist
    obtain ⟨-, hanswer⟩ := hreached.inOrder.run_rows Json.parse? hs rfl hserves
      (Source.render_select (by decide +kernel : Text.isBlankText "meta:names" = false))
    rw [hanswer (by rw [hquery]; decide), Store.prospect, hquery]
    rfl

end TimeSeries
