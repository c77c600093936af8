import TimeSeries.Proofs.Client.Commands
import TimeSeries.Proofs.Client.CursorResults
import TimeSeries.Proofs.Cursor.Reading

/-!
# What a query gives along a run

The engine and its callers agree on the form of records: in a run of quiet events, whatever a
session is asked, its cursor gives the rows of the answer and nothing but rows, or, if the
query is refused, the refusal and nothing else (`Reached.items_of_query`).
-/

namespace TimeSeries

open Cursor

/-- **The row of a `Record`** in a store that has its series. -/
def Store.row (s : Store) (r : Record) : Row := ⟨s.name? r.series, some r.timestamp, r.values⟩

theorem readAlone_of_names {s : Store} {r : Record} (hencodable : r.Encodable)
    (hnames : s.Names r) :
    readAlone s.name? r.encode = .ok (s.row r) := by
  obtain ⟨name, hname⟩ := hnames
  rw [readAlone_encode hencodable, Store.row, hname]

/-- If no name is `forgotten`, `idToSeries` looks ids up in the store of the session. -/
theorem Memory.Serves.idToSeries_eq {m : Memory} {session : Handle} {file : FileKey} {st : Store}
    (h : m.Serves session file st) (hforgotten : m.forgotten = []) :
    m.idToSeries session = st.name? := by
  funext id
  rw [idToSeries, h.store?_eq, hforgotten, Option.bind_some]
  cases st.name? id <;> rfl

/-- If no name is `forgotten`, **the records of an answer are read as its rows** by `readAlone`:
their series have names in the store as the answer leaves it. -/
theorem Memory.readAlone_answered {m : Memory} {session : Handle} {file : FileKey} {st st' : Store}
    {document : Option Json} {records : List Record} (hserves : m.Serves session file st)
    (hforgotten : m.forgotten = []) (hquery : st.query document = (.ok records, st'))
    (hcount : st'.Countable) :
    records.map (fun r =>
        readAlone ((m.answered file (.ok records, st')).idToSeries session) r.encode) =
      records.map fun r => .ok (st'.row r) := by
  have hserves' : (m.answered file (.ok records, st')).Serves session file st' :=
    ⟨hserves.file_eq, Table.find?_put_self _ _ _⟩
  rw [hserves'.idToSeries_eq hforgotten]
  exact List.map_congr_left fun r hr => readAlone_of_names
    (Store.encodable_query (by rw [hquery]) r hr) (Store.names_query hquery hcount r hr)

namespace Session

variable {parse : String → Option Json} {s : Session} {session : Handle} {file : FileKey}
  {st st' : Store} {w : World Memory} {text : String} {records : List Record}

/-- **An answer is dealt out** record by record, each with the names that there are when it was
given, as the limit on deliveries leaves room. -/
theorem rationed_of_answer (hpanic : w.channel.panic = none) (hraw : w.engine.rawResults = [])
    (husable : s.settings.Usable) (hhandle : s.handle = some session)
    (hserves : w.engine.Serves session file st)
    (hquery : st.query (parse text) = (.ok records, st')) :
    let c := Cursor.ofHandle session w.engine.nextHandle s.settings.buffer
    ∃ w', s.openCursor (Memory.engine parse) text w = (.ok c, w') ∧
      w.Becomes (w.engine.answered file (.ok records, st')) w' ∧
      let items := rationed w.engine.chunkLimit (readAlone (w'.engine.idToSeries session))
        (records.map Record.encode)
      (∀ call, itemAt (Memory.engine parse) call quietly c w' = items[call]?) ∧
        (c.items (Memory.engine parse) w').1 = items := by
  intro c
  obtain ⟨w', hopen, hbecomes⟩ := openCursor_becomes parse text hpanic hraw hhandle hserves
  have hstream : Streaming session w.engine.nextHandle c w' (records.map Record.encode) :=
    streaming_of_answer hpanic (by rw [hquery]) husable.record husable.word hbecomes
  rw [hquery] at hbecomes
  have hfeed : w'.engine.cursors.find? w.engine.nextHandle =
      some { records := records.map Record.encode } := by
    rw [hbecomes.engine]
    exact Table.find?_put_self _ _ _
  have hlimit : w'.engine.chunkLimit = w.engine.chunkLimit := by rw [hbecomes.engine]; rfl
  rw [← hlimit]
  exact ⟨w', hopen, hbecomes, hstream.items_rationed parse (ReadBuffer.unread_ofCapacity _) hfeed⟩

/-- **An answer is read record by record** by `items`, if the limit on deliveries leaves room for
all of them. -/
theorem items_of_answer (hpanic : w.channel.panic = none) (hraw : w.engine.rawResults = [])
    (husable : s.settings.Usable) (hhandle : s.handle = some session)
    (hserves : w.engine.Serves session file st) (hquery : st.query (parse text) = (.ok records, st'))
    (hroom : ∀ limit ∈ w.engine.chunkLimit, ∀ r ∈ records, r.encode.length ≤ limit) :
    let c := Cursor.ofHandle session w.engine.nextHandle s.settings.buffer
    ∃ w', s.openCursor (Memory.engine parse) text w = (.ok c, w') ∧
      w.Becomes (w.engine.answered file (.ok records, st')) w' ∧
      (c.items (Memory.engine parse) w').1 =
        records.map (fun r => readAlone (w'.engine.idToSeries session) r.encode) ∧
      ∀ call, itemAt (Memory.engine parse) call quietly c w' =
        (records.map fun r => readAlone (w'.engine.idToSeries session) r.encode)[call]? := by
  intro c
  obtain ⟨w', hopen, hbecomes, hitemAt, hitems⟩ :=
    rationed_of_answer hpanic hraw husable hhandle hserves hquery
  have hroom' : ∀ limit ∈ w.engine.chunkLimit, ∀ record ∈ records.map Record.encode,
      record.length ≤ limit := by
    intro limit hlimit record hrecord
    obtain ⟨r, hr, rfl⟩ := List.mem_map.mp hrecord
    exact hroom limit hlimit r hr
  rw [rationed_of_room hroom', List.map_map] at hitemAt hitems
  exact ⟨w', hopen, hbecomes, hitems, hitemAt⟩

/-- **A query that is refused** has its refusal as the only item of `items`. -/
theorem items_of_refusal {status : Status} (hpanic : w.channel.panic = none)
    (hraw : w.engine.rawResults = []) (husable : s.settings.Usable)
    (hhandle : s.handle = some session) (hserves : w.engine.Serves session file st)
    (hquery : st.query (parse text) = (.error status, st')) :
    let c := Cursor.ofHandle session w.engine.nextHandle s.settings.buffer
    ∃ w', s.openCursor (Memory.engine parse) text w = (.ok c, w') ∧
      (c.items (Memory.engine parse) w').1 = [.error (.engine status)] ∧
      ∀ call, itemAt (Memory.engine parse) call quietly c w' =
        ([.error (.engine status)] : List (Item Row))[call]? := by
  intro c
  obtain ⟨w', hopen, hbecomes⟩ := openCursor_becomes parse text hpanic hraw hhandle hserves
  have hfeed : w'.engine.cursors.find? w.engine.nextHandle = some { error := some status } := by
    rw [hbecomes.engine, hquery]
    exact Table.find?_put_self _ _ _
  obtain ⟨hitemAt, hitems⟩ := items_of_failed parse (live_ofHandle _ _ husable.word)
    (ReadBuffer.unread_ofCapacity _) (hbecomes.no_panic hpanic) hfeed
  exact ⟨w', hopen, hitems, hitemAt⟩

end Session

/-- **In a workspace `InOrder`, an answer is read as the rows of its records**, one for each. -/
theorem InOrder.rows_of_answer {parse : String → Option Json} {ws : Workspace Memory} {H : History}
    {s : Child Session} {session : Handle} {file : FileKey} {st st' : Store} {text : String}
    {records : List Record} (h : InOrder ws H) (husable : s.it.settings.Usable)
    (hhandle : s.it.handle = some session) (hserves : ws.world.engine.Serves session file st)
    (hquery : st.query (parse text) = (.ok records, st')) (hcount : st'.Countable) :
    let c := Cursor.ofHandle session ws.world.engine.nextHandle s.it.settings.buffer
    ∃ w', s.it.openCursor (Memory.engine parse) text ws.world = (.ok c, w') ∧
      w'.engine.cursors.find? ws.world.engine.nextHandle =
        some { records := records.map Record.encode } ∧
      (c.items (Memory.engine parse) w').1 = records.map (fun r => .ok (st'.row r)) ∧
      ∀ call, itemAt (Memory.engine parse) call quietly c w' =
        (records.map fun r => .ok (st'.row r))[call]? := by
  intro c
  obtain ⟨w', hopen, hbecomes, hitems, hitemAt⟩ :=
    Session.items_of_answer h.panic h.calm.raw husable hhandle hserves hquery
      (by rw [h.calm.limit]; exact fun limit hlimit => by cases hlimit)
  have hrows : records.map (fun r => readAlone (w'.engine.idToSeries session) r.encode) =
      records.map fun r => .ok (st'.row r) := by
    rw [hbecomes.engine]
    exact Memory.readAlone_answered hserves h.calm.forgotten hquery hcount
  rw [hrows] at hitems
  refine ⟨w', hopen, ?_, hitems, fun call => ?_⟩
  · rw [hbecomes.engine]
    exact Table.find?_put_self _ _ _
  · rw [hitemAt call, hrows]

/-- **Queries in runs**: in a workspace that is `Reached`, every open session works on a store, and
whatever it is asked, `openCursor` gives a cursor, as long as the names fit in memory that the
answer makes up. If the store answers, then all records in the cursor are `Encodable`, are accepted
at their full length, which is no larger than `maxRecordSize`, and have a series with a name in the
store; and `items` gives their rows, one after another, and then nothing. If the store refuses, the
cursor gives the refusal, which is not that of a record that does not fit, and then nothing. -/
theorem Reached.items_of_query {parse : String → Option Json} {ws : Workspace Memory} {H : History}
    (h : Reached parse ws H) {label : Label} {s : Child Session} {session : Handle}
    (hs : ws.sessions.find? label = some s) (hhandle : s.it.handle = some session) (text : String) :
    ∃ st, ws.world.engine.store? session = some st ∧
      ((st.query (parse text)).2.Countable →
        let c := Cursor.ofHandle session ws.world.engine.nextHandle s.it.settings.buffer
        ∃ w', s.it.openCursor (Memory.engine parse) text ws.world = (.ok c, w') ∧
          match st.query (parse text) with
          | (.ok records, st') =>
            w'.engine.cursors.find? ws.world.engine.nextHandle =
              some { records := records.map Record.encode } ∧
            (∀ r ∈ records, r.Encodable ∧ Header.parse r.encode = .ok r.header ∧
              r.header.length = r.encode.length ∧ r.encode.length ≤ 496 ∧
              ∃ name, st'.name? r.header.series = some name) ∧
            (c.items (Memory.engine parse) w').1 = records.map (fun r => .ok (st'.row r)) ∧
            ∀ call, itemAt (Memory.engine parse) call quietly c w' =
              (records.map fun r => .ok (st'.row r))[call]?
          | (.error status, _) =>
            status ≠ .overflow ∧
            (c.items (Memory.engine parse) w').1 = [.error (.engine status)] ∧
            ∀ call, itemAt (Memory.engine parse) call quietly c w' =
              ([.error (.engine status)] : List (Item Row))[call]?) := by
  have horder := h.inOrder
  obtain ⟨d, st, -, hserves⟩ := horder.tied.serves hs hhandle
  have husable := horder.tied.sessions_usable hs
  refine ⟨st, hserves.store?_eq, ?_⟩
  intro hcount c
  rcases hquery : st.query (parse text) with ⟨status | records, st'⟩
  -- refused, and never as a record that does not fit
  · obtain ⟨w', hopen, hitems⟩ := Session.items_of_refusal horder.panic horder.calm.raw husable
      hhandle hserves hquery
    refine ⟨w', hopen, ?_, hitems⟩
    rintro rfl
    exact absurd (Store.refused_query hquery).2 (by decide)
  · rw [hquery] at hcount
    obtain ⟨w', hopen, hfeed, hitems⟩ :=
      horder.rows_of_answer husable hhandle hserves hquery hcount
    refine ⟨w', hopen, hfeed, fun r hr => ?_, hitems⟩
    have hencodable := Store.encodable_query (by rw [hquery]) r hr
    refine ⟨hencodable, Record.parse_encode hencodable, ?_, Record.length_encode_le hencodable, ?_⟩
    · rw [Record.length_encode, Record.length_header r hencodable]
    · rw [Record.series_header]
      exact Store.names_query hquery hcount r hr

/-- A point that is asked for is given, and a text that can't be read is refused. -/
theorem Reached.items_of_small_store :
    let parse : String → Option Json := fun text =>
      if text = "" then none else some (.object [("select", .text "cpu")])
    let value := Double.ofWord 3
    let ws := Workspace.begunWith parse value
    ∃ H s, Reached parse ws H ∧ ws.sessions.find? "s" = some s ∧
      (∃ c w', s.it.openCursor (Memory.engine parse) "cpu" ws.world = (.ok c, w') ∧
        (c.items (Memory.engine parse) w').1 = [.ok ⟨some "cpu host=a", some 5, [value]⟩]) ∧
      ∃ c w', s.it.openCursor (Memory.engine parse) "" ws.world = (.ok c, w') ∧
        (c.items (Memory.engine parse) w').1 = [.error (.engine .queryParsingError)] := by
  intro parse value ws
  obtain ⟨H, hreached, -, hstore⟩ := Reached.begunWith parse value
  have hs : ws.sessions.find? "s" = some ⟨"d", some 2, {}⟩ :=
    Workspace.begunWith_session parse value
  refine ⟨H, _, hreached, hs, ?_, ?_⟩
  · obtain ⟨st, hst, hquery⟩ := hreached.items_of_query hs rfl "cpu"
    obtain rfl := Option.some.inj (hstore.symm.trans hst)
    have hplan : Plan.ofJson (.object [("select", .text "cpu")]) =
        .ok (.select ⟨["cpu"], {}, none⟩ {}) := rfl
    have hmatching : Store.matching (.ofSeries ["cpu host=a"] [⟨1, 5, value⟩]) ⟨["cpu"], {}, none⟩ =
        [⟨"cpu host=a", ⟨1, 5, value⟩⟩] := rfl
    have hanswer : Store.query (.ofSeries ["cpu host=a"] [⟨1, 5, value⟩]) (parse "cpu") =
        (.ok [.scalar 1 5 value], .ofSeries ["cpu host=a"] [⟨1, 5, value⟩]) := by
      simp [parse, Store.query, hplan, Store.answer, Store.select, hmatching, Output.keeps,
        Output.page, Store.Match.record]
    rw [hanswer] at hquery
    obtain ⟨w', hopen, -, -, hitems, -⟩ := hquery (by decide)
    exact ⟨_, w', hopen, hitems⟩
  · obtain ⟨st, hst, hquery⟩ := hreached.items_of_query hs rfl ""
    obtain rfl := Option.some.inj (hstore.symm.trans hst)
    obtain ⟨w', hopen, -, hitems, -⟩ := hquery (by decide)
    exact ⟨_, w', hopen, hitems⟩

end TimeSeries
