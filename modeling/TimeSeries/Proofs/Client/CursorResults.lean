import TimeSeries.Proofs.Client.Sessions
import TimeSeries.Proofs.Cursor.Stream
import TimeSeries.Proofs.Cursor.Walk
import TimeSeries.Proofs.Store.Answers

/-!
# What a query's cursor gives

A query's cursor is to give the records of its answer, one item for each and no more,
whatever becomes of the world while it is read: `Session.itemAt_of_answer`. Over waiting
bytes, which need not be records at all, it gives what a plain walk over them gives:
`Session.items_of_raw`.
-/

namespace TimeSeries

open Cursor

variable {parse : String → Option Json} {session : Handle} {file : FileKey} {s : Session}
  {st : Store} {w : World Memory} {text : String} {records : List Record}

/-- The records of an answer are whole, as `IsRecord` says, and fit a buffer of at least
`maxRecordSize`. -/
theorem fits_of_answer {capacity : Nat} (hquery : (st.query (parse text)).1 = .ok records)
    (hcapacity : maxRecordSize ≤ capacity) :
    ∀ record ∈ records.map Record.encode, IsRecord record ∧ record.length ≤ capacity := by
  intro record hrecord
  obtain ⟨r, hr, rfl⟩ := List.mem_map.mp hrecord
  have hencodable := Store.encodable_query hquery r hr
  exact ⟨isRecord_encode hencodable, Nat.le_trans (Record.length_encode_le hencodable) hcapacity⟩

namespace Session

/-- A fresh cursor, `Cursor.ofHandle`, on an answer is `Streaming` its records. -/
theorem streaming_of_answer {w' : World Memory} {capacity : Nat}
    (hpanic : w.channel.panic = none) (hquery : (st.query (parse text)).1 = .ok records)
    (hcapacity : maxRecordSize ≤ capacity) (hword : capacity < UInt64.size)
    (hbecomes : w.Becomes (w.engine.answered file (st.query (parse text))) w') :
    Streaming session w.engine.nextHandle (.ofHandle session w.engine.nextHandle capacity) w'
      (records.map Record.encode) := by
  refine .ofHandle hword (hbecomes.no_panic hpanic) (fits_of_answer hquery hcapacity) ?_
  rw [hbecomes.engine]
  simp [Memory.answered, hquery, Memory.feedOf]

/-- **Streaming**: a query that is answered gets a cursor whose calls of `next` give, one after
another, the records of the answer as each is read alone by `Record.item`, and then nothing; however
large the buffer is, whatever limits there are on deliveries, and whatever else happens between the
calls. The only exception is a reader that is starved of its next record: it gets that failure in
place of it, and then nothing. -/
theorem itemAt_of_answer (hpanic : w.channel.panic = none) (hraw : w.engine.rawResults = [])
    (hhandle : s.handle = some session) (hserves : w.engine.Serves session file st)
    (hquery : (st.query (parse text)).1 = .ok records)
    (hbuffer : maxRecordSize ≤ s.settings.buffer) (hword : s.settings.buffer < UInt64.size) :
    let c := Cursor.ofHandle session w.engine.nextHandle s.settings.buffer
    ∃ w', s.openCursor (Memory.engine parse) text w = (.ok c, w') ∧
      ∀ between, LeftAlone parse w.engine.nextHandle between c w' →
        (∀ call, (∀ k ≤ call, ∀ r ∈ records[k]?, ¬StarvedAt parse between c w' k r.encode) →
          itemAt (Memory.engine parse) call between c w' = records[call]?.map fun r =>
            readAlone ((before (Memory.engine parse) call between c w').2.engine.idToSeries session)
              r.encode) ∧
        ∀ call, ∀ r ∈ records[call]?,
          (∀ k < call, ∀ r ∈ records[k]?, ¬StarvedAt parse between c w' k r.encode) →
          StarvedAt parse between c w' call r.encode →
            itemAt (Memory.engine parse) call between c w' = some (.error (.engine .overflow)) ∧
              ∀ later > call, itemAt (Memory.engine parse) later between c w' = none := by
  intro c
  obtain ⟨w', hopen, hbecomes⟩ := openCursor_becomes parse text hpanic hraw hhandle hserves
  have hstream : Streaming session w.engine.nextHandle c w' (records.map Record.encode) :=
    streaming_of_answer hpanic hquery hbuffer hword hbecomes
  -- what holds of the records holds of their bytes
  have hbytes : ∀ {P : Nat → Bytes → Prop} {k : Nat}, (∀ r ∈ records[k]?, P k r.encode) →
      ∀ record ∈ (records.map Record.encode)[k]?, P k record := by
    intro P k hrecords record hrecord
    rw [List.getElem?_map] at hrecord
    obtain ⟨r, hr, rfl⟩ := Option.map_eq_some_iff.mp hrecord
    exact hrecords r hr
  refine ⟨w', hopen, fun between hbetween => ⟨?_, ?_⟩⟩
  · intro call hfed
    rw [hstream.itemAt_eq parse hbetween call fun k hk =>
      hbytes (P := fun k b => ¬StarvedAt parse between c w' k b) (hfed k hk), List.getElem?_map,
      Option.map_map]
    rfl
  · intro call r hr hfed hstarved
    refine hstream.itemAt_starved parse hbetween call (fun k hk =>
      hbytes (P := fun k b => ¬StarvedAt parse between c w' k b) (hfed k hk)) ?_ hstarved
    rw [List.getElem?_map, hr]
    rfl

/-- A limit of one byte less than the only record of an answer starves its reader. -/
theorem itemAt_of_narrow_limit :
    let parse : String → Option Json := fun _ => some (.object [("select", .text "cpu")])
    let st := Store.ofSeries ["cpu host=a"] [⟨1, 5, ⟨7⟩⟩]
    let w : World Memory :=
      { engine :=
          { lastHandle := 2
            stores := Table.empty.put ["db"] st
            databases := Table.empty.put 1 ["db"]
            sessions := Table.empty.put 2 1 }
        files := {} }
    let s : Session := ⟨some 2, {}⟩
    let c := Cursor.ofHandle 2 3 1024
    let narrow : Nat → World Memory → World Memory :=
      fun _ w => Memory.disturb w (.chunkLimit (some 31))
    ∃ w', s.openCursor (Memory.engine parse) "" w = (.ok c, w') ∧
      itemAt (Memory.engine parse) 0 narrow c w' = some (.error (.engine .overflow)) ∧
      ∀ later > 0, itemAt (Memory.engine parse) later narrow c w' = none := by
  intro parse st w s c narrow
  have hplan : Plan.ofJson (.object [("select", .text "cpu")]) =
      .ok (.select ⟨["cpu"], {}, none⟩ {}) := rfl
  have hmatching : st.matching ⟨["cpu"], {}, none⟩ = [⟨"cpu host=a", ⟨1, 5, ⟨7⟩⟩⟩] := rfl
  have hquery : (st.query (parse "")).1 = .ok [.scalar 1 5 ⟨7⟩] := by
    simp [parse, Store.query, hplan, Store.answer, Store.select, hmatching, Output.keeps,
      Output.page, Store.Match.record]
  obtain ⟨w', hopen, hitems⟩ := itemAt_of_answer (w := w) (s := s)
    rfl rfl rfl ⟨rfl, rfl⟩ hquery (by decide) (by decide)
  have hstarved : StarvedAt parse narrow c w' 0 (Record.encode (.scalar 1 5 ⟨7⟩)) :=
    ⟨rfl, 31, rfl, by decide⟩
  obtain ⟨hfirst, hlater⟩ := (hitems narrow fun k => ⟨rfl, id⟩).2 0 _ rfl
    (fun k hk => absurd hk (Nat.not_lt_zero k)) hstarved
  exact ⟨w', hopen, hfirst, hlater⟩

/-! ### Waiting bytes -/

/-- A fresh cursor, `Cursor.ofHandle`, on waiting bytes is at the beginning of its walk. -/
theorem walking_of_raw {w' : World Memory} {bytes : Bytes} {rest : List Bytes} {capacity : Nat}
    (hpanic : w.channel.panic = none) (hfits : bytes.length ≤ capacity)
    (hword : capacity < UInt64.size) (hlimit : ∀ limit ∈ w.engine.chunkLimit, bytes.length ≤ limit)
    (hbecomes : w.Becomes (w.engine.fed bytes rest) w') :
    Walking session w.engine.nextHandle (w.engine.idToSeries session) bytes 0
      (.ofHandle session w.engine.nextHandle capacity) w' := by
  have hcapacity : (Cursor.ofHandle session w.engine.nextHandle capacity).buffer.capacity =
      capacity := ReadBuffer.capacity_ofCapacity capacity
  refine ⟨live_ofHandle _ _ hword, hbecomes.no_panic hpanic, ?_, ?_, .inr ⟨rfl, rfl, ?_, ?_⟩⟩
  · rw [hbecomes.engine]
    rfl
  · rwa [hcapacity]
  · rw [hbecomes.engine, hcapacity, Memory.room]
    split
    next limit hsome => exact Nat.le_min.mpr ⟨hlimit limit hsome, hfits⟩
    next => exact hfits
  · rw [hbecomes.engine]
    exact Table.find?_put_self _ _ _

/-- **Arbitrary bytes**: a query that gets waiting bytes which fit the buffer and `chunkLimit` has a
cursor whose `items` are those of the walk over them, and no others; nothing comes after a corrupt
record. At no time does the cursor hold anything but the end of the bytes in a valid buffer, and
nothing panics. -/
theorem items_of_raw {bytes : Bytes} {rest : List Bytes} (hpanic : w.channel.panic = none)
    (hraw : w.engine.rawResults = bytes :: rest) (hhandle : s.handle = some session)
    (hfits : bytes.length ≤ s.settings.buffer) (hword : s.settings.buffer < UInt64.size)
    (hlimit : ∀ limit ∈ w.engine.chunkLimit, bytes.length ≤ limit) :
    ∃ c w', s.openCursor (Memory.engine parse) text w = (.ok c, w') ∧
      (c.items (Memory.engine parse) w').1 = walk bytes (w.engine.idToSeries session) 0 ∧
      (∀ call, itemAt (Memory.engine parse) call quietly c w' =
        (walk bytes (w.engine.idToSeries session) 0)[call]?) ∧
      (∀ call place fault, itemAt (Memory.engine parse) call quietly c w' =
          some (.error (.corruptRecord place fault)) →
        ∀ later > call, itemAt (Memory.engine parse) later quietly c w' = none) ∧
      ∀ calls, Within bytes (after (Memory.engine parse) calls quietly c w').1
        (after (Memory.engine parse) calls quietly c w').2 := by
  obtain ⟨w', hopen, hbecomes⟩ := openCursor_of_raw parse text hpanic hraw hhandle
  have hwalking : Walking session w.engine.nextHandle (w.engine.idToSeries session) bytes 0
      (.ofHandle session w.engine.nextHandle s.settings.buffer) w' :=
    walking_of_raw hpanic hfits hword hlimit hbecomes
  have hitems := hwalking.itemAt_eq parse
  -- a walk has no more items than the calls that are made for all of them
  have hbudget : (walk bytes (w.engine.idToSeries session) 0).length ≤
      (Cursor.ofHandle session w.engine.nextHandle s.settings.buffer).budget
        (Memory.engine parse) w' := by
    have hlength : 0 + (walk bytes (w.engine.idToSeries session) 0).length ≤ bytes.length + 1 :=
      length_walk_le (Nat.zero_le _)
    have hroom : s.settings.buffer + 1 ≤
        ((Memory.engine parse).patience w' + 1) * (s.settings.buffer + 1) :=
      Nat.le_mul_of_pos_left _ (Nat.succ_pos _)
    rw [budget, Cursor.ofHandle, ReadBuffer.capacity_ofCapacity]
    omega
  refine ⟨_, w', hopen, (items_eq hitems hbudget).1, hitems, ?_, hwalking.within_after parse⟩
  intro call place fault hitem later hlater
  rw [hitems] at hitem ⊢
  rw [List.getElem?_eq_none]
  have hlength := length_walk_of_corrupt hitem
  omega

/-- A record of an unknown series, and three bytes that are no record. -/
theorem items_of_torn_bytes :
    let bytes := (Record.seriesOnly 7).encode ++ [1, 2, 3]
    let w : World Memory := { engine := { rawResults := [bytes] }, files := {} }
    let s : Session := ⟨some 2, {}⟩
    ∃ c w', s.openCursor (Memory.engine fun _ => none) "" w = (.ok c, w') ∧
      (c.items (Memory.engine fun _ => none) w').1 =
        [.error (.unresolvedSeries 7), .error (.corruptRecord 32 (.truncated 3))] := by
  intro bytes w s
  obtain ⟨c, w', hopen, hitems, -⟩ := @items_of_raw (fun _ => none) 2 s w "" bytes [] rfl rfl rfl
    (by decide) (by decide) (fun limit hlimit => by cases hlimit)
  refine ⟨c, w', hopen, hitems.trans ?_⟩
  have hfirst : Header.parseAt bytes 0 = .ok (Record.seriesOnly 7).header :=
    Header.parseAt_eq_ok.mpr (Header.parse_append [1, 2, 3] (Record.parse_encode trivial))
  have hsecond : Header.parseAt bytes 32 = .error (.corruptRecord 32 (.truncated 3)) := rfl
  have hlength : 0 + (Record.seriesOnly 7).header.length = 32 := rfl
  rw [walk_of_ok hfirst, hlength, walk_of_error (by decide) hsecond]
  rfl

end Session

end TimeSeries
