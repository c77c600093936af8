import TimeSeries.Proofs.Client.Operations
import TimeSeries.Proofs.Store.Names

/-!
# What is done in a session

A session works on the store of one file (`Memory.Serves`). A write adds at most a name
and a point to it (`Session.write_becomes`), be it tried once or many times; a query puts
its answer into the feed of a fresh cursor and leaves the store as the answer leaves it
(`Session.openCursor_becomes`). Nothing else in the engine changes, but for the number of
writes that it still refuses.
-/

namespace TimeSeries

namespace Memory

variable {m : Memory} {session : Handle} {file : FileKey} {s s' : Store}

/-- **A session works on a store**: that of the file of its database, by `sessionFile?`. -/
structure Serves (m : Memory) (session : Handle) (file : FileKey) (s : Store) : Prop where
  /-- the file -/
  file_eq : m.sessionFile? session = some file
  /-- the store of the file -/
  find_eq : m.stores.find? file = some s

theorem Serves.store?_eq (h : m.Serves session file s) : m.store? session = some s := by
  rw [store?, h.file_eq, Option.bind_some, h.find_eq]

theorem serves_of_store? (h : m.store? session = some s) : ∃ file, m.Serves session file s := by
  obtain ⟨file, hfile, hs⟩ := Option.bind_eq_some_iff.mp h
  exact ⟨file, hfile, hs⟩

/-- The engine with another store of a file. -/
def withStore (m : Memory) (file : FileKey) (s : Store) : Memory :=
  { m with stores := m.stores.put file s }

/-- The engine when it refuses so many writes more, `busyWrites`. -/
def refusing (m : Memory) (count : Nat) : Memory := { m with busyWrites := count }

theorem Serves.setStore_eq (h : m.Serves session file s) (s' : Store) :
    m.setStore session s' = m.withStore file s' := by
  rw [setStore, h.file_eq]
  rfl

theorem Serves.withStore (h : m.Serves session file s) (s' : Store) :
    (m.withStore file s').Serves session file s' :=
  ⟨h.file_eq, Table.find?_put_self _ _ _⟩

theorem Serves.refusing (h : m.Serves session file s) (count : Nat) :
    (m.refusing count).Serves session file s := ⟨h.file_eq, h.find_eq⟩

theorem Serves.withStore_self (h : m.Serves session file s) : m.withStore file s = m := by
  rw [Memory.withStore, Table.put_of_find? h.find_eq]

@[simp] theorem withStore_withStore (m : Memory) (file : FileKey) (s s' : Store) :
    (m.withStore file s).withStore file s' = m.withStore file s' := by
  simp [withStore, Table.put_put]

@[simp] theorem refusing_withStore (m : Memory) (file : FileKey) (s : Store) (count : Nat) :
    (m.refusing count).withStore file s = (m.withStore file s).refusing count := rfl

@[simp] theorem refusing_refusing (m : Memory) (count count' : Nat) :
    (m.refusing count).refusing count' = m.refusing count' := rfl

end Memory

/-! ### Writing -/

/-- A store with one more of its `points`. -/
def Store.withPoint (s : Store) (p : Point) : Store := { s with points := s.points ++ [p] }

theorem Store.append?_eq_some {s s' : Store} {p : Point} (h : s.append? p = some s') :
    s' = s.withPoint p := by
  rw [append?] at h
  split at h
  · exact (Option.some.inj h).symm
  · cases h

/-- Calling `append?` takes a point of a series that has a name. -/
theorem Store.append?_of_name? {s : Store} {p : Point} {name : String}
    (h : s.name? p.series = some name) : s.append? p = some (s.withPoint p) := by
  rw [append?, h]
  rfl

namespace Session

variable (parse : String → Option Json) {session : Handle} {file : FileKey} {st : Store}
  {w : World Memory}

/-- **Calling `attempt`**: until a try is not refused, only the number of refusals changes; the one
that succeeds appends the point. -/
theorem attempt_becomes (retry : RetryPolicy) (p : Point) (fuel attempts elapsed : Nat)
    (delays : List Nat) (hpanic : w.channel.panic = none)
    (hserves : w.engine.Serves session file st) :
    (∃ failure w' busy,
      attempt (Memory.engine parse) retry session p fuel attempts elapsed delays w =
          (.error failure, w') ∧
        w.Becomes (w.engine.refusing busy) w') ∨
    ∃ w' busy,
      attempt (Memory.engine parse) retry session p fuel attempts elapsed delays w = (.ok (), w') ∧
        w.Becomes ((w.engine.withStore file (st.withPoint p)).refusing busy) w' := by
  induction fuel generalizing attempts elapsed delays w with
  | zero => exact .inl ⟨_, w, w.engine.busyWrites, rfl, .refl w⟩
  | succ fuel ih =>
    rw [attempt]
    simp only [Engine.ask, Memory.engine, Memory.answer, Memory.onEngine, Memory.write]
    rcases hbusy : w.engine.busyWrites with _ | left
    · simp only [hserves.store?_eq]
      cases happend : st.append? p with
      | none => exact .inl ⟨_, _, w.engine.busyWrites, rfl, rfl, rfl⟩
      | some st' =>
        obtain rfl := Store.append?_eq_some happend
        simp only [hserves.setStore_eq]
        exact .inr ⟨_, w.engine.busyWrites, rfl, rfl, rfl⟩
    · simp only
      split
      · exact .inl ⟨_, _, left, rfl, rfl, rfl⟩
      · simp only [World.check, hpanic]
        obtain ⟨failure, w', busy, hattempt, hbecomes⟩ | ⟨w', busy, hattempt, hbecomes⟩ :=
          ih (min (attempts + 1) maxCount) (elapsed + delays.headD 0) delays.tail
            (w := { w with
              engine := w.engine.refusing left
              calls := .write session p.series p.timestamp p.value :: w.calls })
            hpanic (hserves.refusing left)
        · exact .inl ⟨failure, w', busy, hattempt, hbecomes.engine, hbecomes.panic⟩
        · exact .inr ⟨w', busy, hattempt, hbecomes.engine, hbecomes.panic⟩

/-- **A `write`** fails and leaves at most a name behind, or it succeeds and appends its point under
the canonical name of the series. -/
theorem write_becomes {s : Session} (series : String) (timestamp : Timestamp) (value : Double)
    (hpanic : w.channel.panic = none) (hhandle : s.handle = some session)
    (hserves : w.engine.Serves session file st) :
    (∃ failure w' st' busy,
      s.write (Memory.engine parse) series timestamp value w = (.error failure, w') ∧
        st.Grows st' ∧ w.Becomes ((w.engine.withStore file st').refusing busy) w') ∨
    ∃ name w' busy, s.write (Memory.engine parse) series timestamp value w = (.ok (), w') ∧
      Series.normalize series = some name ∧
      w.Becomes ((w.engine.withStore file
        ((st.enlist name).2.withPoint
          ⟨(st.enlist name).1, timestamp, value⟩)).refusing busy) w' := by
  -- an operation that changes nothing puts the store in its own place
  have hsame : (w.engine.withStore file st).refusing w.engine.busyWrites = w.engine := by
    rw [hserves.withStore_self]
    rfl
  rw [write, hhandle, checkHandle_some hpanic]
  dsimp only
  split
  · exact .inl ⟨_, w, st, w.engine.busyWrites, rfl, .refl st, hsame.symm, rfl⟩
  simp only [Engine.ask, Memory.engine, Memory.answer, Memory.onEngine, Memory.seriesToId]
  cases hname : Series.normalize series with
  | none => exact .inl ⟨_, _, st, w.engine.busyWrites, rfl, .refl st, hsame.symm, rfl⟩
  | some name =>
    simp only [hserves.store?_eq, hserves.setStore_eq]
    obtain ⟨failure, w', busy, hattempt, hbecomes⟩ | ⟨w', busy, hattempt, hbecomes⟩ :=
      attempt_becomes parse s.settings.retry ⟨(st.enlist name).1, timestamp, value⟩ _ 0 0 w.delays
        (w := { w with
          engine := w.engine.withStore file (st.enlist name).2
          calls := .seriesToId session series :: w.calls })
        hpanic (hserves.withStore _)
    · exact .inl ⟨_, w', (st.enlist name).2, busy, hattempt, Store.enlist_grows st name,
        hbecomes.engine, hbecomes.panic⟩
    · refine .inr ⟨name, w', busy, hattempt, rfl, ?_, hbecomes.panic⟩
      rw [hbecomes.engine, Memory.withStore_withStore]

/-- **A `write` succeeds** if the engine is not busy and the series has a canonical name, unless it
is too long. -/
theorem write_of_idle {s : Session} {series name : String} (timestamp : Timestamp)
    (value : Double) (hpanic : w.channel.panic = none) (hhandle : s.handle = some session)
    (hserves : w.engine.Serves session file st) (hidle : w.engine.busyWrites = 0)
    (hlength : series.utf8ByteSize ≤ Series.maxNameBytes)
    (hname : Series.normalize series = some name) (hcount : (st.enlist name).2.Countable) :
    ∃ w', s.write (Memory.engine parse) series timestamp value w = (.ok (), w') ∧
      w.Becomes (w.engine.withStore file
        ((st.enlist name).2.withPoint ⟨(st.enlist name).1, timestamp, value⟩)) w' := by
  have hserves' := hserves.withStore (st.enlist name).2
  have hidle' : (w.engine.withStore file (st.enlist name).2).busyWrites = 0 := hidle
  have happend : (st.enlist name).2.append? ⟨(st.enlist name).1, timestamp, value⟩ =
      some ((st.enlist name).2.withPoint ⟨(st.enlist name).1, timestamp, value⟩) :=
    Store.append?_of_name? (Store.name?_enlist hcount)
  rw [write, hhandle, checkHandle_some hpanic]
  dsimp only
  rw [if_neg (Nat.not_lt.mpr hlength)]
  simp only [Engine.ask, Memory.engine, Memory.answer, Memory.onEngine, Memory.seriesToId, hname,
    hserves.store?_eq, hserves.setStore_eq]
  rw [attempt]
  simp only [Engine.ask, Memory.answer, Memory.onEngine, Memory.write, hidle',
    hserves'.store?_eq, happend, hserves'.setStore_eq, Memory.withStore_withStore]
  exact ⟨_, rfl, rfl, rfl⟩

theorem write_of_closed {s : Session} (hpanic : w.channel.panic = none) (hhandle : s.handle = none)
    (series : String) (timestamp : Timestamp) (value : Double) :
    s.write (Memory.engine parse) series timestamp value w = (.error .closed, w) := by
  rw [write, hhandle, checkHandle_none hpanic]

end Session

/-! ### Starting a query -/

namespace Memory

/-- The `Feed` of an answer. -/
def feedOf : Except Status (List Record) → Feed
  | .ok records => { records := records.map Record.encode }
  | .error status => { error := some status }

/-- The engine after a query was answered. -/
def answered (m : Memory) (file : FileKey)
    (answer : Except Status (List Record) × Store) : Memory :=
  { m.withStore file answer.2 with
    lastHandle := m.nextHandle
    cursors := m.cursors.put m.nextHandle (feedOf answer.1) }

/-- **A `query` is answered** by the session's store, unless bytes wait to take the place of the
answer. -/
theorem ask_query_of_serves (parse : String → Option Json) {session : Handle} {file : FileKey}
    {st : Store} {w : World Memory} (text : String) (hraw : w.engine.rawResults = [])
    (hserves : w.engine.Serves session file st) :
    ((engine parse).ask (.query session text) w).1 = w.engine.nextHandle ∧
      ((engine parse).ask (.query session text) w).2.engine =
        w.engine.answered file (st.query (parse text)) := by
  simp only [Engine.ask, engine, answer, query, result, hraw, hserves.store?_eq, hserves.setStore_eq]
  rcases st.query (parse text) with ⟨status | records, st'⟩
  · exact ⟨rfl, rfl⟩
  · exact ⟨rfl, rfl⟩

/-- The engine after it gave the first of its `rawResults` for an answer. -/
def fed (m : Memory) (bytes : Bytes) (rest : List Bytes) : Memory :=
  { m with
    lastHandle := m.nextHandle
    cursors := m.cursors.put m.nextHandle { records := [bytes] }
    rawResults := rest }

end Memory

namespace Session

variable (parse : String → Option Json) {session : Handle} {file : FileKey} {st : Store}
  {w : World Memory} {s : Session}

/-- **Calling `openCursor`** gives a fresh cursor over the answer of the session's store. -/
theorem openCursor_becomes (text : String) (hpanic : w.channel.panic = none)
    (hraw : w.engine.rawResults = []) (hhandle : s.handle = some session)
    (hserves : w.engine.Serves session file st) :
    ∃ w', s.openCursor (Memory.engine parse) text w =
        (.ok (.ofHandle session w.engine.nextHandle s.settings.buffer), w') ∧
      w.Becomes (w.engine.answered file (st.query (parse text))) w' := by
  rw [openCursor, hhandle, checkHandle_some hpanic]
  simp only [Engine.ask, Memory.engine, Memory.answer, Memory.query, Memory.result, hraw,
    hserves.store?_eq, hserves.setStore_eq]
  rcases st.query (parse text) with ⟨status | records, st'⟩
  · exact ⟨_, rfl, rfl, rfl⟩
  · exact ⟨_, rfl, rfl, rfl⟩

/-- Calling `openCursor` gets the waiting bytes, if there are any. -/
theorem openCursor_of_raw (text : String) {bytes : Bytes} {rest : List Bytes}
    (hpanic : w.channel.panic = none) (hraw : w.engine.rawResults = bytes :: rest)
    (hhandle : s.handle = some session) :
    ∃ w', s.openCursor (Memory.engine parse) text w =
        (.ok (.ofHandle session w.engine.nextHandle s.settings.buffer), w') ∧
      w.Becomes (w.engine.fed bytes rest) w' := by
  rw [openCursor, hhandle, checkHandle_some hpanic]
  simp only [Engine.ask, Memory.engine, Memory.answer, Memory.query, Memory.result, hraw]
  exact ⟨_, rfl, rfl, rfl⟩

theorem openCursor_of_closed (text : String) (hpanic : w.channel.panic = none)
    (hhandle : s.handle = none) :
    s.openCursor (Memory.engine parse) text w = (.error .closed, w) := by
  rw [openCursor, hhandle, checkHandle_none hpanic]

end Session

end TimeSeries
