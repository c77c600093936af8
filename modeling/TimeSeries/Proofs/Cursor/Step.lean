import TimeSeries.Cursor.Rows
import TimeSeries.Proofs.Cursor.Buffer
import TimeSeries.Proofs.Engine.Calls
import TimeSeries.Proofs.Engine.Feed
import TimeSeries.Proofs.Sample.Framing

/-!
# One call of the iterator

What `Cursor.next` does over the engine in memory, case by case. A live cursor
(`Cursor.Live`) over a feed that did not fail

* takes the record at the front of its buffer (`next_record`), or finds it corrupt and
  ends (`next_corrupt`);
* first refills a buffer that is used up, after which it is in the case before
  (`next_refill`), or fails as the first record does not fit (`next_overflow`);
* ends when there is nothing in the buffer and nothing queued (`next_end`).

Besides, a feed that failed gives its failure once (`next_failed`), and a cursor at its
end gives nothing ever after (`next_of_ended`).
-/

namespace TimeSeries.Cursor

/-! ### From rows to items -/

section Generic

variable {σ : Type} {E : Engine σ} {c c' : Cursor} {w w' : World σ}

/-- **A cursor that has `ended` stays so** and asks nothing. -/
theorem next_of_ended (h : c.ended = true) (w : World σ) : c.next E w = (none, c, w) := by
  rw [next, if_pos h]

theorem next_of_row {row : Row} (h : c.ended = false)
    (hrow : c.nextRow E w = (.ok (some row), c', w')) :
    c.next E w = (some (.ok row), c', w') := by
  rw [next, if_neg (by rw [h]; decide), nextWithin, hrow]

theorem next_of_unresolved {id : SeriesId} (h : c.ended = false)
    (hrow : c.nextRow E w = (.error (.unresolvedSeries id), c', w')) :
    c.next E w = (some (.error (.unresolvedSeries id)), c', w') := by
  rw [next, if_neg (by rw [h]; decide), nextWithin, hrow]

theorem next_of_failure {failure : Failure} (h : c.ended = false)
    (hrow : c.nextRow E w = (.error failure, c', w'))
    (hfailure : ∀ id, failure ≠ .unresolvedSeries id) :
    c.next E w = (some (.error failure), c'.finish, w') := by
  rw [next, if_neg (by rw [h]; decide), nextWithin, hrow]
  cases failure with
  | unresolvedSeries id => exact absurd rfl (hfailure id)
  | _ => rfl

theorem next_of_done {w'' : World σ} (h : c.ended = false)
    (hrow : c.nextRow E w = (.ok none, c', w')) (hdone : c'.done E w' = (.ok true, w'')) :
    c.next E w = (none, c'.finish, w'') := by
  rw [next, if_neg (by rw [h]; decide), nextWithin, hrow]
  simp only [hdone]

end Generic

/-! ### Live cursors -/

/-- **Live cursors**: open, not spoilt and not at their end. -/
structure Live (session handle : Handle) (c : Cursor) : Prop where
  /-- the session it works in -/
  session_eq : c.session = session
  /-- it is open -/
  handle_eq : c.handle = some handle
  /-- it is not spoilt -/
  corrupt_eq : c.corrupt = none
  /-- it is not at its end -/
  ended_eq : c.ended = false
  /-- its buffer is valid -/
  valid : c.buffer.Valid

/-- A fresh cursor is `Live`. -/
theorem live_ofHandle (session handle : Handle) {capacity : Nat} (h : capacity < UInt64.size) :
    Live session handle (.ofHandle session handle capacity) :=
  ⟨rfl, rfl, rfl, rfl, ReadBuffer.valid_ofCapacity h⟩

/-! ### Questions and deliveries of the engine in memory -/

variable (parse : String → Option Json) {session handle : Handle} {c : Cursor} {w : World Memory}

/-- The world after a `cursorRead` that left a feed behind. -/
def delivered (w : World Memory) (handle : Handle) (capacity : Nat) (feed : Feed) : World Memory :=
  { w.called (.cursorRead handle capacity) with
    engine := { w.engine with cursors := w.engine.cursors.put handle feed } }

@[simp] theorem delivered_channel (w : World Memory) (handle : Handle) (capacity : Nat)
    (feed : Feed) : (delivered w handle capacity feed).channel = w.channel := rfl

@[simp] theorem find?_delivered (w : World Memory) (handle : Handle) (capacity : Nat)
    (feed : Feed) :
    (delivered w handle capacity feed).engine.cursors.find? handle = some feed :=
  Table.find?_put_self _ _ _

/-- The names of series, `idToSeries`, are no business of cursors. -/
@[simp] theorem idToSeries_delivered (w : World Memory) (handle : Handle) (capacity : Nat)
    (feed : Feed) :
    (delivered w handle capacity feed).engine.idToSeries = w.engine.idToSeries := rfl

theorem cursorError_of_find? {m : Memory} {feed : Feed} (h : m.cursors.find? handle = some feed) :
    m.cursorError handle = feed.error := by
  rw [Memory.cursorError, h]

theorem isExhausted_eq_false (h : Live session handle c) (hunread : c.buffer.unread ≠ []) :
    c.buffer.isExhausted = false := by
  rw [← Bool.not_eq_true, h.valid.isExhausted_iff]
  exact hunread

theorem topUp_of_unread (h : Live session handle c) (hunread : c.buffer.unread ≠ []) :
    c.topUp (Memory.engine parse) handle w = (c, w) := by
  rw [topUp, if_neg (by rw [isExhausted_eq_false h hunread]; decide)]

theorem topUp_refill {feed feed' : Feed} {bytes : Bytes} (h : Live session handle c)
    (hunread : c.buffer.unread = []) (hfeed : w.engine.cursors.find? handle = some feed)
    (hread : Memory.Feed.read feed (w.engine.room c.buffer.capacity) = (bytes, feed')) :
    c.topUp (Memory.engine parse) handle w =
      ({ c with buffer := c.buffer.refill ⟨bytes, bytes.length⟩ },
        delivered w handle c.buffer.capacity feed') := by
  rw [topUp, if_pos (h.valid.isExhausted_iff.mpr hunread), Memory.ask_cursorRead,
    Memory.cursorRead, hfeed]
  simp only [hread]
  rfl

theorem valid_topUp (w : World Memory) (handle : Handle) (h : c.buffer.Valid) :
    (c.topUp (Memory.engine parse) handle w).1.buffer.Valid := by
  rw [topUp]
  split
  · exact h.refill _
  · exact h

/-- A cursor whose buffer is used up is `done` if its feed is. -/
theorem done_of_isExhausted {feed : Feed} (hhandle : c.handle = some handle)
    (hpanic : w.channel.panic = none) (hexhausted : c.buffer.isExhausted = true)
    (hfeed : w.engine.cursors.find? handle = some feed) :
    c.done (Memory.engine parse) w =
      (.ok (feed.error.isSome || feed.records.isEmpty), w.called (.cursorIsDone handle)) := by
  rw [done, World.check_of_no_panic hpanic]
  simp only [hexhausted, hhandle, Memory.ask_cursorIsDone, Memory.cursorIsDone, hfeed]
  rfl

/-! ### One row -/

theorem nextRow_live (h : Live session handle c) (hpanic : w.channel.panic = none) :
    c.nextRow (Memory.engine parse) w = c.readOn (Memory.engine parse) handle w := by
  rw [nextRow, World.check_of_no_panic hpanic, h.handle_eq, h.corrupt_eq]

theorem readOn_failed {c' : Cursor} {w' : World Memory} {status : Status}
    (htop : c.topUp (Memory.engine parse) handle w = (c', w'))
    (herror : w'.engine.cursorError handle = some status) :
    c.readOn (Memory.engine parse) handle w =
      (.error (.engine status), c', w'.called (.cursorError handle)) := by
  rw [readOn, htop]
  simp only [Memory.ask_cursorError, herror]

theorem readOn_healthy {c' : Cursor} {w' : World Memory}
    (htop : c.topUp (Memory.engine parse) handle w = (c', w'))
    (herror : w'.engine.cursorError handle = none) :
    c.readOn (Memory.engine parse) handle w =
      if c'.buffer.isExhausted then (.ok none, c', w'.called (.cursorError handle))
      else c'.takeRecord (Memory.engine parse) (w'.called (.cursorError handle)) := by
  rw [readOn, htop]
  simp only [Memory.ask_cursorError, herror]

/-- A record that `Header.parse` accepts gives its row and is consumed; at most its series is looked
up. As it is in the buffer, consuming it does not stop the program. -/
theorem takeRecord_ok {h : Header} (hvalid : c.buffer.Valid)
    (hparse : Header.parse c.buffer.unread = .ok h) :
    ∃ w', w.Asked w' ∧
      c.takeRecord (Memory.engine parse) w =
        ((h.decodeRow c.buffer.unread (w.engine.idToSeries c.session)).map some |>.mapError
          .unresolvedSeries, { c with buffer := c.buffer.consume h.length }, w') := by
  have hadvance := hvalid.advance?_eq (Header.length_le_of_parse hparse)
  rw [takeRecord, hparse]
  simp only [resolve, Memory.ask_idToSeries, hadvance]
  by_cases hseries : h.kind.hasSeries
  · refine ⟨_, .called w (.idToSeries c.session h.series), ?_⟩
    rw [if_pos hseries]
    simp only [Header.decodeRow, if_pos hseries]
    cases w.engine.idToSeries c.session h.series <;> rfl
  · refine ⟨w, .refl w, ?_⟩
    rw [if_neg hseries]
    simp only [Header.decodeRow, if_neg hseries]
    rfl

/-- A record that `Header.parse` does not accept spoils the cursor. -/
theorem takeRecord_error {fault : RecordFault}
    (hparse : Header.parse c.buffer.unread = .error fault) :
    c.takeRecord (Memory.engine parse) w =
      (.error (.corruptRecord c.buffer.position fault),
        { c with corrupt := some (c.buffer.position, fault), buffer := c.buffer.discard }, w) := by
  rw [takeRecord, hparse]

/-- There is a row or a failure by `takeRecord` when there is something to read. -/
theorem takeRecord_ne_none (c : Cursor) (w : World Memory) :
    (c.takeRecord (Memory.engine parse) w).1 ≠ .ok none := by
  rw [takeRecord]
  split
  · exact fun h => by cases h
  · dsimp only
    split
    · exact fun h => by cases h
    · split <;> exact fun h => by cases h

/-! ### One item -/

/-- An item of `next` depends on the cursor only by the row that is read. -/
theorem next_congr {c' : Cursor} {w' : World Memory} (hended : c.ended = false)
    (hended' : c'.ended = false)
    (hrow : c.nextRow (Memory.engine parse) w = c'.nextRow (Memory.engine parse) w')
    (hnone : (c.nextRow (Memory.engine parse) w).1 ≠ .ok none) :
    c.next (Memory.engine parse) w = c'.next (Memory.engine parse) w' := by
  rw [next, next, if_neg (by rw [hended]; decide), if_neg (by rw [hended']; decide), nextWithin,
    nextWithin, ← hrow]
  rcases hstep : c.nextRow (Memory.engine parse) w with ⟨result, c'', w''⟩
  rw [hstep] at hnone
  rcases result with failure | _ | row
  · cases failure <;> rfl
  · exact absurd rfl hnone
  · rfl

/-- The row that `nextRow` takes of a record at the front of the buffer. -/
theorem nextRow_record {feed : Feed} {h : Header} (hlive : Live session handle c)
    (hpanic : w.channel.panic = none) (hfeed : w.engine.cursors.find? handle = some feed)
    (herror : feed.error = none) (hparse : Header.parse c.buffer.unread = .ok h) :
    ∃ w', w.Asked w' ∧
      c.nextRow (Memory.engine parse) w =
        ((h.decodeRow c.buffer.unread (w.engine.idToSeries session)).map some |>.mapError
          .unresolvedSeries, { c with buffer := c.buffer.consume h.length }, w') := by
  obtain rfl := hlive.session_eq
  have hunread : c.buffer.unread ≠ [] := by
    intro hnil
    rw [hnil] at hparse
    cases hparse
  have hrow := nextRow_live parse hlive hpanic
  rw [readOn_healthy parse (topUp_of_unread parse hlive hunread)
      (by rw [cursorError_of_find? hfeed, herror]),
    if_neg (by rw [isExhausted_eq_false hlive hunread]; decide)] at hrow
  obtain ⟨w', hasked, htake⟩ :=
    takeRecord_ok parse (w := w.called (.cursorError handle)) hlive.valid hparse
  rw [htake, World.called_engine] at hrow
  exact ⟨w', (World.Asked.called w _).trans hasked, hrow⟩

/-- **A record** at the front of the buffer is taken by `next`. -/
theorem next_record {feed : Feed} {h : Header} (hlive : Live session handle c)
    (hpanic : w.channel.panic = none) (hfeed : w.engine.cursors.find? handle = some feed)
    (herror : feed.error = none) (hparse : Header.parse c.buffer.unread = .ok h) :
    ∃ w', w.Asked w' ∧
      c.next (Memory.engine parse) w =
        (some ((h.decodeRow c.buffer.unread (w.engine.idToSeries session)).mapError
          .unresolvedSeries), { c with buffer := c.buffer.consume h.length }, w') := by
  obtain ⟨w', hasked, hrow⟩ := nextRow_record parse hlive hpanic hfeed herror hparse
  refine ⟨w', hasked, ?_⟩
  cases hdecode : h.decodeRow c.buffer.unread (w.engine.idToSeries session) with
  | ok row =>
    rw [hdecode] at hrow
    exact next_of_row hlive.ended_eq hrow
  | error id =>
    rw [hdecode] at hrow
    exact next_of_unresolved hlive.ended_eq hrow

/-- **A corrupt record** at the front of the buffer ends the result. -/
theorem next_corrupt {feed : Feed} {fault : RecordFault} (hlive : Live session handle c)
    (hpanic : w.channel.panic = none) (hfeed : w.engine.cursors.find? handle = some feed)
    (herror : feed.error = none) (hunread : c.buffer.unread ≠ [])
    (hparse : Header.parse c.buffer.unread = .error fault) :
    ∃ c' w', w.Asked w' ∧ c'.ended = true ∧ c'.buffer = c.buffer.discard ∧
      c.next (Memory.engine parse) w =
        (some (.error (.corruptRecord c.buffer.position fault)), c', w') := by
  have hrow := nextRow_live parse hlive hpanic
  rw [readOn_healthy parse (topUp_of_unread parse hlive hunread)
      (by rw [cursorError_of_find? hfeed, herror]),
    if_neg (by rw [isExhausted_eq_false hlive hunread]; decide),
    takeRecord_error parse hparse] at hrow
  exact ⟨_, _, .called w _, rfl, rfl,
    next_of_failure hlive.ended_eq hrow fun id h => by cases h⟩

/-- The row after a refill of a buffer that is used up. -/
theorem nextRow_refill {feed feed' : Feed} {bytes : Bytes} (hlive : Live session handle c)
    (hpanic : w.channel.panic = none) (hunread : c.buffer.unread = [])
    (hfeed : w.engine.cursors.find? handle = some feed)
    (hread : Memory.Feed.read feed (w.engine.room c.buffer.capacity) = (bytes, feed'))
    (herror : feed'.error = none) (hbytes : bytes ≠ [])
    (hfits : bytes.length ≤ c.buffer.capacity) :
    let c' := { c with buffer := c.buffer.refill ⟨bytes, bytes.length⟩ }
    Live session handle c' ∧ c'.buffer.unread = bytes ∧
      c.nextRow (Memory.engine parse) w =
        c'.nextRow (Memory.engine parse) (delivered w handle c.buffer.capacity feed') ∧
      (c.nextRow (Memory.engine parse) w).1 ≠ .ok none := by
  intro c'
  have hlive' : Live session handle c' :=
    ⟨hlive.session_eq, hlive.handle_eq, hlive.corrupt_eq, hlive.ended_eq, hlive.valid.refill _⟩
  have hunread' : c'.buffer.unread = bytes := ReadBuffer.unread_refill rfl hfits
  have hne : c'.buffer.unread ≠ [] := by rwa [hunread']
  have herror' : (delivered w handle c.buffer.capacity feed').engine.cursorError handle = none :=
    by rw [cursorError_of_find? (find?_delivered w handle _ feed'), herror]
  have hexhausted := isExhausted_eq_false hlive' hne
  have hrow := nextRow_live parse hlive hpanic
  rw [readOn_healthy parse (topUp_refill parse hlive hunread hfeed hread) herror',
    if_neg (by rw [hexhausted]; decide)] at hrow
  have hrow' := nextRow_live parse hlive'
    (w := delivered w handle c.buffer.capacity feed') hpanic
  rw [readOn_healthy parse (topUp_of_unread parse hlive' hne) herror',
    if_neg (by rw [hexhausted]; decide)] at hrow'
  refine ⟨hlive', hunread', hrow.trans hrow'.symm, ?_⟩
  rw [hrow]
  exact takeRecord_ne_none parse _ _

/-- **A buffer that is used up** is refilled first. -/
theorem next_refill {feed feed' : Feed} {bytes : Bytes} (hlive : Live session handle c)
    (hpanic : w.channel.panic = none) (hunread : c.buffer.unread = [])
    (hfeed : w.engine.cursors.find? handle = some feed)
    (hread : Memory.Feed.read feed (w.engine.room c.buffer.capacity) = (bytes, feed'))
    (herror : feed'.error = none) (hbytes : bytes ≠ [])
    (hfits : bytes.length ≤ c.buffer.capacity) :
    let c' := { c with buffer := c.buffer.refill ⟨bytes, bytes.length⟩ }
    Live session handle c' ∧ c'.buffer.unread = bytes ∧
      c.next (Memory.engine parse) w =
        c'.next (Memory.engine parse) (delivered w handle c.buffer.capacity feed') := by
  obtain ⟨hlive', hunread', hrow, hnone⟩ :=
    nextRow_refill parse hlive hpanic hunread hfeed hread herror hbytes hfits
  exact ⟨hlive', hunread', next_congr parse hlive.ended_eq hlive'.ended_eq hrow hnone⟩

/-- The failure of a feed that fails. -/
theorem nextRow_failed {feed feed' : Feed} {bytes : Bytes} {status : Status}
    (hlive : Live session handle c) (hpanic : w.channel.panic = none)
    (hunread : c.buffer.unread = []) (hfeed : w.engine.cursors.find? handle = some feed)
    (hread : Memory.Feed.read feed (w.engine.room c.buffer.capacity) = (bytes, feed'))
    (herror : feed'.error = some status) :
    c.nextRow (Memory.engine parse) w =
      (.error (.engine status), { c with buffer := c.buffer.refill ⟨bytes, bytes.length⟩ },
        (delivered w handle c.buffer.capacity feed').called (.cursorError handle)) := by
  rw [nextRow_live parse hlive hpanic,
    readOn_failed parse (topUp_refill parse hlive hunread hfeed hread)
      (by rw [cursorError_of_find? (find?_delivered w handle _ feed'), herror])]

/-- **A feed that fails**, be it before the read or by it, ends the result. -/
theorem next_failed {feed feed' : Feed} {bytes : Bytes} {status : Status}
    (hlive : Live session handle c) (hpanic : w.channel.panic = none)
    (hunread : c.buffer.unread = []) (hfeed : w.engine.cursors.find? handle = some feed)
    (hread : Memory.Feed.read feed (w.engine.room c.buffer.capacity) = (bytes, feed'))
    (herror : feed'.error = some status) :
    ∃ c' w', c'.ended = true ∧
      c.next (Memory.engine parse) w = (some (.error (.engine status)), c', w') := by
  have hrow := nextRow_failed parse hlive hpanic hunread hfeed hread herror
  exact ⟨_, _, rfl, next_of_failure hlive.ended_eq hrow fun id h => by cases h⟩

/-- There is no row when nothing is left. -/
theorem nextRow_end {feed feed' : Feed} (hlive : Live session handle c)
    (hpanic : w.channel.panic = none) (hunread : c.buffer.unread = [])
    (hfeed : w.engine.cursors.find? handle = some feed)
    (hread : Memory.Feed.read feed (w.engine.room c.buffer.capacity) = ([], feed'))
    (herror : feed'.error = none) :
    let c' := { c with buffer := c.buffer.refill ⟨[], 0⟩ }
    Live session handle c' ∧ c'.buffer.unread = [] ∧
      c.nextRow (Memory.engine parse) w =
        (.ok none, c',
          (delivered w handle c.buffer.capacity feed').called (.cursorError handle)) := by
  intro c'
  have hlive' : Live session handle c' :=
    ⟨hlive.session_eq, hlive.handle_eq, hlive.corrupt_eq, hlive.ended_eq, hlive.valid.refill _⟩
  have hunread' : c'.buffer.unread = [] := ReadBuffer.unread_refill rfl (Nat.zero_le _)
  refine ⟨hlive', hunread', ?_⟩
  rw [nextRow_live parse hlive hpanic,
    readOn_healthy parse (topUp_refill parse hlive hunread hfeed hread)
      (by rw [cursorError_of_find? (find?_delivered w handle _ feed'), herror]),
    if_pos (by exact hlive'.valid.isExhausted_iff.mpr hunread')]
  rfl

/-- **Nothing left**: the result ends. -/
theorem next_end {feed feed' : Feed} (hlive : Live session handle c)
    (hpanic : w.channel.panic = none) (hunread : c.buffer.unread = [])
    (hfeed : w.engine.cursors.find? handle = some feed)
    (hread : Memory.Feed.read feed (w.engine.room c.buffer.capacity) = ([], feed'))
    (herror : feed'.error = none) (hrecords : feed'.records = []) :
    ∃ c' w', c'.ended = true ∧ c'.buffer = c.buffer.refill ⟨[], 0⟩ ∧
      c.next (Memory.engine parse) w = (none, c', w') := by
  obtain ⟨hlive', hunread', hrow⟩ := nextRow_end parse hlive hpanic hunread hfeed hread herror
  have hdone := done_of_isExhausted parse
    (w := (delivered w handle c.buffer.capacity feed').called (.cursorError handle))
    hlive'.handle_eq hpanic (hlive'.valid.isExhausted_iff.mpr hunread')
    (find?_delivered w handle c.buffer.capacity feed')
  rw [herror, hrecords] at hdone
  exact ⟨_, _, rfl, rfl, next_of_done hlive.ended_eq hrow hdone⟩

end TimeSeries.Cursor
