import TimeSeries.Failure
import TimeSeries.Proofs.Cursor.Iteration
import TimeSeries.Proofs.Sample.RoundTrip

/-!
# A stream of records

However the records of a result are cut into deliveries, a reader gets them one by one
and in order. The invariant is `Cursor.Streaming`: the records still to come are those
whose bytes are unread in the buffer, followed by those queued in the feed. A call takes
the first of them (`Streaming.next_cons`) — from the buffer if it is there, else after a
delivery that begins with it — and gives what it is read as alone, `readAlone`. Only if
the limit in force at a delivery leaves no room for it does the result break off
(`Streaming.next_starved`). Main results: `Streaming.itemAt_eq` and
`Streaming.itemAt_starved`, for any changes of the world between calls that leave the
feed alone.
-/

namespace TimeSeries

/-- **Reading a record alone**: its row, or the failure that its series has no name. -/
def readAlone (resolve : SeriesId → Option String) (record : Bytes) : Item Row :=
  (decodeAt record 0 resolve).map Prod.fst

/-- **Records**: bytes that `Header.parse` accepts and of which nothing is left over. -/
def IsRecord (record : Bytes) : Prop := ∃ h, Header.parse record = .ok h ∧ h.length = record.length

theorem IsRecord.ne_nil {record : Bytes} (h : IsRecord record) : record ≠ [] := by
  obtain ⟨header, hparse, -⟩ := h
  rintro rfl
  cases hparse

theorem isRecord_encode {r : Record} (h : r.Encodable) : IsRecord r.encode :=
  ⟨r.header, Record.parse_encode h, by rw [Record.length_encode, Record.length_header r h]⟩

theorem readAlone_eq {record : Bytes} {h : Header} (hparse : Header.parse record = .ok h)
    (resolve : SeriesId → Option String) :
    readAlone resolve record = (h.decodeRow record resolve).mapError .unresolvedSeries := by
  have hparseAt : Header.parseAt record 0 = .ok h := by
    rw [Header.parseAt, List.drop_zero, hparse]
    rfl
  rw [readAlone, decodeAt, hparseAt]
  dsimp only
  rw [List.drop_zero]
  cases h.decodeRow record resolve <;> rfl

/-- **The item of an encoded record** by `readAlone`: its row if its series has a name. -/
theorem readAlone_encode {r : Record} (h : r.Encodable) (resolve : SeriesId → Option String) :
    readAlone resolve r.encode =
      match resolve r.series with
      | some name => .ok ⟨some name, some r.timestamp, r.values⟩
      | none => .error (.unresolvedSeries r.series) := by
  rw [readAlone_eq (Record.parse_encode h)]
  cases hname : resolve r.series with
  | some name => rw [Record.decodeRow_encode h hname]; rfl
  | none => simp [Header.decodeRow, hname]; rfl

/-- A record whose series has a name `readAlone` gives as a row under that name. -/
theorem readAlone_of_resolve {r : Record} (h : r.Encodable) {resolve : SeriesId → Option String}
    {name : String} (hname : resolve r.series = some name) :
    readAlone resolve r.encode = .ok ⟨some name, some r.timestamp, r.values⟩ := by
  rw [readAlone_encode h, hname]

namespace Cursor

variable {session handle : Handle} {c c' : Cursor} {w w' : World Memory} {record : Bytes}
  {records : List Bytes}

/-- **Undisturbed**: what happens between two calls of a reader may change all but its
feed, and the engine does not panic. -/
structure Undisturbed (handle : Handle) (w w' : World Memory) : Prop where
  /-- the feed is as it was -/
  feed : w'.engine.cursors.find? handle = w.engine.cursors.find? handle
  /-- the engine does not panic -/
  panic : w.channel.panic = none → w'.channel.panic = none

theorem Undisturbed.refl (w : World Memory) : Undisturbed handle w w := ⟨rfl, id⟩

/-- **Left alone**: the cursor is `Undisturbed` between the calls of an iteration. -/
def LeftAlone (parse : String → Option Json) (handle : Handle)
    (between : Nat → World Memory → World Memory) (c : Cursor) (w : World Memory) : Prop :=
  ∀ k, Undisturbed handle (after (Memory.engine parse) k between c w).2
    (between k (after (Memory.engine parse) k between c w).2)

section LeftAlone

variable {parse : String → Option Json} {between : Nat → World Memory → World Memory}
  {item : Option (Item Row)}

theorem LeftAlone.first (h : LeftAlone parse handle between c w) :
    Undisturbed handle w (between 0 w) := h 0

theorem LeftAlone.rest (h : LeftAlone parse handle between c w)
    (hnext : c.next (Memory.engine parse) (between 0 w) = (item, c', w')) :
    LeftAlone parse handle (fun k => between (k + 1)) c' w' := by
  intro k
  rw [← after_succ k hnext]
  exact h (k + 1)

end LeftAlone

/-- **Starved**: the buffer is used up, and the limit on deliveries leaves no room for the
next record. -/
def Starved (c : Cursor) (w : World Memory) (record : Bytes) : Prop :=
  c.buffer.isExhausted = true ∧ ∃ limit, w.engine.chunkLimit = some limit ∧ limit < record.length

/-- **Starved at a call** of an iteration, as `Starved` says. -/
def StarvedAt (parse : String → Option Json) (between : Nat → World Memory → World Memory)
    (c : Cursor) (w : World Memory) (call : Nat) (record : Bytes) : Prop :=
  Starved (before (Memory.engine parse) call between c w).1
    (before (Memory.engine parse) call between c w).2 record

theorem starvedAt_succ {parse : String → Option Json} {between : Nat → World Memory → World Memory}
    {item : Option (Item Row)} (call : Nat) (record : Bytes)
    (hnext : c.next (Memory.engine parse) (between 0 w) = (item, c', w')) :
    StarvedAt parse between c w (call + 1) record ↔
      StarvedAt parse (fun k => between (k + 1)) c' w' call record := by
  rw [StarvedAt, StarvedAt, before_succ call hnext]

/-- **Streaming**: the records still to come are in the buffer and in the feed. -/
structure Streaming (session handle : Handle) (c : Cursor) (w : World Memory)
    (records : List Bytes) : Prop where
  /-- the cursor is live -/
  live : Live session handle c
  /-- the engine did not panic -/
  panic : w.channel.panic = none
  /-- every record is whole and fits the buffer -/
  fits : ∀ record ∈ records, IsRecord record ∧ record.length ≤ c.buffer.capacity
  /-- first come the records in the buffer, then those in the feed -/
  split : ∃ buffered queued, records = buffered ++ queued ∧
    c.buffer.unread = buffered.flatten ∧
    w.engine.cursors.find? handle = some { records := queued }

namespace Streaming

/-- A stream that is `Undisturbed` goes on `Streaming`. -/
theorem undisturbed (h : Streaming session handle c w records) (hu : Undisturbed handle w w') :
    Streaming session handle c w' records := by
  obtain ⟨buffered, queued, hsplit, hunread, hfeed⟩ := h.split
  exact ⟨h.live, hu.panic h.panic, h.fits, buffered, queued, hsplit, hunread, hu.feed.trans hfeed⟩

/-- A fresh cursor is `Streaming` the records of its feed. -/
theorem ofHandle {capacity : Nat} (hcapacity : capacity < UInt64.size)
    (hpanic : w.channel.panic = none)
    (hfits : ∀ record ∈ records, IsRecord record ∧ record.length ≤ capacity)
    (hfeed : w.engine.cursors.find? handle = some { records }) :
    Streaming session handle (.ofHandle session handle capacity) w records := by
  refine ⟨live_ofHandle session handle hcapacity, hpanic, ?_, [], records, rfl, rfl, hfeed⟩
  intro record hrecord
  rw [Cursor.ofHandle, ReadBuffer.capacity_ofCapacity]
  exact hfits record hrecord

variable (parse : String → Option Json)

/-- The row of a record that is in the buffer is taken from there by `nextRow`. -/
theorem nextRow_buffered {buffered queued : List Bytes} (hlive : Live session handle c)
    (hpanic : w.channel.panic = none)
    (hfits : ∀ r ∈ record :: (buffered ++ queued), IsRecord r ∧ r.length ≤ c.buffer.capacity)
    (hunread : c.buffer.unread = record ++ buffered.flatten)
    (hfeed : w.engine.cursors.find? handle = some { records := queued }) :
    ∃ c' w', c.nextRow (Memory.engine parse) w =
        ((readAlone (w.engine.idToSeries session) record).map some, c', w') ∧
      Streaming session handle c' w' (buffered ++ queued) ∧
      c'.buffer.unread.length ≤ c.buffer.unread.length := by
  obtain ⟨⟨header, hparse, hlength⟩, -⟩ := hfits record List.mem_cons_self
  have hparse' : Header.parse c.buffer.unread = .ok header := by
    rw [hunread]
    exact Header.parse_append _ hparse
  obtain ⟨w', hasked, hrow⟩ := nextRow_record parse hlive hpanic hfeed rfl hparse'
  rw [hunread, Header.decodeRow_append _ _ (Nat.le_of_eq hlength)] at hrow
  -- all that can be wrong with a record is that its series has no name
  have hresult : ((header.decodeRow record (w.engine.idToSeries session)).map some).mapError
        Failure.unresolvedSeries =
      (readAlone (w.engine.idToSeries session) record).map some := by
    rw [readAlone_eq hparse]
    cases header.decodeRow record (w.engine.idToSeries session) <;> rfl
  rw [hresult] at hrow
  have hroom : header.length ≤ c.buffer.unread.length := by
    rw [hunread, List.length_append]
    omega
  have hrest : (c.buffer.consume header.length).unread = buffered.flatten := by
    rw [hlive.valid.unread_consume hroom, hunread, hlength, List.drop_left]
  -- the buffer moves on to the records behind it, and the feed is not asked for more
  refine ⟨_, w', hrow, ⟨⟨hlive.session_eq, hlive.handle_eq, hlive.corrupt_eq, hlive.ended_eq,
    hlive.valid.consume _⟩, by rw [hasked.channel, hpanic],
    fun r hr => hfits r (List.mem_cons_of_mem _ hr), buffered, queued, rfl, hrest, ?_⟩, ?_⟩
  · rw [hasked.engine, hfeed]
  · rw [hrest, hunread, List.length_append]
    exact Nat.le_add_left _ _

/-- The row of **the first record** is that of the record by `readAlone`, unless the reader is
`Starved`. The buffer does not come to hold more than a limit on deliveries allows. -/
theorem nextRow_cons (h : Streaming session handle c w (record :: records))
    (hstarved : ¬Starved c w record) :
    ∃ c' w', c.nextRow (Memory.engine parse) w =
        ((readAlone (w.engine.idToSeries session) record).map some, c', w') ∧
      Streaming session handle c' w' records ∧
      ∀ limit ∈ w.engine.chunkLimit, c.buffer.unread.length ≤ limit →
        c'.buffer.unread.length ≤ limit := by
  obtain ⟨buffered, queued, hsplit, hunread, hfeed⟩ := h.split
  cases buffered with
  | cons first buffered =>
    rw [List.cons_append, List.cons.injEq] at hsplit
    obtain ⟨rfl, rfl⟩ := hsplit
    obtain ⟨c', w', hrow, hrest, hless⟩ :=
      nextRow_buffered parse h.live h.panic h.fits hunread hfeed
    exact ⟨c', w', hrow, hrest, fun limit _ hlimit => Nat.le_trans hless hlimit⟩
  | nil =>
    -- the buffer is used up: the delivery that refills it begins with the record
    rw [List.nil_append] at hsplit
    subst hsplit
    obtain ⟨hrecord, hcapacity⟩ := h.fits record List.mem_cons_self
    have hroom : record.length ≤ w.engine.room c.buffer.capacity := by
      rw [Memory.room]
      split
      next limit hlimit =>
        have hlarge : ¬limit < record.length := fun hlt =>
          hstarved ⟨h.live.valid.isExhausted_iff.mpr hunread, limit, hlimit, hlt⟩
        omega
      next => exact hcapacity
    obtain ⟨taken, left, rfl, hbytes, hread⟩ := Memory.read_of_le records hrecord.ne_nil hroom
    obtain ⟨hlive, hunread', hrow, -⟩ := nextRow_refill parse h.live h.panic hunread hfeed hread rfl
      (List.append_ne_nil_of_left_ne_nil hrecord.ne_nil _)
      (Nat.le_trans hbytes (Memory.room_le _ _))
    rw [hrow, ← idToSeries_delivered w handle c.buffer.capacity { records := left }]
    have hfits : ∀ r ∈ record :: (taken ++ left), IsRecord r ∧
        r.length ≤ (c.buffer.refill
          ⟨record ++ taken.flatten, (record ++ taken.flatten).length⟩).capacity := by
      intro r hr
      rw [ReadBuffer.capacity_refill]
      exact h.fits r hr
    have hfeed' := find?_delivered w handle c.buffer.capacity { records := left }
    obtain ⟨c', w', hrow', hrest, hless⟩ :=
      nextRow_buffered parse (w := delivered w handle c.buffer.capacity { records := left })
        hlive h.panic hfits hunread' hfeed'
    refine ⟨c', w', hrow', hrest, fun limit hlimit _ => ?_⟩
    have hallowed : w.engine.room c.buffer.capacity ≤ limit := by
      rw [Memory.room, hlimit]
      exact Nat.min_le_left _ _
    rw [hunread'] at hless
    exact Nat.le_trans hless (Nat.le_trans hbytes hallowed)

/-- **The first record** is taken by `next` and given as it is read alone, unless the reader is
`Starved`. -/
theorem next_cons (h : Streaming session handle c w (record :: records))
    (hstarved : ¬Starved c w record) :
    ∃ c' w', c.next (Memory.engine parse) w =
        (some (readAlone (w.engine.idToSeries session) record), c', w') ∧
      Streaming session handle c' w' records ∧
      ∀ limit ∈ w.engine.chunkLimit, c.buffer.unread.length ≤ limit →
        c'.buffer.unread.length ≤ limit := by
  obtain ⟨header, hparse, -⟩ := (h.fits record List.mem_cons_self).1
  obtain ⟨c', w', hrow, hrest⟩ := nextRow_cons parse h hstarved
  refine ⟨c', w', ?_, hrest⟩
  rw [readAlone_eq hparse] at hrow ⊢
  cases hdecode : header.decodeRow record (w.engine.idToSeries session) with
  | ok row =>
    rw [hdecode] at hrow
    exact next_of_row h.live.ended_eq hrow
  | error id =>
    rw [hdecode] at hrow
    exact next_of_unresolved h.live.ended_eq hrow

/-- **A `Starved` reader** gets the failure that the record does not fit, and is at its end. -/
theorem next_starved (h : Streaming session handle c w (record :: records))
    (hstarved : Starved c w record) :
    ∃ c' w', c'.ended = true ∧
      c.next (Memory.engine parse) w = (some (.error (.engine .overflow)), c', w') := by
  obtain ⟨hexhausted, limit, hlimit, hlt⟩ := hstarved
  have hunread := h.live.valid.isExhausted_iff.mp hexhausted
  have hroom : w.engine.room c.buffer.capacity < record.length := by
    rw [Memory.room, hlimit]
    exact Nat.lt_of_le_of_lt (Nat.min_le_left _ _) hlt
  obtain ⟨buffered, queued, hsplit, hunread', hfeed⟩ := h.split
  cases buffered with
  | nil =>
    rw [List.nil_append] at hsplit
    subst hsplit
    exact next_failed parse h.live h.panic hunread hfeed (Memory.read_of_lt records hroom) rfl
  | cons first buffered =>
    -- records are not empty, so there would be something to read
    rw [List.cons_append, List.cons.injEq] at hsplit
    obtain ⟨rfl, -⟩ := hsplit
    rw [hunread, List.flatten_cons] at hunread'
    exact absurd (List.append_eq_nil_iff.mp hunread'.symm).1
      (h.fits record List.mem_cons_self).1.ne_nil

/-- **Without records** the result ends. -/
theorem next_nil (h : Streaming session handle c w []) :
    ∃ c' w', c'.ended = true ∧ c.next (Memory.engine parse) w = (none, c', w') := by
  obtain ⟨buffered, queued, hsplit, hunread, hfeed⟩ := h.split
  obtain ⟨rfl, rfl⟩ := List.append_eq_nil_iff.mp hsplit.symm
  obtain ⟨c', w', hended, -, hnext⟩ := next_end parse h.live h.panic hunread hfeed
    (Memory.read_nil _) rfl rfl
  exact ⟨c', w', hended, hnext⟩

/-! ### Whole iterations -/

variable {between : Nat → World Memory → World Memory}

/-- **Item by item**: as long as the reader was never `Starved`, each call gives the next record as
`readAlone` does at that moment; after the last there is nothing. -/
theorem itemAt_eq (h : Streaming session handle c w records)
    (hbetween : LeftAlone parse handle between c w) (call : Nat)
    (hstarved : ∀ k ≤ call, ∀ record ∈ records[k]?, ¬StarvedAt parse between c w k record) :
    itemAt (Memory.engine parse) call between c w =
      records[call]?.map (readAlone
        ((before (Memory.engine parse) call between c w).2.engine.idToSeries session)) := by
  induction call generalizing records between c w with
  | zero =>
    have h := h.undisturbed hbetween.first
    cases records with
    | nil =>
      obtain ⟨c', w', -, hnext⟩ := next_nil parse h
      rw [itemAt_zero hnext]
      rfl
    | cons record records =>
      obtain ⟨c', w', hnext, -⟩ := next_cons parse h (hstarved 0 (Nat.le_refl 0) record rfl)
      rw [itemAt_zero hnext]
      rfl
  | succ call ih =>
    have h := h.undisturbed hbetween.first
    cases records with
    | nil =>
      obtain ⟨c', w', hended, hnext⟩ := next_nil parse h
      rw [itemAt_succ call hnext, itemAt_of_ended hended]
      rfl
    | cons record records =>
      obtain ⟨c', w', hnext, hrest, -⟩ := next_cons parse h (hstarved 0 (Nat.zero_le _) record rfl)
      rw [itemAt_succ call hnext, before_succ call hnext, List.getElem?_cons_succ]
      -- what happens between the other calls counts from the one after the first
      refine ih hrest (hbetween.rest hnext) ?_
      intro k hk r hr
      rw [← starvedAt_succ k r hnext]
      exact hstarved (k + 1) (Nat.succ_le_succ hk) r (by rwa [List.getElem?_cons_succ])

/-- **Starvation**: the first call at which the reader is `StarvedAt` gives the failure, and every
later one nothing. -/
theorem itemAt_starved (h : Streaming session handle c w records)
    (hbetween : LeftAlone parse handle between c w) (call : Nat)
    (hbefore : ∀ k < call, ∀ record ∈ records[k]?, ¬StarvedAt parse between c w k record)
    (hrecord : record ∈ records[call]?) (hstarved : StarvedAt parse between c w call record) :
    itemAt (Memory.engine parse) call between c w = some (.error (.engine .overflow)) ∧
      ∀ later > call, itemAt (Memory.engine parse) later between c w = none := by
  induction call generalizing records between c w with
  | zero =>
    have h := h.undisturbed hbetween.first
    cases records with
    | nil => cases hrecord
    | cons first records =>
      obtain rfl : first = record := Option.some.inj hrecord
      obtain ⟨c', w', hended, hnext⟩ := next_starved parse h hstarved
      refine ⟨itemAt_zero hnext, ?_⟩
      intro later hlater
      obtain ⟨n, rfl⟩ := Nat.exists_eq_add_of_lt hlater
      rw [Nat.zero_add, itemAt_succ n hnext, itemAt_of_ended hended]
  | succ call ih =>
    have h := h.undisturbed hbetween.first
    cases records with
    | nil => cases hrecord
    | cons first records =>
      obtain ⟨c', w', hnext, hrest, -⟩ :=
        next_cons parse h (hbefore 0 (Nat.succ_pos _) first rfl)
      rw [List.getElem?_cons_succ] at hrecord
      rw [starvedAt_succ call record hnext] at hstarved
      have hbefore' : ∀ k < call, ∀ r ∈ records[k]?,
          ¬StarvedAt parse (fun j => between (j + 1)) c' w' k r := by
        intro k hk r hr
        rw [← starvedAt_succ k r hnext]
        exact hbefore (k + 1) (Nat.succ_lt_succ hk) r (by rwa [List.getElem?_cons_succ])
      obtain ⟨hitem, hlater⟩ := ih hrest (hbetween.rest hnext) hbefore' hrecord hstarved
      refine ⟨by rw [itemAt_succ call hnext, hitem], ?_⟩
      intro later hgt
      cases later with
      | zero => exact absurd hgt (Nat.not_lt_zero _)
      | succ later => rw [itemAt_succ later hnext, hlater later (Nat.lt_of_succ_lt_succ hgt)]

end Streaming

end Cursor

end TimeSeries
