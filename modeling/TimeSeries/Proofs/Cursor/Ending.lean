import TimeSeries.Proofs.Cursor.Absorbing
import TimeSeries.Proofs.Cursor.Step

/-!
# Iteration comes to an end

A call of the iterator tries for a row until there is one, a failure or the end. `Cursor.Tries` is
that loop without a bound on how often it tries. Over the engine in memory the first try is the last
(`Cursor.tries_next`): a read that gives nothing has failed, or else nothing is queued any more, so
that the cursor is done (`Cursor.spent_of_no_row`).

How many calls give an item is bounded by the bytes that are still to come, those in the buffer and
those in the feed (`Cursor.left`). Nothing that others do adds to them, as no handle is given out
twice (`World.Since`), a read only moves them from the feed to the buffer, and an item that does not
end the result takes a header or more out of the buffer (`Cursor.Seated.nextRow`). Main result:
`Cursor.ends_of_ofHandle`.
-/

namespace TimeSeries

/-! ### Bytes in a feed -/

namespace Feed

/-- The bytes that are queued in a `Feed`; none if there is none. -/
def queued : Option Feed → Nat
  | some feed => feed.records.flatten.length
  | none => 0

/-- **A `read` moves bytes** from the feed to the reader, and no more than there is room for. -/
theorem read_flatten (feed : Feed) (room : Nat) :
    feed.records.flatten = (Memory.Feed.read feed room).1 ++
        (Memory.Feed.read feed room).2.records.flatten ∧
      (Memory.Feed.read feed room).1.length ≤ room := by
  cases herror : feed.error with
  | some status =>
    rw [read_of_failed (by rw [herror]; rfl)]
    exact ⟨rfl, Nat.zero_le room⟩
  | none =>
    obtain ⟨taken, hsplit, hbytes, hroom, -⟩ := Memory.takeWhole_spec room feed.records
    simp only [Memory.Feed.read, herror]
    refine ⟨?_, by rw [hbytes]; exact hroom⟩
    rw [hbytes, ← List.flatten_append, ← hsplit]

/-- A `read` that gives nothing and does not fail leaves nothing. -/
theorem records_of_read_nil {feed : Feed} {room : Nat}
    (hbytes : (Memory.Feed.read feed room).1 = [])
    (herror : (Memory.Feed.read feed room).2.error = none) :
    (Memory.Feed.read feed room).2.records = [] := by
  have hhealthy : feed.error = none := by
    cases hfailed : feed.error with
    | none => rfl
    | some status =>
      rw [read_of_failed (by rw [hfailed]; rfl), hfailed] at herror
      cases herror
  obtain ⟨left, hleft⟩ | hend | ⟨bytes, left, hne, -, -, hbrings⟩ :=
    Memory.read_cases room hhealthy
  · rw [hleft] at herror
    cases herror
  · rw [hend]
  · rw [hbrings] at hbytes
    exact absurd hbytes hne

/-- **No `Step` of a feed adds to it.** -/
theorem queued_step {feed? feed?' : Option Feed} (h : Step feed? feed?') :
    queued feed?' ≤ queued feed? := by
  cases h with
  | refl => exact Nat.le_refl _
  | fail feed status => exact Nat.le_refl _
  | close => exact Nat.zero_le _
  | read feed room =>
    obtain ⟨hsplit, -⟩ := read_flatten feed room
    rw [queued, queued, hsplit, List.length_append]
    exact Nat.le_add_left _ _

end Feed

/-! ### Worlds one after another -/

/-- **A world `w'` since another**: handles were not taken back, and the feeds that there were have
not grown. -/
structure World.Since (w w' : World Memory) : Prop where
  /-- handles are not taken back -/
  lastHandle_le : w.engine.lastHandle ≤ w'.engine.lastHandle
  /-- feeds do not grow -/
  queued_le : ∀ handle ≤ w.engine.lastHandle,
    Feed.queued (w'.engine.cursors.find? handle) ≤ Feed.queued (w.engine.cursors.find? handle)

namespace World.Since

variable {w w' w'' : World Memory}

theorem of_engine_eq (h : w'.engine = w.engine) : w.Since w' :=
  ⟨Nat.le_of_eq (by rw [h]), fun _ _ => Nat.le_of_eq (by rw [h])⟩

theorem refl (w : World Memory) : w.Since w := of_engine_eq rfl

theorem trans (h : w.Since w') (h' : w'.Since w'') : w.Since w'' :=
  ⟨Nat.le_trans h.lastHandle_le h'.lastHandle_le, fun handle hgiven =>
    Nat.le_trans (h'.queued_le handle (Nat.le_trans hgiven h.lastHandle_le))
      (h.queued_le handle hgiven)⟩

variable (parse : String → Option Json)

theorem ask (call : Call) (w : World Memory) : w.Since ((Memory.engine parse).ask call w).2 :=
  ⟨(Memory.framed_ask parse call w).lastHandle_le,
    fun _ hgiven => Feed.queued_step (Memory.step_ask parse call hgiven)⟩

variable {parse} in
theorem leads {kind : Call → Prop} (h : (Memory.engine parse).Leads kind w w') : w.Since w' :=
  h.keeps (P := w.Since) (fun call v _ hv => hv.trans (ask parse call v)) (.refl w)

theorem disturb (w : World Memory) (d : Memory.Disturbance) : w.Since (Memory.disturb w d) :=
  ⟨Nat.le_of_eq (Memory.lastHandle_disturb w d).symm,
    fun handle _ => Feed.queued_step (Memory.step_disturb w d handle)⟩

theorem act (a : Memory.Act) (w : World Memory) : w.Since (Memory.act parse w a) := by
  cases a with
  | call call => exact ask parse call w
  | disturb d => exact disturb w d
  | files tree => exact of_engine_eq rfl

end World.Since

namespace Cursor

/-! ### The loop of a call -/

section Tries

variable {σ : Type} (E : Engine σ)

/-- **The tries of a call**, as many as it takes: a row is read by `nextRow`, and if there is none
although the cursor is not `done`, then it is tried again. -/
inductive Tries : Cursor → World σ → Option (Item Row) → Cursor → World σ → Prop where
  /-- there is a row -/
  | row {c c' : Cursor} {w w' : World σ} {row : Row} :
      c.nextRow E w = (.ok (some row), c', w') → Tries c w (some (.ok row)) c' w'
  /-- there is a series without a name -/
  | unresolved {c c' : Cursor} {w w' : World σ} {id : SeriesId} :
      c.nextRow E w = (.error (.unresolvedSeries id), c', w') →
      Tries c w (some (.error (.unresolvedSeries id))) c' w'
  /-- there is a failure for good -/
  | failed {c c' : Cursor} {w w' : World σ} {failure : Failure} :
      c.nextRow E w = (.error failure, c', w') → (∀ id, failure ≠ .unresolvedSeries id) →
      Tries c w (some (.error failure)) c'.finish w'
  /-- there is nothing, and the cursor is done -/
  | spent {c c' : Cursor} {w w' w'' : World σ} :
      c.nextRow E w = (.ok none, c', w') → c'.done E w' = (.ok true, w'') →
      Tries c w none c'.finish w''
  /-- there is nothing, and whether the cursor is done can't be told -/
  | refused {c c' : Cursor} {w w' w'' : World σ} {failure : Failure} :
      c.nextRow E w = (.ok none, c', w') → c'.done E w' = (.error failure, w'') →
      Tries c w (some (.error failure)) c'.finish w''
  /-- there is nothing for now -/
  | again {c c' c'' : Cursor} {w w' w'' w''' : World σ} {item : Option (Item Row)} :
      c.nextRow E w = (.ok none, c', w') → c'.done E w' = (.ok false, w'') →
      Tries c' w'' item c'' w''' → Tries c w item c'' w'''

variable {E} {c c' c'' : Cursor} {w w' w'' : World σ} {item item' : Option (Item Row)}

/-- The `Tries` that come to an end do so within some bound for `nextWithin`. -/
theorem Tries.exists_enough (h : Tries E c w item c' w') :
    ∃ enough, ∀ more, nextWithin E (enough + more) c w = (item, c', w') := by
  induction h with
  | row hrow => exact ⟨1, fun more => by rw [Nat.add_comm, nextWithin, hrow]⟩
  | unresolved hrow => exact ⟨1, fun more => by rw [Nat.add_comm, nextWithin, hrow]⟩
  | failed hrow hfailure =>
    refine ⟨1, fun more => ?_⟩
    rw [Nat.add_comm, nextWithin, hrow]
    split <;> simp_all
  | spent hrow hdone => exact ⟨1, fun more => by simp only [Nat.add_comm, nextWithin, hrow, hdone]⟩
  | refused hrow hdone =>
    exact ⟨1, fun more => by simp only [Nat.add_comm, nextWithin, hrow, hdone]⟩
  | again hrow hdone _ ih =>
    obtain ⟨enough, hmore⟩ := ih
    refine ⟨enough + 1, fun more => ?_⟩
    rw [Nat.add_right_comm, nextWithin, hrow]
    simp only [hdone, hmore]

/-- **The `Tries` come to one end only.** -/
theorem Tries.unique (h : Tries E c w item c' w') (h' : Tries E c w item' c'' w'') :
    (item', c'', w'') = (item, c', w') := by
  obtain ⟨enough, hmore⟩ := h.exists_enough
  obtain ⟨enough', hmore'⟩ := h'.exists_enough
  rw [← hmore enough', ← hmore' enough, Nat.add_comm]

end Tries

/-! ### Bytes still to come -/

variable {parse : String → Option Json} {c c' : Cursor} {w w' : World Memory}

/-- **The bytes that are left**: those in the buffer and those in the feed. -/
def left (c : Cursor) (w : World Memory) : Nat :=
  c.buffer.unread.length + Feed.queued (c.handle.bind w.engine.cursors.find?)

/-- **Seated cursors**: the buffer is valid, the handle was given out, and a closed cursor has
nothing in its buffer. -/
structure Seated (c : Cursor) (w : World Memory) : Prop where
  /-- the buffer is valid -/
  valid : c.buffer.Valid
  /-- the handle was given out -/
  given : ∀ handle, c.handle = some handle → handle ≤ w.engine.lastHandle
  /-- a closed cursor has nothing in its buffer -/
  closed : c.handle = none → c.buffer.isExhausted = true

/-- A `nextRow` that does not end the result: a row, or a series without a name. -/
def goesOn : Except Failure (Option Row) → Bool
  | .ok (some _) | .error (.unresolvedSeries _) => true
  | _ => false

/-- **Paying**: the cursor stays `Seated`, and has fewer bytes `left` by some at least. -/
structure Pays (bytes : Nat) (c : Cursor) (w : World Memory) (c' : Cursor) (w' : World Memory) :
    Prop where
  /-- it stays seated -/
  seated : c'.Seated w'
  /-- it has fewer bytes left -/
  left_le : c'.left w' + bytes ≤ c.left w

theorem Pays.mono {bytes bytes' : Nat} (h : Pays bytes c w c' w') (hle : bytes' ≤ bytes) :
    Pays bytes' c w c' w' := ⟨h.seated, Nat.le_trans (Nat.add_le_add_left hle _) h.left_le⟩

theorem Pays.trans {bytes bytes' : Nat} {c'' : Cursor} {w'' : World Memory}
    (h : Pays bytes c w c' w') (h' : Pays bytes' c' w' c'' w'') :
    Pays (bytes + bytes') c w c'' w'' := by
  have hleft := h.left_le
  have hleft' := h'.left_le
  exact ⟨h'.seated, by omega⟩

/-- A `topUp` without a feed brings nothing. -/
theorem topUp_of_none {handle : Handle} (hexhausted : c.buffer.isExhausted = true)
    (hfeed : w.engine.cursors.find? handle = none) :
    c.topUp (Memory.engine parse) handle w =
      ({ c with buffer := c.buffer.refill ⟨[], 0⟩ },
        w.called (.cursorRead handle c.buffer.capacity)) := by
  rw [topUp, if_pos hexhausted, Memory.ask_cursorRead, Memory.onEngine, Memory.cursorRead,
    hfeed]
  rfl

/-- A `topUp` brings what is read from the feed. -/
theorem topUp_of_some {handle : Handle} {feed : Feed} (hexhausted : c.buffer.isExhausted = true)
    (hfeed : w.engine.cursors.find? handle = some feed) :
    let read := Memory.Feed.read feed (w.engine.room c.buffer.capacity)
    c.topUp (Memory.engine parse) handle w =
      ({ c with buffer := c.buffer.refill ⟨read.1, read.1.length⟩ },
        delivered w handle c.buffer.capacity read.2) := by
  rw [topUp, if_pos hexhausted, Memory.ask_cursorRead, Memory.onEngine, Memory.cursorRead,
    hfeed]
  rfl

/-- What is `unread` after a read of a feed is what it gave. -/
theorem unread_refill_read (feed : Feed) :
    let read := Memory.Feed.read feed (w.engine.room c.buffer.capacity)
    (c.buffer.refill ⟨read.1, read.1.length⟩).unread = read.1 :=
  ReadBuffer.unread_refill rfl
    (Nat.le_trans (Feed.read_flatten feed _).2 (Memory.room_le w.engine c.buffer.capacity))

namespace Seated

theorem ofHandle {session handle : Handle} {capacity : Nat}
    (hgiven : handle ≤ w.engine.lastHandle) (hcapacity : capacity < UInt64.size) :
    (Cursor.ofHandle session handle capacity).Seated w := by
  refine ⟨ReadBuffer.valid_ofCapacity hcapacity, ?_, fun hclosed => (by cases hclosed)⟩
  rintro _ ⟨⟩
  exact hgiven

/-- **What others do** costs nothing, and adds nothing. -/
theorem since (h : c.Seated w) (hsince : w.Since w') : Pays 0 c w c w' := by
  refine ⟨⟨h.valid, fun handle hhandle =>
    Nat.le_trans (h.given handle hhandle) hsince.lastHandle_le, h.closed⟩, ?_⟩
  rw [left, left]
  cases hhandle : c.handle with
  | none => exact Nat.le_refl _
  | some handle => exact Nat.add_le_add_left (hsince.queued_le handle (h.given handle hhandle)) _

theorem refl (h : c.Seated w) : Pays 0 c w c w := h.since (.refl w)

/-- A buffer with less in it. -/
theorem rebuffer {buffer : ReadBuffer} {corrupt : Option (Nat × RecordFault)} {bytes : Nat}
    (h : c.Seated w) (hopen : c.handle.isSome) (hvalid : buffer.Valid)
    (hless : buffer.unread.length + bytes ≤ c.buffer.unread.length) :
    Pays bytes c w { c with buffer, corrupt } w := by
  refine ⟨⟨hvalid, h.given, fun hclosed => ?_⟩, ?_⟩
  · rw [hclosed] at hopen
    cases hopen
  · rw [left, left]
    dsimp only
    omega

/-! ### One row -/

variable (parse) in
/-- **A `topUp`** moves bytes from the feed to the buffer. -/
theorem topUp (h : c.Seated w) {handle : Handle} (hhandle : c.handle = some handle) :
    Pays 0 c w (c.topUp (Memory.engine parse) handle w).1
      (c.topUp (Memory.engine parse) handle w).2 := by
  have hopen : c.handle ≠ none := by
    rw [hhandle]
    exact Option.some_ne_none handle
  by_cases hexhausted : c.buffer.isExhausted = true
  case neg =>
    rw [Cursor.topUp, if_neg hexhausted]
    exact h.refl
  cases hfeed : w.engine.cursors.find? handle with
  | none =>
    rw [topUp_of_none hexhausted hfeed]
    refine ⟨⟨h.valid.refill _, h.given, fun hclosed => absurd hclosed hopen⟩, ?_⟩
    rw [left, left, ReadBuffer.unread_refill rfl (Nat.zero_le _), List.length_nil, Nat.zero_add]
    exact Nat.le_add_left _ _
  | some feed =>
    rw [topUp_of_some hexhausted hfeed]
    refine ⟨⟨h.valid.refill _, h.given, fun hclosed => absurd hclosed hopen⟩, ?_⟩
    obtain ⟨hsplit, -⟩ := Feed.read_flatten feed (w.engine.room c.buffer.capacity)
    rw [left, left, unread_refill_read, hhandle, Option.bind_some, Option.bind_some,
      find?_delivered, hfeed, Feed.queued, Feed.queued, hsplit, List.length_append]
    exact Nat.le_add_left _ _

variable (parse) in
/-- **A record that `takeRecord` takes** costs a header at least, and a corrupt one all that is in
the buffer. -/
theorem takeRecord (h : c.Seated w) (hopen : c.handle.isSome) :
    let r := c.takeRecord (Memory.engine parse) w
    Pays (if goesOn r.1 then headerSize else 0) c w r.2.1 r.2.2 := by
  cases hparse : Header.parse c.buffer.unread with
  | error fault =>
    rw [takeRecord_error parse hparse]
    refine h.rebuffer hopen h.valid.discard ?_
    rw [ReadBuffer.unread_discard]
    exact Nat.zero_le _
  | ok header =>
    obtain ⟨w', hasked, htake⟩ := takeRecord_ok parse (w := w) h.valid hparse
    have hheader := Header.headerSize_le_length hparse
    have hlength := Header.length_le_of_parse hparse
    have hpays : Pays headerSize c w { c with buffer := c.buffer.consume header.length } w :=
      h.rebuffer hopen (h.valid.consume header.length)
        (by rw [h.valid.unread_consume hlength, List.length_drop]; omega)
    have hgoesOn : goesOn (((header.decodeRow c.buffer.unread
        (w.engine.idToSeries c.session)).map some).mapError .unresolvedSeries) = true := by
      cases header.decodeRow c.buffer.unread (w.engine.idToSeries c.session) <;> rfl
    rw [htake]
    dsimp only
    rw [hgoesOn]
    exact hpays.trans (hpays.seated.since (.of_engine_eq hasked.engine))

variable (parse) in
/-- **A row that `nextRow` reads** costs a header at least, if it does not end the result. -/
theorem nextRow (h : c.Seated w) :
    let r := c.nextRow (Memory.engine parse) w
    Pays (if goesOn r.1 then headerSize else 0) c w r.2.1 r.2.2 := by
  by_cases hpanic : w.channel.panic = none
  case neg =>
    obtain ⟨message, hmessage⟩ := Option.ne_none_iff_exists'.mp hpanic
    rw [nextRow_of_panic _ hmessage]
    exact h.refl
  rw [Cursor.nextRow, World.check_of_no_panic hpanic]
  split
  next hcheck => cases hcheck
  · exact h.refl
  · exact h.refl
  next handle _ hhandle _ =>
    have htop : Pays 0 c w (c.topUp (Memory.engine parse) handle w).1
      (c.topUp (Memory.engine parse) handle w).2 := h.topUp parse hhandle
    have hopen : (c.topUp (Memory.engine parse) handle w).1.handle.isSome := by
      rw [(advances_topUp (Memory.engine parse) c w hhandle).handle_eq, hhandle]
      rfl
    rw [readOn]
    rcases htopUp : c.topUp (Memory.engine parse) handle w with ⟨c', w'⟩
    rw [htopUp] at htop hopen
    have hsince : w'.Since (w'.called (.cursorError handle)) := .of_engine_eq rfl
    have hasked := htop.trans (htop.seated.since hsince)
    dsimp only
    rw [Memory.ask_cursorError]
    cases w'.engine.cursorError handle with
    | some status => exact hasked
    | none =>
      dsimp only
      split
      · exact hasked
      · have hpays := hasked.trans (hasked.seated.takeRecord parse hopen)
        rwa [Nat.zero_add] at hpays

end Seated

variable (parse) in
/-- A `topUp` that brings nothing and does not fail finds nothing queued. -/
theorem Seated.spent_topUp (h : c.Seated w) (hpanic : w.channel.panic = none) {handle : Handle}
    (hhandle : c.handle = some handle)
    (hexhausted : (c.topUp (Memory.engine parse) handle w).1.buffer.isExhausted = true)
    (herror : (c.topUp (Memory.engine parse) handle w).2.engine.cursorError handle = none) :
    (c.topUp (Memory.engine parse) handle w).1.Spent
      (c.topUp (Memory.engine parse) handle w).2 := by
  have hpays : Pays 0 c w (c.topUp (Memory.engine parse) handle w).1
    (c.topUp (Memory.engine parse) handle w).2 := h.topUp parse hhandle
  have hadvances := advances_topUp (Memory.engine parse) c w hhandle
  refine ⟨hexhausted, hadvances.moves.observed.channel ▸ hpanic, hpays.seated.given, ?_⟩
  intro handle' hhandle'
  obtain rfl : handle = handle' :=
    Option.some.inj ((hadvances.handle_eq.trans hhandle).symm.trans hhandle')
  clear hpays hadvances hhandle'
  by_cases hused : c.buffer.isExhausted = true
  case neg =>
    rw [Cursor.topUp, if_neg hused] at hexhausted
    exact absurd hexhausted hused
  cases hfeed : w.engine.cursors.find? handle with
  | none =>
    rw [topUp_of_none hused hfeed, Memory.cursorError, World.called_engine, hfeed] at herror
    cases herror
  | some feed =>
    rw [topUp_of_some hused hfeed] at hexhausted herror ⊢
    rw [(h.valid.refill _).isExhausted_iff, unread_refill_read] at hexhausted
    rw [cursorError_of_find? (find?_delivered _ _ _ _)] at herror
    rw [find?_delivered]
    rintro _ ⟨⟩
    exact .inr (Feed.records_of_read_nil hexhausted herror)

/-- **A `nextRow` that gives nothing** leaves a cursor that is `Spent`: over a feed that has not
failed, a read gives something unless nothing is queued. -/
theorem spent_of_no_row (h : c.Seated w)
    (hrow : c.nextRow (Memory.engine parse) w = (.ok none, c', w')) : c'.Spent w' := by
  have hpanic : w.channel.panic = none := by
    cases hpanic : w.channel.panic with
    | none => rfl
    | some message =>
      rw [nextRow_of_panic _ hpanic] at hrow
      cases hrow
  have hadvances := c.advances_nextRow (Memory.engine parse) w
  have hseated := (h.nextRow parse).seated
  rw [hrow] at hadvances hseated
  have hpanic' : w'.channel.panic = none := hadvances.moves.observed.channel ▸ hpanic
  rw [nextRow, World.check_of_no_panic hpanic] at hrow
  cases hhandle : c.handle with
  | none =>
    have hclosed := hadvances.handle_eq.trans hhandle
    exact ⟨hseated.closed hclosed, .of_closed hpanic' hclosed⟩
  | some handle =>
    cases hcorrupt : c.corrupt with
    | some fault =>
      rw [hhandle, hcorrupt] at hrow
      cases hrow
    | none =>
      rw [hhandle, hcorrupt] at hrow
      dsimp only at hrow
      have hspent := h.spent_topUp parse hpanic hhandle
      rw [readOn] at hrow
      rcases htopUp : c.topUp (Memory.engine parse) handle w with ⟨c'', w''⟩
      rw [htopUp] at hrow hspent
      dsimp only at hrow hspent
      rw [Memory.ask_cursorError] at hrow
      cases herror : w''.engine.cursorError handle with
      | some status =>
        rw [herror] at hrow
        cases hrow
      | none =>
        rw [herror] at hrow
        dsimp only at hrow
        split at hrow
        next hexhausted =>
          cases hrow
          have hspent := hspent hexhausted herror
          exact ⟨hspent.exhausted, hspent.drained.world (fun hs hf => hf.step hs) rfl
            (Nat.le_refl _) fun _ _ => .refl _⟩
        next =>
          have hnone := takeRecord_ne_none parse c'' (w''.called (.cursorError handle))
          rw [hrow] at hnone
          exact absurd rfl hnone

/-- A cursor whose `nextRow` gives nothing is `done`. -/
theorem done_of_no_row (h : c.Seated w)
    (hrow : c.nextRow (Memory.engine parse) w = (.ok none, c', w')) :
    ∃ w'', c'.done (Memory.engine parse) w' = (.ok true, w'') := by
  have hspent := spent_of_no_row h hrow
  exact ⟨_, Prod.ext ((done_eq_true_iff hspent.drained.some_kind).mpr hspent) rfl⟩

/-! ### One call -/

/-- **The first try is the last**: if there is no row, then the cursor is `done`. So the tries of a
call come to an end, and to the one that `next` comes to. -/
theorem tries_next (h : c.Seated w) (hended : c.ended = false) {item : Option (Item Row)}
    (hnext : c.next (Memory.engine parse) w = (item, c', w')) :
    Tries (Memory.engine parse) c w item c' w' := by
  rcases hrow : c.nextRow (Memory.engine parse) w with ⟨failure | _ | row, c₁, w₁⟩
  · cases failure with
    | unresolvedSeries id =>
      rw [next_of_unresolved hended hrow] at hnext
      cases hnext
      exact .unresolved hrow
    | _ =>
      rw [next_of_failure hended hrow (fun id h => by cases h)] at hnext
      cases hnext
      exact .failed hrow fun id h => by cases h
  · obtain ⟨w₂, hdone⟩ := done_of_no_row h hrow
    rw [next_of_done hended hrow hdone] at hnext
    cases hnext
    exact .spent hrow hdone
  · rw [next_of_row hended hrow] at hnext
    cases hnext
    exact .row hrow

theorem Pays.finish {bytes : Nat} (h : Pays bytes c w c' w') : Pays bytes c w c'.finish w' :=
  ⟨⟨h.seated.valid, h.seated.given, h.seated.closed⟩, h.left_le⟩

/-- **Costing**: the cursor `Pays` some bytes at least, unless the result came to its end. -/
def Costs (bytes : Nat) (c : Cursor) (w : World Memory) (c' : Cursor) (w' : World Memory) : Prop :=
  (c'.ended = true ∧ Pays 0 c w c' w') ∨ Pays bytes c w c' w'

theorem Costs.pays {bytes : Nat} (h : Costs bytes c w c' w') : Pays 0 c w c' w' := by
  obtain ⟨-, hpays⟩ | hpays := h
  · exact hpays
  · exact hpays.mono (Nat.zero_le _)

variable (parse) in
/-- **A call of `next`** costs a header. -/
theorem Seated.next (h : c.Seated w) :
    let r := c.next (Memory.engine parse) w
    Costs headerSize c w r.2.1 r.2.2 := by
  cases hended : c.ended with
  | true =>
    rw [next_of_ended hended]
    exact .inl ⟨hended, h.refl⟩
  | false =>
    have hpays := h.nextRow parse
    rcases hnext : c.next (Memory.engine parse) w with ⟨item, c', w'⟩
    cases tries_next h hended hnext with
    | row hrow =>
      rw [hrow] at hpays
      exact .inr hpays
    | unresolved hrow =>
      rw [hrow] at hpays
      exact .inr hpays
    | failed hrow =>
      rw [hrow] at hpays
      exact .inl ⟨rfl, hpays.finish.mono (Nat.zero_le _)⟩
    | @spent _ c₁ _ w₁ _ hrow hdone =>
      rw [hrow] at hpays
      have hasks := c₁.asks_done (Memory.engine parse) w₁
      rw [hdone] at hasks
      exact .inl ⟨rfl, (hpays.trans (hpays.seated.since (.leads hasks))).finish⟩
    | refused hrow hdone | again hrow hdone =>
      obtain ⟨_, hyes⟩ := done_of_no_row h hrow
      cases hyes.symm.trans hdone

/-! ### What does not bring an end back -/

section Ended

variable {σ : Type} (E : Engine σ) (c : Cursor) (w : World σ)

theorem ended_topUp (handle : Handle) : (c.topUp E handle w).1.ended = c.ended := by
  rw [topUp]
  split <;> rfl

theorem ended_takeRecord : (c.takeRecord E w).2.1.ended = c.ended := by
  rw [takeRecord]
  split
  · rfl
  · dsimp only
    split
    · rfl
    · split <;> rfl

/-- Reading rows does not end the result. -/
theorem ended_nextRow : (c.nextRow E w).2.1.ended = c.ended := by
  rw [nextRow]
  split
  · rfl
  · rfl
  · rfl
  next handle _ _ _ =>
    have htop := c.ended_topUp E w handle
    rw [readOn]
    rcases htopUp : c.topUp E handle w with ⟨c', w'⟩
    rw [htopUp] at htop
    dsimp only
    split
    · exact htop
    next w'' _ =>
      split
      · exact htop
      · exact (c'.ended_takeRecord E w'').trans htop

theorem ended_close : (c.close E w).2.1.ended = c.ended := by
  rw [close]
  split <;> rfl

end Ended

/-! ### Incidents -/

/-- **A result that came to its end** stays there, whatever the incident. -/
theorem ended_meet (t : Incident) (hended : c.ended = true) :
    (meet parse c w t).1.ended = true := by
  cases t with
  | nextRow => exact (c.ended_nextRow _ w).trans hended
  | next => rwa [meet, next_of_ended hended]
  | close => exact (c.ended_close _ w).trans hended
  | done => exact hended
  | canProceed => exact hended
  | act a => exact hended
  | command databases sessions readers command => exact hended

variable (parse) in
/-- To `close` costs nothing. -/
theorem Seated.close (h : c.Seated w) :
    let r := c.close (Memory.engine parse) w
    Pays 0 c w r.2.1 r.2.2 := by
  rw [Cursor.close]
  split
  · exact h.refl
  · exact h.refl
  · have hgiven : ∀ handle, (none : Option Handle) = some handle → handle ≤ w.engine.lastHandle :=
      fun handle hnone => by cases hnone
    refine ⟨⟨h.valid.discard, hgiven, fun _ => beq_self_eq_true _⟩, ?_⟩
    rw [left, ReadBuffer.unread_discard]
    exact Nat.zero_le _

/-- Whether an incident is a call of the iterator. -/
def isCall : Incident → Bool
  | .next => true
  | _ => false

/-- The number of calls of the iterator among some incidents. -/
def calls (later : List Incident) : Nat := later.countP isCall

variable (parse) in
/-- **What an `Incident` costs** a `Seated` cursor. -/
theorem Seated.meet (h : c.Seated w) (t : Incident) :
    Costs (if isCall t then headerSize else 0) c w (meet parse c w t).1 (meet parse c w t).2 := by
  cases t with
  | next => exact h.next parse
  | nextRow => exact .inr ((h.nextRow parse).mono (Nat.zero_le _))
  | done => exact .inr (h.since (.leads (c.asks_done (Memory.engine parse) w)))
  | canProceed => exact .inr (h.since (.leads (c.asks_canProceed (Memory.engine parse) w)))
  | close => exact .inr (h.close parse)
  | act a => exact .inr (h.since (.act parse a w))
  | command databases sessions readers command =>
    exact .inr (h.since (.leads
      (Workspace.leads_run parse ⟨w, databases, sessions, readers⟩ command)))

theorem undergo_cons (t : Incident) (later : List Incident) :
    undergo parse c w (t :: later) =
      undergo parse (meet parse c w t).1 (meet parse c w t).2 later := rfl

variable (parse) in
/-- **What a run of incidents costs**: as many headers as there are calls of the iterator. -/
theorem Seated.undergo (h : c.Seated w) (later : List Incident) :
    Costs (calls later * headerSize) c w (undergo parse c w later).1
      (undergo parse c w later).2 := by
  induction later generalizing c w with
  | nil => exact .inr (h.refl.mono (Nat.le_of_eq (Nat.zero_mul _)))
  | cons t later ih =>
    have hcalls : calls (t :: later) * headerSize =
        (if isCall t then headerSize else 0) + calls later * headerSize := by
      rw [calls, List.countP_cons, Nat.add_mul, Nat.add_comm, calls]
      split <;> simp
    rw [undergo_cons, hcalls]
    obtain ⟨hended, hpays⟩ | hpays := h.meet parse t
    · -- the end is not brought back
      have hkept : EverAfter parse (fun _ => True) (fun c _ => c.ended = true)
          (Cursor.meet parse c w t).1 (Cursor.meet parse c w t).2 :=
        everAfter_of_keeps (fun t _ h => ended_meet t h) hended
      exact .inl ⟨hkept later fun _ _ => trivial, hpays.trans (ih hpays.seated).pays⟩
    · obtain ⟨hended, hmore⟩ | hmore := ih hpays.seated
      · exact .inl ⟨hended, (hpays.trans hmore).mono (Nat.zero_le _)⟩
      · exact .inr (hpays.trans hmore)

/-- **A call that gives nothing or a failure for good** ends the result. -/
theorem Seated.ended_of_last (h : c.Seated w) {item : Option (Item Row)}
    (hnext : c.next (Memory.engine parse) w = (item, c', w'))
    (hlast : ∀ last ∈ item, ∃ failure, last = .error failure ∧
      ∀ id, failure ≠ .unresolvedSeries id) :
    c'.ended = true := by
  cases hended : c.ended with
  | true =>
    rw [next_of_ended hended] at hnext
    cases hnext
    exact hended
  | false =>
    cases tries_next h hended hnext with
    | row hrow =>
      obtain ⟨failure, hfailure, -⟩ := hlast _ rfl
      cases hfailure
    | unresolved hrow =>
      obtain ⟨failure, hfailure, hnamed⟩ := hlast _ rfl
      cases hfailure
      exact absurd rfl (hnamed _)
    | failed hrow => rfl
    | spent hrow hdone => rfl
    | refused hrow hdone => rfl
    | again hrow hdone =>
      obtain ⟨_, hyes⟩ := done_of_no_row h hrow
      cases hyes.symm.trans hdone

/-! ### The end -/

/-- **Iteration comes to an end and stays there.** Take any cursor whose handle was given out, over
any feed, after any incidents. A call of `next` tries for an item, and the `Tries` come to an end,
to just the one that the call comes to. After as many calls as there are headers in the bytes that
are `left`, and one more, the next call gives nothing, whatever happens between them. And after a
call that gives nothing or a failure for good, every call gives nothing and makes no call of the
engine, whatever happens. -/
theorem ends_of_ofHandle {session handle : Handle} {capacity : Nat} {w₀ : World Memory}
    (hgiven : handle ≤ w₀.engine.lastHandle) (hcapacity : capacity < UInt64.size)
    (earlier : List Incident) :
    let E := Memory.engine parse
    let c := (undergo parse (.ofHandle session handle capacity) w₀ earlier).1
    let w := (undergo parse (.ofHandle session handle capacity) w₀ earlier).2
    (c.ended = false → ∀ item c' w', Tries E c w item c' w' ↔ c.next E w = (item, c', w')) ∧
    (∀ later, c.left w / headerSize + 1 ≤ calls later →
      ((undergo parse c w later).1.next E (undergo parse c w later).2).1 = none) ∧
    ∀ item c' w', c.next E w = (item, c', w') →
      (∀ last ∈ item, ∃ failure, last = .error failure ∧ ∀ id, failure ≠ .unresolvedSeries id) →
        EverAfter parse (fun _ => True) (fun c w => c.next E w = (none, c, w)) c' w' := by
  intro E c w
  have hseated : c.Seated w :=
    ((Seated.ofHandle hgiven hcapacity).undergo parse earlier).pays.seated
  refine ⟨fun hended item c' w' => ⟨fun htries => ?_, tries_next hseated hended⟩,
    fun later hlater => ?_, fun item c' w' hnext hlast => ?_⟩
  · exact htries.unique (tries_next hseated hended rfl)
  · obtain ⟨hended, -⟩ | hpays := hseated.undergo parse later
    · rw [next_of_ended hended]
    · -- there were not that many bytes
      have hleft := hpays.left_le
      have hheaders := Nat.mul_le_mul_right headerSize hlater
      rw [headerSize] at *
      omega
  · have hended := hseated.ended_of_last hnext hlast
    exact (everAfter_of_keeps (P := fun c _ => c.ended = true) (fun t _ h => ended_meet t h)
      hended).mono fun h => next_of_ended h _

/-- A record of an unknown series, an empty one and three bytes that are no record: of 35 bytes
there are two items, and then nothing, although the limit on deliveries is moved. -/
theorem ends_of_ofHandle_three_records :
    let parse : String → Option Json := fun _ => none
    let feed : Feed := { records := [(Record.seriesOnly 7).encode, [], [1, 2, 3]] }
    let w : World Memory :=
      { engine := { lastHandle := 1, cursors := Table.empty.put 1 feed }, files := {} }
    let c : Cursor := .ofHandle 1 1 64
    let later : List Incident := [.next, .act (.disturb (.chunkLimit (some 3))), .next]
    1 ≤ w.engine.lastHandle ∧ 64 < UInt64.size ∧ c.left w = 35 ∧ calls later = 2 ∧
      ((undergo parse c w later).1.next (Memory.engine parse) (undergo parse c w later).2).1 =
        none := by
  intro parse feed w c later
  have hleft : c.left w = 35 := by decide
  obtain ⟨-, hnone, -⟩ := @ends_of_ofHandle parse 1 1 64 w (Nat.le_refl 1) (by decide) []
  exact ⟨Nat.le_refl 1, by decide, hleft, rfl, hnone later (by decide)⟩

end Cursor

end TimeSeries
