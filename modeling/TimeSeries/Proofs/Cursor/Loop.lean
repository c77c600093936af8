import TimeSeries.Proofs.Cursor.Draining
import TimeSeries.Proofs.Cursor.Reading

/-!
# Draining a cursor by a loop

There are two ways to drain a cursor: to take its items by `next` until there are none, or to read
rows by `nextRow` in a loop for as long as the cursor is not `done`. `Cursor.Pulls` is the second
one. The two meet the engine in different worlds, for the loop asks questions of its own; what
`nextRow` gives and leaves behind depends only on what the world offers to the cursor
(`Cursor.Offers`, `Cursor.Takes`). So both go through the same turns (`Cursor.turn`), of which there
are only so many, as each takes bytes out of the buffer or records off the feed (`Cursor.size`).
What is to come of them all is the course of the cursor (`Cursor.Course`).

Main results: `Cursor.pulls_iff_items`, over feeds that have not failed, whatever their records,
and `Cursor.pulls_iff_of_failed`.
-/

namespace TimeSeries.Cursor

/-! ### The loop -/

/-- **The loop** over the rows of a cursor: as long as it is not `done`, `nextRow` reads one. -/
abbrev Pulls {σ : Type} (E : Engine σ) (c : Cursor) (w : World σ) (rows : List Row)
    (outcome : Option Failure) : Prop :=
  Drains (Cursor.done E) (Cursor.nextRow E) c w rows outcome

/-! ### What a world offers -/

/-- **Offer** of a world to a cursor: all that a row read depends on. -/
structure Offers (session handle : Handle) (resolve : SeriesId → Option String)
    (room : Nat → Nat) (feed : Feed) (w : World Memory) : Prop where
  /-- the engine did not panic -/
  panic : w.channel.panic = none
  /-- how ids are looked up -/
  resolve_eq : w.engine.idToSeries session = resolve
  /-- the room that a read has -/
  room_eq : w.engine.room = room
  /-- the feed of the cursor -/
  find_eq : w.engine.cursors.find? handle = some feed

variable {session handle : Handle} {resolve : SeriesId → Option String} {room : Nat → Nat}
  {feed feed' : Feed} {w w' : World Memory} {c c' : Cursor}

theorem Offers.asked (h : Offers session handle resolve room feed w) (hasked : w.Asked w') :
    Offers session handle resolve room feed w' := by
  obtain ⟨calls, rfl⟩ := hasked
  exact ⟨h.panic, h.resolve_eq, h.room_eq, h.find_eq⟩

theorem Offers.delivered (h : Offers session handle resolve room feed w) (capacity : Nat)
    (feed' : Feed) :
    Offers session handle resolve room feed' (delivered w handle capacity feed') :=
  ⟨h.panic, h.resolve_eq, h.room_eq, find?_delivered w handle capacity feed'⟩

variable (parse : String → Option Json)

/-- **A `nextRow`** gives a result and leaves a cursor and a feed, in whatever world the feed is
offered. -/
def Takes (session handle : Handle) (resolve : SeriesId → Option String) (room : Nat → Nat)
    (c : Cursor) (feed : Feed) (result : Except Failure (Option Row)) (c' : Cursor)
    (feed' : Feed) : Prop :=
  ∀ w, Offers session handle resolve room feed w → ∃ w',
    c.nextRow (Memory.engine parse) w = (result, c', w') ∧
      Offers session handle resolve room feed' w'

/-- **Size** of what is still to come: what is unread, and a full buffer for each record. -/
def size (c : Cursor) (feed : Feed) : Nat :=
  c.buffer.unread.length + feed.records.length * c.buffer.capacity

/-! ### Turns -/

/-- **Turn**: what `nextRow` can come to over a feed that has not failed. -/
inductive Turn (session handle : Handle) (resolve : SeriesId → Option String)
    (room : Nat → Nat) (c : Cursor) (feed : Feed) : Prop where
  /-- an item, after which there is less to come -/
  | item {item : Item Row} {c' : Cursor} {feed' : Feed} :
      (∀ failure, item = .error failure → ∃ id, failure = .unresolvedSeries id) →
      Takes parse session handle resolve room c feed (item.map some) c' feed' →
      Live session handle c' → feed'.error = none → size c' feed' < size c feed →
      Turn session handle resolve room c feed
  /-- nothing, as there is nothing left -/
  | nothing {c' : Cursor} : Takes parse session handle resolve room c feed (.ok none) c' {} →
      Live session handle c' → c'.buffer.unread = [] → Turn session handle resolve room c feed
  /-- a failure for good -/
  | failed {failure : Failure} {c' : Cursor} {feed' : Feed} :
      (∀ id, failure ≠ .unresolvedSeries id) →
      Takes parse session handle resolve room c feed (.error failure) c' feed' →
      Turn session handle resolve room c feed

/-- Decoding fails by `unresolvedSeries` only. -/
theorem mapError_unresolved (result : Except SeriesId Row) (failure : Failure)
    (h : result.mapError Failure.unresolvedSeries = .error failure) :
    ∃ id, failure = .unresolvedSeries id := by
  rcases result with id | row
  · cases h
    exact ⟨id, rfl⟩
  · cases h

variable {parse}

/-- If a cursor reads on like another one, over a feed with no more to come, it takes the same
`Turn`. -/
theorem Turn.like (hlike : ∀ w, Offers session handle resolve room feed w → ∃ w',
      Offers session handle resolve room feed' w' ∧
        c.nextRow (Memory.engine parse) w = c'.nextRow (Memory.engine parse) w')
    (hsize : size c' feed' ≤ size c feed) (h : Turn parse session handle resolve room c' feed') :
    Turn parse session handle resolve room c feed := by
  have htakes : ∀ {result c'' feed''},
      Takes parse session handle resolve room c' feed' result c'' feed'' →
      Takes parse session handle resolve room c feed result c'' feed'' := by
    intro result c'' feed'' htakes w hoffers
    obtain ⟨w', hoffers', hrow⟩ := hlike w hoffers
    rw [hrow]
    exact htakes w' hoffers'
  cases h with
  | item hitem htake hlive herror hless =>
    exact .item hitem (htakes htake) hlive herror (Nat.lt_of_lt_of_le hless hsize)
  | nothing htake hlive hunread => exact .nothing (htakes htake) hlive hunread
  | failed hfailure htake => exact .failed hfailure (htakes htake)

variable (parse)

/-- **Bytes in the buffer**: the record at their front is taken or found corrupt. -/
theorem turn_of_unread (hlive : Live session handle c) (herror : feed.error = none)
    (hunread : c.buffer.unread ≠ []) : Turn parse session handle resolve room c feed := by
  cases hparse : Header.parse c.buffer.unread with
  | error fault =>
    have htakes : Takes parse session handle resolve room c feed
        (.error (.corruptRecord c.buffer.position fault))
        { c with corrupt := some (c.buffer.position, fault), buffer := c.buffer.discard } feed := by
      intro w hoffers
      have hrow := nextRow_live parse hlive hoffers.panic
      rw [readOn_healthy parse (topUp_of_unread parse hlive hunread)
          (by rw [cursorError_of_find? hoffers.find_eq, herror]),
        if_neg (by rw [isExhausted_eq_false hlive hunread]; decide),
        takeRecord_error parse hparse] at hrow
      exact ⟨_, hrow, hoffers.asked (.called w _)⟩
    exact .failed (fun id h => by cases h) htakes
  | ok header =>
    have hlength := Header.length_le_of_parse hparse
    have hheader := Header.headerSize_le_length hparse
    have htakes : Takes parse session handle resolve room c feed
        (((header.decodeRow c.buffer.unread resolve).mapError .unresolvedSeries).map some)
        { c with buffer := c.buffer.consume header.length } feed := by
      intro w hoffers
      obtain ⟨w', hasked, hrow⟩ :=
        nextRow_record parse hlive hoffers.panic hoffers.find_eq herror hparse
      refine ⟨w', hrow.trans ?_, hoffers.asked hasked⟩
      rw [hoffers.resolve_eq]
      cases header.decodeRow c.buffer.unread resolve <;> rfl
    refine .item (mapError_unresolved _) htakes ⟨hlive.session_eq, hlive.handle_eq,
      hlive.corrupt_eq, hlive.ended_eq, hlive.valid.consume header.length⟩ herror ?_
    rw [headerSize] at hheader
    rw [size, size, hlive.valid.unread_consume hlength, List.length_drop,
      ReadBuffer.capacity_consume]
    omega

/-- **A `read` that brings nothing** leaves nothing to come. -/
theorem takes_end (hlive : Live session handle c) (hunread : c.buffer.unread = [])
    (hend : Memory.Feed.read feed (room c.buffer.capacity) = ([], {})) :
    ∃ c', Takes parse session handle resolve room c feed (.ok none) c' {} ∧
      Live session handle c' ∧ c'.buffer.unread = [] := by
  refine ⟨{ c with buffer := c.buffer.refill ⟨[], 0⟩ }, fun w hoffers => ?_,
    ⟨hlive.session_eq, hlive.handle_eq, hlive.corrupt_eq, hlive.ended_eq, hlive.valid.refill _⟩,
    ReadBuffer.unread_refill rfl (Nat.zero_le _)⟩
  obtain ⟨-, -, hrow⟩ := nextRow_end parse hlive hoffers.panic hunread hoffers.find_eq
    (by rw [hoffers.room_eq, hend]) rfl
  exact ⟨_, hrow, (hoffers.delivered _ _).asked (.called _ _)⟩

/-- **A feed that fails**, be it before the read or by it, fails the row. -/
theorem takes_failed {status : Status} (hlive : Live session handle c)
    (hunread : c.buffer.unread = [])
    (hread : Memory.Feed.read feed (room c.buffer.capacity) = ([], feed'))
    (herror : feed'.error = some status) :
    Takes parse session handle resolve room c feed (.error (.engine status))
      { c with buffer := c.buffer.refill ⟨[], 0⟩ } feed' := by
  intro w hoffers
  have hrow := nextRow_failed parse hlive hoffers.panic hunread hoffers.find_eq
    (by rw [hoffers.room_eq, hread]) herror
  exact ⟨_, hrow, (hoffers.delivered _ _).asked (.called _ _)⟩

/-- **A `Turn`.** If there are no bytes in the buffer, a read brings some, fails as the first record
does not fit, or finds that nothing is left. -/
theorem turn (hroom : ∀ capacity, room capacity ≤ capacity) (hlive : Live session handle c)
    (herror : feed.error = none) : Turn parse session handle resolve room c feed := by
  by_cases hunread : c.buffer.unread = []
  case neg => exact turn_of_unread parse hlive herror hunread
  have hread : ∀ {w : World Memory} {delivery}, Offers session handle resolve room feed w →
      Memory.Feed.read feed (room c.buffer.capacity) = delivery →
      Memory.Feed.read feed (w.engine.room c.buffer.capacity) = delivery := by
    intro w delivery hoffers heq
    rw [hoffers.room_eq, heq]
  obtain ⟨left, hleft⟩ | hend | ⟨bytes, left, hbytes, hfits, hless, hbrings⟩ :=
    Memory.read_cases (room c.buffer.capacity) herror
  · exact .failed (fun id h => by cases h) (takes_failed parse hlive hunread hleft rfl)
  · obtain ⟨c', htakes, hlive', hunread'⟩ := takes_end parse hlive hunread hend
    exact .nothing htakes hlive' hunread'
  · -- the bytes are in the buffer then
    have hcapacity := Nat.le_trans hfits (hroom c.buffer.capacity)
    have hunread' : (c.buffer.refill ⟨bytes, bytes.length⟩).unread = bytes :=
      ReadBuffer.unread_refill rfl hcapacity
    have hlive' : Live session handle { c with buffer := c.buffer.refill ⟨bytes, bytes.length⟩ } :=
      ⟨hlive.session_eq, hlive.handle_eq, hlive.corrupt_eq, hlive.ended_eq, hlive.valid.refill _⟩
    have hlike : ∀ w, Offers session handle resolve room feed w → ∃ w',
        Offers session handle resolve room { records := left } w' ∧
          c.nextRow (Memory.engine parse) w =
            nextRow (Memory.engine parse)
              { c with buffer := c.buffer.refill ⟨bytes, bytes.length⟩ } w' := by
      intro w hoffers
      obtain ⟨-, -, hrow, -⟩ := nextRow_refill parse hlive hoffers.panic hunread hoffers.find_eq
        (hread hoffers hbrings) rfl hbytes hcapacity
      exact ⟨_, hoffers.delivered _ _, hrow⟩
    refine Turn.like hlike ?_ (turn_of_unread parse hlive' rfl (by rw [hunread']; exact hbytes))
    have hrecords := Nat.mul_le_mul_right c.buffer.capacity (Nat.succ_le_of_lt hless)
    rw [Nat.succ_mul] at hrecords
    rw [size, size, hunread', ReadBuffer.capacity_refill]
    dsimp only
    omega

/-! ### Courses -/

/-- **The course of a cursor** over a feed: the items that are to come, `Turn` by `Turn`. Unless its
feed has failed, the cursor is not done as long as there are some. -/
inductive Course (session handle : Handle) (resolve : SeriesId → Option String)
    (room : Nat → Nat) : Cursor → Feed → List (Item Row) → Prop where
  /-- an item, and then the rest -/
  | item {c c' : Cursor} {feed feed' : Feed} {item : Item Row} {items : List (Item Row)} :
      Live session handle c → feed.error = none →
      (c.buffer.unread.isEmpty && feed.records.isEmpty) = false →
      (∀ failure, item = .error failure → ∃ id, failure = .unresolvedSeries id) →
      Takes parse session handle resolve room c feed (item.map some) c' feed' →
      feed'.error = none → size c' feed' < size c feed →
      Course session handle resolve room c' feed' items →
      Course session handle resolve room c feed (item :: items)
  /-- nothing -/
  | nothing {c c' : Cursor} {feed : Feed} :
      Live session handle c → feed.error = none →
      Takes parse session handle resolve room c feed (.ok none) c' {} →
      Live session handle c' → c'.buffer.unread = [] →
      Course session handle resolve room c feed []
  /-- a failure for good -/
  | failed {c c' : Cursor} {feed feed' : Feed} {failure : Failure} :
      Live session handle c →
      (feed.error = none → (c.buffer.unread.isEmpty && feed.records.isEmpty) = false) →
      (∀ id, failure ≠ .unresolvedSeries id) →
      Takes parse session handle resolve room c feed (.error failure) c' feed' →
      Course session handle resolve room c feed [.error failure]

/-- **Every cursor has a `Course`** over a feed that has not failed. -/
theorem exists_course (hroom : ∀ capacity, room capacity ≤ capacity)
    (hlive : Live session handle c) (herror : feed.error = none) :
    ∃ items, Course parse session handle resolve room c feed items := by
  induction hsize : size c feed using Nat.strong_induction_on generalizing c feed with
  | _ n ih =>
    subst hsize
    cases hmore : c.buffer.unread.isEmpty && feed.records.isEmpty with
    | true =>
      obtain ⟨hunread, hrecords⟩ := Bool.and_eq_true_iff.mp hmore
      have hend : Memory.Feed.read feed (room c.buffer.capacity) = ([], {}) := by
        rw [Memory.Feed.read, herror, List.isEmpty_iff.mp hrecords]
        rfl
      obtain ⟨c', htakes, hlive', hunread'⟩ :=
        takes_end parse hlive (List.isEmpty_iff.mp hunread) hend
      exact ⟨[], .nothing hlive herror htakes hlive' hunread'⟩
    | false =>
      cases turn parse hroom hlive herror with
      | item hitem htakes hlive' herror' hless =>
        obtain ⟨items, hrest⟩ := ih _ hless hlive' herror' rfl
        exact ⟨_ :: items, .item hlive herror hmore hitem htakes herror' hless hrest⟩
      | nothing htakes hlive' hunread => exact ⟨[], .nothing hlive herror htakes hlive' hunread⟩
      | failed hfailure htakes => exact ⟨[_], .failed hlive (fun _ => hmore) hfailure htakes⟩

variable {parse} in
/-- A `Course` has no more items than its `size` has room for. -/
theorem Course.length_le {items : List (Item Row)}
    (h : Course parse session handle resolve room c feed items) :
    items.length ≤ size c feed + 1 := by
  induction h with
  | item _ _ _ _ _ _ hless _ ih =>
    rw [List.length_cons]
    omega
  | nothing => exact Nat.zero_le _
  | failed => exact Nat.le_add_left 1 _

/-- Without a panic and with a valid buffer, `nextRow` fails by the engine, by a corrupt record or
by a series without a name. -/
theorem failure_of_nextRow {failure : Failure} (hvalid : c.buffer.Valid)
    (hpanic : w.channel.panic = none)
    (hrow : c.nextRow (Memory.engine parse) w = (.error failure, c', w')) :
    (∃ status, failure = .engine status) ∨ (∃ offset fault, failure = .corruptRecord offset fault) ∨
      ∃ id, failure = .unresolvedSeries id := by
  rw [nextRow, World.check_of_no_panic hpanic] at hrow
  split at hrow
  next hcheck => cases hcheck
  · cases hrow
  · cases hrow
    exact .inr (.inl ⟨_, _, rfl⟩)
  next handle _ _ _ =>
    have hvalid' := valid_topUp parse w handle hvalid
    rw [readOn] at hrow
    rcases htop : c.topUp (Memory.engine parse) handle w with ⟨c₁, w₁⟩
    rw [htop] at hrow hvalid'
    dsimp only at hrow
    split at hrow
    · cases hrow
      exact .inl ⟨_, rfl⟩
    · split at hrow
      · cases hrow
      · cases hparse : Header.parse c₁.buffer.unread with
        | error fault =>
          rw [takeRecord_error parse hparse] at hrow
          cases hrow
          exact .inr (.inl ⟨_, _, rfl⟩)
        | ok header =>
          obtain ⟨w₂, -, htake⟩ := takeRecord_ok parse (w := _) hvalid' hparse
          rw [htake] at hrow
          cases hdecode : header.decodeRow c₁.buffer.unread _ with
          | ok row =>
            rw [hdecode] at hrow
            cases hrow
          | error id =>
            rw [hdecode] at hrow
            cases hrow
            exact .inr (.inr ⟨_, rfl⟩)

variable {parse} in
/-- **The `verdict` that ends a course** is its last item, and the engine's or that of a record. -/
theorem Course.last_of_verdict {items : List (Item Row)} {failure : Failure}
    (h : Course parse session handle resolve room c feed items)
    (hoffers : Offers session handle resolve room feed w) (hverdict : verdict items = some failure) :
    items.getLast? = some (.error failure) ∧
      ((∃ status, failure = .engine status) ∨
        ∃ offset fault, failure = .corruptRecord offset fault) := by
  induction h generalizing w with
  | @item _ _ _ _ item items _ _ _ hitem htakes _ _ _ ih =>
    obtain ⟨w', -, hoffers'⟩ := htakes w hoffers
    have hrest : verdict items = some failure := by
      rcases item with failure' | row
      · obtain ⟨id, rfl⟩ := hitem failure' rfl
        exact hverdict
      · exact hverdict
    obtain ⟨hlast, hkind⟩ := ih hoffers' hrest
    refine ⟨?_, hkind⟩
    rw [List.getLast?_cons, hlast]
    rfl
  | nothing => cases hverdict
  | failed hlive _ hfailure htakes =>
    rw [(verdict_and_gained hfailure).1] at hverdict
    cases hverdict
    obtain ⟨w', hrow, -⟩ := htakes w hoffers
    obtain hengine | hcorrupt | ⟨id, hunresolved⟩ := failure_of_nextRow parse hlive.valid hoffers.panic hrow
    · exact ⟨rfl, .inl hengine⟩
    · exact ⟨rfl, .inr hcorrupt⟩
    · exact absurd hunresolved (hfailure id)

/-! ### Both ways -/

/-- Whether a `Live` cursor is `done`, if its feed has not failed. -/
theorem done_live (hlive : Live session handle c) (herror : feed.error = none)
    (hoffers : Offers session handle resolve room feed w) :
    ∃ w', w.Asked w' ∧ c.done (Memory.engine parse) w =
      (.ok (c.buffer.unread.isEmpty && feed.records.isEmpty), w') := by
  by_cases hunread : c.buffer.unread = []
  · have hdone := done_of_isExhausted parse hlive.handle_eq hoffers.panic
      (hlive.valid.isExhausted_iff.mpr hunread) hoffers.find_eq
    rw [herror] at hdone
    rw [hunread]
    exact ⟨_, .called w _, hdone⟩
  · refine ⟨w, .refl w, ?_⟩
    rw [done, World.check_of_no_panic hoffers.panic]
    dsimp only
    rw [isExhausted_eq_false hlive hunread, List.isEmpty_eq_false_iff.mpr hunread]
    rfl

/-- **A cursor over a feed comes to some items**, in whatever world the feed is offered: they are
what the loop `Pulls` and ends with, and `itemAt` gives them one by one. -/
def ComesTo (session handle : Handle) (resolve : SeriesId → Option String) (room : Nat → Nat)
    (c : Cursor) (feed : Feed) (items : List (Item Row)) : Prop :=
  ∀ w, Offers session handle resolve room feed w →
    Pulls (Memory.engine parse) c w (collected items) (verdict items) ∧
      ∀ call, itemAt (Memory.engine parse) call quietly c w = items[call]?

section ComesTo

variable {items : List (Item Row)} {item : Item Row} {failure : Failure}

/-- **An item** comes before the rest. -/
theorem ComesTo.cons (hlive : Live session handle c) (herror : feed.error = none)
    (hmore : (c.buffer.unread.isEmpty && feed.records.isEmpty) = false)
    (hitem : ∀ failure, item = .error failure → ∃ id, failure = .unresolvedSeries id)
    (htakes : Takes parse session handle resolve room c feed (item.map some) c' feed')
    (hrest : ComesTo parse session handle resolve room c' feed' items) :
    ComesTo parse session handle resolve room c feed (item :: items) := by
  intro w hoffers
  constructor
  · obtain ⟨w₁, hasked, hdone⟩ := done_live parse hlive herror hoffers
    rw [hmore] at hdone
    obtain ⟨w₂, hrow, hoffers'⟩ := htakes w₁ (hoffers.asked hasked)
    have hpulls := (hrest w₂ hoffers').1
    rcases item with failure | row
    · obtain ⟨id, rfl⟩ := hitem failure rfl
      exact .turn hdone hrow rfl hpulls
    · exact .turn hdone hrow rfl hpulls
  · obtain ⟨w', hrow, hoffers'⟩ := htakes w hoffers
    have hnext : c.next (Memory.engine parse) w = (some item, c', w') := by
      rcases item with failure | row
      · obtain ⟨id, rfl⟩ := hitem failure rfl
        exact next_of_unresolved hlive.ended_eq hrow
      · exact next_of_row hlive.ended_eq hrow
    intro call
    cases call with
    | zero => exact itemAt_zero hnext
    | succ call =>
      rw [itemAt_succ call hnext, quietly_shift, List.getElem?_cons_succ]
      exact (hrest w' hoffers').2 call

/-- **A failure for good** is the only item. -/
theorem ComesTo.failed (hlive : Live session handle c) (herror : feed.error = none)
    (hmore : (c.buffer.unread.isEmpty && feed.records.isEmpty) = false)
    (hfailure : ∀ id, failure ≠ .unresolvedSeries id)
    (htakes : Takes parse session handle resolve room c feed (.error failure) c' feed') :
    ComesTo parse session handle resolve room c feed [.error failure] := by
  intro w hoffers
  constructor
  · obtain ⟨w₁, hasked, hdone⟩ := done_live parse hlive herror hoffers
    rw [hmore] at hdone
    obtain ⟨w₂, hrow, -⟩ := htakes w₁ (hoffers.asked hasked)
    obtain ⟨hverdict, hgained⟩ := verdict_and_gained hfailure
    rw [hverdict]
    exact .failed hdone hrow hgained
  · obtain ⟨w', hrow, -⟩ := htakes w hoffers
    exact itemAt_of_last (next_of_failure hlive.ended_eq hrow hfailure) rfl

/-- **Nothing left**: there are no items, and the loop ends at once or after a turn in vain. -/
theorem ComesTo.nothing (hlive : Live session handle c) (herror : feed.error = none)
    (htakes : Takes parse session handle resolve room c feed (.ok none) c' {})
    (hlive' : Live session handle c') (hunread : c'.buffer.unread = []) :
    ComesTo parse session handle resolve room c feed [] := by
  have hdone' : ∀ {w}, Offers session handle resolve room {} w →
      ∃ w', c'.done (Memory.engine parse) w = (.ok true, w') := by
    intro w hoffers
    obtain ⟨w', -, hdone⟩ := done_live parse hlive' rfl hoffers
    rw [hunread] at hdone
    exact ⟨w', hdone⟩
  intro w hoffers
  constructor
  · obtain ⟨w₁, hasked, hdone⟩ := done_live parse hlive herror hoffers
    cases hmore : c.buffer.unread.isEmpty && feed.records.isEmpty with
    | true =>
      rw [hmore] at hdone
      exact .ended hdone
    | false =>
      -- records without bytes were left
      rw [hmore] at hdone
      obtain ⟨w₂, hrow, hoffers'⟩ := htakes w₁ (hoffers.asked hasked)
      obtain ⟨w₃, hend⟩ := hdone' hoffers'
      exact .turn hdone hrow rfl (.ended hend)
  · obtain ⟨w', hrow, hoffers'⟩ := htakes w hoffers
    obtain ⟨w'', hend⟩ := hdone' hoffers'
    exact itemAt_of_last (next_of_done hlive.ended_eq hrow hend) rfl

variable {parse} in
/-- A cursor `ComesTo` the items of its `Course`. -/
theorem Course.comesTo (h : Course parse session handle resolve room c feed items)
    (herror : feed.error = none) : ComesTo parse session handle resolve room c feed items := by
  induction h with
  | item hlive _ hmore hitem htakes herror' _ _ ih =>
    exact .cons parse hlive herror hmore hitem htakes (ih herror')
  | nothing hlive _ htakes hlive' hunread => exact .nothing parse hlive herror htakes hlive' hunread
  | failed hlive hmore hfailure htakes =>
    exact .failed parse hlive herror (hmore herror) hfailure htakes

/-- **Every cursor `ComesTo` an end**, over any feed that has not failed, after no more items than
its `size` has room for. -/
theorem exists_comesTo (hroom : ∀ capacity, room capacity ≤ capacity)
    (hlive : Live session handle c) (herror : feed.error = none) :
    ∃ items : List (Item Row), items.length ≤ size c feed + 1 ∧
      ComesTo parse session handle resolve room c feed items := by
  obtain ⟨items, hcourse⟩ := exists_course parse hroom hlive herror
  exact ⟨items, hcourse.length_le, hcourse.comesTo herror⟩

end ComesTo

/-- **Both ways agree** on a fresh cursor, if its query has not failed: the loop comes to an end,
and `Pulls` and ends with what `items` amount to. -/
theorem pulls_iff_items (hlive : Live session handle c) (hunread : c.buffer.unread = [])
    (hpanic : w.channel.panic = none) (hfeed : w.engine.cursors.find? handle = some feed)
    (herror : feed.error = none) (rows : List Row) (outcome : Option Failure) :
    Pulls (Memory.engine parse) c w rows outcome ↔
      rows = collected (c.items (Memory.engine parse) w).1 ∧
        outcome = verdict (c.items (Memory.engine parse) w).1 := by
  obtain ⟨items, hlength, hcomes⟩ :=
    exists_comesTo parse (Memory.room_le w.engine) hlive herror
  obtain ⟨hpulls, hitemAt⟩ := hcomes w ⟨hpanic, rfl, rfl, hfeed⟩
  have hbudget : items.length ≤ c.budget (Memory.engine parse) w := by
    have hpatience : feed.records.length ≤ (Memory.engine parse).patience w :=
      Memory.length_le_patience hfeed
    have hrecords := Nat.mul_le_mul (Nat.le_succ_of_le hpatience) (Nat.le_succ c.buffer.capacity)
    rw [size, hunread, List.length_nil, Nat.zero_add] at hlength
    exact Nat.le_trans hlength (Nat.succ_le_succ hrecords)
  rw [(items_eq hitemAt hbudget).1]
  constructor
  · exact fun hpulls' => hpulls.unique hpulls'
  · rintro ⟨rfl, rfl⟩
    exact hpulls

/-- **They disagree if the query has failed**: the cursor is `done` then, so that the loop ends
without having asked for a row, and only `items` have the failure. -/
theorem pulls_iff_of_failed {status : Status} (hlive : Live session handle c)
    (hunread : c.buffer.unread = []) (hpanic : w.channel.panic = none)
    (hfeed : w.engine.cursors.find? handle = some { error := some status }) (rows : List Row)
    (outcome : Option Failure) :
    (Pulls (Memory.engine parse) c w rows outcome ↔ rows = [] ∧ outcome = none) ∧
      (c.items (Memory.engine parse) w).1 = [.error (.engine status)] := by
  have hdone := done_of_isExhausted parse hlive.handle_eq hpanic
    (hlive.valid.isExhausted_iff.mpr hunread) hfeed
  have hends : Pulls (Memory.engine parse) c w [] none := .ended hdone
  refine ⟨⟨fun hpulls => hends.unique hpulls, ?_⟩,
    (items_of_failed parse hlive hunread hpanic hfeed).2⟩
  rintro ⟨rfl, rfl⟩
  exact hends

end TimeSeries.Cursor
