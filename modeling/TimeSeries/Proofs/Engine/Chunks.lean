import TimeSeries.Proofs.Cursor.Absorbing
import TimeSeries.Proofs.Cursor.Buffer

/-!
# Chunks that a cursor hands out

A cursor hands out its records in chunks, one for each read, and a read has the room of its buffer
or of the limit that is in force, whichever is less. What a single read does is `Feed.HandsOut`: it
takes whole records off the front, the longest run that fits, and a feed that hands out nothing
while it has records left overflows.

Between the reads anything may be asked of the engine and anything may happen to it, but for closing
the cursor or failing it (`Act.LeavesOpen`): the feed is left alone (`Memory.feed_act`). So along a
run the chunks, one after another, are the records that were taken off (`Memory.taken_of_acts`), and
once a feed has failed nothing is handed out any more. Main result: `Memory.chunks_of_acts`.
-/

namespace TimeSeries

/-! ### One read -/

/-- **A read hands out records**: it takes them off a feed, given some room. -/
structure Feed.HandsOut (feed : Feed) (room : Nat) (taken : List Bytes) (feed' : Feed) : Prop where
  /-- the records are taken off the front, in order -/
  records_eq : feed.records = taken ++ feed'.records
  /-- they fit -/
  fits : taken.flatten.length ≤ room
  /-- no longer run of records from the front of a healthy feed fits -/
  longest : feed.error = none →
    ∀ run, run <+: feed.records → (run.flatten.length ≤ room ↔ run <+: taken)
  /-- a healthy feed overflows just if it gives no bytes and has records left -/
  overflows : feed.error = none →
    feed'.error = if taken.flatten = [] ∧ feed'.records ≠ [] then some .overflow else none
  /-- a feed that failed gives nothing and stays as it is -/
  failed : feed.error.isSome → taken = [] ∧ feed' = feed

namespace Memory

/-- A run of records from the front fits just if no record is in it that did not. -/
theorem fits_iff_isPrefix {room : Nat} {taken left run : List Bytes}
    (hfits : taken.flatten.length ≤ room)
    (hnext : ∀ r ∈ left.head?, room < taken.flatten.length + r.length)
    (hrun : run <+: taken ++ left) : run.flatten.length ≤ room ↔ run <+: taken := by
  constructor
  · intro hroom
    rcases List.prefix_or_prefix_of_prefix hrun (List.prefix_append taken left) with
      hshort | ⟨more, rfl⟩
    · exact hshort
    · cases more with
      | nil => simp
      | cons record more =>
        -- the run goes on to the next record, and that one did not fit
        obtain ⟨rest, rfl⟩ := (List.prefix_append_right_inj taken).mp hrun
        have hlonger := hnext record rfl
        rw [List.flatten_append, List.flatten_cons, List.length_append, List.length_append] at hroom
        omega
  · rintro ⟨more, rfl⟩
    rw [List.flatten_append, List.length_append] at hfits
    omega

/-- **What `Feed.read` does**: the bytes are those of the records that it `HandsOut`. -/
theorem handsOut_read (feed : Feed) (room : Nat) :
    ∃ taken, feed.HandsOut room taken (Feed.read feed room).2 ∧
      (Feed.read feed room).1 = taken.flatten := by
  cases herror : feed.error with
  | some status =>
    have hfailed : feed.error.isSome := by rw [herror]; rfl
    have hhealthy : feed.error ≠ none := Option.isSome_iff_ne_none.mp hfailed
    rw [Feed.read_of_failed hfailed]
    exact ⟨[], ⟨rfl, Nat.zero_le room, fun h => absurd h hhealthy, fun h => absurd h hhealthy,
      fun _ => ⟨rfl, rfl⟩⟩, rfl⟩
  | none =>
    obtain ⟨taken, hsplit, hbytes, hroom, hnext⟩ := takeWhole_spec room feed.records
    refine ⟨taken, ?_, ?_⟩
    · simp only [Feed.read, herror]
      refine ⟨hsplit, hroom, fun _ run hrun => ?_, fun _ => ?_, fun hfailed => ?_⟩
      · rw [hsplit] at hrun
        exact fits_iff_isPrefix hroom hnext hrun
      · simp [hbytes]
      · rw [herror] at hfailed
        cases hfailed
    · simp only [Feed.read, herror]
      exact hbytes

/-- What fits into the `room` of a read is within its buffer and within the limit in force. -/
theorem le_room_iff {m : Memory} {capacity n : Nat} :
    n ≤ m.room capacity ↔ n ≤ capacity ∧ ∀ limit ∈ m.chunkLimit, n ≤ limit := by
  rw [room]
  cases m.chunkLimit with
  | none => simp
  | some limit =>
    dsimp only
    rw [Nat.le_min, and_comm]
    simp

/-! ### Acts between reads -/

variable (parse : String → Option Json) {w : World Memory} {cursor : Handle} {feed : Feed}

/-- **An `Act` that leaves a cursor open**: it neither closes it nor fails it. -/
def Act.LeavesOpen (cursor : Handle) : Act → Prop
  | .call (.cursorClose other) => other ≠ cursor
  | .disturb (.failCursors _) => False
  | _ => True

/-- What an `Act` delivers from a cursor, if it reads from it. -/
def delivery? (cursor : Handle) (w : World Memory) : Act → Option Delivery
  | .call (.cursorRead other capacity) =>
    if other = cursor then some ((engine parse).ask (.cursorRead other capacity) w).1 else none
  | _ => none

/-- **Deliveries** from a cursor along some acts, in order, each by `delivery?`. -/
def deliveries (cursor : Handle) : World Memory → List Act → List Delivery
  | _, [] => []
  | w, a :: as => (delivery? parse cursor w a).toList ++ deliveries cursor (act parse w a) as

/-- A `Delivery` of whole records. -/
def deliveryOf (taken : List Bytes) : Delivery := ⟨taken.flatten, taken.flatten.length⟩

/-- **A `cursorRead`** delivers the records that its feed `HandsOut`. -/
theorem read_of_feed (hfeed : w.engine.cursors.find? cursor = some feed) (capacity : Nat) :
    ∃ taken feed', feed.HandsOut (w.engine.room capacity) taken feed' ∧
      ((engine parse).ask (.cursorRead cursor capacity) w).1 = deliveryOf taken ∧
      ((engine parse).ask (.cursorRead cursor capacity) w).2.engine.cursors.find? cursor =
        some feed' := by
  obtain ⟨taken, hread, hbytes⟩ := handsOut_read feed (w.engine.room capacity)
  refine ⟨taken, _, hread, ?_, ?_⟩
  · rw [ask_cursorRead, onEngine, cursorRead, hfeed]
    dsimp only
    rw [hbytes, deliveryOf]
  · rw [ask_cursorRead, onEngine, cursorRead, hfeed]
    exact Table.find?_put_self _ _ _

/-- **What an `Act` does to a feed** that it leaves open: it reads from it, or leaves it alone. -/
theorem feed_act (hgiven : cursor ≤ w.engine.lastHandle)
    (hfeed : w.engine.cursors.find? cursor = some feed) {a : Act} (hopen : a.LeavesOpen cursor) :
    (delivery? parse cursor w a = none ∧
        (act parse w a).engine.cursors.find? cursor = some feed) ∨
      ∃ room taken feed', feed.HandsOut room taken feed' ∧
        delivery? parse cursor w a = some (deliveryOf taken) ∧
        (act parse w a).engine.cursors.find? cursor = some feed' := by
  cases a with
  | files t => exact .inl ⟨rfl, hfeed⟩
  | disturb d =>
    refine .inl ⟨rfl, ?_⟩
    cases d with
    | failCursors status => exact hopen.elim
    | _ => exact hfeed
  | call c =>
    by_cases htouches : c.Touches cursor
    · cases c with
      | cursorRead other capacity =>
        obtain rfl : other = cursor := htouches
        obtain ⟨taken, feed', hread, hdelivery, hfeed'⟩ := read_of_feed parse hfeed capacity
        exact .inr ⟨_, taken, feed', hread, (if_pos rfl).trans (congrArg some hdelivery), hfeed'⟩
      | cursorClose other => exact absurd htouches hopen
      | _ => exact htouches.elim
    · refine .inl ⟨?_, (feed_ask parse hgiven htouches).trans hfeed⟩
      cases c with
      | cursorRead other capacity => exact if_neg htouches
      | _ => rfl

theorem lastHandle_le_act (w : World Memory) (a : Act) :
    w.engine.lastHandle ≤ (act parse w a).engine.lastHandle := by
  cases a with
  | call c => exact (framed_ask parse c w).lastHandle_le
  | disturb d => exact Nat.le_of_eq (lastHandle_disturb w d).symm
  | files t => exact Nat.le_refl _

theorem lastHandle_le_acts (w : World Memory) (as : List Act) :
    w.engine.lastHandle ≤ (acts parse w as).engine.lastHandle := by
  induction as generalizing w with
  | nil => exact Nat.le_refl _
  | cons a as ih => exact Nat.le_trans (lastHandle_le_act parse w a) (ih (act parse w a))

/-! ### Runs -/

/-- **The chunks of a run**, one after another, are the records that were taken off the feed. -/
theorem taken_of_acts (hgiven : cursor ≤ w.engine.lastHandle)
    (hfeed : w.engine.cursors.find? cursor = some feed) {as : List Act}
    (hopen : ∀ a ∈ as, a.LeavesOpen cursor) :
    ∃ taken feed', (acts parse w as).engine.cursors.find? cursor = some feed' ∧
      feed.records = taken ++ feed'.records ∧
      ((deliveries parse cursor w as).map Delivery.bytes).flatten = taken.flatten := by
  induction as generalizing w feed with
  | nil => exact ⟨[], feed, hfeed, rfl, rfl⟩
  | cons a as ih =>
    obtain ⟨ha, has⟩ := List.forall_mem_cons.mp hopen
    have hgiven' := Nat.le_trans hgiven (lastHandle_le_act parse w a)
    obtain ⟨hnothing, hsame⟩ | ⟨room, first, feed₁, hread, hdelivery, hfeed₁⟩ :=
      feed_act parse hgiven hfeed ha
    · obtain ⟨taken, feed', hfeed', hsplit, hchunks⟩ := ih hgiven' hsame has
      refine ⟨taken, feed', hfeed', hsplit, ?_⟩
      rw [deliveries, hnothing]
      exact hchunks
    · obtain ⟨taken, feed', hfeed', hsplit, hchunks⟩ := ih hgiven' hfeed₁ has
      refine ⟨first ++ taken, feed', hfeed', ?_, ?_⟩
      · rw [hread.records_eq, hsplit, List.append_assoc]
      · rw [deliveries, hdelivery, List.flatten_append, ← hchunks]
        rfl

/-- **A feed that failed** stays as it is, and nothing is delivered from it. -/
theorem failed_of_acts (hgiven : cursor ≤ w.engine.lastHandle)
    (hfeed : w.engine.cursors.find? cursor = some feed) (hfailed : feed.error.isSome)
    {as : List Act} (hopen : ∀ a ∈ as, a.LeavesOpen cursor) :
    (acts parse w as).engine.cursors.find? cursor = some feed ∧
      ∀ d ∈ deliveries parse cursor w as, d = deliveryOf [] := by
  induction as generalizing w with
  | nil => exact ⟨hfeed, fun d hd => by cases hd⟩
  | cons a as ih =>
    obtain ⟨ha, has⟩ := List.forall_mem_cons.mp hopen
    have hgiven' := Nat.le_trans hgiven (lastHandle_le_act parse w a)
    obtain ⟨hnothing, hsame⟩ | ⟨room, taken, feed', hread, hdelivery, hfeed'⟩ :=
      feed_act parse hgiven hfeed ha
    · rw [deliveries, hnothing]
      exact ih hgiven' hsame has
    · obtain ⟨rfl, rfl⟩ := hread.failed hfailed
      obtain ⟨hkept, hempty⟩ := ih hgiven' hfeed' has
      refine ⟨hkept, ?_⟩
      rw [deliveries, hdelivery]
      exact List.forall_mem_cons.mpr ⟨rfl, hempty⟩

/-- A buffer that by `refill` takes a delivery that fits keeps the bytes beyond it. -/
theorem data_refill_deliveryOf {b : ReadBuffer} {taken : List Bytes}
    (hfits : taken.flatten.length ≤ b.capacity) :
    (b.refill (deliveryOf taken)).data = taken.flatten ++ b.data.drop taken.flatten.length := by
  rw [ReadBuffer.refill, deliveryOf, List.take_of_length_le hfits]

/-- **Whole records only.** Take any cursor that was given out and a run of acts, be they reads of
it with whatever buffers under whatever limits or anything else that does not close or fail it. The
chunks delivered in the run, one after another, are the records that are gone from the feed. The
next read, whatever the size of its buffer, delivers the records that the feed hands out in the room
there is, and leaves the rest of the buffer alone; an act that is no read of the cursor leaves the
feed alone. Once the feed has failed, by overflowing or otherwise, every read to come delivers
nothing and the feed stays as it is. -/
theorem chunks_of_acts (hgiven : cursor ≤ w.engine.lastHandle)
    (hfeed : w.engine.cursors.find? cursor = some feed) {as : List Act}
    (hopen : ∀ a ∈ as, a.LeavesOpen cursor) :
    let w' := acts parse w as
    ∃ gone feed', w'.engine.cursors.find? cursor = some feed' ∧
      feed.records = gone ++ feed'.records ∧
      ((deliveries parse cursor w as).map Delivery.bytes).flatten = gone.flatten ∧
      (∀ capacity,
        let reply := (engine parse).ask (.cursorRead cursor capacity) w'
        ∃ taken feed'', feed'.HandsOut (w'.engine.room capacity) taken feed'' ∧
          reply.2.engine.cursors.find? cursor = some feed'' ∧
          reply.1.bytes = taken.flatten ∧ reply.1.count = taken.flatten.length ∧
          reply.1.count ≤ capacity ∧ (∀ limit ∈ w'.engine.chunkLimit, reply.1.count ≤ limit) ∧
          ∀ b : ReadBuffer, b.capacity = capacity →
            (b.refill reply.1).data = reply.1.bytes ++ b.data.drop reply.1.count) ∧
      (∀ a : Act, a.LeavesOpen cursor → delivery? parse cursor w' a = none →
        (act parse w' a).engine.cursors.find? cursor = some feed') ∧
      (feed'.error.isSome → ∀ later : List Act, (∀ a ∈ later, a.LeavesOpen cursor) →
        (acts parse w' later).engine.cursors.find? cursor = some feed' ∧
          ∀ d ∈ deliveries parse cursor w' later, d.count = 0) := by
  intro w'
  have hgiven' := Nat.le_trans hgiven (lastHandle_le_acts parse w as)
  obtain ⟨gone, feed', hfeed', hsplit, hchunks⟩ := taken_of_acts parse hgiven hfeed hopen
  refine ⟨gone, feed', hfeed', hsplit, hchunks, fun capacity => ?_, fun a ha hnone => ?_,
    fun hfailed later hlater => ?_⟩
  · obtain ⟨taken, feed'', hread, hdelivery, hfeed''⟩ := read_of_feed parse hfeed' capacity
    obtain ⟨hcapacity, hlimit⟩ := le_room_iff.mp hread.fits
    intro reply
    have hreply : reply.1 = deliveryOf taken := hdelivery
    refine ⟨taken, feed'', hread, hfeed'', ?_⟩
    rw [hreply]
    refine ⟨rfl, rfl, hcapacity, hlimit, ?_⟩
    rintro b rfl
    exact data_refill_deliveryOf hcapacity
  · obtain ⟨-, hsame⟩ | ⟨room, taken, feed'', -, hdelivery, -⟩ := feed_act parse hgiven' hfeed' ha
    · exact hsame
    · cases hnone.symm.trans hdelivery
  · obtain ⟨hkept, hempty⟩ := failed_of_acts parse hgiven' hfeed' hfailed hlater
    refine ⟨hkept, fun d hd => ?_⟩
    rw [hempty d hd]
    rfl

/-- Two reads of a feed with empty records among its records, under a limit: the first takes all but
the last record, which does not fit, so that the second overflows and, though the limit is gone
then, a third gives nothing. -/
theorem chunks_of_acts_overflow :
    let w : World Memory :=
      { engine := { lastHandle := 1, cursors := ⟨[(1, { records := [[], [1, 2], [], [3, 4, 5]] })]⟩ }
        files := {} }
    let as : List Act := [.disturb (.chunkLimit (some 2)), .call (.cursorRead 1 8),
      .call (.cursorRead 1 8), .disturb (.chunkLimit none)]
    let w' := acts (fun _ => none) w as
    w'.engine.cursors.find? 1 = some ⟨[[3, 4, 5]], some .overflow⟩ ∧
      ((deliveries (fun _ => none) 1 w as).map Delivery.bytes).flatten = [1, 2] ∧
      ((engine fun _ => none).ask (.cursorRead 1 8) w').1.count = 0 := by
  intro w as w'
  have hopen : ∀ a ∈ as, a.LeavesOpen 1 := by
    simp only [as, List.forall_mem_cons]
    exact ⟨trivial, trivial, trivial, trivial, fun _ h => by cases h⟩
  obtain ⟨gone, feed', hfeed', hsplit, hchunks, -, -, hfailed⟩ :=
    chunks_of_acts (fun _ => none) (Nat.le_refl 1) (w := w) rfl hopen
  obtain rfl : feed' = ⟨[[3, 4, 5]], some .overflow⟩ := Option.some.inj (hfeed'.symm.trans rfl)
  have hgone : gone = [[], [1, 2], []] := List.append_cancel_right hsplit.symm
  rw [hgone] at hchunks
  obtain ⟨-, hempty⟩ := hfailed rfl [.call (.cursorRead 1 8)]
    (List.forall_mem_cons.mpr ⟨trivial, fun _ h => by cases h⟩)
  exact ⟨hfeed', hchunks, hempty _ List.mem_cons_self⟩

end Memory

end TimeSeries
