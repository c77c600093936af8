import Mathlib.Algebra.Order.BigOperators.Group.List
import Mathlib.Algebra.Order.Group.Nat
import TimeSeries.Proofs.Cursor.Frame
import TimeSeries.Proofs.Cursor.Stream

/-!
# Reading a result at one go

If nothing happens between the calls, names and limits stay as they are, so a reader is
starved just of a record that the limit leaves no room for, and the whole result is known at
its beginning: `Cursor.Streaming.items_rationed` for records, all of which are read where there
is room for them (`Cursor.rationed_of_room`), and `Cursor.items_of_failed` for a query that failed.
-/

namespace TimeSeries

/-- A feed is within the `patience` of its engine. -/
theorem Memory.length_le_patience {w : World Memory} {handle : Handle} {feed : Feed}
    (h : w.engine.cursors.find? handle = some feed) : feed.records.length ≤ patience w := by
  have hmem : feed.records.length ∈ w.engine.cursors.values.map fun f => f.records.length :=
    List.mem_map_of_mem (Table.mem_values_of_find? h)
  have hsum : feed.records.length ≤
      (w.engine.cursors.values.map fun f => f.records.length).foldr (· + ·) 0 :=
    List.single_le_sum (fun n _ => Nat.zero_le n) _ hmem
  rw [patience]
  omega

namespace Cursor

variable (parse : String → Option Json) {session handle : Handle} {c : Cursor} {w : World Memory}
  {records : List Bytes}

/-! ### Rations -/

/-- **Rations** under a limit on deliveries: every record is read alone, up to the first for which
the limit leaves no room. That one is reported in its place, and then there is nothing. -/
def rationed (limit? : Option Nat) (read : Bytes → Item Row) : List Bytes → List (Item Row)
  | [] => []
  | record :: records =>
    if ∀ limit ∈ limit?, record.length ≤ limit then read record :: rationed limit? read records
    else [.error (.engine .overflow)]

variable {limit? : Option Nat} {read : Bytes → Item Row}

theorem length_rationed_le (records : List Bytes) :
    (rationed limit? read records).length ≤ records.length := by
  induction records with
  | nil => exact Nat.le_refl 0
  | cons record records ih =>
    rw [rationed]
    split
    · exact Nat.succ_le_succ ih
    · exact Nat.succ_le_succ (Nat.zero_le _)

/-- Without a record that is too long all of them are read. -/
theorem rationed_of_room (hroom : ∀ limit ∈ limit?, ∀ record ∈ records, record.length ≤ limit) :
    rationed limit? read records = records.map read := by
  induction records with
  | nil => rfl
  | cons record records ih =>
    have hfirst : ∀ limit ∈ limit?, record.length ≤ limit :=
      fun limit hlimit => hroom limit hlimit record List.mem_cons_self
    rw [rationed, if_pos hfirst, List.map_cons,
      ih fun limit hlimit r hr => hroom limit hlimit r (List.mem_cons_of_mem _ hr)]

/-- A reader whose buffer holds no more than the limit allows is `Starved` of a record that the
limit leaves no room for, once it comes to it. -/
theorem Streaming.starved {record : Bytes} (h : Streaming session handle c w (record :: records))
    (hheld : ∀ limit ∈ w.engine.chunkLimit, c.buffer.unread.length ≤ limit)
    (hroom : ¬∀ limit ∈ w.engine.chunkLimit, record.length ≤ limit) : Starved c w record := by
  obtain ⟨limit, hlimit, hlong⟩ : ∃ limit ∈ w.engine.chunkLimit, ¬record.length ≤ limit := by
    by_contra hnone
    exact hroom fun limit hlimit => by_contra fun hlong => hnone ⟨limit, hlimit, hlong⟩
  refine ⟨h.live.valid.isExhausted_iff.mpr ?_, limit, hlimit, Nat.lt_of_not_le hlong⟩
  obtain ⟨buffered, queued, hsplit, hunread, -⟩ := h.split
  cases buffered with
  | nil => exact hunread
  | cons first buffered =>
    -- the record would be in the buffer, but the buffer does not hold that much
    rw [List.cons_append, List.cons.injEq] at hsplit
    obtain ⟨rfl, -⟩ := hsplit
    have hmuch := hheld limit hlimit
    rw [hunread, List.flatten_cons, List.length_append] at hmuch
    omega

/-- **Undisturbed reading deals out what is `rationed`** from a buffer that holds no more than the
limit allows. -/
theorem Streaming.itemAt_rationed (h : Streaming session handle c w records)
    (hheld : ∀ limit ∈ w.engine.chunkLimit, c.buffer.unread.length ≤ limit) (call : Nat) :
    itemAt (Memory.engine parse) call quietly c w =
      (rationed w.engine.chunkLimit (readAlone (w.engine.idToSeries session)) records)[call]? := by
  induction records generalizing c w call with
  | nil =>
    obtain ⟨c', w', hended, hnext⟩ := next_nil parse h
    rw [itemAt_of_last hnext hended]
    rfl
  | cons record records ih =>
    rw [rationed]
    split
    next hroom =>
      have hfed : ¬Starved c w record := by
        rintro ⟨-, limit, hlimit, hlong⟩
        exact Nat.not_le.mpr hlong (hroom limit hlimit)
      obtain ⟨c', w', hnext, hrest, hheld'⟩ := next_cons parse h hfed
      have hobserved := (moves_next (Memory.engine parse) c w).observed
      rw [hnext] at hobserved
      have hlimit := hobserved.chunkLimit
      have hnames := hobserved.idToSeries
      cases call with
      | zero => exact itemAt_zero hnext
      | succ call =>
        rw [itemAt_succ call hnext, quietly_shift, List.getElem?_cons_succ, ← hlimit, ← hnames]
        refine ih hrest (fun limit hmem => ?_) call
        dsimp only at hlimit
        rw [hlimit] at hmem
        exact hheld' limit hmem (hheld limit hmem)
    next hroom =>
      obtain ⟨c', w', hended, hnext⟩ := next_starved parse h (h.starved hheld hroom)
      rw [itemAt_of_last hnext hended]
      rfl

/-- **All `items` at one go** are the rations of what is in the feed. -/
theorem Streaming.items_rationed (h : Streaming session handle c w records)
    (hunread : c.buffer.unread = [])
    (hfeed : w.engine.cursors.find? handle = some { records }) :
    (∀ call, itemAt (Memory.engine parse) call quietly c w =
      (rationed w.engine.chunkLimit (readAlone (w.engine.idToSeries session)) records)[call]?) ∧
    (c.items (Memory.engine parse) w).1 =
      rationed w.engine.chunkLimit (readAlone (w.engine.idToSeries session)) records := by
  have hitems := h.itemAt_rationed parse fun limit _ => by
    rw [hunread]
    exact Nat.zero_le limit
  refine ⟨hitems, (Cursor.items_eq hitems ?_).1⟩
  have hpatience : records.length ≤ (Memory.engine parse).patience w :=
    Memory.length_le_patience hfeed
  have hbudget : (Memory.engine parse).patience w + 1 ≤
      ((Memory.engine parse).patience w + 1) * (c.buffer.capacity + 1) :=
    Nat.le_mul_of_pos_right _ (Nat.succ_pos _)
  have hlength : (rationed w.engine.chunkLimit (readAlone (w.engine.idToSeries session))
    records).length ≤ records.length := length_rationed_le records
  rw [budget]
  omega

/-- **A query that failed** gives its failure and nothing else, by `itemAt` and by `items`. -/
theorem items_of_failed {status : Status} (hlive : Live session handle c)
    (hunread : c.buffer.unread = []) (hpanic : w.channel.panic = none)
    (hfeed : w.engine.cursors.find? handle = some { error := some status }) :
    (∀ call, itemAt (Memory.engine parse) call quietly c w =
      ([.error (.engine status)] : List (Item Row))[call]?) ∧
    (c.items (Memory.engine parse) w).1 = [.error (.engine status)] := by
  have hitems : ∀ call, itemAt (Memory.engine parse) call quietly c w =
      ([.error (.engine status)] : List (Item Row))[call]? := by
    obtain ⟨c', w', hended, hnext⟩ := next_failed parse hlive hpanic hunread hfeed rfl rfl
    exact itemAt_of_last hnext hended
  refine ⟨hitems, (Cursor.items_eq hitems ?_).1⟩
  rw [List.length_singleton, budget]
  omega

end Cursor

end TimeSeries
