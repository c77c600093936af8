import TimeSeries.Proofs.Cursor.Step

/-!
# Iteration: call after call

A caller takes items one call at a time, and between two calls the world goes its own
way: others write, query and close, and limits and names change. `Cursor.before` is the
state just before a call of a given number in such an iteration and `Cursor.itemAt` the
item that call gives. Without anything happening in between, `Cursor.items` is the list
of the items up to the first call that gives none (`Cursor.items_eq`).
-/

namespace TimeSeries.Cursor

variable {σ : Type} (E : Engine σ)

/-- **After some calls**: the cursor and the world that a number of calls leave.
`between k` is what happens to the world before call `k`, counted from zero. -/
def after : (calls : Nat) → (between : Nat → World σ → World σ) → Cursor → World σ →
    Cursor × World σ
  | 0, _, c, w => (c, w)
  | calls + 1, between, c, w =>
    let (_, c, w) := c.next E (between 0 w)
    after calls (fun k => between (k + 1)) c w

/-- **Before a call**: the cursor and the world just before it, when what happens in
between has happened. -/
def before (call : Nat) (between : Nat → World σ → World σ) (c : Cursor) (w : World σ) :
    Cursor × World σ :=
  let (c, w) := after E call between c w
  (c, between call w)

/-- **The item of a call** of `next`. -/
def itemAt (call : Nat) (between : Nat → World σ → World σ) (c : Cursor) (w : World σ) :
    Option (Item Row) :=
  let (c, w) := before E call between c w
  (c.next E w).1

/-- Nothing happens between calls. -/
def quietly : Nat → World σ → World σ := fun _ w => w

theorem quietly_shift : (fun k => quietly (k + 1)) = (quietly : Nat → World σ → World σ) := rfl

variable {E} {between : Nat → World σ → World σ} {c c' : Cursor} {w w' : World σ}
  {item : Option (Item Row)}

theorem after_succ (calls : Nat) (h : c.next E (between 0 w) = (item, c', w')) :
    after E (calls + 1) between c w = after E calls (fun k => between (k + 1)) c' w' := by
  rw [after, h]

theorem before_succ (call : Nat) (h : c.next E (between 0 w) = (item, c', w')) :
    before E (call + 1) between c w = before E call (fun k => between (k + 1)) c' w' := by
  rw [before, before, after_succ call h]

theorem itemAt_zero (h : c.next E (between 0 w) = (item, c', w')) :
    itemAt E 0 between c w = item := congrArg Prod.fst h

/-- After one call the rest of the iteration goes on from where it left off. -/
theorem itemAt_succ (call : Nat) (h : c.next E (between 0 w) = (item, c', w')) :
    itemAt E (call + 1) between c w = itemAt E call (fun k => between (k + 1)) c' w' := by
  rw [itemAt, itemAt, before_succ call h]

/-- A cursor that has `ended` gives nothing, whatever happens in between. -/
theorem itemAt_of_ended (h : c.ended = true) (call : Nat) : itemAt E call between c w = none := by
  induction call generalizing between w with
  | zero => exact itemAt_zero (next_of_ended h _)
  | succ call ih => rw [itemAt_succ call (next_of_ended h _), ih]

/-- A call that ends the result gives the last item, if there is one. -/
theorem itemAt_of_last {last : Option (Item Row)} (hnext : c.next E w = (last, c', w'))
    (hended : c'.ended = true) (call : Nat) : itemAt E call quietly c w = last.toList[call]? := by
  cases call with
  | zero =>
    rw [itemAt_zero hnext]
    cases last <;> rfl
  | succ call =>
    rw [itemAt_succ call hnext, itemAt_of_ended hended]
    cases last <;> rfl

/-- If nothing happens in between, a cursor that has `ended` changes nothing. -/
theorem after_of_ended (h : c.ended = true) (calls : Nat) : after E calls quietly c w = (c, w) := by
  induction calls with
  | zero => rfl
  | succ calls ih =>
    rw [after_succ calls (next_of_ended h _), quietly_shift]
    exact ih

/-- A call of `next` without an item is the end. -/
theorem ended_of_next_eq_none (h : (c.next E w).1 = none) : (c.next E w).2.1.ended = true := by
  have hwithin : ∀ (fuel : Nat) (c : Cursor) (w : World σ),
      (nextWithin E fuel c w).1 = none → (nextWithin E fuel c w).2.1.ended = true := by
    intro fuel
    induction fuel with
    | zero => intro c w _; rfl
    | succ fuel ih =>
      intro c w hnone
      rw [nextWithin] at hnone ⊢
      rcases hrow : c.nextRow E w with ⟨result, c', w'⟩
      rw [hrow] at hnone
      rcases result with failure | _ | row
      · cases failure <;> cases hnone
      · dsimp only at hnone ⊢
        rcases hdone : c'.done E w' with ⟨failure | _ | _, w''⟩
        · rw [hdone] at hnone
          cases hnone
        · rw [hdone] at hnone
          exact ih c' w'' hnone
        · rfl
      · cases hnone
  rw [next] at h ⊢
  split at h
  next hended => rw [if_pos hended]; exact hended
  next hended => rw [if_neg hended]; exact hwithin _ c w h

/-- **All items**: if the calls give the members of a list in order and then nothing, and
the list is within the budget, then it is what `items` gives, and the cursor is at its
end. -/
theorem items_eq {items : List (Item Row)} (h : ∀ call, itemAt E call quietly c w = items[call]?)
    (hbudget : items.length ≤ c.budget E w) :
    (c.items E w).1 = items ∧ (c.items E w).2.1.ended = true := by
  have hwithin : ∀ (fuel : Nat) (items : List (Item Row)) (c : Cursor) (w : World σ),
      (∀ call, itemAt E call quietly c w = items[call]?) → items.length < fuel →
      (itemsWithin E fuel c w).1 = items ∧ (itemsWithin E fuel c w).2.1.ended = true := by
    intro fuel
    induction fuel with
    | zero => intro items c w _ hfuel; exact absurd hfuel (Nat.not_lt_zero _)
    | succ fuel ih =>
      intro items c w h hfuel
      rcases hnext : c.next E w with ⟨item, c', w'⟩
      have hzero := h 0
      rw [itemAt_zero hnext] at hzero
      rw [itemsWithin, hnext]
      cases items with
      | nil =>
        obtain rfl : item = none := hzero
        have hended := ended_of_next_eq_none (E := E) (c := c) (w := w) (by rw [hnext])
        rw [hnext] at hended
        exact ⟨rfl, hended⟩
      | cons first rest =>
        obtain rfl : item = some first := hzero
        have hrest : ∀ call, itemAt E call quietly c' w' = rest[call]? := by
          intro call
          rw [← List.getElem?_cons_succ (a := first), ← h (call + 1), itemAt_succ call hnext,
            quietly_shift]
        obtain ⟨hitems, hended⟩ := ih rest c' w' hrest (Nat.lt_of_succ_lt_succ hfuel)
        exact ⟨congrArg (first :: ·) hitems, hended⟩
  exact hwithin _ items c w h (Nat.lt_succ_of_le hbudget)

end TimeSeries.Cursor
