import TimeSeries.Cursor.Rows

/-!
# Draining by a loop

Whatever gives values one at a time can be drained by a loop: as long as it is not done, it is
asked for a value, and there may be none for now. The rows of a cursor are drained in that way
(`Cursor.done`, `Cursor.nextRow`), and so are the names of a cursor over names (`NameCursor.done`,
`NameCursor.nextName`), whose question differs. `Drains` is the loop for any such question and any
such read, and it comes to one end only (`Drains.unique`). What it should come to is read off the
items that an iterator gives: their values (`collected`) and the failure for good (`verdict`).
-/

namespace TimeSeries

variable {ρ σ α : Type}

/-- What one `read` adds, unless the loop ends with it. A series without a name adds nothing. -/
def gained : Except Failure (Option α) → Option (List α)
  | .ok value => some value.toList
  | .error (.unresolvedSeries _) => some []
  | .error _ => none

/-- The values among some items. -/
def collected (items : List (Item α)) : List α := items.filterMap Except.toOption

theorem collected_append (items more : List (Item α)) :
    collected (items ++ more) = collected items ++ collected more := List.filterMap_append

/-- **The failure for good** among some items, if there is one: any but `unresolvedSeries`. -/
def verdict : List (Item α) → Option Failure
  | [] => none
  | .error (.unresolvedSeries _) :: items => verdict items
  | .error failure :: _ => some failure
  | .ok _ :: items => verdict items

/-- A failure for good is the `verdict`, and ends the loop. -/
theorem verdict_and_gained {failure : Failure} (h : ∀ id, failure ≠ .unresolvedSeries id) :
    verdict [(.error failure : Item α)] = some failure ∧
      gained (.error failure : Except Failure (Option α)) = none := by
  cases failure with
  | unresolvedSeries id => exact absurd rfl (h id)
  | _ => exact ⟨rfl, rfl⟩

variable (done : ρ → World σ → Except Failure Bool × World σ)
  (read : ρ → World σ → Except Failure (Option α) × ρ × World σ)

/-- **The loop**: as long as it is not `done`, a value is `read`. A series without a name is passed
over, any other failure ends the loop. It collects some values and has an outcome. -/
inductive Drains : ρ → World σ → List α → Option Failure → Prop where
  /-- it is done -/
  | ended {r : ρ} {w w₁ : World σ} : done r w = (.ok true, w₁) → Drains r w [] none
  /-- whether it is done can't be told -/
  | refused {r : ρ} {w w₁ : World σ} {failure : Failure} :
      done r w = (.error failure, w₁) → Drains r w [] (some failure)
  /-- a turn, and then the rest -/
  | turn {r r' : ρ} {w w₁ w₂ : World σ} {result : Except Failure (Option α)}
      {values more : List α} {outcome : Option Failure} :
      done r w = (.ok false, w₁) → read r w₁ = (result, r', w₂) → gained result = some values →
      Drains r' w₂ more outcome → Drains r w (values ++ more) outcome
  /-- a turn that fails -/
  | failed {r r' : ρ} {w w₁ w₂ : World σ} {failure : Failure} :
      done r w = (.ok false, w₁) → read r w₁ = (.error failure, r', w₂) →
      gained (.error failure : Except Failure (Option α)) = none → Drains r w [] (some failure)

variable {done read}

/-- **The loop `Drains` to one end only.** -/
theorem Drains.unique {r : ρ} {w : World σ} {values values' : List α}
    {outcome outcome' : Option Failure} (h : Drains done read r w values outcome)
    (h' : Drains done read r w values' outcome') : values' = values ∧ outcome' = outcome := by
  induction h generalizing values' outcome' with
  | ended hdone =>
    cases h' with
    | ended hdone' => exact ⟨rfl, rfl⟩
    | refused hdone' | turn hdone' | failed hdone' => cases hdone.symm.trans hdone'
  | refused hdone =>
    cases h' with
    | refused hdone' =>
      cases hdone.symm.trans hdone'
      exact ⟨rfl, rfl⟩
    | ended hdone' | turn hdone' | failed hdone' => cases hdone.symm.trans hdone'
  | turn hdone hread hgained _ ih =>
    cases h' with
    | turn hdone' hread' hgained' hmore' =>
      cases hdone.symm.trans hdone'
      cases hread.symm.trans hread'
      cases hgained.symm.trans hgained'
      obtain ⟨rfl, rfl⟩ := ih hmore'
      exact ⟨rfl, rfl⟩
    | failed hdone' hread' hgained' =>
      cases hdone.symm.trans hdone'
      cases hread.symm.trans hread'
      cases hgained.symm.trans hgained'
    | ended hdone' | refused hdone' => cases hdone.symm.trans hdone'
  | failed hdone hread hgained =>
    cases h' with
    | failed hdone' hread' hgained' =>
      cases hdone.symm.trans hdone'
      cases hread.symm.trans hread'
      exact ⟨rfl, rfl⟩
    | turn hdone' hread' hgained' =>
      cases hdone.symm.trans hdone'
      cases hread.symm.trans hread'
      cases hgained.symm.trans hgained'
    | ended hdone' | refused hdone' => cases hdone.symm.trans hdone'

end TimeSeries
