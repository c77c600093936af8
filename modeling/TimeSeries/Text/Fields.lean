/-!
# Fields: blanks, words and separators

Series names, metrics and paths are lines of text taken apart at separators.
`words` cuts at blanks and keeps no empty part; `cutFirst` and `cutLast` cut
once, at the first or the last separator. Main facts: a cut loses nothing
(`cutFirst_eq_some`, `cutLast_eq_some`), and there is none exactly when the
separator does not occur.
-/

namespace TimeSeries.Text

/-! ### Blanks -/

/-- **Blank characters**, as inclusive ranges of code points: the members of the
Unicode property `White_Space`. -/
def blankRanges : List (Nat × Nat) :=
  [(0x0009, 0x000D), (0x0020, 0x0020), (0x0085, 0x0085), (0x00A0, 0x00A0), (0x1680, 0x1680),
    (0x2000, 0x200A), (0x2028, 0x2029), (0x202F, 0x202F), (0x205F, 0x205F), (0x3000, 0x3000)]

/-- Whether a code point lies in one of some inclusive ranges. -/
def inRanges (ranges : List (Nat × Nat)) (n : Nat) : Bool :=
  ranges.any fun r => r.1 ≤ n && n ≤ r.2

/-- A character that separates words. -/
def isBlank (c : Char) : Bool := inRanges blankRanges c.toNat

/-- A text in which every character is blank, such as the empty one. -/
def isBlankText (s : String) : Bool := s.toList.all isBlank

/-- **Words**: the parts between blanks that are not empty. -/
def words (cs : List Char) : List (List Char) :=
  (cs.splitOnP isBlank).filter fun word => !word.isEmpty

/-! ### Cutting once -/

/-- The text before and after the first `sep`, if there is one. -/
def cutFirst (sep : Char) : List Char → Option (List Char × List Char)
  | [] => none
  | c :: cs =>
    if c = sep then some ([], cs)
    else (cutFirst sep cs).map fun cut => (c :: cut.1, cut.2)

/-- The text before and after the last `sep`, if there is one. -/
def cutLast (sep : Char) : List Char → Option (List Char × List Char)
  | [] => none
  | c :: cs =>
    match cutLast sep cs with
    | some cut => some (c :: cut.1, cut.2)
    | none => if c = sep then some ([], cs) else none

theorem cutFirst_eq_some {sep : Char} {cs before after : List Char}
    (h : cutFirst sep cs = some (before, after)) :
    cs = before ++ sep :: after ∧ sep ∉ before := by
  induction cs generalizing before with
  | nil => cases h
  | cons c cs ih =>
    rw [cutFirst] at h
    split at h
    next hc =>
      cases h
      exact ⟨by rw [hc]; rfl, List.not_mem_nil⟩
    next hc =>
      obtain ⟨cut, hcut, heq⟩ := Option.map_eq_some_iff.mp h
      cases heq
      obtain ⟨happ, hmem⟩ := ih hcut
      refine ⟨by rw [happ]; rfl, ?_⟩
      rw [List.mem_cons, not_or]
      exact ⟨fun heq => hc heq.symm, hmem⟩

theorem cutFirst_eq_none {sep : Char} {cs : List Char} :
    cutFirst sep cs = none ↔ sep ∉ cs := by
  induction cs with
  | nil => exact ⟨fun _ => List.not_mem_nil, fun _ => rfl⟩
  | cons c cs ih =>
    rw [cutFirst]
    split
    next hc =>
      subst hc
      exact ⟨fun h => (by cases h), fun h => absurd List.mem_cons_self h⟩
    next hc =>
      rw [Option.map_eq_none_iff, ih, List.mem_cons, not_or]
      exact ⟨fun h => ⟨fun heq => hc heq.symm, h⟩, fun h => h.2⟩

theorem cutLast_eq_none {sep : Char} {cs : List Char} :
    cutLast sep cs = none ↔ sep ∉ cs := by
  induction cs with
  | nil => exact ⟨fun _ => List.not_mem_nil, fun _ => rfl⟩
  | cons c cs ih =>
    rw [cutLast, List.mem_cons, not_or]
    split
    next cut hcut =>
      refine ⟨fun h => (by cases h), fun h => ?_⟩
      rw [ih.mpr h.2] at hcut
      cases hcut
    next hcut =>
      split
      next hc => exact ⟨fun h => (by cases h), fun h => absurd hc.symm h.1⟩
      next hc => exact ⟨fun _ => ⟨fun heq => hc heq.symm, ih.mp hcut⟩, fun _ => rfl⟩

theorem cutLast_eq_some {sep : Char} {cs before after : List Char}
    (h : cutLast sep cs = some (before, after)) :
    cs = before ++ sep :: after ∧ sep ∉ after := by
  induction cs generalizing before with
  | nil => cases h
  | cons c cs ih =>
    rw [cutLast] at h
    split at h
    next cut hcut =>
      cases h
      obtain ⟨happ, hmem⟩ := ih hcut
      exact ⟨by rw [happ]; rfl, hmem⟩
    next hcut =>
      split at h
      next hc =>
        cases h
        exact ⟨by rw [hc]; rfl, cutLast_eq_none.mp hcut⟩
      next => cases h

end TimeSeries.Text
