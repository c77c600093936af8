import Mathlib.Data.String.Basic
import TimeSeries.Proofs.Series.Metrics

/-!
# Words and the blanks between them

What the words of a text are can be said without cutting it into pieces: an empty text has none, a
text without blanks is one, and a blank leaves the words on either side of it alone (`Spaced`).
`Text.words` finds them (`Text.spaced_iff`). Whatever blanks stand between words, and before and
behind them, take room, so words that are written with single spaces are no longer than any other
text of the same words (`Text.Spaced.room_le`).
-/

namespace TimeSeries.Text

variable {cs cs' word : List Char} {ws ws' : List (List Char)}

/-- **A text and its words.** -/
inductive Spaced : List Char → List (List Char) → Prop
  /-- an empty text has no words -/
  | nil : Spaced [] []
  /-- a text without blanks is a word -/
  | word {word : List Char} (ne_nil : word ≠ []) (unbroken : ∀ c ∈ word, isBlank c = false) :
    Spaced word [word]
  /-- a blank ends the words before it, and others may follow -/
  | blank {before after : List Char} {words more : List (List Char)} {c : Char}
    (isBlank : isBlank c = true) (first : Spaced before words) (second : Spaced after more) :
    Spaced (before ++ c :: after) (words ++ more)

/-! ### Finding words -/

/-- A text without blanks is one word. -/
theorem words_of_unbroken (hne : word ≠ []) (hword : ∀ c ∈ word, isBlank c = false) :
    words word = [word] := by
  simp [words, List.splitOnP_eq_singleton hword, hne]

/-- The words on either side of a blank are apart. -/
theorem words_append_blank (before after : List Char) {c : Char} (hc : isBlank c = true) :
    words (before ++ c :: after) = words before ++ words after := by
  rw [words, List.splitOnP_append_cons before after hc, List.filter_append]
  rfl

theorem Spaced.words_eq (h : Spaced cs ws) : words cs = ws := by
  induction h with
  | nil => rfl
  | word hne hword => exact words_of_unbroken hne hword
  | blank hc _ _ ihbefore ihafter => rw [words_append_blank _ _ hc, ihbefore, ihafter]

theorem spaced_words (cs : List Char) : Spaced cs (words cs) := by
  induction hlength : cs.length using Nat.strong_induction_on generalizing cs with
  | _ length ih =>
    by_cases hblank : ∃ c ∈ cs, isBlank c = true
    · obtain ⟨c, hmem, hc⟩ := hblank
      obtain ⟨before, after, rfl⟩ := List.append_of_mem hmem
      rw [List.length_append, List.length_cons] at hlength
      rw [words_append_blank before after hc]
      exact .blank hc (ih before.length (by omega) before rfl) (ih after.length (by omega) after rfl)
    · have hunbroken : ∀ c ∈ cs, isBlank c = false := fun c hc =>
        Bool.eq_false_iff.mpr fun h => hblank ⟨c, hc, h⟩
      cases cs with
      | nil => exact .nil
      | cons c cs =>
        rw [words_of_unbroken (List.cons_ne_nil c cs) hunbroken]
        exact .word (List.cons_ne_nil c cs) hunbroken

/-- **The words of a text** are found. -/
theorem spaced_iff : Spaced cs ws ↔ words cs = ws :=
  ⟨Spaced.words_eq, fun h => h ▸ spaced_words cs⟩

/-- A word, a space and more. -/
theorem words_append_space (hne : word ≠ []) (hword : ∀ c ∈ word, isBlank c = false)
    (after : List Char) : words (word ++ ' ' :: after) = word :: words after := by
  rw [words_append_blank word after (by decide), words_of_unbroken hne hword]
  rfl

/-- **Words with single spaces** between them are found again. -/
theorem words_single_spaced {w : List Char} (hw : w ≠ [] ∧ ∀ c ∈ w, isBlank c = false)
    (hws : ∀ w ∈ ws, w ≠ [] ∧ ∀ c ∈ w, isBlank c = false) :
    words (w ++ ws.flatMap (' ' :: ·)) = w :: ws := by
  induction ws generalizing w with
  | nil => simpa using words_of_unbroken hw.1 hw.2
  | cons w' ws ih =>
    obtain ⟨hw', hws⟩ := List.forall_mem_cons.mp hws
    rw [List.flatMap_cons, List.cons_append, words_append_space hw.1 hw.2, ih hw' hws]

/-! ### The room that words take -/

/-- The bytes of some words, with one more for each. -/
def room : List (List Char) → Nat
  | [] => 0
  | w :: ws => String.utf8Len w + 1 + room ws

theorem room_cons (w : List Char) (ws : List (List Char)) :
    room (w :: ws) = String.utf8Len w + 1 + room ws := rfl

theorem room_append (ws ws' : List (List Char)) : room (ws ++ ws') = room ws + room ws' := by
  induction ws with
  | nil => exact (Nat.zero_add _).symm
  | cons w ws ih =>
    rw [List.cons_append, room_cons, room_cons, ih, Nat.add_assoc (String.utf8Len w + 1)]

theorem room_le_of_sublist (h : ws.Sublist ws') : room ws ≤ room ws' := by
  induction h with
  | slnil => exact Nat.le_refl _
  | cons w _ ih =>
    rw [room_cons]
    exact Nat.le_add_left_of_le ih
  | cons_cons w _ ih =>
    rw [room_cons, room_cons]
    exact Nat.add_le_add_left ih _

theorem room_of_perm (h : ws.Perm ws') : room ws = room ws' := by
  induction h with
  | nil => rfl
  | cons w _ ih => rw [room_cons, room_cons, ih]
  | swap w w' ws =>
    simp only [room_cons]
    omega
  | trans _ _ ih ih' => exact ih.trans ih'

/-- **Words and a byte between them** are no longer than the text. -/
theorem Spaced.room_le (h : Spaced cs ws) : room ws ≤ String.utf8Len cs + 1 := by
  induction h with
  | nil => simp [room]
  | word => simp [room]
  | @blank _ _ _ _ c _ _ _ ihbefore ihafter =>
    have hc := c.utf8Size_pos
    rw [room_append, String.utf8Len_append, String.utf8Len_cons]
    omega

/-- Words with single spaces between them are just as long. -/
theorem utf8Len_single_spaced (w : List Char) (ws : List (List Char)) :
    String.utf8Len (w ++ ws.flatMap (' ' :: ·)) + 1 = room (w :: ws) := by
  have hspace : ' '.utf8Size = 1 := rfl
  induction ws generalizing w with
  | nil => simp [room]
  | cons w' ws ih =>
    have ih := ih w'
    rw [List.flatMap_cons, List.cons_append, String.utf8Len_append, String.utf8Len_cons, hspace, ih,
      room_cons w, Nat.add_right_comm]

end TimeSeries.Text
