import TimeSeries.Proofs.Query.Building

/-!
# Widths of bins, as they are written

Every field of an object is found in its text (`Json.writeFields_infix`), so what a query writes of
its bins can be followed from the document to the characters (`Query.binsText_infix`). A query keeps
the width that was asked for, and its document has a word for it: the width itself if it is below
`2 ^ 64` nanoseconds, and what is left of it otherwise, which can be nothing at all
(`Query.step_of_build_round`).

Main result: `Query.step_of_build`.
-/

namespace TimeSeries

/-! ### Fields in a text -/

namespace Json

/-- **A field is written in full**: its key, a colon and its value. -/
theorem writeFields_infix {fields : List (String × Json)} {k : String} {value : Json}
    (h : (k, value) ∈ fields) : writeText k ++ ':' :: write value <:+: writeFields fields := by
  induction fields with
  | nil => cases h
  | cons f rest ih =>
    obtain ⟨key, v⟩ := f
    cases rest with
    | nil =>
      obtain ⟨⟩ := List.mem_singleton.mp h
      exact ⟨[], [], by simp [writeFields]⟩
    | cons next rest =>
      rw [writeFields]
      rcases List.mem_cons.mp h with heq | h
      · cases heq
        exact ⟨[], ',' :: writeFields (next :: rest), by simp⟩
      · obtain ⟨before, after, hrest⟩ := ih h
        refine ⟨writeText key ++ ':' :: (write v ++ ',' :: before), after, ?_⟩
        rw [← hrest]
        simp

end Json

/-! ### Words for widths -/

namespace Query

variable {metrics : List String} {step : Nat} {fs : List Aggregate} {c : Clauses}
  {refinements : List Refinement} {q : Query}

theorem toNat_stepWord (step : Nat) : (stepWord step).toNat = step % UInt64.size :=
  UInt64.toNat_ofNat'

/-- **The word of `stepWord` has the width** exactly if the width fits one. -/
theorem toNat_stepWord_eq_iff : (stepWord step).toNat = step ↔ step < UInt64.size := by
  rw [toNat_stepWord]
  exact ⟨fun h => h ▸ Nat.mod_lt _ (by decide), Nat.mod_eq_of_lt⟩

/-- Nothing is left of a width exactly if it is a multiple of `2 ^ 64`. -/
theorem toNat_stepWord_pos_iff : 0 < (stepWord step).toNat ↔ ¬UInt64.size ∣ step := by
  rw [toNat_stepWord, Nat.pos_iff_ne_zero, ne_eq, Nat.dvd_iff_mod_eq_zero]

/-! ### Bins as they are written -/

/-- The fields of the bins of a query, by their keys. -/
def binsFields (metrics : List String) (step : Nat) (fs : List Aggregate) :
    List (String × Json) :=
  [("func", .ofTexts (fs.map Aggregate.name)), ("metric", .ofTexts metrics),
    ("step", .ofWord (stepWord step))]

/-- **The text of the bins of a query** with a number for their width, which stands last. -/
def binsText (metrics : List String) (fs : List Aggregate) (width : Nat) : List Char :=
  let before := Json.writeFields
    [("func", .ofTexts (fs.map Aggregate.name)), ("metric", .ofTexts metrics)]
  let last := Json.writeText "step" ++ ':' :: Nat.toDigits 10 width
  Json.writeText "group-aggregate" ++ ':' :: '\x7b' :: (before ++ ',' :: (last ++ ['\x7d']))

theorem entries_bins (metrics : List String) (step : Nat) (fs : List Aggregate) :
    Json.entries [("metric", .ofTexts metrics), ("step", .ofWord (stepWord step)),
      ("func", .ofTexts (fs.map Aggregate.name))] = binsFields metrics step fs := by
  have hmetric : ¬"step" < "metric" := by decide
  have hfunc : "func" < "metric" := by decide
  simp [Json.entries, Json.putField, binsFields, hmetric, hfunc]

theorem field?_root_bins (metrics : List String) (step : Nat) (fs : List Aggregate) (c : Clauses) :
    Json.field? (root ⟨.bins metrics step fs, c⟩) "group-aggregate" =
      some (.object (binsFields metrics step fs)) := by
  rw [← entries_bins]
  exact field?_root ⟨.bins metrics step fs, c⟩ "group-aggregate"

theorem write_binsFields (metrics : List String) (step : Nat) (fs : List Aggregate) :
    Json.writeText "group-aggregate" ++ ':' :: Json.write (.object (binsFields metrics step fs)) =
      binsText metrics fs (stepWord step).toNat := by
  simp only [binsText, binsFields, Json.write, Json.writeFields, Json.ofWord, Json.writeNumber,
    List.append_assoc, List.cons_append]

/-- **The `text` of a query holds that of its bins.** -/
theorem binsText_infix (metrics : List String) (step : Nat) (fs : List Aggregate) (c : Clauses) :
    binsText metrics fs (stepWord step).toNat <:+:
      (text ⟨.bins metrics step fs, c⟩).toList := by
  have hfield := Json.writeFields_infix (Json.mem_of_field? (field?_root_bins metrics step fs c))
  rw [write_binsFields] at hfield
  rw [text, document_eq, Json.print, String.toList_ofList, Json.write]
  exact hfield.trans ⟨['\x7b'], ['\x7d'], by simp⟩

/-- **The width of bins.** A query on bins that is built was given a width, which it keeps; its
document has a word for it, which stands in its text; and the word is the width up to multiples of
`2 ^ 64`. So the width is written as it was asked for exactly if it is below `2 ^ 64` nanoseconds,
and what is written is not a width at all exactly if it is a multiple of that. -/
theorem step_of_build (h : build (.bins metrics step fs) refinements = .ok q) :
    0 < step ∧ q.subject = .bins (distinct metrics) step fs.eraseDups ∧
      ∃ word : UInt64,
        (∃ root bins, q.document = .object root ∧
          Json.field? root "group-aggregate" = some (.object bins) ∧
          Json.field? bins "step" = some (.number (.word word))) ∧
        binsText (distinct metrics) fs.eraseDups word.toNat <:+: q.text.toList ∧
        word.toNat = step % UInt64.size ∧
        (word.toNat = step ↔ step < UInt64.size) ∧
        (0 < word.toNat ↔ ¬UInt64.size ∣ step) := by
  have hcheck := check_of_build h
  have hsubject := subject_of_build h
  obtain ⟨subject, c⟩ := q
  obtain rfl : subject = .bins (distinct metrics) step fs.eraseDups := hsubject
  rw [Subject.check, Subject.guard_eq_ok, Subject.guard_eq_ok, Subject.guard_eq_ok] at hcheck
  obtain ⟨-, -, hstep, -⟩ := hcheck
  refine ⟨Nat.pos_of_ne_zero hstep, rfl, stepWord step, ?_, binsText_infix _ _ _ _,
    toNat_stepWord step, toNat_stepWord_eq_iff, toNat_stepWord_pos_iff⟩
  exact ⟨_, _, document_eq _, field?_root_bins _ _ _ _, rfl⟩

/-- Of the longest time there is, a nanosecond less than `2 ^ 64` seconds, the largest word is
left. -/
theorem step_of_build_longest :
    let longest := UInt64.size * Instant.nanosPerSecond - 1
    ∃ q, build (.bins ["m", "n", "m"] longest [.max, .min]) [.start 0] = .ok q ∧
      q.subject = .bins ["m", "n"] longest [.max, .min] ∧
      binsText ["m", "n"] [.max, .min] (UInt64.size - 1) <:+: q.text.toList := by
  intro longest
  have hbuild : build (.bins ["m", "n", "m"] longest [.max, .min]) [.start 0] =
      .ok ⟨.bins ["m", "n"] longest [.max, .min], (Draft.ofList [.start 0]).clauses⟩ := rfl
  obtain ⟨-, hsubject, word, -, htext, hword, -⟩ := step_of_build hbuild
  have hlargest : word.toNat = UInt64.size - 1 := hword.trans (by decide)
  rw [hlargest] at htext
  exact ⟨_, hbuild, hsubject, htext⟩

/-- **A width is lost**: a query on bins of `2 ^ 64` nanoseconds is built, and it is written with
bins of none. -/
theorem step_of_build_round :
    ∃ q root bins, build (.bins ["m"] 18446744073709551616 [.max]) [.start 0] = .ok q ∧
      q.subject = .bins ["m"] 18446744073709551616 [.max] ∧
      q.document = .object root ∧ Json.field? root "group-aggregate" = some (.object bins) ∧
      Json.field? bins "step" = some (.number (.word 0)) ∧
      (0 : UInt64).toNat ≠ 18446744073709551616 ∧
      q.text = "\x7b\"group-aggregate\":\x7b\"func\":[\"max\"],\"metric\":[\"m\"],\"step\":0\x7d," ++
        "\"range\":\x7b\"from\":0\x7d\x7d" :=
  ⟨⟨.bins ["m"] 18446744073709551616 [.max], (Draft.ofList [.start 0]).clauses⟩, _, _, rfl, rfl,
    document_eq _, field?_root_bins _ _ _ _, rfl, by decide, by decide +kernel⟩

end Query

end TimeSeries
