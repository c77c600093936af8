import TimeSeries.Series.Canonical

/-!
# The metric a name shows

A name is written with a metric, and later that metric is read off the name again. The two
agree on plain metrics and on no others (`Series.metric_normalize_iff`): in the head of a
name `|` stands between metrics, and `:` with the name of an aggregate behind it says what was
made of one.
-/

namespace TimeSeries

/-! ### Words -/

namespace Text

/-- What stands between separators has none in it. -/
theorem eq_false_of_mem_splitOnP {p : Char → Bool} {cs piece : List Char}
    (h : piece ∈ cs.splitOnP p) : ∀ c ∈ piece, p c = false := by
  induction cs generalizing piece with
  | nil =>
    rw [List.splitOnP_nil, List.mem_singleton] at h
    simp [h]
  | cons first cs ih =>
    rw [List.splitOnP_cons_eq_if_modifyHead] at h
    split at h
    · obtain rfl | h := List.mem_cons.mp h
      · simp
      · exact ih h
    next hfirst =>
      -- the character goes to the piece behind it
      obtain ⟨head, pieces, hpieces⟩ := List.exists_cons_of_ne_nil (List.splitOnP_ne_nil p cs)
      rw [hpieces, List.modifyHead_cons] at h
      obtain rfl | h := List.mem_cons.mp h
      · have hhead : ∀ c ∈ head, p c = false := ih (by simp [hpieces])
        simpa [hfirst] using hhead
      · exact ih (by simp [hpieces, h])

/-- **A word** is not empty and has no blanks. -/
theorem of_mem_words {cs word : List Char} (h : word ∈ words cs) :
    word ≠ [] ∧ ∀ c ∈ word, isBlank c = false := by
  obtain ⟨hpiece, hne⟩ := List.mem_filter.mp h
  exact ⟨by simpa using hne, eq_false_of_mem_splitOnP hpiece⟩

/-- A text is cut at the separator behind a part that has none in it. -/
theorem cutFirst_append {sep : Char} {before : List Char} (h : sep ∉ before) (after : List Char) :
    cutFirst sep (before ++ sep :: after) = some (before, after) := by
  induction before with
  | nil => simp [cutFirst]
  | cons c cs ih =>
    obtain ⟨hc, hcs⟩ := not_or.mp (mt List.mem_cons.mpr h)
    simp [cutFirst, Ne.symm hc, ih hcs]

/-- A text is cut at the separator before a part that has none in it. -/
theorem cutLast_append {sep : Char} (before : List Char) {after : List Char} (h : sep ∉ after) :
    cutLast sep (before ++ sep :: after) = some (before, after) := by
  induction before with
  | nil => simp [cutLast, cutLast_eq_none.mpr h]
  | cons c cs ih => simp [cutLast, ih]

/-- What is cut off is shorter. -/
theorem length_lt_of_cutLast {sep : Char} {cs before after : List Char}
    (h : cutLast sep cs = some (before, after)) : before.length < cs.length := by
  obtain ⟨rfl, -⟩ := cutLast_eq_some h
  simp

end Text

namespace Series

/-! ### Plain metrics -/

/-- **Plain metrics**: there is no `|` in them, and they do not end in `:` and the name of an
aggregate. -/
def Plain (metric : String) : Prop :=
  '|' ∉ metric.toList ∧ ∀ f : Aggregate, ¬ ':' :: f.name.toList <:+ metric.toList

/-- A metric and an aggregate are an item. -/
theorem splitItem_aggregate (metric : List Char) (f : Aggregate) :
    splitItem (metric ++ ':' :: f.name.toList) = (String.ofList metric, some f) := by
  have hcolon : ':' ∉ f.name.toList := by cases f <;> decide
  rw [splitItem, Text.cutLast_append metric hcolon]
  dsimp only
  rw [String.ofList_toList, Aggregate.ofName?_name]

/-- The aggregate of an item is the one whose name it ends in. -/
theorem snd_splitItem_eq_some_iff (item : List Char) (f : Aggregate) :
    (splitItem item).2 = some f ↔ ':' :: f.name.toList <:+ item := by
  constructor
  · intro hsome
    rw [splitItem] at hsome
    split at hsome
    next => cases hsome
    next before suffix hcut =>
      obtain ⟨rfl, -⟩ := Text.cutLast_eq_some hcut
      split at hsome
      next g hg =>
        cases hsome
        -- the aggregate that was found has the name that was looked for
        have hname : f.name = String.ofList suffix := by simpa using List.find?_some hg
        exact ⟨before, by simp [hname]⟩
      next => cases hsome
  · rintro ⟨before, rfl⟩
    rw [splitItem_aggregate]

/-- An item has an aggregate if it ends in the name of one. -/
theorem snd_splitItem_eq_none_iff (item : List Char) :
    (splitItem item).2 = none ↔ ∀ f : Aggregate, ¬ ':' :: f.name.toList <:+ item := by
  rw [Option.eq_none_iff_forall_ne_some]
  exact forall_congr' fun f => not_congr (snd_splitItem_eq_some_iff item f)

instance : DecidablePred Plain := fun metric =>
  decidable_of_iff ('|' ∉ metric.toList ∧ (splitItem metric.toList).2 = none)
    (and_congr_right' (snd_splitItem_eq_none_iff _))

/-- The metric of an item is no longer than the item. -/
theorem length_splitItem_le (item : List Char) : (splitItem item).1.toList.length ≤ item.length := by
  rw [splitItem]
  split
  · simp
  next metric suffix hcut =>
    split
    · simpa using Nat.le_of_lt (Text.length_lt_of_cutLast hcut)
    · simp

/-- An item is its own metric if it has no aggregate, and only then. -/
theorem splitItem_fst_eq_iff (item : List Char) :
    (splitItem item).1 = String.ofList item ↔ (splitItem item).2 = none := by
  rw [splitItem]
  split
  · simp
  next metric suffix hcut =>
    split
    · have hlt := Text.length_lt_of_cutLast hcut
      refine iff_of_false (fun heq => ?_) (by simp)
      rw [String.ofList_injective heq] at hlt
      exact Nat.lt_irrefl _ hlt
    · simp

/-- **The first item of a head** has all of it for its metric if the head is plain, and else a
shorter one. -/
theorem fst_head_items_eq_iff (head : List Char) :
    (((head.splitOn '|').map splitItem).head?.map Prod.fst).getD "" = String.ofList head ↔
      Plain (String.ofList head) := by
  rw [Plain, String.toList_ofList, ← snd_splitItem_eq_none_iff]
  rcases hcut : Text.cutFirst '|' head with _ | ⟨before, after⟩
  · have hbar := Text.cutFirst_eq_none.mp hcut
    rw [List.splitOn_eq_singleton hbar]
    simpa [hbar] using splitItem_fst_eq_iff head
  · obtain ⟨rfl, hbefore⟩ := Text.cutFirst_eq_some hcut
    rw [List.splitOn_append_cons_self_of_not_mem hbefore]
    refine iff_of_false (fun heq => ?_) (by simp)
    -- the metric comes from what is before the bar
    have hlength := length_splitItem_le before
    obtain heq : (splitItem before).1 = String.ofList (before ++ '|' :: after) := heq
    rw [heq, String.toList_ofList, List.length_append, List.length_cons] at hlength
    omega

/-! ### Names that are written -/

/-- What is written begins with the metric, and with a space behind it if there are tags. -/
theorem toList_write (metric : String) (tags : List Tag) :
    (write metric tags).toList =
      metric.toList ++ tags.flatMap fun tag => ' ' :: tag.text.toList := by
  induction tags generalizing metric with
  | nil => simp [write]
  | cons tag tags ih =>
    have hwrite : write metric (tag :: tags) = write (metric ++ " " ++ tag.text) tags := rfl
    rw [hwrite, ih]
    simp

/-- **The head of a written name** is its metric, if that is a word. -/
theorem splitHead_write (metric : String) (hne : metric.toList ≠ [])
    (hblank : ∀ c ∈ metric.toList, Text.isBlank c = false) (tags : List Tag) :
    (splitHead (write metric tags)).1 = metric.toList := by
  have hspace : ' ' ∉ metric.toList := fun h => absurd (hblank ' ' h) (by decide)
  -- a word does not begin with a blank, so nothing is dropped
  have hdrop : (write metric tags).toList.dropWhile Text.isBlank = (write metric tags).toList := by
    obtain ⟨c, cs, hcs⟩ := List.exists_cons_of_ne_nil hne
    rw [toList_write, hcs]
    simp [hblank c (by simp [hcs])]
  rw [splitHead, hdrop, toList_write]
  cases tags with
  | nil =>
    have hcut : Text.cutFirst ' ' metric.toList = none := Text.cutFirst_eq_none.mpr hspace
    simp [hcut]
  | cons tag tags =>
    have hcut := Text.cutFirst_append hspace
      (tag.text.toList ++ tags.flatMap fun tag => ' ' :: tag.text.toList)
    simp [hcut]

/-- A metric and one tag, with any blanks between, spell a name with a single space. -/
theorem normalize_of_words {text : String} (metric word : List Char) (tag : Tag)
    (hwords : Text.words text.toList = [metric, word]) (htag : fullTags? [word] = some [tag]) :
    normalize text = some (String.ofList metric ++ " " ++ tag.text) := by
  rw [normalize, hwords]
  dsimp only
  rw [htag]
  dsimp only
  rw [sortTags, List.mergeSort_singleton]
  rfl

/-- There are tags left where there were some. -/
theorem sortTags_ne_nil {tags : List Tag} (h : tags ≠ []) : sortTags tags ≠ [] := by
  have hsorted : tags.mergeSort Tag.le ≠ [] := by
    intro hnil
    have hlength : (tags.mergeSort Tag.le).length = tags.length := List.length_mergeSort tags
    rw [hnil] at hlength
    exact h (List.length_eq_zero_iff.mp hlength.symm)
  obtain ⟨tag, rest, heq⟩ := List.exists_cons_of_ne_nil hsorted
  rw [sortTags, heq, dropRepeats]
  split
  · exact List.cons_ne_nil _ _
  · split <;> exact List.cons_ne_nil _ _

/-- The first word of what has a canonical name. -/
def token (text : String) : String := String.ofList ((Text.words text.toList).headD [])

/-- **A canonical name** is the first word of what was normalized, a space and more; and there is
no space in that word. -/
theorem exists_of_normalize {text name : String} (h : normalize text = some name) :
    ' ' ∉ (token text).toList ∧ ∃ tags, name.toList = (token text).toList ++ ' ' :: tags := by
  rw [normalize] at h
  split at h
  · cases h
  next word rest hwords =>
    have hword : word ∈ Text.words text.toList := by simp [hwords]
    obtain ⟨-, hblank⟩ := Text.of_mem_words hword
    have htoken : (token text).toList = word := by simp [token, hwords]
    have hspace : ' ' ∉ word := fun hmem => absurd (hblank ' ' hmem) (by decide)
    split at h
    · cases h
    · cases h
    next tags hne _ =>
      cases h
      obtain ⟨tag, more, heq⟩ := List.exists_cons_of_ne_nil (sortTags_ne_nil hne)
      rw [htoken, heq, toList_write, String.toList_ofList, List.flatMap_cons, List.cons_append]
      exact ⟨hspace, _, rfl⟩

/-- **The metric of a canonical name** is the first word of what was normalized if that is plain,
and only then. -/
theorem metric_normalize_iff {text name : String} (h : normalize text = some name) :
    metric name = token text ↔ Plain (token text) := by
  rw [normalize] at h
  rw [token]
  split at h
  · cases h
  next word rest hwords =>
    have hword : word ∈ Text.words text.toList := by simp [hwords]
    obtain ⟨hne, hblank⟩ := Text.of_mem_words hword
    split at h
    · cases h
    · cases h
    next tags _ _ =>
      cases h
      have hhead := splitHead_write (String.ofList word) (by simpa using hne)
        (by simpa using hblank) (sortTags tags)
      rw [metric, items, hhead, hwords, List.headD_cons, String.toList_ofList]
      exact fst_head_items_eq_iff word

end Series

end TimeSeries
