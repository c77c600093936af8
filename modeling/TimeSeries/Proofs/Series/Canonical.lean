import Mathlib.Data.List.Nodup
import Mathlib.Tactic.MkIffOfInductiveProp
import TimeSeries.Proofs.Text.Words

/-!
# Canonical names are canonical

A text spells a series if behind its first word there are words, and each of them has a `=` and
something on either side of the first one (`Series.Spells`). Its canonical name is that first word
and the tags, sorted and each name once: those that are least of their name (`Series.LeastTag`,
`Series.condensed_sortTags`). Such a list is fixed by its members (`Series.sortTags_congr`), so
nothing but the first word and the least values matters; and it is read back as it was written
(`Series.Spells.tags_write`), so a canonical name is its own.

Main result: `Series.normalize_canonical`.
-/

namespace TimeSeries

/-! ### Tags and their words -/

namespace Tag

/-- **Full tags** are read back from their words: there is a name, which has no `=`, and a value. -/
structure Full (t : Tag) : Prop where
  /-- there is a name -/
  name_ne : t.name ≠ ""
  /-- the first `=` is the one behind the name -/
  name_cut : '=' ∉ t.name.toList
  /-- there is a value -/
  value_ne : t.value ≠ ""

theorem toList_text (t : Tag) : t.text.toList = t.name.toList ++ '=' :: t.value.toList := by
  simp [text]

theorem ofWord?_eq_some {word : List Char} {t : Tag} :
    ofWord? word = some t ↔ word = t.text.toList ∧ '=' ∉ t.name.toList := by
  rw [ofWord?, Option.map_eq_some_iff, toList_text]
  constructor
  · rintro ⟨⟨name, value⟩, hcut, rfl⟩
    obtain ⟨rfl, hname⟩ := Text.cutFirst_eq_some hcut
    simpa using hname
  · rintro ⟨rfl, hname⟩
    exact ⟨_, Text.cutFirst_append hname _, by simp⟩

/-- **A full word** spells a full tag: it has a `=`, and there is something before the first one and
behind it. -/
theorem exists_full_iff (word : List Char) :
    (∃ t : Tag, t.Full ∧ word = t.text.toList) ↔
      ∃ name value, word = name ++ '=' :: value ∧ '=' ∉ name ∧ name ≠ [] ∧ value ≠ [] := by
  constructor
  · rintro ⟨t, hfull, rfl⟩
    refine ⟨_, _, t.toList_text, hfull.name_cut, ?_, ?_⟩
    · simpa using hfull.name_ne
    · simpa using hfull.value_ne
  · rintro ⟨name, value, rfl, hcut, hname, hvalue⟩
    refine ⟨⟨String.ofList name, String.ofList value⟩, ⟨?_, ?_, ?_⟩, by simp [toList_text]⟩
    · simpa using hname
    · simpa using hcut
    · simpa using hvalue

/-! ### The order of tags -/

theorem le_iff {a b : Tag} : a.le b = true ↔ a.name < b.name ∨ a.name = b.name ∧ a.value ≤ b.value := by
  simp [le]

theorem le_trans (a b c : Tag) (hab : a.le b = true) (hbc : b.le c = true) : a.le c = true := by
  rw [le_iff] at *
  obtain hab | ⟨hab, hvalue⟩ := hab
  · obtain hbc | ⟨hbc, -⟩ := hbc
    · exact .inl (String.lt_trans hab hbc)
    · exact .inl (hbc ▸ hab)
  · obtain hbc | ⟨hbc, hvalue'⟩ := hbc
    · exact .inl (hab ▸ hbc)
    · exact .inr ⟨hab.trans hbc, String.le_trans hvalue hvalue'⟩

theorem le_total (a b : Tag) : (a.le b || b.le a) = true := by
  rw [Bool.or_eq_true, le_iff, le_iff]
  obtain hlt | heq | hgt := lt_trichotomy a.name b.name
  · exact .inl (.inl hlt)
  · exact (String.le_total a.value b.value).imp (fun h => .inr ⟨heq, h⟩) fun h => .inr ⟨heq.symm, h⟩
  · exact .inr (.inl hgt)

/-- Names do not descend. -/
theorem name_le_of_le {a b : Tag} (h : a.le b = true) : a.name ≤ b.name := by
  obtain hlt | ⟨heq, -⟩ := le_iff.mp h
  · exact le_of_lt hlt
  · exact heq ▸ String.le_refl _

end Tag

namespace Series

/-! ### Sorted tags -/

/-- **The least tag** of its name: no other tag of the name has a smaller value. -/
@[mk_iff]
structure LeastTag (tags : List Tag) (t : Tag) : Prop where
  /-- it is one of the tags -/
  mem : t ∈ tags
  /-- the value is least -/
  least : ∀ other ∈ tags, other.name = t.name → t.value ≤ other.value

/-- **Ascending** tags: each name once. -/
def Ascending (tags : List Tag) : Prop := (tags.map Tag.name).Pairwise (· < ·)

theorem Ascending.pairwise {tags : List Tag} (h : Ascending tags) :
    tags.Pairwise fun a b => a.name < b.name := List.pairwise_map.mp h

variable {tags tags' : List Tag}

theorem dropRepeats_sublist (tags : List Tag) : (dropRepeats tags).Sublist tags := by
  induction tags with
  | nil => exact .slnil
  | cons tag rest ih =>
    rw [dropRepeats]
    split
    next hrest => exact (List.nil_sublist rest).cons_cons tag
    next next kept hrest =>
      rw [hrest] at ih
      split
      · exact ((List.sublist_cons_self next kept).trans ih).cons_cons tag
      · exact ih.cons_cons tag

/-- **Dropping repeats** behind a tag that is before the others drops all of its name. -/
theorem dropRepeats_cons {tag : Tag} {rest : List Tag} (hle : ∀ t ∈ rest, tag.le t = true)
    (hrest : Ascending (dropRepeats rest)) :
    dropRepeats (tag :: rest) =
      tag :: (dropRepeats rest).filter fun t => t.name != tag.name := by
  have hnames : ∀ t ∈ dropRepeats rest, tag.name ≤ t.name := fun t ht =>
    Tag.name_le_of_le (hle t ((dropRepeats_sublist rest).subset ht))
  rw [dropRepeats]
  split
  next hnil => rw [hnil, List.filter_nil]
  next next kept hkept =>
    rw [hkept] at hrest hnames ⊢
    obtain ⟨hnext, -⟩ := List.pairwise_cons.mp hrest.pairwise
    have habove : ∀ t ∈ kept, tag.name < t.name := fun t ht =>
      lt_of_le_of_lt (hnames next List.mem_cons_self) (hnext t ht)
    have hkeep : kept.filter (fun t => t.name != tag.name) = kept :=
      List.filter_eq_self.mpr fun t ht => by simpa using (habove t ht).ne'
    split
    next hname => rw [List.filter_cons_of_neg (by simp [hname]), hkeep]
    next hname => rw [List.filter_cons_of_pos (by simpa using Ne.symm hname), hkeep]

/-- **Condensed** tags: of each name the least tag, in the order of names. -/
structure Condensed (tags kept : List Tag) : Prop where
  /-- they ascend -/
  ascending : Ascending kept
  /-- they are the least tags -/
  mem_iff : ∀ t, t ∈ kept ↔ LeastTag tags t
  /-- no name is lost -/
  names : ∀ t ∈ tags, ∃ u ∈ kept, u.name = t.name

/-- Behind a tag that is before the others, a tag of another name is least if it is so among
them. -/
theorem leastTag_cons {tag t : Tag} {rest : List Tag} (hle : ∀ t ∈ rest, tag.le t = true) :
    LeastTag (tag :: rest) t ↔ t = tag ∨ LeastTag rest t ∧ t.name ≠ tag.name := by
  constructor
  · rintro ⟨hmem, hleast⟩
    by_cases hname : t.name = tag.name
    · left
      rcases List.mem_cons.mp hmem with rfl | ht
      · rfl
      · obtain hlt | ⟨-, hvalue⟩ := Tag.le_iff.mp (hle t ht)
        · exact absurd hname hlt.ne'
        · have hvalue' := hleast tag List.mem_cons_self hname.symm
          exact congrArg₂ Tag.mk hname (String.le_antisymm hvalue' hvalue)
    · have ht : t ∈ rest := (List.mem_cons.mp hmem).resolve_left fun h => hname (h ▸ rfl)
      exact .inr ⟨⟨ht, fun other hother => hleast other (List.mem_cons_of_mem _ hother)⟩, hname⟩
  · rintro (rfl | ⟨ht, hname⟩)
    · refine ⟨List.mem_cons_self, List.forall_mem_cons.mpr ⟨fun _ => String.le_refl _, ?_⟩⟩
      intro other hother hname
      obtain hlt | ⟨-, hvalue⟩ := Tag.le_iff.mp (hle other hother)
      · exact absurd hname hlt.ne'
      · exact hvalue
    · exact ⟨List.mem_cons_of_mem _ ht.mem,
        List.forall_mem_cons.mpr ⟨fun h => absurd h.symm hname, ht.least⟩⟩

/-- **Sorted tags are condensed** by dropping repeats. -/
theorem condensed_dropRepeats (h : tags.Pairwise fun a b => a.le b = true) :
    Condensed tags (dropRepeats tags) := by
  induction tags with
  | nil =>
    exact ⟨.nil, fun t => ⟨fun ht => (by cases ht), fun ht => ht.mem⟩, List.forall_mem_nil _⟩
  | cons tag rest ih =>
    obtain ⟨hle, hrest⟩ := List.pairwise_cons.mp h
    have ih := ih hrest
    rw [dropRepeats_cons hle ih.ascending]
    constructor
    · refine List.pairwise_map.mpr (List.pairwise_cons.mpr ⟨fun t ht => ?_, ?_⟩)
      · obtain ⟨ht, hne⟩ := List.mem_filter.mp ht
        have hname := Tag.name_le_of_le (hle t ((dropRepeats_sublist rest).subset ht))
        exact lt_of_le_of_ne hname (Ne.symm (by simpa using hne))
      · exact ih.ascending.pairwise.filter _
    · intro t
      rw [leastTag_cons hle, List.mem_cons, List.mem_filter, ih.mem_iff, bne_iff_ne]
    · refine List.forall_mem_cons.mpr ⟨⟨tag, List.mem_cons_self, rfl⟩, fun t ht => ?_⟩
      obtain ⟨u, hu, hname⟩ := ih.names t ht
      by_cases hsame : u.name = tag.name
      · exact ⟨tag, List.mem_cons_self, hsame.symm.trans hname⟩
      · exact ⟨u, List.mem_cons_of_mem _ (List.mem_filter.mpr ⟨hu, by simpa using hsame⟩), hname⟩

/-- **Tags are condensed** by sorting them and dropping repeats. -/
theorem condensed_sortTags (tags : List Tag) : Condensed tags (sortTags tags) := by
  have hsorted := List.pairwise_mergeSort Tag.le_trans Tag.le_total tags
  have hcondensed := condensed_dropRepeats hsorted
  have hleast : ∀ t, LeastTag (tags.mergeSort Tag.le) t ↔ LeastTag tags t := fun t => by
    simp only [leastTag_iff, List.mem_mergeSort]
  exact ⟨hcondensed.ascending, fun t => (hcondensed.mem_iff t).trans (hleast t),
    fun t ht => hcondensed.names t (List.mem_mergeSort.mpr ht)⟩

/-- **Ascending tags are determined** by which they are. -/
theorem Ascending.eq_of_mem_iff (h : Ascending tags) (h' : Ascending tags')
    (hmem : ∀ t, t ∈ tags ↔ t ∈ tags') : tags = tags' := by
  have hnodup : ∀ {tags : List Tag}, Ascending tags → tags.Nodup := fun h =>
    h.pairwise.imp fun hlt heq => hlt.ne (congrArg Tag.name heq)
  refine List.Perm.eq_of_pairwise (fun a b _ _ hab hba => absurd hab (lt_asymm hba)) h.pairwise
    h'.pairwise ((List.perm_ext_iff_of_nodup (hnodup h) (hnodup h')).mpr hmem)

/-- Tags with the same least ones are condensed to the same. -/
theorem sortTags_congr (h : ∀ t, LeastTag tags t ↔ LeastTag tags' t) :
    sortTags tags = sortTags tags' := by
  refine (condensed_sortTags tags).ascending.eq_of_mem_iff (condensed_sortTags tags').ascending ?_
  intro t
  rw [(condensed_sortTags tags).mem_iff, (condensed_sortTags tags').mem_iff, h]

/-- **Ascending tags stay as they are.** -/
theorem sortTags_of_ascending (h : Ascending tags) : sortTags tags = tags := by
  refine (condensed_sortTags tags).ascending.eq_of_mem_iff h fun t => ?_
  rw [(condensed_sortTags tags).mem_iff]
  refine ⟨LeastTag.mem, fun ht => ⟨ht, fun other hother hname => ?_⟩⟩
  -- there is no other tag of the name
  have hsame : other = t := List.inj_on_of_nodup_map (h.imp ne_of_lt) hother ht hname
  rw [hsame]

/-! ### What a text spells -/

/-- **A text spells** a first word and tags: these are its words, there are tags, and they are
full. -/
structure Spells (text : String) (word : List Char) (tags : List Tag) : Prop where
  /-- these are its words -/
  words_eq : Text.words text.toList = word :: tags.map fun t => t.text.toList
  /-- there are tags -/
  tags_ne : tags ≠ []
  /-- they are full -/
  full : ∀ t ∈ tags, t.Full

theorem fullTags?_eq_some {words : List (List Char)} :
    fullTags? words = some tags ↔
      words = tags.map (fun t => t.text.toList) ∧ ∀ t ∈ tags, t.Full := by
  induction words generalizing tags with
  | nil =>
    rw [fullTags?, List.mapM_nil]
    constructor
    · rintro ⟨⟩
      exact ⟨rfl, List.forall_mem_nil _⟩
    · rintro ⟨htags, -⟩
      rw [List.map_eq_nil_iff.mp htags.symm]
      rfl
  | cons word words ih =>
    rw [fullTags?, List.mapM_cons, Option.bind_eq_bind, Option.bind_eq_some_iff]
    constructor
    · rintro ⟨tag, htag, hmore⟩
      obtain ⟨rest, hrest, htags⟩ := Option.bind_eq_some_iff.mp hmore
      cases htags
      obtain ⟨rfl, hfulls⟩ := ih.mp hrest
      split at htag
      next t ht =>
        split at htag
        next => cases htag
        next hempty =>
          cases htag
          obtain ⟨rfl, hcut⟩ := Tag.ofWord?_eq_some.mp ht
          obtain ⟨hname, hvalue⟩ : ¬tag.name = "" ∧ ¬tag.value = "" := by simpa using hempty
          exact ⟨rfl, List.forall_mem_cons.mpr ⟨⟨hname, hcut, hvalue⟩, hfulls⟩⟩
      next => cases htag
    · rintro ⟨heq, hfull⟩
      cases tags with
      | nil => cases heq
      | cons tag rest =>
        obtain ⟨rfl, rfl⟩ := List.cons.inj heq
        obtain ⟨htag, hrest⟩ := List.forall_mem_cons.mp hfull
        refine ⟨tag, ?_, Option.bind_eq_some_iff.mpr ⟨rest, ih.mpr ⟨rfl, hrest⟩, rfl⟩⟩
        rw [Tag.ofWord?_eq_some.mpr ⟨rfl, htag.name_cut⟩]
        simp [htag.name_ne, htag.value_ne]

/-- **What has a canonical name** spells a word and tags, and this is the name. -/
theorem normalize_eq_some_iff {text name : String} :
    normalize text = some name ↔
      ∃ word tags, Spells text word tags ∧ name = write (String.ofList word) (sortTags tags) := by
  rw [normalize]
  constructor
  · intro h
    split at h
    next => cases h
    next word rest hwords =>
      split at h
      next => cases h
      next => cases h
      next tags hne htags =>
        cases h
        obtain ⟨rfl, hfull⟩ := fullTags?_eq_some.mp htags
        exact ⟨word, tags, ⟨hwords, hne, hfull⟩, rfl⟩
  · rintro ⟨word, tags, h, rfl⟩
    rw [h.words_eq]
    dsimp only
    rw [fullTags?_eq_some.mpr ⟨rfl, h.full⟩]
    cases tags with
    | nil => exact absurd rfl h.tags_ne
    | cons => rfl

/-- **Words that spell tags.** -/
theorem exists_full_tags {words : List (List Char)}
    (h : ∀ word ∈ words, ∃ t : Tag, t.Full ∧ word = t.text.toList) :
    ∃ tags : List Tag, words = tags.map (fun t => t.text.toList) ∧ ∀ t ∈ tags, t.Full := by
  induction words with
  | nil => exact ⟨[], rfl, List.forall_mem_nil _⟩
  | cons word words ih =>
    obtain ⟨⟨t, ht, rfl⟩, hwords⟩ := List.forall_mem_cons.mp h
    obtain ⟨tags, rfl, htags⟩ := ih hwords
    exact ⟨t :: tags, rfl, List.forall_mem_cons.mpr ⟨ht, htags⟩⟩

/-! ### Heads and tags of names -/

section Heads

variable {name : String} {head rest : List Char}

/-- **A head is cut off** at the space behind it. -/
theorem splitHead_of_append (hname : name.toList = head ++ ' ' :: rest) (hne : head ≠ [])
    (hhead : ∀ c ∈ head, Text.isBlank c = false) : splitHead name = (head, rest) := by
  have hspace : ' ' ∉ head := fun h => absurd (hhead ' ' h) (by decide)
  have hdrop : name.toList.dropWhile Text.isBlank = name.toList := by
    obtain ⟨c, cs, rfl⟩ := List.exists_cons_of_ne_nil hne
    rw [hname]
    simp [hhead c List.mem_cons_self]
  rw [splitHead, hdrop, hname, Text.cutFirst_append hspace]
  rfl

/-- A name without blanks is a head. -/
theorem splitHead_of_unbroken (hname : ∀ c ∈ name.toList, Text.isBlank c = false) :
    splitHead name = (name.toList, []) := by
  have hspace : Text.cutFirst ' ' name.toList = none :=
    Text.cutFirst_eq_none.mpr fun h => absurd (hname ' ' h) (by decide)
  have hdrop : name.toList.dropWhile Text.isBlank = name.toList := by
    cases hcs : name.toList with
    | nil => rfl
    | cons c cs => simp [hname c (by simp [hcs])]
  rw [splitHead, hdrop, hspace]
  rfl

/-- The tags that the words behind the first one spell. -/
def spelled (text : String) : List Tag := (Text.words text.toList).tail.filterMap Tag.ofWord?

/-- **Tags are spelled** by the words behind a head without blanks. -/
theorem tags_eq_spelled (hname : name.toList = head ++ ' ' :: rest) (hne : head ≠ [])
    (hhead : ∀ c ∈ head, Text.isBlank c = false) : Series.tags name = spelled name := by
  rw [Series.tags, splitHead_of_append hname hne hhead, spelled, hname,
    Text.words_append_space hne hhead, List.tail_cons]

end Heads

/-! ### Names that are written are read back -/

namespace Spells

variable {text text' : String} {word word' : List Char}

theorem word_unbroken (h : Spells text word tags) :
    word ≠ [] ∧ ∀ c ∈ word, Text.isBlank c = false :=
  Text.of_mem_words (by rw [h.words_eq]; exact List.mem_cons_self)

theorem text_unbroken (h : Spells text word tags) {t : Tag} (ht : t ∈ tags) :
    t.text.toList ≠ [] ∧ ∀ c ∈ t.text.toList, Text.isBlank c = false := by
  have hmem : t.text.toList ∈ Text.words text.toList := by
    rw [h.words_eq]
    exact List.mem_cons_of_mem _ (List.mem_map_of_mem ht)
  exact Text.of_mem_words hmem

theorem token_eq (h : Spells text word tags) : token text = String.ofList word := by
  rw [token, h.words_eq, List.headD_cons]

theorem spelled_eq (h : Spells text word tags) : spelled text = tags := by
  rw [spelled, h.words_eq, List.tail_cons, List.filterMap_map]
  refine (List.filterMap_congr fun t ht => ?_).trans List.filterMap_some
  exact Tag.ofWord?_eq_some.mpr ⟨rfl, (h.full t ht).name_cut⟩

/-- A text spells one word and one list of tags. -/
theorem unique (h : Spells text word tags) (h' : Spells text word' tags') :
    word = word' ∧ tags = tags' := by
  have hwords := h.words_eq.symm.trans h'.words_eq
  exact ⟨(List.cons.inj hwords).1, h.spelled_eq.symm.trans h'.spelled_eq⟩

theorem normalize_eq (h : Spells text word tags) :
    normalize text = some (write (String.ofList word) (sortTags tags)) :=
  normalize_eq_some_iff.mpr ⟨word, tags, h, rfl⟩

/-- What is written begins with the word and a space. -/
theorem exists_toList_write (h : Spells text word tags) :
    ∃ rest, (write (String.ofList word) tags).toList = word ++ ' ' :: rest := by
  rw [toList_write, String.toList_ofList]
  obtain ⟨t, tags, rfl⟩ := List.exists_cons_of_ne_nil h.tags_ne
  exact ⟨_, rfl⟩

/-- **What is written of a word and some of the tags** spells them. -/
theorem write (h : Spells text word tags) (hsubset : tags' ⊆ tags) (hne : tags' ≠ []) :
    Spells (write (String.ofList word) tags') word tags' := by
  refine ⟨?_, hne, fun t ht => h.full t (hsubset ht)⟩
  have hflat : (tags'.flatMap fun t => ' ' :: t.text.toList) =
      (tags'.map fun t => t.text.toList).flatMap (' ' :: ·) := by rw [List.flatMap_map]
  rw [toList_write, String.toList_ofList, hflat]
  refine Text.words_single_spaced h.word_unbroken fun w hw => ?_
  obtain ⟨t, ht, rfl⟩ := List.mem_map.mp hw
  exact h.text_unbroken (hsubset ht)

/-- **The canonical name** spells the sorted tags. -/
theorem canonical (h : Spells text word tags) :
    Spells (Series.write (String.ofList word) (sortTags tags)) word (sortTags tags) :=
  h.write (fun t ht => ((condensed_sortTags tags).mem_iff t).mp ht |>.mem) (sortTags_ne_nil h.tags_ne)

/-- The canonical name is its own. -/
theorem normalize_write (h : Spells text word tags) :
    normalize (Series.write (String.ofList word) (sortTags tags)) =
      some (Series.write (String.ofList word) (sortTags tags)) := by
  have hcanonical := h.canonical.normalize_eq
  rwa [sortTags_of_ascending (condensed_sortTags tags).ascending] at hcanonical

/-- **The tags of what is written** are those that are spelled. -/
theorem tags_write (h : Spells (Series.write (String.ofList word) tags) word tags) :
    Series.tags (Series.write (String.ofList word) tags) = tags := by
  obtain ⟨rest, hrest⟩ := h.exists_toList_write
  rw [tags_eq_spelled hrest h.word_unbroken.1 h.word_unbroken.2, h.spelled_eq]

/-- **The head of what is written** is that of the word. -/
theorem head_write (h : Spells text word tags) (tags' : List Tag) :
    (splitHead (Series.write (String.ofList word) tags')).1 =
      (splitHead (String.ofList word)).1 := by
  have hword : ∀ c ∈ (String.ofList word).toList, Text.isBlank c = false := by
    simpa using h.word_unbroken.2
  rw [splitHead_write _ (by simpa using h.word_unbroken.1) hword, splitHead_of_unbroken hword]

/-- **The canonical name is no longer** than what it was made of. -/
theorem utf8ByteSize_le (h : Spells text word tags) :
    (Series.write (String.ofList word) (sortTags tags)).utf8ByteSize ≤ text.utf8ByteSize := by
  have hsize : ∀ s : String, s.utf8ByteSize = String.utf8Len s.toList := fun s => by
    rw [← String.utf8ByteSize_ofList, String.ofList_toList]
  let texts := fun tags : List Tag => tags.map fun t => t.text.toList
  -- the words of the text have the room that they need
  have hroom : Text.room (word :: texts tags) ≤ String.utf8Len text.toList + 1 := by
    rw [← h.words_eq]
    exact (Text.spaced_words text.toList).room_le
  -- of the tags some are left
  have htexts : Text.room (texts (sortTags tags)) ≤ Text.room (texts tags) := by
    rw [← Text.room_of_perm ((List.mergeSort_perm tags Tag.le).map _)]
    exact Text.room_le_of_sublist ((dropRepeats_sublist _).map _)
  have hwritten : String.utf8Len (word ++ (texts (sortTags tags)).flatMap (' ' :: ·)) + 1 =
      Text.room (word :: texts (sortTags tags)) := Text.utf8Len_single_spaced word _
  rw [Text.room_cons] at hroom hwritten
  rw [hsize, hsize, toList_write, String.toList_ofList]
  rw [List.flatMap_map] at hwritten
  omega

end Spells

/-- **Words that are the same**, in whatever order and however often, spell the same tags. -/
theorem Spells.normalize_of_words {text text' : String} {word : List Char}
    {rest rest' : List (List Char)} (h : Spells text word tags)
    (hwords : Text.words text.toList = word :: rest)
    (hwords' : Text.words text'.toList = word :: rest') (hsame : ∀ w, w ∈ rest ↔ w ∈ rest') :
    normalize text' = normalize text := by
  have hrest : rest = tags.map fun t => t.text.toList :=
    (List.cons.inj (hwords.symm.trans h.words_eq)).2
  have hfull : ∀ w ∈ rest', ∃ t : Tag, t.Full ∧ w = t.text.toList := by
    intro w hw
    have hmem := (hsame w).mpr hw
    rw [hrest] at hmem
    obtain ⟨t, ht, rfl⟩ := List.mem_map.mp hmem
    exact ⟨t, h.full t ht, rfl⟩
  obtain ⟨tags', rfl, htags'⟩ := exists_full_tags hfull
  have hne : tags' ≠ [] := by
    rintro rfl
    obtain ⟨t, tags, rfl⟩ := List.exists_cons_of_ne_nil h.tags_ne
    rw [hrest] at hsame
    cases (hsame _).mp List.mem_cons_self
  have h' : Spells text' word tags' := ⟨hwords', hne, htags'⟩
  -- the tags are the same too
  have hmem : ∀ t, t ∈ tags' ↔ t ∈ tags := by
    intro t
    rw [← h.spelled_eq, ← h'.spelled_eq, spelled, spelled, hwords, hwords', List.tail_cons,
      List.tail_cons, List.mem_filterMap, List.mem_filterMap]
    exact exists_congr fun w => and_congr_left' (hsame w).symm
  have hsorted : sortTags tags' = sortTags tags := sortTags_congr fun t => by
    simp only [leastTag_iff, hmem]
  rw [h.normalize_eq, h'.normalize_eq, hsorted]

/-! ### Canonical names -/

/-- **A canonical name** of a text: it is no longer, its own canonical name, and shows the tags of
the text condensed behind what the first word shows. -/
structure CanonicalOf (text name : String) : Prop where
  /-- it is no longer than the text -/
  size_le : name.utf8ByteSize ≤ text.utf8ByteSize
  /-- its canonical name is itself -/
  normalize_eq : normalize name = some name
  /-- it has each name of a tag once, in ascending order and with its least value -/
  tags_condensed : Condensed (spelled text) (Series.tags name)
  /-- the metric is that of the first word -/
  metric_eq : metric name = metric (token text)
  /-- so are the metrics -/
  metrics_eq : metrics name = metrics (token text)
  /-- and the aggregates -/
  aggregates_eq : aggregates name = aggregates (token text)

theorem Spells.tags_canonical {text : String} {word : List Char} (h : Spells text word tags) :
    Series.tags (Series.write (String.ofList word) (sortTags tags)) = sortTags tags :=
  h.canonical.tags_write

theorem Spells.canonicalOf {text : String} {word : List Char} (h : Spells text word tags) :
    CanonicalOf text (Series.write (String.ofList word) (sortTags tags)) := by
  have hitems : items (Series.write (String.ofList word) (sortTags tags)) = items (token text) := by
    rw [items, h.head_write, h.token_eq, items]
  refine ⟨h.utf8ByteSize_le, h.normalize_write, ?_, ?_, ?_, ?_⟩
  · rw [h.tags_canonical, h.spelled_eq]
    exact condensed_sortTags tags
  · rw [metric, hitems, metric]
  · rw [metrics, h.head_write, hitems, h.token_eq, metrics]
  · rw [aggregates, hitems, aggregates]

/-- **What spells a series** is two or more words, all but the first of them full. -/
theorem exists_normalize_iff (text : String) :
    (∃ name, normalize text = some name) ↔
      ∃ word first rest, Text.words text.toList = word :: first :: rest ∧
        ∀ w ∈ first :: rest, ∃ name value : List Char,
          w = name ++ '=' :: value ∧ '=' ∉ name ∧ name ≠ [] ∧ value ≠ [] := by
  constructor
  · rintro ⟨name, hname⟩
    obtain ⟨word, tags, h, -⟩ := normalize_eq_some_iff.mp hname
    obtain ⟨tag, rest, rfl⟩ := List.exists_cons_of_ne_nil h.tags_ne
    refine ⟨word, _, _, h.words_eq, fun w hw => ?_⟩
    obtain ⟨t, ht, rfl⟩ : ∃ t ∈ tag :: rest, t.text.toList = w := List.mem_map.mp hw
    exact (Tag.exists_full_iff _).mp ⟨t, h.full t ht, rfl⟩
  · rintro ⟨word, first, rest, hwords, hfull⟩
    obtain ⟨tags, htags, hfull⟩ := exists_full_tags fun w hw =>
      (Tag.exists_full_iff w).mpr (hfull w hw)
    have h : Spells text word tags := by
      refine ⟨by rw [hwords, htags], ?_, hfull⟩
      rintro rfl
      cases htags
    exact ⟨_, h.normalize_eq⟩

/-- **Canonical names are equal** if the first words are and the least values of all names of
tags. -/
theorem normalize_inj_iff {text text' name name' : String} (hname : normalize text = some name)
    (hname' : normalize text' = some name') :
    name = name' ↔
      token text = token text' ∧ ∀ t, LeastTag (spelled text) t ↔ LeastTag (spelled text') t := by
  obtain ⟨word, tags, h, rfl⟩ := normalize_eq_some_iff.mp hname
  obtain ⟨word', tags', h', rfl⟩ := normalize_eq_some_iff.mp hname'
  rw [h.token_eq, h'.token_eq, h.spelled_eq, h'.spelled_eq]
  constructor
  · intro heq
    -- the name is read back in one way
    obtain ⟨rfl, hsorted⟩ := h.canonical.unique (heq ▸ h'.canonical)
    refine ⟨rfl, fun t => ?_⟩
    rw [← (condensed_sortTags tags).mem_iff, ← (condensed_sortTags tags').mem_iff, hsorted]
  · rintro ⟨hword, hleast⟩
    rw [hword, sortTags_congr hleast]

/-- **Normalizing picks one name** for a series. It does so for a text of a word and one or more
full ones; the name is no longer, is its own, and shows the first word and the tags of the text,
each name once, in ascending order and with its least value. Two names are the same if the first
words and the least values are: so whatever blanks stand between the words or at the ends, and in
whatever order and however often the tags are given, the series is the same. -/
theorem normalize_canonical (text : String) :
    ((∃ name, normalize text = some name) ↔
      ∃ word first rest, Text.words text.toList = word :: first :: rest ∧
        ∀ w ∈ first :: rest, ∃ name value : List Char,
          w = name ++ '=' :: value ∧ '=' ∉ name ∧ name ≠ [] ∧ value ≠ []) ∧
    (∀ name, normalize text = some name → CanonicalOf text name) ∧
    (∀ text' name name', normalize text = some name → normalize text' = some name' →
      (name = name' ↔
        token text = token text' ∧ ∀ t, LeastTag (spelled text) t ↔ LeastTag (spelled text') t)) ∧
    ∀ text' word rest rest', Text.Spaced text.toList (word :: rest) →
      Text.Spaced text'.toList (word :: rest') → (∀ w, w ∈ rest ↔ w ∈ rest') →
      normalize text' = normalize text := by
  refine ⟨exists_normalize_iff text, fun name hname => ?_, fun text' name name' => normalize_inj_iff,
    fun text' word rest rest' hwords hwords' hsame => ?_⟩
  · obtain ⟨word, tags, h, rfl⟩ := normalize_eq_some_iff.mp hname
    exact h.canonicalOf
  · have hwords := hwords.words_eq
    have hwords' := hwords'.words_eq
    rcases hname : normalize text with _ | name
    · rcases hname' : normalize text' with _ | name'
      · rfl
      · -- what the other text spells, this one spells too
        obtain ⟨word', tags', h', -⟩ := normalize_eq_some_iff.mp hname'
        obtain rfl : word = word' := (List.cons.inj (hwords'.symm.trans h'.words_eq)).1
        rw [h'.normalize_of_words hwords' hwords fun w => (hsame w).symm, hname'] at hname
        cases hname
    · obtain ⟨word', tags, h, -⟩ := normalize_eq_some_iff.mp hname
      obtain rfl : word = word' := (List.cons.inj (hwords.symm.trans h.words_eq)).1
      rw [h.normalize_of_words hwords hwords' hsame, hname]

/-- Blanks of any kind, a value with `=` in it, a tag given twice, and an order that does not
matter. -/
theorem normalize_blanks_and_repeats :
    normalize " cpu\u3000host=b\tos=x=y host=a\n" = some "cpu host=a os=x=y" ∧
      CanonicalOf " cpu\u3000host=b\tos=x=y host=a\n" "cpu host=a os=x=y" := by
  let tags : List Tag := [⟨"host", "a"⟩, ⟨"host", "b"⟩, ⟨"os", "x=y"⟩]
  have hfull : ∀ t ∈ tags, t.Full := by
    refine List.forall_mem_cons.mpr ⟨⟨by decide, by decide, by decide⟩, ?_⟩
    refine List.forall_mem_cons.mpr ⟨⟨by decide, by decide, by decide⟩, ?_⟩
    exact List.forall_mem_singleton.mpr ⟨by decide, by decide, by decide⟩
  have hspells : Spells "cpu host=a host=b os=x=y" "cpu".toList tags :=
    ⟨by decide +kernel, by decide, hfull⟩
  have hsorted : sortTags tags = [⟨"host", "a"⟩, ⟨"os", "x=y"⟩] := by
    rw [sortTags, List.mergeSort_of_pairwise (by decide)]
    decide
  have hname : normalize "cpu host=a host=b os=x=y" = some "cpu host=a os=x=y" := by
    rw [hspells.normalize_eq, hsorted]
    decide
  have hperm : ["host=a".toList, "host=b".toList, "os=x=y".toList].Perm
      ["host=b".toList, "os=x=y".toList, "host=a".toList] := by decide
  obtain ⟨-, -, -, hsame⟩ := normalize_canonical "cpu host=a host=b os=x=y"
  have hother : normalize " cpu\u3000host=b\tos=x=y host=a\n" = some "cpu host=a os=x=y" := by
    rw [← hname]
    exact hsame _ "cpu".toList _ _ (Text.spaced_iff.mpr (by decide +kernel))
      (Text.spaced_iff.mpr (by decide +kernel)) fun w => hperm.mem_iff
  exact ⟨hother, (normalize_canonical _).2.1 _ hother⟩

end Series

end TimeSeries
