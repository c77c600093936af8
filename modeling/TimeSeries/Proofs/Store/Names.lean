import TimeSeries.Store.Basic

/-!
# Names and ids of a store

A name, once registered, keeps its id for good: the list of names only grows
(`Store.Grows`), so an id that stands for a name stands for it ever after
(`Grows.name?`). Registering gives an id that stands for the name
(`Store.name?_register`), provided that the names can be counted by words, as an id is
one (`Store.Countable`).
-/

namespace TimeSeries.Store

/-- **Countable**: there are fewer names than words, so no two names share an id. -/
def Countable (s : Store) : Prop := s.names.length < UInt64.size

instance : DecidablePred Countable := fun s =>
  inferInstanceAs (Decidable (s.names.length < UInt64.size))

/-- **Growth** of a store: names are added at the end, points stay. -/
structure Grows (s s' : Store) : Prop where
  /-- names are only added, at the end -/
  names : s.names <+: s'.names
  /-- points stay -/
  points : s'.points = s.points

variable {s s' s'' : Store} {name : String} {id : SeriesId}

theorem Grows.refl (s : Store) : s.Grows s := ⟨List.prefix_refl _, rfl⟩

theorem Grows.trans (h : s.Grows s') (h' : s'.Grows s'') : s.Grows s'' :=
  ⟨h.names.trans h'.names, h'.points.trans h.points⟩

/-- A store that `Grows` to be `Countable` was so. -/
theorem Countable.of_grows (h : s.Grows s') (hs' : s'.Countable) : s.Countable :=
  Nat.lt_of_le_of_lt h.names.length_le hs'

/-! ### Ids -/

theorem name?_eq_some :
    s.name? id = some name ↔ ∃ i, id.toNat = i + 1 ∧ s.names[i]? = some name := by
  rw [name?]
  split
  next h =>
    rw [h]
    exact ⟨fun hn => (by cases hn), fun ⟨i, hi, _⟩ => (by cases hi)⟩
  next i h =>
    rw [h]
    refine ⟨fun hn => ⟨i, rfl, hn⟩, ?_⟩
    rintro ⟨j, hj, hname⟩
    obtain rfl : i = j := Nat.succ.inj hj
    exact hname

/-- **An id keeps its meaning**, `name?`, while names are added. -/
theorem name?_of_isPrefix (h : s.names <+: s'.names) (hname : s.name? id = some name) :
    s'.name? id = some name := by
  obtain ⟨i, hi, hget⟩ := name?_eq_some.mp hname
  refine name?_eq_some.mpr ⟨i, hi, ?_⟩
  obtain ⟨hlt, hval⟩ := List.getElem?_eq_some_iff.mp hget
  obtain ⟨more, hmore⟩ := h
  rw [← hmore, List.getElem?_append_left hlt, hget]

theorem Grows.name? (h : s.Grows s') (hname : s.name? id = some name) :
    s'.name? id = some name := name?_of_isPrefix h.names hname

/-- The id of a position, `idAt`, stands for the name there. -/
theorem name?_idAt {i : Nat} (hs : s.Countable) (hget : s.names[i]? = some name) :
    s.name? (idAt i) = some name := by
  obtain ⟨hlt, -⟩ := List.getElem?_eq_some_iff.mp hget
  have hword : i + 1 < UInt64.size := Nat.lt_of_le_of_lt hlt hs
  refine name?_eq_some.mpr ⟨i, ?_, hget⟩
  rw [idAt, UInt64.toNat_ofNat', Nat.mod_eq_of_lt hword]

/-! ### Registering -/

theorem register_of_some (h : s.ids.find? name = some id) : s.register name = (id, s) := by
  rw [register, h]

theorem register_of_none (h : s.ids.find? name = none) :
    s.register name = (idAt s.names.length, s.addName name) := by rw [register, h]

theorem addName_grows (s : Store) (name : String) : s.Grows (s.addName name) :=
  ⟨List.prefix_append _ _, rfl⟩

theorem register_grows (s : Store) (name : String) : s.Grows (s.register name).2 := by
  cases hid : s.ids.find? name with
  | some id => rw [register_of_some hid]; exact .refl s
  | none => rw [register_of_none hid]; exact addName_grows s name

/-- **The id that `register` gives stands for the name.** -/
theorem name?_register (h : (s.register name).2.Countable) :
    (s.register name).2.name? (s.register name).1 = some name := by
  cases hid : s.ids.find? name with
  -- a known name has the id of a position where it stands
  | some id =>
    rw [register_of_some hid] at h ⊢
    obtain ⟨i, hname, rfl⟩ := s.idAt_of_ids name id hid
    exact name?_idAt h hname
  | none =>
    rw [register_of_none hid] at h ⊢
    exact name?_idAt h (by simp [addName])

theorem enlist_grows (s : Store) (name : String) : s.Grows (s.enlist name).2 := by
  have hregister := register_grows s name
  rw [enlist]
  dsimp only
  split
  · exact hregister
  · exact ⟨hregister.names, hregister.points⟩

/-- The id that `enlist` gives to a writer stands for the name. -/
theorem name?_enlist (h : (s.enlist name).2.Countable) :
    (s.enlist name).2.name? (s.enlist name).1 = some name := by
  have hnames : (s.enlist name).2.names = (s.register name).2.names := by
    rw [enlist]
    dsimp only
    split <;> rfl
  have hcount : (s.register name).2.Countable := by
    rw [Countable, ← hnames]
    exact h
  obtain ⟨i, hi, hget⟩ := name?_eq_some.mp (name?_register hcount)
  exact name?_eq_some.mpr ⟨i, hi, by rw [hnames, hget]⟩

/-- A store in which some series are listed, one after another, and that has some points. -/
def ofSeries (names : List String) (points : List Point) : Store :=
  { names.foldl (fun s name => (enlist s name).2) empty with points }

end TimeSeries.Store
