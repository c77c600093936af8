import Mathlib.Data.List.Nodup
import Mathlib.Data.List.Perm.Subperm
import TimeSeries.Proofs.Store.Answers

/-!
# What a store lists

A store lists the ids that writers got, and what is seen of them are their names, in the order
in which they were first written: `Store.listedNames`. In a sound store (`Store.Sound`) no
name occurs twice, every name has an id and every listed id has a name. Every change keeps a
store sound; a write adds its name to those listed unless it is there
(`Sound.listedNames_enlist`), whatever other names the store has given ids to, and a query
leaves them as they are (`Sound.listedNames_query`).
-/

namespace TimeSeries.Store

/-- The names of the series that are listed. -/
def listedNames (s : Store) : List String := s.listed.filterMap s.name?

/-- **Sound stores**: no name occurs twice, every name has an id, and, as long as the names can be
counted, what is listed has a name. -/
structure Sound (s : Store) : Prop where
  /-- no name occurs twice -/
  nodup : s.names.Nodup
  /-- every name has an id -/
  known : ∀ name ∈ s.names, (s.ids.find? name).isSome
  /-- what is listed has a name -/
  named : s.Countable → ∀ id ∈ s.listed, ∃ name, s.name? id = some name

variable {s s' : Store} {name : String} {id id' : SeriesId}

theorem sound_empty : Sound empty :=
  ⟨List.nodup_nil, fun _ hname => (by cases hname), fun _ _ hid => (by cases hid)⟩

/-- In a `Sound` store no name has two ids. -/
theorem Sound.id_eq (h : s.Sound) (hid : s.name? id = some name) (hid' : s.name? id' = some name) :
    id = id' := by
  obtain ⟨i, hi, hname⟩ := name?_eq_some.mp hid
  obtain ⟨j, hj, hname'⟩ := name?_eq_some.mp hid'
  obtain ⟨hlt, -⟩ := List.getElem?_eq_some_iff.mp hname
  obtain rfl : i = j := (List.getElem?_inj hlt h.nodup).mp (hname.trans hname'.symm)
  exact UInt64.toNat_inj.mp (hi.trans hj.symm)

/-! ### Names that are registered -/

/-- What has an id in `ids` is among the names. -/
theorem mem_names_of_ids (h : s.ids.find? name = some id) : name ∈ s.names := by
  obtain ⟨i, hname, -⟩ := s.idAt_of_ids name id h
  exact List.mem_of_getElem? hname

theorem mem_names_register {n : String} :
    n ∈ (s.register name).2.names ↔ n ∈ s.names ∨ n = name := by
  cases hid : s.ids.find? name with
  | some id =>
    rw [register_of_some hid]
    refine ⟨.inl, ?_⟩
    rintro (hn | rfl)
    · exact hn
    · exact mem_names_of_ids hid
  | none => simp [register_of_none hid, addName]

@[simp] theorem listed_register (s : Store) (name : String) :
    (s.register name).2.listed = s.listed := by
  rw [register]
  split <;> rfl

/-- To `register` a name leaves it with an id and every other name with the id it has. -/
theorem ids_register (s : Store) (name n : String) : (s.register name).2.ids.find? n =
    if n = name then some (s.register name).1 else s.ids.find? n := by
  cases hid : s.ids.find? name with
  | some id =>
    rw [register_of_some hid]
    split
    next hn => rw [hn, hid]
    next => rfl
  | none =>
    rw [register_of_none hid, addName, Table.find?_put]
    simp only [eq_comm]

@[simp] theorem names_enlist (s : Store) (name : String) :
    (s.enlist name).2.names = (s.register name).2.names := by
  rw [enlist]
  dsimp only
  split <;> rfl

@[simp] theorem ids_enlist (s : Store) (name : String) :
    (s.enlist name).2.ids = (s.register name).2.ids := by
  rw [enlist]
  dsimp only
  split <;> rfl

/-- In a `Sound` store, a name without an id is a new one. -/
theorem Sound.not_mem_names (h : s.Sound) (hid : s.ids.find? name = none) : name ∉ s.names := by
  intro hname
  have hknown := h.known name hname
  rw [hid] at hknown
  cases hknown

theorem Sound.register (h : s.Sound) (name : String) : (s.register name).2.Sound := by
  cases hid : s.ids.find? name with
  | some id => rwa [register_of_some hid]
  | none =>
    refine ⟨?_, ?_, ?_⟩
    · rw [register_of_none hid]
      exact List.nodup_append.mpr ⟨h.nodup, List.nodup_singleton name, fun a ha b hb => by
        rw [List.mem_singleton.mp hb]; rintro rfl; exact h.not_mem_names hid ha⟩
    · intro n hn
      rw [ids_register]
      split
      · rfl
      next hne => exact h.known n ((mem_names_register.mp hn).resolve_right hne)
    · intro hcount id hlisted
      rw [listed_register] at hlisted
      have hgrows := register_grows s name
      obtain ⟨n, hn⟩ := h.named (.of_grows hgrows hcount) id hlisted
      exact ⟨n, hgrows.name? hn⟩

theorem Sound.enlist (h : s.Sound) (name : String) : (s.enlist name).2.Sound := by
  have hregister := h.register name
  refine ⟨by rw [names_enlist]; exact hregister.nodup, ?_, fun hcount id hid => ?_⟩
  · rw [names_enlist, ids_enlist]
    exact hregister.known
  have hname := name?_enlist hcount
  rw [Store.enlist] at hid hcount hname ⊢
  dsimp only at hid hcount hname ⊢
  split at hid
  next hold =>
    simp only [hold, if_true] at hcount ⊢
    exact hregister.named hcount id hid
  next hnew =>
    simp only [hnew] at hcount hname ⊢
    obtain hid | hid := List.mem_append.mp hid
    · exact hregister.named hcount id hid
    · exact ⟨name, by rw [List.mem_singleton.mp hid]; exact hname⟩

/-- Points have no part in it. -/
theorem Sound.withPoints (h : s.Sound) (points : List Point) : Sound { s with points } :=
  ⟨h.nodup, h.known, h.named⟩

/-- To `enlist` one series after another keeps a store `Sound`. -/
theorem Sound.foldl_enlist (h : s.Sound) (names : List String) :
    (names.foldl (fun s name => (Store.enlist s name).2) s).Sound := by
  induction names generalizing s with
  | nil => exact h
  | cons name names ih => exact ih (h.enlist name)

theorem sound_ofSeries (names : List String) (points : List Point) :
    (ofSeries names points).Sound := (sound_empty.foldl_enlist names).withPoints points

theorem Sound.append? {p : Point} (h : s.Sound) (happend : s.append? p = some s') : s'.Sound := by
  rw [Store.append?] at happend
  split at happend
  · cases happend
    exact h.withPoints _
  · cases happend

/-- **The `ids` of a `Sound` store** are those of its names: each has its position for an id,
counted from 1, and nothing else has an id. -/
theorem Sound.ids_eq_some_iff (h : s.Sound) (hcount : s.Countable) :
    s.ids.find? name = some id ↔ ∃ i, s.names[i]? = some name ∧ id.toNat = i + 1 := by
  have hword : ∀ {i}, s.names[i]? = some name → (idAt i).toNat = i + 1 := by
    intro i hname
    obtain ⟨hlt, -⟩ := List.getElem?_eq_some_iff.mp hname
    rw [idAt, UInt64.toNat_ofNat']
    exact Nat.mod_eq_of_lt (Nat.lt_of_le_of_lt hlt hcount)
  constructor
  · intro hid
    obtain ⟨i, hname, rfl⟩ := s.idAt_of_ids name id hid
    exact ⟨i, hname, hword hname⟩
  · rintro ⟨i, hname, hid⟩
    -- the name has an id, which is that of a position; the name is at no other
    obtain ⟨known, hknown⟩ :=
      Option.isSome_iff_exists.mp (h.known name (List.mem_of_getElem? hname))
    obtain ⟨j, hname', rfl⟩ := s.idAt_of_ids name known hknown
    obtain ⟨hlt, -⟩ := List.getElem?_eq_some_iff.mp hname
    obtain rfl : i = j := (List.getElem?_inj hlt h.nodup).mp (hname.trans hname'.symm)
    rw [hknown, UInt64.toNat_inj.mp (hid.trans (hword hname).symm)]

/-! ### Names that are listed -/

/-- **A store that `Grows`** leaves the `listedNames` as they are. -/
theorem Sound.listedNames_grow (h : s.Sound) (hcount : s.Countable) (hgrows : s.Grows s')
    (hlisted : s'.listed = s.listed) : s'.listedNames = s.listedNames := by
  rw [listedNames, listedNames, hlisted]
  refine List.filterMap_congr fun id hid => ?_
  obtain ⟨name, hname⟩ := h.named hcount id hid
  rw [hname, hgrows.name? hname]

/-- **To `enlist` a name** lists it behind the others, unless it is there already. -/
theorem Sound.listedNames_enlist (h : s.Sound) (hcount : (s.enlist name).2.Countable) :
    (s.enlist name).2.listedNames =
      if name ∈ s.listedNames then s.listedNames else s.listedNames ++ [name] := by
  have hregister := h.register name
  have hcount' : (s.register name).2.Countable := by
    rw [Countable, ← names_enlist]
    exact hcount
  have hname := name?_register hcount'
  have hgrown := h.listedNames_grow (.of_grows (register_grows s name) hcount')
    (register_grows s name) (listed_register s name)
  -- the name is listed if its id is: no other id has it
  have hlisted : name ∈ s.listedNames ↔ (s.register name).1 ∈ s.listed := by
    rw [← hgrown, listedNames, List.mem_filterMap, listed_register]
    constructor
    · rintro ⟨id, hid, hidname⟩
      rwa [← hregister.id_eq hidname hname]
    · exact fun hid => ⟨_, hid, hname⟩
  rw [Store.enlist]
  dsimp only
  simp only [listed_register, List.contains_iff_mem]
  by_cases hid : (s.register name).1 ∈ s.listed
  · rw [if_pos hid, if_pos (hlisted.mpr hid), hgrown]
  · rw [if_neg hid, if_neg (mt hlisted.mp hid), ← hgrown]
    have hnames : ({ (s.register name).2 with
        listed := s.listed ++ [(s.register name).1] } : Store).name? =
        (s.register name).2.name? := rfl
    rw [listedNames, hnames, List.filterMap_append, listedNames, listed_register]
    simp [hname]

/-! ### Queries -/

section RegisterAll

variable {α : Type} {step : Store → α → Record × Store} {nameOf : α → String}

/-- Rows that are registered by their names in `registerAll` keep a store `Sound`. -/
theorem Sound.registerAll (hstep : ∀ (s : Store) (row : α), (step s row).2 =
      (s.register (nameOf row)).2) (h : s.Sound) (rows : List α) :
    (Store.registerAll step s rows).2.Sound := by
  induction rows generalizing s with
  | nil => exact h
  | cons row rows ih => exact ih (by rw [hstep]; exact h.register _)

theorem listed_registerAll (hstep : ∀ (s : Store) (row : α), (step s row).2 =
      (s.register (nameOf row)).2) (s : Store) (rows : List α) :
    (Store.registerAll step s rows).2.listed = s.listed := by
  induction rows generalizing s with
  | nil => rfl
  | cons row rows ih => exact (ih _).trans (by rw [hstep, listed_register])

theorem mem_names_registerAll (hstep : ∀ (s : Store) (row : α), (step s row).2 =
      (s.register (nameOf row)).2) (s : Store) (rows : List α) {n : String} :
    n ∈ (Store.registerAll step s rows).2.names ↔ n ∈ s.names ∨ n ∈ rows.map nameOf := by
  induction rows generalizing s with
  | nil => simp [Store.registerAll]
  | cons row rows ih =>
    refine (ih _).trans ?_
    rw [hstep, mem_names_register, List.map_cons, List.mem_cons, or_assoc]

end RegisterAll

variable {document : Option Json}

theorem sound_answer (h : s.Sound) (p : Plan) : (s.answer p).2.Sound := by
  cases p with
  | names f => exact h
  | select f o => exact h
  | join f o => exact h.registerAll (fun _ _ => rfl) _
  | aggregate f fn => exact h.registerAll (fun _ _ => rfl) _

theorem listed_answer (s : Store) (p : Plan) : (s.answer p).2.listed = s.listed := by
  cases p with
  | names f => rfl
  | select f o => rfl
  | join f o => exact listed_registerAll (fun _ _ => rfl) s _
  | aggregate f fn => exact listed_registerAll (fun _ _ => rfl) s _

/-- **A `query` keeps a store `Sound`.** -/
theorem Sound.query (h : s.Sound) (document : Option Json) : (s.query document).2.Sound := by
  cases document with
  | none => exact h
  | some j =>
    simp only [Store.query]
    split
    · exact h
    · exact sound_answer h _

theorem listed_query (s : Store) (document : Option Json) :
    (s.query document).2.listed = s.listed := by
  cases document with
  | none => rfl
  | some j =>
    simp only [Store.query]
    split
    · rfl
    · exact listed_answer s _

/-- **A `query` lists nothing.** -/
theorem Sound.listedNames_query (h : s.Sound) (hcount : s.Countable) (document : Option Json) :
    (s.query document).2.listedNames = s.listedNames :=
  h.listedNames_grow hcount (grows_query s document) (listed_query s document)

end TimeSeries.Store
