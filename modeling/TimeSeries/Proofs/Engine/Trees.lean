import TimeSeries.Files

/-!
# Trees of files that agree

Where a path leads depends on the directories of a tree only (`FileTree.walk_eq_ok`), and files
that are written or removed are no directories. So two trees that agree but for some places go
on to agree while files are written and removed: at the same place in both (`Agrees.put`,
`Agrees.erase`), or in one of them at a place where they need not agree (`Agrees.put_apart`,
`Agrees.erase_apart`).
-/

namespace TimeSeries.FileTree

variable {t t' t₁ : FileTree} {p : Path} {place : FileKey}

/-! ### Walking -/

/-- **The same directories** in two trees. -/
def SameDirectories (t t' : FileTree) : Prop :=
  ∀ place, t.nodes.find? place = some .directory ↔ t'.nodes.find? place = some .directory

theorem checkDirectory_eq_ok {u : Unit} : t.checkDirectory place = .ok u ↔
    place.isEmpty = true ∨ t.nodes.find? place = some .directory := by
  rw [checkDirectory]
  split
  next hempty => simp [hempty]
  next hempty =>
    simp only [hempty]
    cases t.nodes.find? place with
    | none => simp
    | some node => cases node <;> simp

theorem step_eq_ok (h : SameDirectories t t') {segment : String} {next : FileKey} :
    t.step place segment = .ok next ↔ t'.step place segment = .ok next := by
  have hcheck : ∀ u, t.checkDirectory place = .ok u ↔ t'.checkDirectory place = .ok u := by
    intro u
    rw [checkDirectory_eq_ok, checkDirectory_eq_ok, h place]
  rw [step, step]
  cases hdirectory : t.checkDirectory place with
  | ok u => rw [(hcheck u).mp hdirectory]
  | error fault =>
    cases hdirectory' : t'.checkDirectory place with
    | ok u =>
      rw [(hcheck u).mpr hdirectory'] at hdirectory
      cases hdirectory
    | error fault' => simp

/-- **A path leads to the same place** by `walk` in trees with the same directories. -/
theorem walk_eq_ok (h : SameDirectories t t') : t.walk p = .ok place ↔ t'.walk p = .ok place := by
  have hsegments : ∀ (segments : List String) (start : FileKey),
      segments.foldlM t.step start = .ok place ↔ segments.foldlM t'.step start = .ok place := by
    intro segments
    induction segments with
    | nil => exact fun start => Iff.rfl
    | cons segment segments ih =>
      intro start
      rw [List.foldlM_cons, List.foldlM_cons]
      cases hstep : t.step start segment with
      | ok next =>
        rw [(step_eq_ok h).mp hstep]
        exact ih next
      | error fault =>
        cases hstep' : t'.step start segment with
        | ok next =>
          rw [(step_eq_ok h).mpr hstep'] at hstep
          cases hstep
        | error fault' => exact ⟨fun h => (by cases h), fun h => (by cases h)⟩
  rw [walk, walk]
  split
  · exact Iff.rfl
  · split
    · exact Iff.rfl
    · exact hsegments _ _

/-! ### Writing and removing -/

/-- A file is written by `writeFile` where there is nothing. -/
theorem writeFile_eq_ok {contents : String} (hnothing : t.has p = false) :
    t.writeFile p contents = .ok t₁ ↔ ∃ place, t.walk p = .ok place ∧
      t₁ = ⟨t.nodes.put place (.file contents)⟩ := by
  rw [has, Option.isSome_eq_false_iff, Option.isNone_iff_eq_none] at hnothing
  rw [writeFile, hnothing]
  cases t.walk p with
  | error fault => simp
  | ok place => simp [eq_comm]

/-- A file is removed by `removeFile` from where it is. -/
theorem removeFile_eq_ok (hfile : t.hasFile p = true) : ∃ place contents, t.walk p = .ok place ∧
    t.nodes.find? place = some (.file contents) ∧ t.removeFile p = .ok ⟨t.nodes.erase place⟩ := by
  have hnode : ∃ contents, t.node? p = some (.file contents) := by
    rw [hasFile] at hfile
    split at hfile
    next contents hnode => exact ⟨contents, hnode⟩
    next => cases hfile
  obtain ⟨contents, hnode⟩ := hnode
  have hremove := hnode
  rw [node?] at hnode
  cases hwalk : t.walk p with
  | error fault => rw [hwalk] at hnode; cases hnode
  | ok place =>
    rw [hwalk] at hnode
    dsimp only at hnode
    split at hnode
    · cases hnode
    · exact ⟨place, contents, rfl, hnode, by rw [removeFile, hwalk, hremove]⟩

/-- Where `has` finds nothing there is no directory. -/
theorem find?_of_has_eq_false (hnothing : t.has p = false) (hwalk : t.walk p = .ok place) :
    t.nodes.find? place = none := by
  rw [has, Option.isSome_eq_false_iff, Option.isNone_iff_eq_none, node?, hwalk] at hnothing
  dsimp only at hnothing
  split at hnothing
  · cases hnothing
  · exact hnothing

/-! ### Agreement -/

/-- **Agreement** of two trees but for some places: `SameDirectories`, and the same at all other
places. -/
structure Agrees (apart : FileKey → Prop) (t t' : FileTree) : Prop where
  /-- the directories are the same -/
  directories : SameDirectories t t'
  /-- at other places there is the same -/
  nodes : ∀ place, ¬apart place → t.nodes.find? place = t'.nodes.find? place

namespace Agrees

variable {apart : FileKey → Prop} {contents : String}

theorem refl (apart : FileKey → Prop) (t : FileTree) : Agrees apart t t :=
  ⟨fun _ => Iff.rfl, fun _ _ => rfl⟩

/-- What `node?` finds at a path that leads to a place of agreement. -/
theorem node?_eq (h : Agrees apart t t') (hp : ∀ place, t.walk p = .ok place → ¬apart place) :
    t.node? p = t'.node? p := by
  rw [node?, node?]
  cases hwalk : t.walk p with
  | ok place =>
    rw [(walk_eq_ok h.directories).mp hwalk]
    dsimp only
    rw [h.nodes place (hp place hwalk)]
  | error fault =>
    cases hwalk' : t'.walk p with
    | ok place =>
      rw [(walk_eq_ok h.directories).mpr hwalk'] at hwalk
      cases hwalk
    | error fault' => rfl

theorem has_eq (h : Agrees apart t t') (hp : ∀ place, t.walk p = .ok place → ¬apart place) :
    t.has p = t'.has p := by rw [has, has, h.node?_eq hp]

theorem hasFile_eq (h : Agrees apart t t') (hp : ∀ place, t.walk p = .ok place → ¬apart place) :
    t.hasFile p = t'.hasFile p := by rw [hasFile, hasFile, h.node?_eq hp]

theorem put (h : Agrees apart t t') (place : FileKey) (node : Node) :
    Agrees apart ⟨t.nodes.put place node⟩ ⟨t'.nodes.put place node⟩ := by
  refine ⟨fun k => ?_, fun k hk => ?_⟩ <;> rw [Table.find?_put, Table.find?_put] <;> split
  · exact Iff.rfl
  · exact h.directories k
  · rfl
  · exact h.nodes k hk

/-- A node is put in the first tree alone, at a place apart. -/
theorem put_apart (h : Agrees apart t t') {node : Node} (hplace : apart place)
    (hnothing : t.nodes.find? place ≠ some .directory) (hnode : node ≠ .directory) :
    Agrees apart ⟨t.nodes.put place node⟩ t' := by
  refine ⟨fun k => ?_, fun k hk => ?_⟩ <;> rw [Table.find?_put] <;> split
  next heq =>
    subst heq
    exact ⟨fun hdirectory => absurd (Option.some.inj hdirectory) hnode,
      fun hdirectory => absurd ((h.directories _).mpr hdirectory) hnothing⟩
  next => exact h.directories k
  next heq => exact absurd (heq ▸ hplace) hk
  next => exact h.nodes k hk

theorem erase (h : Agrees apart t t') (place : FileKey) :
    Agrees apart ⟨t.nodes.erase place⟩ ⟨t'.nodes.erase place⟩ := by
  refine ⟨fun k => ?_, fun k hk => ?_⟩ <;> rw [Table.find?_erase, Table.find?_erase] <;> split
  · exact Iff.rfl
  · exact h.directories k
  · rfl
  · exact h.nodes k hk

/-- A node is removed from the first tree alone, at a place apart. -/
theorem erase_apart (h : Agrees apart t t') (hplace : apart place)
    (hnode : t.nodes.find? place ≠ some .directory) :
    Agrees apart ⟨t.nodes.erase place⟩ t' := by
  refine ⟨fun k => ?_, fun k hk => ?_⟩ <;> rw [Table.find?_erase] <;> split
  next heq =>
    subst heq
    exact ⟨fun hdirectory => (by cases hdirectory),
      fun hdirectory => absurd ((h.directories _).mpr hdirectory) hnode⟩
  next => exact h.directories k
  next heq => exact absurd (heq ▸ hplace) hk
  next => exact h.nodes k hk

end Agrees

end TimeSeries.FileTree
