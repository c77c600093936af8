import TimeSeries.Proofs.Client.DatabaseFiles
import TimeSeries.Proofs.Series.Metrics

/-!
# Places of files

The engine keeps stores by the components of a path, and the tree of files keeps nodes by the place
that a path leads to. Wherever a path leads, its components say where (`FileTree.place_of_walk`):
those of them that are no `..` make up the place, and a `..` takes one away. So paths with the same
components lead to the same place, while the other way round `x/../a` and `a` lead to one place and
have stores of their own. Creating a database puts a file where nothing was
(`Database.create_cases`), and removing one takes away the file at its own place and the store that
goes by the components (`Database.remove_cases`).
-/

namespace TimeSeries

/-! ### Where components lead -/

namespace FileKey

/-- One component further from a place. -/
def forward (place : FileKey) (component : String) : FileKey :=
  if component = "/" ∨ component = "." then place
  else if component = ".." then place.dropLast
  else place ++ [component]

/-- **The place** that a path with these components leads to, if it leads anywhere. -/
def place (key : FileKey) : FileKey := key.foldl forward []

end FileKey

namespace Path

variable {p : Path} {segment : String}

/-- There is no separator within a segment. -/
theorem ne_separator_of_mem_segments (h : segment ∈ p.segments) : segment ≠ "/" := by
  obtain ⟨piece, hpiece, rfl⟩ := List.mem_map.mp h
  intro heq
  have hpiece' : piece = ['/'] := by rw [← String.toList_ofList (l := piece), heq]; rfl
  have hfree := Text.eq_false_of_mem_splitOnP hpiece '/' (by simp [hpiece'])
  cases hfree

/-- What is at the `front` of a path does not lead on. -/
theorem foldl_front (p : Path) (place : FileKey) : p.front.foldl FileKey.forward place = place := by
  rw [front]
  split
  · rfl
  · split <;> rfl

end Path

namespace FileTree

variable {t : FileTree} {p : Path} {place next : FileKey}

/-- **A `step`** leads `forward` where the segment is a component, and nowhere if it is none. -/
theorem eq_of_step {segment : String} (hsegment : segment ≠ "/")
    (h : t.step place segment = .ok next) :
    next = if Path.isComponent segment then FileKey.forward place segment else place := by
  rw [step] at h
  cases hdirectory : t.checkDirectory place with
  | error fault => rw [hdirectory] at h; cases h
  | ok u =>
    rw [hdirectory] at h
    by_cases hstay : segment = "" ∨ segment = "."
    · have hnone : Path.isComponent segment = false := by
        rcases hstay with rfl | rfl <;> rfl
      rw [if_pos hstay] at h
      rw [hnone]
      exact (Except.ok.inj h).symm
    · obtain ⟨hempty, hdot⟩ := not_or.mp hstay
      have hcomponent : Path.isComponent segment = true := by simp [Path.isComponent, hempty, hdot]
      rw [if_neg hstay] at h
      rw [if_pos hcomponent, FileKey.forward, if_neg (not_or.mpr ⟨hsegment, hdot⟩)]
      dsimp only at h
      split at h
      next hup => rw [if_pos hup]; exact (Except.ok.inj h).symm
      next hup =>
        rw [if_neg hup]
        split at h
        · cases h
        · exact (Except.ok.inj h).symm

/-- Segments lead where those of them lead that are components, as `Path.isComponent` says. -/
theorem eq_of_steps {segments : List String} {start : FileKey} (hsegments : ∀ s ∈ segments, s ≠ "/")
    (h : segments.foldlM t.step start = .ok place) :
    place = (segments.filter Path.isComponent).foldl FileKey.forward start := by
  induction segments generalizing start with
  | nil => exact (Except.ok.inj h).symm
  | cons segment segments ih =>
    obtain ⟨hsegment, hrest⟩ := List.forall_mem_cons.mp hsegments
    rw [List.foldlM_cons] at h
    cases hstep : t.step start segment with
    | error fault => rw [hstep] at h; cases h
    | ok next =>
      rw [hstep] at h
      rw [ih hrest h, eq_of_step hsegment hstep, List.filter_cons]
      split <;> rfl

/-- **Where `walk` leads** the components of the path say, by `place`. -/
theorem place_of_walk (h : t.walk p = .ok place) : place = p.key.place := by
  rw [walk] at h
  split at h
  · cases h
  · split at h
    · cases h
    · rw [FileKey.place, Path.key, List.foldl_append, Path.foldl_front]
      exact eq_of_steps (fun s hs => Path.ne_separator_of_mem_segments hs) h

/-- Where `hasFile` finds a file there is a node. -/
theorem has_place_of_hasFile (h : t.hasFile p = true) : t.nodes.has p.key.place = true := by
  obtain ⟨place, contents, hwalk, hnode, -⟩ := removeFile_eq_ok h
  rw [← place_of_walk hwalk, Table.has, hnode, Option.isSome_some]

/-! ### What databases do to places -/

/-- **Calling `createDatabase`** fails without a trace, or puts a file where nothing was. -/
theorem createDatabase_cases (directory : Path) (name : String) (volumes : VolumeSettings)
    (t : FileTree) :
    (∃ failure, t.createDatabase directory name volumes = (.error failure, t)) ∨
      t.nodes.find? (databasePath directory name).key.place = none ∧
        t.createDatabase directory name volumes = (.ok (databasePath directory name),
          ⟨t.nodes.put (databasePath directory name).key.place
            (.file (Memory.marker volumes))⟩) := by
  rw [createDatabase]
  split
  next failure _ => exact .inl ⟨failure, rfl⟩
  next =>
    split
    · exact .inl ⟨_, rfl⟩
    next hhas =>
      have hnothing := Bool.eq_false_iff.mpr hhas
      split
      next t₁ hwrite =>
        obtain ⟨place, hwalk, rfl⟩ := (writeFile_eq_ok hnothing).mp hwrite
        obtain rfl := place_of_walk hwalk
        exact .inr ⟨find?_of_has_eq_false hnothing hwalk, rfl⟩
      next => exact .inl ⟨_, rfl⟩

/-- **Calling `removeDatabase`** fails without a trace, or takes away what its path leads to. -/
theorem removeDatabase_cases (directory : Path) (name : String) (isOpen : Bool) (t : FileTree) :
    (∃ failure, t.removeDatabase directory name isOpen = (.error failure, t)) ∨
      t.removeDatabase directory name isOpen =
        (.ok (), ⟨t.nodes.erase (databasePath directory name).key.place⟩) := by
  rw [removeDatabase]
  split
  next failure _ => exact .inl ⟨failure, rfl⟩
  next hchecked =>
    split
    · exact .inl ⟨_, rfl⟩
    · obtain ⟨place, _, hwalk, -, hremove⟩ := removeFile_eq_ok (hasFile_of_checkRemoval hchecked)
      obtain rfl := place_of_walk hwalk
      rw [hremove]
      exact .inr rfl

end FileTree

/-! ### What is created and removed -/

namespace Database

variable (parse : String → Option Json) {w : World Memory} (directory : Path) (name : String)

/-- **Calling `create`** fails without a trace, or puts its file where nothing was. The engine does
not know of it. -/
theorem create_cases (hpanic : w.channel.panic = none) (volumes : VolumeSettings) :
    ∃ result w', create (Memory.engine parse) directory name volumes w = (result, w') ∧
      w'.engine = w.engine ∧
        ((∃ failure, result = .error failure ∧ w'.files = w.files) ∨
          result = .ok (databasePath directory name) ∧
            w.files.nodes.find? (databasePath directory name).key.place = none ∧
              w'.files.nodes = w.files.nodes.put (databasePath directory name).key.place
                (.file (Memory.marker volumes))) := by
  have hengine := (create_becomes parse (w := w) directory name volumes).engine
  obtain ⟨w', hcreate, hfiles⟩ := create_files parse directory name hpanic volumes
  rw [hcreate] at hengine
  refine ⟨_, w', hcreate, hengine, ?_⟩
  obtain ⟨failure, hfailed⟩ | ⟨hnothing, hcreated⟩ :=
    FileTree.createDatabase_cases directory name volumes w.files
  · rw [hfailed] at hfiles ⊢
    exact .inl ⟨failure, rfl, hfiles⟩
  · rw [hcreated] at hfiles ⊢
    exact .inr ⟨rfl, hnothing, by rw [hfiles]⟩

/-- **Calling `remove`** fails without a trace, or takes away its file and its store. -/
theorem remove_cases (hpanic : w.channel.panic = none) :
    ∃ result w', remove (Memory.engine parse) directory name w = (result, w') ∧
      (w'.engine = w.engine ∧ w'.files = w.files ∨
        w'.engine = w.engine.removed (databasePath directory name).key ∧
          w'.files.nodes = w.files.nodes.erase (databasePath directory name).key.place) := by
  obtain ⟨w', hremove, hfiles⟩ := remove_files parse directory name hpanic
  refine ⟨_, w', hremove, ?_⟩
  obtain ⟨failure, hfailed⟩ | hremoved := FileTree.removeDatabase_cases directory name
    (w.engine.databases.values.contains (databasePath directory name).key) w.files
  · rw [hfailed] at hfiles hremove
    refine .inl ⟨?_, hfiles⟩
    obtain ⟨_, w₁, heq, hbecomes⟩ | ⟨w₁, heq, -⟩ := remove_becomes parse directory name w
    · obtain rfl : w' = w₁ := congrArg Prod.snd (hremove.symm.trans heq)
      exact hbecomes.engine
    · cases congrArg Prod.fst (hremove.symm.trans heq)
  · rw [hremoved] at hfiles hremove
    refine .inr ⟨?_, by rw [hfiles]⟩
    obtain ⟨_, w₁, heq, -⟩ | ⟨w₁, heq, -, hbecomes⟩ := remove_becomes parse directory name w
    · cases congrArg Prod.fst (hremove.symm.trans heq)
    · obtain rfl : w' = w₁ := congrArg Prod.snd (hremove.symm.trans heq)
      exact hbecomes.engine

end Database

end TimeSeries
