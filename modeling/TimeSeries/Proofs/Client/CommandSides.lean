import TimeSeries.Proofs.Client.Readers

/-!
# The sides of commands

A parting divides labels and files into two sides, and a command is on a side if all that it
names is (`Parting.side?`). In a run of such commands everything stays on its side: a database
has a label on the side of its file, and what is opened from something goes by a label on the
side of that (`Parted`). Parted workspaces also account for all databases that their engine has
open.
-/

namespace TimeSeries

/-- **Parting** of labels and files: which are on the own side, `true`, and which on the other. -/
structure Parting : Type where
  /-- labels of databases -/
  databases : Label → Bool
  /-- labels of sessions -/
  sessions : Label → Bool
  /-- labels of readers -/
  readers : Label → Bool
  /-- files -/
  files : FileKey → Bool

/-- The file that a command names, if it is `create`, `openDatabase` or `remove`. -/
def Command.path? : Command → Option Path
  | create directory name _ | remove directory name | openDatabase _ directory name _ =>
    some (databasePath directory name)
  | _ => none

namespace Parting

/-- Everything is on the own side. -/
def whole : Parting := ⟨fun _ => true, fun _ => true, fun _ => true, fun _ => true⟩

/-- The side that two things are both on. -/
def common (a b : Bool) : Option Bool := if a = b then some a else none

/-- **The side of a `Command`**, unless it names things on both sides. `dropAll` names nothing: it
is done on the own side as well. -/
def side? (P : Parting) : Command → Option Bool
  | .create directory name _ | .remove directory name =>
    some (P.files (databasePath directory name).key)
  | .openDatabase label directory name _ =>
    common (P.databases label) (P.files (databasePath directory name).key)
  | .openSession label database => common (P.sessions label) (P.databases database)
  | .openReader label session _ => common (P.readers label) (P.sessions session)
  | .closeDatabase label | .dropDatabase label => some (P.databases label)
  | .closeSession label | .dropSession label | .write label .. | .writeAt label ..
  | .writeAll label _ | .rows label _ => some (P.sessions label)
  | .next label | .item label | .done label | .canProceed label | .closeReader label
  | .isClosed label | .dropReader label => some (P.readers label)
  | .dropAll => some true

variable {P : Parting} {c : Command} {side : Bool} {label : Label}

theorem common_eq_some {a b : Bool} : common a b = some side ↔ a = side ∧ b = side := by
  rw [common]
  split
  next heq => simp [heq]
  next hne =>
    refine ⟨fun h => (by cases h), ?_⟩
    rintro ⟨rfl, rfl⟩
    exact absurd rfl hne

theorem side?_whole (c : Command) : whole.side? c = some true := by
  cases c <;> rfl

theorem ne_dropAll (h : P.side? c = some false) : c ≠ .dropAll := by
  rintro rfl
  cases h

theorem side_of_databaseLabel? (h : P.side? c = some side) (hlabel : c.databaseLabel? = some label) :
    P.databases label = side := by
  cases c <;> cases hlabel <;> first | exact Option.some.inj h | exact (common_eq_some.mp h).1

theorem side_of_sessionLabel? (h : P.side? c = some side) (hlabel : c.sessionLabel? = some label) :
    P.sessions label = side := by
  cases c <;> cases hlabel <;> first | exact Option.some.inj h | exact (common_eq_some.mp h).1

theorem side_of_readerLabel? (h : P.side? c = some side) (hlabel : c.readerLabel? = some label) :
    P.readers label = side := by
  cases c <;> cases hlabel <;> first | exact Option.some.inj h | exact (common_eq_some.mp h).1

theorem side_of_path? {p : Path} (h : P.side? c = some side) (hpath : c.path? = some p) :
    P.files p.key = side := by
  cases c <;> cases hpath <;> first | exact Option.some.inj h | exact (common_eq_some.mp h).2

end Parting

/-! ### Where databases and sessions come from -/

section From

variable {parse : String → Option Json} {ws : Workspace Memory} {H : History} {c : Command}
  {label : Label}

/-- **Where a database comes from**: it was there before `run`, or `openDatabase` opened it. -/
theorem InOrder.databaseFrom_run (h : InOrder ws H) (hall : c ≠ .dropAll)
    (hallows : ws.Allows (.command c)) {d : Database}
    (hd : (ws.run (Memory.engine parse) c).2.databases.find? label = some d) :
    (∃ old, ws.databases.find? label = some old ∧ d.file = old.file) ∨
      ∃ directory name settings, c = .openDatabase label directory name settings ∧
        d.file = databasePath directory name := by
  by_cases hlabel : c.databaseLabel? = some label
  · cases c with
    | openDatabase l directory name settings =>
      obtain rfl := Option.some.inj hlabel
      rw [Workspace.run] at hd
      obtain ⟨failure, w', hopen, -⟩ | ⟨w', hopen, -, -⟩ :=
        Database.openAt_becomes parse directory name settings ws.world <;> rw [hopen] at hd
      · exact .inl ⟨d, hd, rfl⟩
      · dsimp only at hd
        rw [Table.find?_put_self] at hd
        cases hd
        exact .inr ⟨directory, name, settings, rfl, rfl⟩
    | closeDatabase l =>
      obtain rfl := Option.some.inj hlabel
      rw [Workspace.run] at hd
      split at hd
      · exact .inl ⟨d, hd, rfl⟩
      next old hold =>
        split at hd
        · exact .inl ⟨d, hd, rfl⟩
        · obtain ⟨w', hclose, -⟩ := old.close_becomes parse h.panic
          rw [hclose] at hd
          dsimp only at hd
          rw [Table.find?_put_self] at hd
          cases hd
          exact .inl ⟨old, hold, rfl⟩
    | dropDatabase l =>
      obtain rfl := Option.some.inj hlabel
      rw [Workspace.run] at hd
      split at hd
      · exact .inl ⟨d, hd, rfl⟩
      · split at hd
        · exact .inl ⟨d, hd, rfl⟩
        · rw [Workspace.databases_dropDatabase, Table.find?_erase, if_pos rfl] at hd
          cases hd
    | _ => cases hlabel
  · rw [Workspace.databases_run hall hallows (.inl hlabel)] at hd
    exact .inl ⟨d, hd, rfl⟩

/-- **Where a session comes from**: it was there before `run`, or `openSession` began it. -/
theorem Workspace.sessionFrom_run (hall : c ≠ .dropAll)
    (hallows : ws.Allows (.command c)) {s : Child Session}
    (hs : (ws.run (Memory.engine parse) c).2.sessions.find? label = some s) :
    (∃ old, ws.sessions.find? label = some old ∧ s.parent = old.parent) ∨
      c = .openSession label s.parent := by
  by_cases hlabel : c.sessionLabel? = some label
  · cases c with
    | openSession l database =>
      obtain rfl := Option.some.inj hlabel
      rw [Workspace.run, Workspace.openSession] at hs
      split at hs
      · exact .inl ⟨s, hs, rfl⟩
      · split at hs
        · exact .inl ⟨s, hs, rfl⟩
        · dsimp only at hs
          rw [Table.find?_put_self] at hs
          cases hs
          exact .inr rfl
    | closeSession l =>
      obtain rfl := Option.some.inj hlabel
      rw [Workspace.run] at hs
      split at hs
      · exact .inl ⟨s, hs, rfl⟩
      next old hold =>
        split at hs
        · exact .inl ⟨s, hs, rfl⟩
        · dsimp only at hs
          rw [Table.find?_put_self] at hs
          cases hs
          exact .inl ⟨old, hold, rfl⟩
    | dropSession l =>
      obtain rfl := Option.some.inj hlabel
      rw [Workspace.run] at hs
      split at hs
      · exact .inl ⟨s, hs, rfl⟩
      · split at hs
        · exact .inl ⟨s, hs, rfl⟩
        · rw [Workspace.sessions_dropSession, Table.find?_erase, if_pos rfl] at hs
          cases hs
    | _ => cases hlabel
  · rw [Workspace.sessions_run hall hallows (.inl hlabel)] at hs
    exact .inl ⟨s, hs, rfl⟩

end From

/-! ### Accounting for open databases -/

/-- **Accounted for**: the handles of all `databases` that the engine has open are those of a
caller. -/
def Accounted (m : Memory) (databases : Table Label Database) : Prop :=
  ∀ handle file, (handle, file) ∈ m.databases.entries →
    ∃ label d, databases.find? label = some d ∧ d.handle = some handle ∧ d.file.key = file

/-- What is open after a database was `released` has another handle, and was open before. -/
theorem Database.mem_released {m : Memory} {d : Database} {handle : Handle} {file : FileKey}
    (h : (handle, file) ∈ (d.released m).databases.entries) :
    d.handle ≠ some handle ∧ (handle, file) ∈ m.databases.entries := by
  rw [released] at h
  split at h
  next other hhandle =>
    rw [hhandle]
    rw [Memory.closeDatabase] at h
    split at h
    · obtain ⟨hne, hmem⟩ := Table.mem_entries_erase h
      exact ⟨fun heq => hne (Option.some.inj heq).symm, hmem⟩
    next hclosed =>
      refine ⟨?_, h⟩
      rintro ⟨⟩
      exact hclosed (Table.has_of_mem_entries h)
  next hhandle => exact ⟨by rw [hhandle]; exact fun heq => (by cases heq), h⟩

namespace Accounted

variable {m : Memory} {databases databases' : Table Label Database} {label : Label} {d : Database}

/-- A database that is `released` is let go of. -/
theorem release (h : Accounted m databases) (hd : databases.find? label = some d)
    (hother : ∀ {l}, l ≠ label → databases'.find? l = databases.find? l) :
    Accounted (d.released m) databases' := by
  intro handle file hmem
  obtain ⟨hne, hmem⟩ := Database.mem_released hmem
  obtain ⟨l, d', hd', hhandle, hfile⟩ := h _ _ hmem
  refine ⟨l, d', ?_, hhandle, hfile⟩
  rw [hother, hd']
  rintro rfl
  obtain rfl := Option.some.inj (hd.symm.trans hd')
  exact hne hhandle

/-- A database that is opened gets `nextHandle` and takes the place of what was at its label. -/
theorem opened (h : Accounted m databases) {file : Path} {settings : OpenSettings} {m' : Memory}
    (hm' : ∀ {handle key}, (handle, key) ∈ m'.databases.entries →
      (∀ old, databases.find? label = some old → old.handle ≠ some handle) ∧
        (handle, key) ∈ (m.databases.put m.nextHandle file.key).entries) :
    Accounted m' ((databases.erase label).put label ⟨some m.nextHandle, file, settings⟩) := by
  intro handle key hmem
  obtain ⟨hold, hmem⟩ := hm' hmem
  obtain ⟨rfl, rfl⟩ | hmem := Table.mem_entries_put hmem
  · exact ⟨label, _, Table.find?_put_self _ _ _, rfl, rfl⟩
  · obtain ⟨l, d, hd, hhandle, hfile⟩ := h _ _ hmem
    have hne : label ≠ l := by
      rintro rfl
      exact hold d hd hhandle
    refine ⟨l, d, ?_, hhandle, hfile⟩
    rw [Table.find?_put_ne _ _ hne, Table.find?_erase, if_neg hne, hd]

end Accounted

/-- **All is `Accounted` for** in a workspace without a panic. -/
structure Workspace.Accounts (ws : Workspace Memory) : Prop where
  /-- there was no panic -/
  panic : ws.world.channel.panic = none
  /-- open databases are accounted for -/
  accounted : Accounted ws.world.engine ws.databases

namespace Workspace.Accounts

variable {ws : Workspace Memory} (parse : String → Option Json)

theorem dropReader (h : ws.Accounts) (label : Label) :
    (ws.dropReader (Memory.engine parse) label).Accounts := by
  have hleads := leads_dropReader parse ws label
  have hobserved := hleads.observed fun _ hcall => hcall.reads
  have hsame := Memory.databases_leads parse hleads
    fun _ hcall => (on_of_reads hcall.reads).2.2
  refine ⟨by rw [hobserved.channel, h.panic], fun _ _ hmem => ?_⟩
  rw [hsame] at hmem
  rw [databases_dropReader]
  exact h.accounted _ _ hmem

theorem dropSession (h : ws.Accounts) (label : Label) :
    (ws.dropSession (Memory.engine parse) label).Accounts := by
  rw [Workspace.dropSession]
  split
  next s _ =>
    have hdropped := s.it.drop_becomes parse h.panic
    obtain ⟨sessions, hreleased⟩ := s.it.released_eq ws.world.engine
    refine ⟨hdropped.no_panic h.panic, fun _ _ hmem => ?_⟩
    dsimp only at hmem ⊢
    rw [hdropped.engine, hreleased] at hmem
    exact h.accounted _ _ hmem
  next => exact h

theorem dropDatabase (h : ws.Accounts) (label : Label) :
    (ws.dropDatabase (Memory.engine parse) label).Accounts := by
  rw [Workspace.dropDatabase]
  split
  next d hd =>
    have hdropped := d.drop_becomes parse h.panic
    refine ⟨hdropped.no_panic h.panic, ?_⟩
    dsimp only
    rw [hdropped.engine]
    refine h.accounted.release hd fun hne => ?_
    rw [Table.find?_erase, if_neg hne.symm]
  next => exact h

/-- **Everything is let go of.** -/
theorem dropAll (h : ws.Accounts) : (ws.dropAll (Memory.engine parse)).Accounts := by
  rw [Workspace.dropAll]
  exact InOrder.foldl_keeps (P := Accounts) (fun _ label hv => hv.dropDatabase parse label) _
    (InOrder.foldl_keeps (P := Accounts) (fun _ label hv => hv.dropSession parse label) _
      (InOrder.foldl_keeps (P := Accounts) (fun _ label hv => hv.dropReader parse label) _ h))

end Workspace.Accounts

theorem InOrder.accounted_run {parse : String → Option Json} {ws : Workspace Memory} {H : History}
    {c : Command} (h : InOrder ws H) (haccounted : Accounted ws.world.engine ws.databases)
    (hallows : ws.Allows (.command c)) :
    Accounted (ws.run (Memory.engine parse) c).2.world.engine
      (ws.run (Memory.engine parse) c).2.databases := by
  have haccounts : ws.Accounts := ⟨h.panic, haccounted⟩
  by_cases hall : c = .dropAll
  · subst hall
    exact (haccounts.dropAll parse).accounted
  cases c with
  | openDatabase label directory name settings =>
    rw [Workspace.run]
    obtain ⟨failure, w', hopen, hbecomes⟩ | ⟨w', hopen, -, hbecomes⟩ :=
      Database.openAt_becomes parse directory name settings ws.world <;> rw [hopen]
    · dsimp only
      rw [hbecomes.engine]
      exact haccounted
    · dsimp only
      rw [Workspace.databases_dropDatabase]
      refine haccounted.opened fun hmem => ?_
      rw [Workspace.dropDatabase] at hmem
      split at hmem
      next old hold =>
        have hdropped := old.drop_becomes parse (hbecomes.no_panic h.panic)
        dsimp only at hmem hold
        rw [hdropped.engine] at hmem
        obtain ⟨hne, hmem⟩ := Database.mem_released hmem
        rw [hbecomes.engine] at hmem
        refine ⟨fun old' hold' => ?_, hmem⟩
        rwa [← Option.some.inj (hold.symm.trans hold')]
      next hnone =>
        dsimp only at hmem hnone
        rw [hbecomes.engine] at hmem
        refine ⟨fun old hold => ?_, hmem⟩
        rw [hnone] at hold
        cases hold
  | closeDatabase label =>
    rw [Workspace.run]
    split
    · exact haccounted
    next d hd =>
      split
      · exact haccounted
      · obtain ⟨w', hclose, hbecomes⟩ := d.close_becomes parse h.panic
        rw [hclose]
        dsimp only
        rw [hbecomes.engine]
        exact haccounted.release hd fun hne => Table.find?_put_ne _ _ hne.symm
  | dropDatabase label =>
    rw [Workspace.run]
    split
    · exact haccounted
    · split
      · exact haccounted
      · exact (haccounts.dropDatabase parse label).accounted
  | _ =>
    have hdatabases := @Workspace.engine_databases_run parse ws _ hall id
    obtain hsame | ⟨_, hlabel, -⟩ := Workspace.databases_edit (E := Memory.engine parse) hall hallows
    · intro handle file hmem
      rw [hdatabases] at hmem
      rw [hsame]
      exact haccounted _ _ hmem
    · cases hlabel

/-! ### Parted workspaces -/

/-- **Parted**: everything in a workspace stays on the side that `P` gives it, and all open
databases are `Accounted` for. -/
structure Parted (P : Parting) (ws : Workspace Memory) : Prop where
  /-- a database is on the side of its file -/
  databases : ∀ {label d}, ws.databases.find? label = some d →
    P.files d.file.key = P.databases label
  /-- a session is on the side of its database -/
  sessions : ∀ {label s}, ws.sessions.find? label = some s →
    P.databases s.parent = P.sessions label
  /-- a reader is on the side of its session -/
  readers : ∀ {label r}, ws.readers.find? label = some r → P.sessions r.parent = P.readers label
  /-- open databases are accounted for -/
  accounted : Accounted ws.world.engine ws.databases
  /-- no two sessions have the same label -/
  distinct_sessions : ws.sessions.Distinct
  /-- no two readers have the same label -/
  distinct_readers : ws.readers.Distinct

namespace Parted

variable {P : Parting} {ws : Workspace Memory} {H : History} {c : Command} {side : Bool}

theorem start (P : Parting) (files : FileTree) : Parted P (.ofWorld { engine := {}, files }) := by
  refine ⟨?_, ?_, ?_, ?_, List.nodup_nil, List.nodup_nil⟩
  · intro label d hd
    cases hd
  · intro label s hs
    cases hs
  · intro label r hr
    cases hr
  · intro handle file hmem
    cases hmem

/-- Where everything was let go of there is nothing. -/
theorem dropAll (parse : String → Option Json) (h : Parted P ws) (horder : InOrder ws H) :
    Parted P (ws.dropAll (Memory.engine parse)) := by
  obtain ⟨hdatabases, hsessions, hreaders⟩ := ws.dropAll_tables (Memory.engine parse)
  have haccounts : ws.Accounts := ⟨horder.panic, h.accounted⟩
  refine ⟨fun {l _} hd => ?_, fun {l _} hs => ?_, fun {l _} hr => ?_,
    (haccounts.dropAll parse).accounted, ?_, ?_⟩
  · rw [hdatabases, Workspace.find?_foldl_sortLabels _ l] at hd
    cases hd
  · rw [hsessions, Workspace.find?_foldl_sortLabels _ l] at hs
    cases hs
  · rw [hreaders, Workspace.find?_foldl_sortLabels _ l] at hr
    cases hr
  · rw [hsessions]
    exact InOrder.foldl_keeps (fun _ l ht => ht.erase l) _ h.distinct_sessions
  · rw [hreaders]
    exact InOrder.foldl_keeps (fun _ l ht => ht.erase l) _ h.distinct_readers

/-- **To `run` a command that has a `side?`** keeps a workspace `Parted`. -/
theorem command (parse : String → Option Json) (h : Parted P ws) (horder : InOrder ws H)
    (hside : P.side? c = some side) (hallows : ws.Allows (.command c)) :
    Parted P (ws.run (Memory.engine parse) c).2 := by
  by_cases hall : c = .dropAll
  · subst hall
    exact h.dropAll parse horder
  refine ⟨fun hd => ?_, fun hs => ?_, fun hr => ?_, horder.accounted_run h.accounted hallows, ?_, ?_⟩
  · obtain ⟨old, hold, hfile⟩ | ⟨directory, name, settings, rfl, hfile⟩ :=
      horder.databaseFrom_run hall hallows hd <;> rw [hfile]
    · exact h.databases hold
    · rw [Parting.side_of_path? hside rfl, Parting.side_of_databaseLabel? hside rfl]
  · obtain ⟨old, hold, hparent⟩ | rfl := Workspace.sessionFrom_run hall hallows hs
    · rw [hparent]
      exact h.sessions hold
    · obtain ⟨hlabel, hparent⟩ := Parting.common_eq_some.mp hside
      rw [hlabel, hparent]
  · cases Workspace.readerFrom_run hall hr with
    | kept hold hparent _ _ =>
      rw [hparent]
      exact h.readers hold
    | opened hopen _ _ _ _ =>
      subst hopen
      obtain ⟨hlabel, hparent⟩ := Parting.common_eq_some.mp hside
      rw [hlabel, hparent]
  · obtain hsame | ⟨_, -, -, hedit⟩ := Workspace.sessions_edit (E := Memory.engine parse) hall hallows
    · rw [hsame]
      exact h.distinct_sessions
    · exact hedit.distinct h.distinct_sessions
  · obtain hsame | ⟨_, -, hedit⟩ := Workspace.readers_edit hall
    · rw [hsame]
      exact h.distinct_readers
    · exact hedit.distinct h.distinct_readers

end Parted

end TimeSeries
