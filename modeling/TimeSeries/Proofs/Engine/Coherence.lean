import TimeSeries.Proofs.Engine.Frames
import TimeSeries.Proofs.Engine.Lending

/-!
# Coherence of the engine in memory

The tables of an engine refer to each other: sessions to databases, databases to stores, and what
is in a store to the names it has. `Memory.Coherent` says that all these references are good, and
that no handle was given out that is yet to come. Nothing breaks that, whether calls make sense or
not and however the engine is disturbed (`Memory.coherent_act`), and an id keeps its name until the
file of its store is removed (`Memory.nameIn?_acts`). Main result: `Memory.coherent_acts`.
-/

namespace TimeSeries

/-! ### Stores -/

namespace Store

/-- **Coherent stores**: no name occurs twice and each has an id, and ids of points, listed ids and
the ids in the table are those of names; the latter two as long as the names can be counted by
words. -/
structure Coherent (s : Store) : Prop where
  /-- no name occurs twice -/
  nodup : s.names.Nodup
  /-- every name has an id -/
  known : ∀ name ∈ s.names, (s.ids.find? name).isSome
  /-- points belong to series -/
  points : ∀ p ∈ s.points, 1 ≤ p.series.toNat ∧ p.series.toNat ≤ s.names.length
  /-- series are listed -/
  listed : s.Countable → ∀ id ∈ s.listed, 1 ≤ id.toNat ∧ id.toNat ≤ s.names.length
  /-- the id of a name is its position, counted from 1, and nothing else has an id -/
  ids : s.Countable → ∀ name id,
    s.ids.find? name = some id ↔ ∃ i, s.names[i]? = some name ∧ id.toNat = i + 1

variable {s s' : Store} {id : SeriesId}

/-- An id that has a `name?` is counted. -/
theorem isSome_name?_iff : (s.name? id).isSome ↔ 1 ≤ id.toNat ∧ id.toNat ≤ s.names.length := by
  rw [name?]
  split
  next hzero => simp [hzero]
  next i hsucc =>
    rw [hsucc, Option.isSome_iff_ne_none, ne_eq, List.getElem?_eq_none_iff]
    omega

/-- **Named points**: every point belongs to a series that has a `name?`. -/
def Pointed (s : Store) : Prop := ∀ p ∈ s.points, (s.name? p.series).isSome

instance : DecidablePred Pointed := fun s =>
  inferInstanceAs (Decidable (∀ p ∈ s.points, (s.name? p.series).isSome))

theorem Pointed.grow (h : s.Pointed) (hgrows : s.Grows s') : s'.Pointed := by
  intro p hp
  rw [hgrows.points] at hp
  obtain ⟨name, hname⟩ := Option.isSome_iff_exists.mp (h p hp)
  rw [hgrows.name? hname, Option.isSome_some]

theorem Pointed.step (h : s.Pointed) (hstep : s.Step s') : s'.Pointed := by
  cases hstep with
  | refl => exact h
  | enlist name => exact h.grow (enlist_grows s name)
  | query document => exact h.grow (grows_query s document)
  | append p happend =>
    rw [append?] at happend
    split at happend
    next name hname =>
      cases happend
      intro q hq
      rcases List.mem_append.mp hq with hq | hq
      · exact h q hq
      · rw [List.mem_singleton.mp hq]
        exact Option.isSome_iff_exists.mpr ⟨name, hname⟩
    next => cases happend

/-- The `log` of a store whose points have names. -/
theorem Pointed.exists_log (h : s.Pointed) : ∃ l : List Written, s.log = l.map some := by
  refine ⟨s.points.map fun p => ⟨(s.name? p.series).getD "", p.timestamp, p.value⟩, ?_⟩
  rw [log, List.map_map]
  refine List.map_congr_left fun p hp => ?_
  obtain ⟨name, hname⟩ := Option.isSome_iff_exists.mp (h p hp)
  simp [hname]

/-- A store is `Coherent` if it is `Sound` and its points have names. -/
theorem coherent_iff : s.Coherent ↔ s.Sound ∧ s.Pointed := by
  constructor
  · intro h
    refine ⟨⟨h.nodup, h.known, ?_⟩, ?_⟩
    · intro hcount id hid
      exact Option.isSome_iff_exists.mp (isSome_name?_iff.mpr (h.listed hcount id hid))
    · intro p hp
      exact isSome_name?_iff.mpr (h.points p hp)
  · rintro ⟨hsound, hpointed⟩
    refine ⟨hsound.nodup, hsound.known, ?_, ?_, ?_⟩
    · intro p hp
      exact isSome_name?_iff.mp (hpointed p hp)
    · intro hcount id hid
      exact isSome_name?_iff.mp (Option.isSome_iff_exists.mpr (hsound.named hcount id hid))
    · intro hcount name id
      exact hsound.ids_eq_some_iff hcount

theorem coherent_empty : Coherent empty :=
  coherent_iff.mpr ⟨sound_empty, fun _ h => by cases h⟩

theorem Coherent.step (h : s.Coherent) (hstep : s.Step s') : s'.Coherent := by
  obtain ⟨hsound, hpointed⟩ := coherent_iff.mp h
  exact coherent_iff.mpr ⟨hsound.step hstep, hpointed.step hstep⟩

end Store

/-! ### Calls -/

/-- Only `openDatabase` adds a file to those that are open. -/
theorem Lending.Deal.file_mem {l l' : Lending} {call : Call} {lent : Option Lease} {file : FileKey}
    (h : l.Deal call lent l') (hfile : file ∈ l'.databases.values) :
    file ∈ l.databases.values ∨
      ∃ path log, call = .openDatabase path log ∧ path.key = file ∧ lent.isSome := by
  cases h with
  | opened path log =>
    obtain ⟨⟨handle, file⟩, hentry, rfl⟩ := List.mem_map.mp hfile
    rcases Table.mem_entries_put hentry with ⟨-, rfl⟩ | hentry
    · exact .inr ⟨path, log, rfl, rfl, rfl⟩
    · exact .inl (List.mem_map_of_mem hentry)
  | closed database =>
    obtain ⟨⟨handle, file⟩, hentry, rfl⟩ := List.mem_map.mp hfile
    exact .inl (List.mem_map_of_mem (Table.mem_entries_erase hentry).2)
  | _ => exact .inl hfile

namespace Memory

variable (parse : String → Option Json)

/-- **To call `removeDatabase`** either fails and does nothing to the engine, or removes the store
of the file; then no database was open on it. -/
theorem ask_removeDatabase_cases (path : Path) (w : World Memory) :
    ((engine parse).ask (.removeDatabase path) w).1 ≠ .success ∧
        ((engine parse).ask (.removeDatabase path) w).2.engine = w.engine ∨
      path.key ∉ w.engine.databases.values ∧
        ((engine parse).ask (.removeDatabase path) w).1 = .success ∧
        ((engine parse).ask (.removeDatabase path) w).2.engine = w.engine.removed path.key := by
  simp only [Engine.ask, engine, answer, removeDatabase]
  split
  · exact .inl ⟨fun h => (by cases h), rfl⟩
  next hclosed =>
    split
    · exact .inl ⟨fun h => (by cases h), rfl⟩
    · split
      · exact .inl ⟨fun h => (by cases h), rfl⟩
      · exact .inr ⟨by simpa using hclosed, rfl, rfl⟩

/-- The file of a database that was opened has a store. -/
theorem Effect.has_store {parse : String → Option Json} {m m' : Memory} {path : Path}
    {log : Option (LogSettings × Path)} {lease : Lease}
    (h : Effect parse m (.openDatabase path log) (some lease) m') :
    m'.stores.has path.key = true := by
  cases h with
  | opened =>
    rw [Memory.opened]
    dsimp only
    split
    next hhas => exact hhas
    next => rw [Table.has, Table.find?_put_self, Option.isSome_some]

/-- **Coherent engines**: what is lent is proper, the file of every open database has a store, and
all stores are coherent. -/
structure Coherent (m : Memory) : Prop where
  /-- what is lent is proper -/
  lending : m.lending.Proper
  /-- the files of open databases have stores -/
  housed : ∀ file ∈ m.databases.values, m.stores.has file = true
  /-- stores are coherent -/
  stores : ∀ file st, m.stores.find? file = some st → st.Coherent

theorem coherent_empty : Coherent {} :=
  ⟨Lending.proper_empty, fun _ h => (by cases h), fun _ _ h => (by cases h)⟩

/-- A store of which a database is open stays. -/
theorem has_store_ask {call : Call} {w : World Memory} {file : FileKey}
    (hopen : file ∈ w.engine.databases.values) (hhas : w.engine.stores.has file = true) :
    ((engine parse).ask call w).2.engine.stores.has file = true := by
  by_cases hremove : ∃ path, call = .removeDatabase path ∧ path.key = file
  · obtain ⟨path, rfl, rfl⟩ := hremove
    rcases ask_removeDatabase_cases parse path w with ⟨-, hsame⟩ | ⟨hclosed, -⟩
    · rwa [hsame]
    · exact absurd hopen hclosed
  · obtain ⟨st, hst⟩ := Option.isSome_iff_exists.mp hhas
    have hspared : ∀ path, call = .removeDatabase path → path.key ≠ file :=
      fun path hcall hkey => hremove ⟨path, hcall, hkey⟩
    obtain ⟨st', hst', -⟩ := names_ask parse hst hspared
    rw [Table.has, hst', Option.isSome_some]

/-- **A call keeps an engine `Coherent`.** -/
theorem Coherent.ask {w : World Memory} (h : w.engine.Coherent) (call : Call) :
    ((engine parse).ask call w).2.engine.Coherent := by
  have hdeal := deal_ask parse call w
  refine ⟨h.lending.deal hdeal, ?_, ?_⟩
  · intro file hfile
    rcases hdeal.file_mem hfile with hopen | ⟨path, log, rfl, rfl, hlent⟩
    · exact has_store_ask parse hopen (h.housed file hopen)
    · obtain ⟨lease, hlease⟩ := Option.isSome_iff_exists.mp hlent
      exact Effect.has_store (hlease ▸ effect_ask parse (.openDatabase path log) w)
  · intro file st' hst'
    have hchange := stores_ask parse call w file
    rw [hst'] at hchange
    generalize hst : w.engine.stores.find? file = before at hchange
    cases hchange with
    | step hstep => exact (h.stores file _ hst).step hstep
    | begun => exact Store.coherent_empty

/-! ### Runs -/

/-- **Act**: what can happen to an engine, a `Call` or anything from outside, with nothing asked of
it. -/
inductive Act : Type where
  /-- a call is made -/
  | call (c : Call)
  /-- the engine is disturbed -/
  | disturb (d : Disturbance)
  /-- the files change from outside -/
  | files (t : FileTree)

/-- What an `Act` makes of a world. -/
def act (w : World Memory) : Act → World Memory
  | .call c => ((engine parse).ask c w).2
  | .disturb d => Memory.disturb w d
  | .files files => { w with files }

/-- What one `Act` after another makes of a world. -/
def acts (w : World Memory) (as : List Act) : World Memory := as.foldl (act parse) w

theorem coherent_act {w : World Memory} (h : w.engine.Coherent) (a : Act) :
    (act parse w a).engine.Coherent := by
  cases a with
  | call c => exact h.ask parse c
  | files t => exact h
  | disturb d =>
    rw [act]
    refine ⟨by rw [lending_disturb]; exact h.lending, ?_, ?_⟩
    · cases d <;> exact h.housed
    · cases d <;> exact h.stores

theorem coherent_foldl {w : World Memory} (h : w.engine.Coherent) (as : List Act) :
    (acts parse w as).engine.Coherent := by
  induction as generalizing w with
  | nil => exact h
  | cons a as ih => exact ih (coherent_act parse h a)

/-! ### Ids -/

/-- The name that an id stands for in the store of a file. -/
def nameIn? (m : Memory) (file : FileKey) (id : SeriesId) : Option String :=
  (m.stores.find? file).bind fun s => s.name? id

/-- **Removing a file**: an `Act` that does so. -/
def Removes (file : FileKey) (w : World Memory) (a : Act) : Prop :=
  ∃ path, a = .call (.removeDatabase path) ∧ path.key = file ∧
    ((engine parse).ask (.removeDatabase path) w).1 = .success

/-- **Acts that spare a file**: none of them `Removes` it. -/
def Spare (file : FileKey) : World Memory → List Act → Prop
  | _, [] => True
  | w, a :: as => ¬Removes parse file w a ∧ Spare file (act parse w a) as

variable {file : FileKey} {id : SeriesId} {name : String}

theorem nameIn?_act {w : World Memory} {a : Act} (h : w.engine.nameIn? file id = some name)
    (hspared : ¬Removes parse file w a) : (act parse w a).engine.nameIn? file id = some name := by
  cases a with
  | files t => exact h
  | disturb d => cases d <;> exact h
  | call c =>
    obtain ⟨st, hst, hname⟩ := Option.bind_eq_some_iff.mp h
    by_cases hremove : ∃ path, c = .removeDatabase path ∧ path.key = file
    · obtain ⟨path, rfl, hkey⟩ := hremove
      rcases ask_removeDatabase_cases parse path w with ⟨-, hsame⟩ | ⟨-, hsuccess, -⟩
      · rwa [act, hsame]
      · exact absurd ⟨path, rfl, hkey, hsuccess⟩ hspared
    · have hother : ∀ path, c = .removeDatabase path → path.key ≠ file :=
        fun path hcall hkey => hremove ⟨path, hcall, hkey⟩
      obtain ⟨st', hst', hnames⟩ := names_ask parse hst hother
      rw [act, nameIn?, hst', Option.bind_some]
      exact Store.name?_of_isPrefix hnames hname

/-- **An id keeps its name**, `nameIn?`, until the file is removed. -/
theorem nameIn?_acts {w : World Memory} {as : List Act} (h : w.engine.nameIn? file id = some name)
    (hspare : Spare parse file w as) : (acts parse w as).engine.nameIn? file id = some name := by
  induction as generalizing w with
  | nil => exact h
  | cons a as ih => exact ih (nameIn?_act parse h hspare.1) hspare.2

/-! ### What is lent -/

/-- **What is lent is new**: no handle that a call gives out is one that is lent already. -/
theorem Coherent.lease_new {w : World Memory} (h : w.engine.Coherent) {call : Call} {lease : Lease}
    (hlease : call.lease? ((engine parse).ask call w).1 = some lease) :
    ∀ held ∈ w.engine.lending.leases, held.handle ≠ lease.handle := by
  intro held hheld
  rw [((deal_ask parse call w).lease_eq hlease).1]
  exact h.lending.next_ne hheld

/-- **An engine stays `Coherent`**, whatever calls are made, in whatever order and with whatever
arguments, however it is disturbed and whatever becomes of the files. No handle that a call gives
out is lent at the time, and what an id stands for it stands for until the file is removed. -/
theorem coherent_acts (files : FileTree) (as : List Act) :
    let w := acts parse { engine := {}, files } as
    w.engine.Coherent ∧
      (∀ (call : Call) (lease : Lease), call.lease? ((engine parse).ask call w).1 = some lease →
        ∀ held ∈ w.engine.lending.leases, held.handle ≠ lease.handle) ∧
      ∀ (file : FileKey) (id : SeriesId) (name : String) (later : List Act),
        w.engine.nameIn? file id = some name → Spare parse file w later →
          (acts parse w later).engine.nameIn? file id = some name := by
  intro w
  have hcoherent : w.engine.Coherent := coherent_foldl parse coherent_empty as
  refine ⟨hcoherent, ?_, ?_⟩
  · intro call lease hlease
    exact hcoherent.lease_new parse hlease
  · intro file id name later hname hspare
    exact nameIn?_acts parse hname hspare

/-- An id that keeps its name: the file is still open when it is to be removed, its database is
closed, and the session that is then asked for another series is gone. -/
theorem coherent_acts_busy :
    let w := acts (fun _ => none)
      { engine := {}, files := ⟨Table.empty.put ["a.akumuli"] (.file "")⟩ }
      [.call (.openDatabase ⟨"a.akumuli"⟩ none), .call (.createSession 1), .call (.createSession 9),
        .call (.seriesToId 2 "cpu host=a")]
    let later : List Act :=
      [.call (.removeDatabase ⟨"a.akumuli"⟩), .call (.closeDatabase 1),
        .call (.seriesToId 2 "cpu host=a")]
    w.engine.nameIn? ["a.akumuli"] 1 = some "cpu host=a" ∧
      Spare (fun _ => none) ["a.akumuli"] w later ∧
      (acts (fun _ => none) w later).engine.nameIn? ["a.akumuli"] 1 = some "cpu host=a" := by
  intro w later
  have hengine : w.engine = ⟨2, ⟨[(["a.akumuli"], Store.ofSeries ["cpu host=a"] [])]⟩,
      ⟨[(1, ["a.akumuli"])]⟩, ⟨[(2, 1)]⟩, {}, 0, none, [], []⟩ := by
    dsimp only [w, acts, List.foldl, act, Engine.ask, engine, answer, onEngine]
    rw [seriesToId, Series.normalize_cpu]
    rfl
  have hname : w.engine.nameIn? ["a.akumuli"] 1 = some "cpu host=a" := by rw [hengine]; rfl
  have hspare : Spare (fun _ => none) ["a.akumuli"] w later := by
    refine ⟨?_, ?_, ?_, trivial⟩
    · rintro ⟨path, -, hkey, hsuccess⟩
      rcases ask_removeDatabase_cases (fun _ => none) path w with ⟨hfailed, -⟩ | ⟨hclosed, -⟩
      · exact hfailed hsuccess
      · rw [hengine, hkey] at hclosed
        exact hclosed List.mem_cons_self
    · rintro ⟨path, hact, -⟩
      cases hact
    · rintro ⟨path, hact, -⟩
      cases hact
  exact ⟨hname, hspare, (coherent_acts _ _ _).2.2 _ _ _ later hname hspare⟩

end Memory

end TimeSeries
