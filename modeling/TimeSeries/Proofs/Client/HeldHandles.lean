import TimeSeries.Proofs.Client.Labels
import TimeSeries.Proofs.Client.Panics
import TimeSeries.Proofs.Engine.HandleRecords

/-!
# What a caller holds

The databases, sessions and readers of a caller that are open hold what the engine has lent
(`Workspace.held`). A workspace is square (`Workspace.Square`) if that is all the engine has lent,
but for what is pending: lent already and not yet held under a label, or no longer held and not yet
given up.

All that a command does comes down to a few moves. The engine is asked for something
(`Square.ask`), what was pending is given up (`Square.giveUp`), something is taken from a label
(`takeDatabase`, `takeSession`, `takeReader`) or put under one (`putDatabase`, `putSession`,
`putReader`). Moves between tables are no business of the engine's, and the calls of the others
settle (`Transacts`).
-/

namespace TimeSeries

open scoped List

/-! ### Leases in tables -/

namespace Table

variable {α : Type} {t : Table Label α} {lease? : α → Option Lease}

/-- The leases of the values in a table, as `lease?` says. -/
def leases (lease? : α → Option Lease) (t : Table Label α) : List Lease :=
  t.values.filterMap lease?

/-- The `lease?` of the value at a label, if there is one. -/
def leaseAt? (lease? : α → Option Lease) (t : Table Label α) (label : Label) : Option Lease :=
  (t.find? label).bind lease?

theorem filterMap_cons_perm (a : α) (rest : List α) :
    (a :: rest).filterMap lease? ~ (lease? a).toList ++ rest.filterMap lease? := by
  rw [List.filterMap_cons]
  cases lease? a <;> exact .refl _

/-- What is at a label and what is at others. -/
theorem Distinct.perm_leases (h : t.Distinct) (label : Label) :
    t.leases lease? ~ (t.leaseAt? lease? label).toList ++ (t.erase label).leases lease? := by
  rw [leaseAt?]
  cases hfind : t.find? label with
  | none =>
    rw [Table.erase_of_find?_eq_none hfind]
    exact .refl _
  | some a => exact ((h.perm_values hfind).filterMap lease?).trans (filterMap_cons_perm a _)

/-- What is `put` under a label and what is at others. -/
theorem Distinct.perm_leases_put (h : t.Distinct) (lease? : α → Option Lease) (label : Label)
    (a : α) : (t.put label a).leases lease? ~ (lease? a).toList ++ (t.erase label).leases lease? :=
  ((h.perm_values_put label a).filterMap lease?).trans (filterMap_cons_perm a _)

end Table

/-! ### Leases of values -/

/-- What a `Database` holds while it is open. -/
def Database.lease? (d : Database) : Option Lease := d.handle.map .database

/-- What a `Session` holds while it is open. -/
def Session.lease? (s : Session) : Option Lease := s.handle.map .session

/-- What a `Reader` holds while it is open. -/
def Reader.lease? (r : Reader) : Option Lease := r.cursor.handle.map .cursor

section Closing

variable {σ : Type} (E : Engine σ) {w : World σ}

/-- **To `close` gives up** what is held, if there is no panic. -/
theorem Database.close_eq (hpanic : w.channel.panic = none) (d : Database) :
    d.close E w = (.ok (), { d with handle := none }, w.giveUp E d.lease?) := by
  rw [close, World.check_of_no_panic hpanic]
  obtain ⟨_ | handle, file, settings⟩ := d <;> rfl

theorem Database.drop_eq (hpanic : w.channel.panic = none) (d : Database) :
    d.drop E w = w.giveUp E d.lease? := by
  rw [drop, Channel.hasPanic, hpanic]
  obtain ⟨_ | handle, file, settings⟩ := d <;> rfl

theorem Session.close_eq (hpanic : w.channel.panic = none) (s : Session) :
    s.close E w = (.ok (), { s with handle := none }, w.giveUp E s.lease?) := by
  rw [close, World.check_of_no_panic hpanic]
  obtain ⟨_ | handle, settings⟩ := s <;> rfl

theorem Session.drop_eq (hpanic : w.channel.panic = none) (s : Session) :
    s.drop E w = w.giveUp E s.lease? := by
  rw [drop, Channel.hasPanic, hpanic]
  obtain ⟨_ | handle, settings⟩ := s <;> rfl

theorem Cursor.close_eq (hpanic : w.channel.panic = none) (c : Cursor) :
    ∃ c', c.close E w = (.ok (), c', w.giveUp E (c.handle.map .cursor)) ∧ c'.handle = none := by
  rw [close, World.check_of_no_panic hpanic]
  cases hhandle : c.handle with
  | none => exact ⟨c, rfl, hhandle⟩
  | some handle => exact ⟨_, rfl, rfl⟩

theorem Cursor.drop_eq (hpanic : w.channel.panic = none) (c : Cursor) :
    c.drop E w = w.giveUp E (c.handle.map .cursor) := by
  rw [drop, Channel.hasPanic, hpanic]
  cases c.handle <;> rfl

theorem Reader.close_eq (hpanic : w.channel.panic = none) (r : Reader) :
    ∃ r', r.close E w = (.ok (), r', w.giveUp E r.lease?) ∧ r'.lease? = none := by
  cases r with
  | rows c =>
    obtain ⟨c', hclose, hhandle⟩ := c.close_eq E hpanic
    exact ⟨rows c', by rw [close, hclose]; rfl, by rw [lease?, cursor, hhandle]; rfl⟩
  | names n =>
    obtain ⟨c', hclose, hhandle⟩ := n.rows.close_eq E hpanic
    exact ⟨names ⟨c'⟩, by rw [close, NameCursor.close, hclose]; rfl,
      by rw [lease?, cursor, hhandle]; rfl⟩

theorem Reader.drop_eq (hpanic : w.channel.panic = none) (r : Reader) :
    r.drop E w = w.giveUp E r.lease? := by
  cases r with
  | rows c => exact c.drop_eq E hpanic
  | names n => exact n.rows.drop_eq E hpanic

end Closing

/-! ### Square workspaces -/

namespace Workspace

/-- **All that a caller holds** in the tables of its `Workspace`. -/
def held {σ : Type} (ws : Workspace σ) : List Lease :=
  ws.databases.leases Database.lease? ++ ws.sessions.leases (·.it.lease?) ++
    ws.readers.leases (·.it.lease?)

section Held

variable {σ : Type} {ws : Workspace σ} {handle : Handle}

theorem database_mem_held : .database handle ∈ ws.held ↔
    ∃ d ∈ ws.databases.values, d.handle = some handle := by
  simp [held, Table.leases, Database.lease?, Session.lease?, Reader.lease?]

theorem session_mem_held : .session handle ∈ ws.held ↔
    ∃ s ∈ ws.sessions.values, s.it.handle = some handle := by
  simp [held, Table.leases, Database.lease?, Session.lease?, Reader.lease?]

section Tables

variable {more : List Lease}

theorem perm_held_databases (ws : Workspace σ) {databases : Table Label Database}
    (h : ws.databases.leases Database.lease? ~ more ++ databases.leases Database.lease?) :
    ws.held ~ more ++ held { ws with databases } := by
  have hall := (h.append_right (ws.sessions.leases (·.it.lease?))).append_right
    (ws.readers.leases (·.it.lease?))
  simpa only [held, List.append_assoc] using hall

theorem perm_held_sessions (ws : Workspace σ) {sessions : Table Label (Child Session)}
    (h : ws.sessions.leases (·.it.lease?) ~ more ++ sessions.leases (·.it.lease?)) :
    ws.held ~ more ++ held { ws with sessions } := by
  have hall := (h.append_left (ws.databases.leases Database.lease?)).append_right
    (ws.readers.leases (·.it.lease?))
  refine hall.trans ?_
  simp only [held, List.append_assoc]
  exact List.perm_append_comm_assoc _ _ _

theorem perm_held_readers (ws : Workspace σ) {readers : Table Label (Child Reader)}
    (h : ws.readers.leases (·.it.lease?) ~ more ++ readers.leases (·.it.lease?)) :
    ws.held ~ more ++ held { ws with readers } :=
  (h.append_left _).trans (List.perm_append_comm_assoc _ _ _)

/-- What is no longer `held` is pending. -/
theorem perm_pending {ws' : Workspace σ} (h : ws.held ~ more ++ ws'.held) (pending : List Lease) :
    pending ++ ws.held ~ more ++ pending ++ ws'.held := by
  rw [List.append_assoc]
  exact (h.append_left pending).trans (List.perm_append_comm_assoc _ _ _)

end Tables

end Held

/-- **Square**: what the engine has lent is what the caller has `held` and what is `pending`, and a
session is on the database that the caller began it on. -/
structure Square (ws : Workspace Memory) (pending : List Lease) : Prop where
  /-- there was no panic -/
  panic : ws.world.channel.panic = none
  /-- what is lent is proper -/
  proper : ws.world.engine.lending.Proper
  /-- what is lent is pending or held -/
  leases : ws.world.engine.lending.leases ~ pending ++ ws.held
  /-- labels of databases are distinct -/
  databases : ws.databases.Distinct
  /-- labels of sessions are distinct -/
  sessions : ws.sessions.Distinct
  /-- labels of readers are distinct -/
  readers : ws.readers.Distinct
  /-- sessions are on the databases they were begun on -/
  owned : ∀ s ∈ ws.sessions.values, ∀ {handle owner}, s.it.handle = some handle →
    ws.world.engine.lending.sessions.find? handle = some owner →
      ∃ d, ws.databases.find? s.parent = some d ∧ d.handle = some owner

/-- **Transaction**: a workspace becomes another that is `Square`, by calls that `Settles`
admits. -/
structure Transacts (parse : String → Option Json) (ws ws' : Workspace Memory)
    (pending : List Lease) : Prop where
  /-- it is square in the end -/
  square : ws'.Square pending
  /-- the calls settle -/
  settles : Memory.Settles parse ws.world ws'.world

section Moves

variable {parse : String → Option Json} {ws ws' ws'' : Workspace Memory}
  {pending pending' : List Lease} {label : Label} {world : World Memory}
  {databases : Table Label Database} {sessions : Table Label (Child Session)}
  {readers : Table Label (Child Reader)}

theorem Transacts.trans (h : Transacts parse ws ws' pending)
    (h' : Transacts parse ws' ws'' pending') : Transacts parse ws ws'' pending' :=
  ⟨h'.square, h.settles.trans h'.settles⟩

/-- To `giveUp` something reports no panic. -/
theorem panic_giveUp (parse : String → Option Json) (lease? : Option Lease) (w : World Memory) :
    (w.giveUp (Memory.engine parse) lease?).channel.panic = w.channel.panic := by
  cases lease? with
  | none => rfl
  | some lease => exact Memory.panic_ask parse lease.release w

theorem Square.transacts (h : ws.Square pending) : Transacts parse ws ws pending := ⟨h, .refl _⟩

theorem square_ofWorld (files : FileTree) : (ofWorld { engine := {}, files }).Square [] :=
  ⟨rfl, Lending.proper_empty, .refl _, List.nodup_nil, List.nodup_nil, List.nodup_nil,
    fun s hs => by cases hs⟩

theorem Square.perm (h : ws.Square pending) (hperm : pending ~ pending') : ws.Square pending' :=
  { h with leases := h.leases.trans (hperm.append_right _) }

/-- What an open session of the caller holds is lent. -/
theorem Square.session_lent (h : ws.Square pending) {s : Child Session} {handle : Handle}
    (hs : s ∈ ws.sessions.values) (hhandle : s.it.handle = some handle) :
    .session handle ∈ ws.world.engine.lending.leases := by
  apply h.leases.mem_iff.mpr
  apply List.mem_append_right
  exact session_mem_held.mpr ⟨s, hs, hhandle⟩

/-! ### Moves of the engine -/

/-- **To `ask` for something** that releases nothing: what is lent is pending. -/
theorem Square.ask (parse : String → Option Json) (h : ws.Square pending) (call : Call)
    (hrelease : call.release? = none) :
    Transacts parse ws { ws with world := ((Memory.engine parse).ask call ws.world).2 }
      ((call.lease? ((Memory.engine parse).ask call ws.world).1).toList ++ pending) := by
  have hdeal := Memory.deal_ask parse call ws.world
  refine ⟨{ h with panic := ?_, proper := h.proper.deal hdeal, leases := ?_, owned := ?_ },
    .ask h.proper hrelease⟩
  · exact (Memory.panic_ask parse call ws.world).trans h.panic
  · refine (hdeal.adds h.proper hrelease).trans ?_
    rw [List.append_assoc]
    exact h.leases.append_left _
  · intro s hs handle owner hhandle howner
    have hne : handle ≠ _ := h.proper.next_ne (h.session_lent hs hhandle)
    rw [hdeal.sessions_find? hrelease hne] at howner
    exact h.owned s hs hhandle howner

/-- **Calls that are `Plain`** change nothing about what is lent. -/
theorem Square.asks (h : ws.Square pending) {kind : Call → Prop} {w' : World Memory}
    (hleads : (Memory.engine parse).Leads kind ws.world w')
    (hkind : ∀ call, kind call → call.Plain) :
    Transacts parse ws { ws with world := w' } pending := by
  refine hleads.keeps (P := fun w => Transacts parse ws { ws with world := w } pending) ?_
    h.transacts
  intro call w hcall hw
  have hplain := hkind call hcall
  have hasked := hw.square.ask parse call hplain.releases
  rw [hplain.lends] at hasked
  exact hw.trans hasked

/-- **To `giveUp`** what is pending. -/
theorem Square.giveUp (parse : String → Option Json) {lease? : Option Lease}
    (h : ws.Square lease?.toList) :
    Transacts parse ws { ws with world := ws.world.giveUp (Memory.engine parse) lease? } [] := by
  have hlent : ∀ lease ∈ lease?, lease ∈ ws.world.engine.lending.leases := by
    rintro lease rfl
    exact h.leases.mem_iff.mpr List.mem_cons_self
  -- a session on a database that is pending would be on one that is held, and so twice lent
  have hfree : ∀ database, lease? = some (.database database) →
      database ∉ ws.world.engine.lending.sessions.values := by
    rintro database rfl hmem
    obtain ⟨⟨session, owner⟩, hentry, rfl⟩ := List.mem_map.mp hmem
    have hfound := h.proper.distinct.2.1.find?_eq hentry
    have hsession : .session session ∈ ws.held := by
      have hsession := Lending.session_mem_leases.mpr (Table.mem_keys_of_find? hfound)
      exact (List.mem_cons.mp (h.leases.mem_iff.mp hsession)).resolve_left fun heq => by cases heq
    obtain ⟨s, hs, hhandle⟩ := session_mem_held.mp hsession
    obtain ⟨d, hd, howner⟩ := h.owned s hs hhandle hfound
    have hheld : .database owner ∈ ws.held :=
      database_mem_held.mpr ⟨d, Table.mem_values_of_find? hd, howner⟩
    have hnodup := h.proper.nodup_leases
    rw [h.leases.nodup_iff] at hnodup
    exact (List.nodup_cons.mp hnodup).1 hheld
  obtain ⟨hsettles, hreturns⟩ := Memory.Settles.giveUp parse h.proper hlent hfree
  refine ⟨{ h with panic := ?_, proper := hreturns.proper, leases := ?_, owned := ?_ }, hsettles⟩
  · exact (panic_giveUp parse lease? ws.world).trans h.panic
  · exact (List.perm_append_left_iff _).mp (hreturns.leases.symm.trans h.leases)
  · intro s hs handle owner hhandle howner
    exact h.owned s hs hhandle (hreturns.sessions howner)

/-! ### Moves between tables -/

theorem label_ne_parent (hfree : ws.databaseInUse label = false) {s : Child Session}
    (hs : s ∈ ws.sessions.values) : label ≠ s.parent := by
  have hne : s.parent ≠ label := by simpa using List.any_eq_false.mp hfree s hs
  exact hne.symm

/-- A database is **taken from a label** by `erase`, if it is not in use. -/
theorem Square.takeDatabase (h : ws.Square pending) (hfree : ws.databaseInUse label = false) :
    Square { ws with databases := ws.databases.erase label }
      ((ws.databases.leaseAt? Database.lease? label).toList ++ pending) := by
  refine { h with leases := ?_, databases := h.databases.erase label, owned := ?_ }
  · exact h.leases.trans (perm_pending (perm_held_databases ws (h.databases.perm_leases label)) _)
  · intro s hs handle owner hhandle howner
    obtain ⟨d, hd, hheld⟩ := h.owned s hs hhandle howner
    exact ⟨d, by rwa [Table.find?_erase, if_neg (label_ne_parent hfree hs)], hheld⟩

/-- A database that is pending is **put under a label** by `put`, if that is not in use. -/
theorem Square.putDatabase {d : Database}
    (h : Square { world, databases := databases.erase label, sessions, readers }
      (d.lease?.toList ++ pending))
    (hdistinct : databases.Distinct) (hfree : ∀ s ∈ sessions.values, label ≠ s.parent) :
    Square { world, databases := databases.put label d, sessions, readers } pending := by
  have hput := hdistinct.perm_leases_put Database.lease? label d
  refine { h with leases := ?_, databases := hdistinct.put label d, owned := ?_ }
  · have hheld := perm_held_databases
      { world, databases := databases.put label d, sessions, readers } hput
    exact h.leases.trans (perm_pending hheld _).symm
  · intro s hs handle owner hhandle howner
    obtain ⟨d', hd', hheld⟩ := h.owned s hs hhandle howner
    refine ⟨d', ?_, hheld⟩
    rw [Table.find?_put_ne _ _ (hfree s hs)]
    exact Table.find?_erase_eq_some hd'

/-- A session is **taken from a label** by `erase`. -/
theorem Square.takeSession (h : ws.Square pending) (label : Label) :
    Square { ws with sessions := ws.sessions.erase label }
      ((ws.sessions.leaseAt? (·.it.lease?) label).toList ++ pending) := by
  refine { h with leases := ?_, sessions := h.sessions.erase label, owned := ?_ }
  · exact h.leases.trans (perm_pending (perm_held_sessions ws (h.sessions.perm_leases label)) _)
  · intro s hs
    obtain ⟨⟨l, s⟩, hentry, rfl⟩ := List.mem_map.mp hs
    exact h.owned s (List.mem_map_of_mem (Table.mem_entries_erase hentry).2)

/-- A session that is pending is **put under a label** by `put`, if it is on its database. -/
theorem Square.putSession {s : Child Session}
    (h : Square { world, databases, sessions := sessions.erase label, readers }
      (s.it.lease?.toList ++ pending))
    (hdistinct : sessions.Distinct)
    (howned : ∀ {handle owner}, s.it.handle = some handle →
      world.engine.lending.sessions.find? handle = some owner →
        ∃ d, databases.find? s.parent = some d ∧ d.handle = some owner) :
    Square { world, databases, sessions := sessions.put label s, readers } pending := by
  have hput := hdistinct.perm_leases_put (·.it.lease?) label s
  refine { h with leases := ?_, sessions := hdistinct.put label s, owned := ?_ }
  · have hheld := perm_held_sessions
      { world, databases, sessions := sessions.put label s, readers } hput
    exact h.leases.trans (perm_pending hheld _).symm
  · intro s' hs'
    rcases List.mem_cons.mp ((hdistinct.perm_values_put label s).mem_iff.mp hs') with rfl | hs'
    · exact howned
    · exact h.owned s' hs'

/-- A reader is **taken from a label** by `erase`. -/
theorem Square.takeReader (h : ws.Square pending) (label : Label) :
    Square { ws with readers := ws.readers.erase label }
      ((ws.readers.leaseAt? (·.it.lease?) label).toList ++ pending) :=
  { h with
    leases := h.leases.trans (perm_pending (perm_held_readers ws (h.readers.perm_leases label)) _)
    readers := h.readers.erase label }

/-- A reader that is pending is **put under a label** by `put`. -/
theorem Square.putReader {r : Child Reader}
    (h : Square { world, databases, sessions, readers := readers.erase label }
      (r.it.lease?.toList ++ pending))
    (hdistinct : readers.Distinct) :
    Square { world, databases, sessions, readers := readers.put label r } pending := by
  have hput := hdistinct.perm_leases_put (·.it.lease?) label r
  have hheld := perm_held_readers
    { world, databases, sessions, readers := readers.put label r } hput
  exact { h with
    leases := h.leases.trans (perm_pending hheld _).symm
    readers := hdistinct.put label r }

end Moves

end Workspace

end TimeSeries
