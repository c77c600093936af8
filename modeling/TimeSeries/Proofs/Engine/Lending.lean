import TimeSeries.Proofs.Engine.Effects
import TimeSeries.Proofs.Table

/-!
# Handles that an engine lends

An engine gives out handles and takes them back. `Memory.lending` is what it knows about that:
which databases, sessions and cursors are open, and which handle was given out last. What a call
can do to it is said once (`Lending.Deal`, `Memory.deal_ask`): a call that opens something gives
out the next handle, a call that releases something takes its handle back, closing a database ends
its sessions as well, and all other calls do nothing to it. So in every engine no handle is lent
twice and none was given out that is yet to come (`Lending.Proper`, `Lending.Proper.deal`).
-/

namespace TimeSeries

/-! ### Lendings -/

/-- **Lending**: the handles that an engine has given out and not taken back. -/
structure Lending : Type where
  /-- the last handle that was given out -/
  last : Handle := 0
  /-- open databases and their files -/
  databases : Table Handle FileKey := {}
  /-- open sessions and their databases -/
  sessions : Table Handle Handle := {}
  /-- open cursors -/
  cursors : Table Handle Unit := {}
  deriving DecidableEq, Repr

/-- What an engine has lent, as a `Lending`. -/
def Memory.lending (m : Memory) : Lending :=
  ⟨m.lastHandle, m.databases, m.sessions, m.cursors.marks⟩

namespace Lending

/-- The next handle. -/
def next (l : Lending) : Handle := l.last + 1

/-- **All that is lent.** -/
def leases (l : Lending) : List Lease :=
  l.databases.keys.map .database ++ l.sessions.keys.map .session ++ l.cursors.keys.map .cursor

variable {l l' : Lending} {lease : Lease} {handle : Handle} {call : Call} {lent : Option Lease}

@[simp] theorem database_mem_leases : .database handle ∈ l.leases ↔ handle ∈ l.databases.keys := by
  simp [leases]

@[simp] theorem session_mem_leases : .session handle ∈ l.leases ↔ handle ∈ l.sessions.keys := by
  simp [leases]

@[simp] theorem cursor_mem_leases : .cursor handle ∈ l.leases ↔ handle ∈ l.cursors.keys := by
  simp [leases]

/-- **Proper**: every session was begun on an open database, no handle is lent twice, and none was
given out that is yet to come. -/
structure Proper (l : Lending) : Prop where
  /-- sessions are on open databases -/
  owned : ∀ owner ∈ l.sessions.values, owner ∈ l.databases.keys
  /-- what is lent was given out -/
  given : ∀ lease ∈ l.leases, lease.handle ≤ l.last
  /-- no handle is lent twice -/
  nodup : (l.leases.map Lease.handle).Nodup

theorem proper_empty : Proper {} :=
  ⟨fun _ h => (by cases h), fun _ h => (by cases h), List.nodup_nil⟩

/-- The `next` handle is not lent. -/
theorem Proper.next_ne (h : l.Proper) (hlease : lease ∈ l.leases) : lease.handle ≠ l.next :=
  Nat.ne_of_lt (Nat.lt_succ_of_le (h.given lease hlease))

/-! ### Deals -/

/-- **Deal**: what a `Call` makes of a lending, and what it lends by that. -/
inductive Deal (l : Lending) : Call → Option Lease → Lending → Prop where
  /-- a database is opened -/
  | opened (file : Path) (log : Option (LogSettings × Path)) :
    Deal l (.openDatabase file log) (some (.database l.next))
      { l with last := l.next, databases := l.databases.put l.next file.key }
  /-- a session is begun on a database that is open -/
  | begun {database : Handle} : database ∈ l.databases.keys →
    Deal l (.createSession database) (some (.session l.next))
      { l with last := l.next, sessions := l.sessions.put l.next database }
  /-- a query is started -/
  | started (session : Handle) (text : String) :
    Deal l (.query session text) (some (.cursor l.next))
      { l with last := l.next, cursors := l.cursors.put l.next () }
  /-- a database is closed, and its sessions with it -/
  | closed (database : Handle) :
    Deal l (.closeDatabase database) none
      { l with
        databases := l.databases.erase database
        sessions := l.sessions.keep fun owner => owner ≠ database }
  /-- a session is ended -/
  | ended (session : Handle) :
    Deal l (.destroySession session) none { l with sessions := l.sessions.erase session }
  /-- a cursor is closed -/
  | shut (cursor : Handle) :
    Deal l (.cursorClose cursor) none { l with cursors := l.cursors.erase cursor }
  /-- nothing is done, as what the call would release is not there -/
  | idle {call : Call} : (∀ lease ∈ call.release?, lease ∉ l.leases) → Deal l call none l

/-- What is lent has the `next` handle, which is then the last. -/
theorem Deal.lease_eq (h : l.Deal call lent l') (hlent : lent = some lease) :
    lease.handle = l.next ∧ l'.last = l.next := by
  cases h <;> cases hlent <;> exact ⟨rfl, rfl⟩

/-- **What is lent** comes on top of what was there. -/
theorem Deal.grows (h : l.Deal call (some lease) l') (hl : l.Proper) :
    l'.leases.Perm (lease :: l.leases) := by
  have hfresh : ∀ lease ∈ l.leases, lease.handle ≠ l.next := fun _ hlease => hl.next_ne hlease
  cases h with
  | opened file log =>
    have hnew : l.next ∉ l.databases.keys := fun hmem =>
      hfresh (.database l.next) (database_mem_leases.mpr hmem) rfl
    simp [leases, Table.keys_put_of_not_mem _ hnew]
  | begun hopen =>
    have hnew : l.next ∉ l.sessions.keys := fun hmem =>
      hfresh (.session l.next) (session_mem_leases.mpr hmem) rfl
    simp only [leases, Table.keys_put_of_not_mem _ hnew, List.map_append, List.map_cons,
      List.map_nil, List.append_assoc, List.singleton_append]
    rw [← List.append_assoc, ← List.append_assoc]
    exact List.perm_middle
  | started session text =>
    have hnew : l.next ∉ l.cursors.keys := fun hmem =>
      hfresh (.cursor l.next) (cursor_mem_leases.mpr hmem) rfl
    simp only [leases, Table.keys_put_of_not_mem _ hnew, List.map_append, List.map_cons,
      List.map_nil, ← List.append_assoc]
    exact List.perm_append_singleton _ _

/-- A call that lends nothing adds nothing. -/
theorem Deal.shrinks (h : l.Deal call none l') : l'.leases.Sublist l.leases ∧ l'.last = l.last := by
  cases h with
  | closed database =>
    refine ⟨?_, rfl⟩
    apply List.Sublist.append
    · apply List.Sublist.append
      · exact List.Sublist.map _ (List.Sublist.map _ List.filter_sublist)
      · exact List.Sublist.map _ (List.Sublist.map _ List.filter_sublist)
    · exact List.Sublist.refl _
  | ended session =>
    refine ⟨?_, rfl⟩
    apply List.Sublist.append
    · apply List.Sublist.append
      · exact List.Sublist.refl _
      · exact List.Sublist.map _ (List.Sublist.map _ List.filter_sublist)
    · exact List.Sublist.refl _
  | shut cursor =>
    refine ⟨?_, rfl⟩
    apply List.Sublist.append
    · exact List.Sublist.refl _
    · exact List.Sublist.map _ (List.Sublist.map _ List.filter_sublist)
  | idle hrelease => exact ⟨List.Sublist.refl _, rfl⟩

/-- Sessions stay on open databases. -/
theorem Deal.owned (h : l.Deal call lent l') (hl : l.Proper) :
    ∀ owner ∈ l'.sessions.values, owner ∈ l'.databases.keys := by
  intro owner howner
  cases h with
  | opened file log =>
    have hnew : l.next ∉ l.databases.keys := fun hmem =>
      hl.next_ne (database_mem_leases.mpr hmem) rfl
    simp only [Table.keys_put_of_not_mem _ hnew]
    exact List.mem_append_left _ (hl.owned owner howner)
  | begun hopen =>
    have hnew : l.next ∉ l.sessions.keys := fun hmem =>
      hl.next_ne (session_mem_leases.mpr hmem) rfl
    simp only [Table.values_put_of_not_mem _ hnew] at howner
    rcases List.mem_append.mp howner with howner | howner
    · exact hl.owned owner howner
    · rwa [List.mem_singleton.mp howner]
  | closed database =>
    obtain ⟨⟨session, owner⟩, hentry, rfl⟩ := List.mem_map.mp howner
    obtain ⟨hentry, hne⟩ := List.mem_filter.mp hentry
    rw [Table.keys_erase]
    exact List.mem_filter.mpr ⟨hl.owned owner (List.mem_map_of_mem hentry), hne⟩
  | ended session =>
    obtain ⟨entry, hentry, rfl⟩ := List.mem_map.mp howner
    exact hl.owned _ (List.mem_map_of_mem (List.mem_filter.mp hentry).1)
  | started session text => exact hl.owned owner howner
  | shut cursor => exact hl.owned owner howner
  | idle hrelease => exact hl.owned owner howner

/-- **A `Deal` keeps a lending `Proper`.** -/
theorem Proper.deal (hl : l.Proper) (h : l.Deal call lent l') : l'.Proper := by
  have howned := h.owned hl
  cases lent with
  | none =>
    obtain ⟨hsublist, hlast⟩ := h.shrinks
    refine ⟨howned, ?_, hl.nodup.sublist (hsublist.map Lease.handle)⟩
    intro lease hlease
    rw [hlast]
    exact hl.given lease (hsublist.subset hlease)
  | some lease =>
    have hperm := h.grows hl
    obtain ⟨hhandle, hlast⟩ := h.lease_eq rfl
    refine ⟨howned, ?_, ?_⟩
    · intro other hother
      rw [hlast]
      rcases List.mem_cons.mp (hperm.subset hother) with rfl | hother
      · exact Nat.le_of_eq hhandle
      · exact Nat.le_succ_of_le (hl.given other hother)
    · rw [(hperm.map Lease.handle).nodup_iff, List.map_cons, List.nodup_cons]
      refine ⟨?_, hl.nodup⟩
      intro hmem
      obtain ⟨other, hother, heq⟩ := List.mem_map.mp hmem
      exact hl.next_ne hother (heq.trans hhandle)

end Lending

/-! ### Calls -/

namespace Memory

/-- **Every `Effect` is a `Deal`.** -/
theorem Effect.deal {parse : String → Option Json} {m m' : Memory} {call : Call}
    {lent : Option Lease} (h : Effect parse m call lent m') : m.lending.Deal call lent m'.lending := by
  have hidle : ∀ {call : Call}, call.release? = none →
      m.lending.Deal call none m.lending := fun hnone =>
    .idle fun lease hlease => by rw [hnone] at hlease; cases hlease
  have hstarted : ∀ (session : Handle) (text : String) (feed : Feed),
      m.lending.Deal (.query session text) (some (.cursor m.nextHandle))
        { m.lending with
          last := m.nextHandle
          cursors := (m.cursors.put m.nextHandle feed).marks } := by
    intro session text feed
    rw [Table.marks_put]
    exact .started session text
  cases h with
  | idle hnone => exact hidle hnone
  | opened path log => exact .opened path log
  | closed database =>
    rw [closeDatabase]
    split
    · exact .closed database
    next hopen =>
      refine .idle fun lease hlease => ?_
      cases hlease
      rw [Lending.database_mem_leases]
      rw [Table.has, Option.not_isSome_iff_eq_none] at hopen
      exact Table.not_mem_keys_of_find?_eq_none hopen
  | begun hopen =>
    obtain ⟨file, hfile⟩ := Option.isSome_iff_exists.mp hopen
    exact .begun (Table.mem_keys_of_find? hfile)
  | ended session => exact .ended session
  | removed | enlisted | appended | refused => exact hidle rfl
  | answered text => exact hstarted _ text _
  | fed session text => exact hstarted session text _
  | denied session text => exact hstarted session text _
  | delivered capacity hfeed =>
    rw [Memory.delivered, lending, lending, Table.marks_put_of_find? hfeed]
    exact hidle rfl
  | shut cursor =>
    simp only [lending, cursorClose, Table.marks_erase]
    exact .shut cursor

/-- **Every call is a `Deal`.** -/
theorem deal_ask (parse : String → Option Json) (call : Call) (w : World Memory) :
    w.engine.lending.Deal call (call.lease? ((engine parse).ask call w).1)
      ((engine parse).ask call w).2.engine.lending :=
  (effect_ask parse call w).deal

/-- A disturbance changes nothing about `lending`. -/
@[simp] theorem lending_disturb (w : World Memory) (d : Disturbance) :
    (disturb w d).engine.lending = w.engine.lending := by
  cases d with
  | failCursors status => rw [disturb, lending, lending, Table.marks_mapValues]
  | _ => rfl

end Memory

end TimeSeries
