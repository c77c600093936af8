import TimeSeries.Proofs.Engine.Lending

/-!
# Records of handles

The calls that were made are on record, so what was released can be read off a world
(`World.released`), and what some calls lend is found by making them (`Memory.lent`). Calls settle
if all that was lent before them or is lent by them is released by them or still lent
(`Memory.Settles`). A call that releases nothing settles (`Settles.ask`), and so does giving up what
is lent, unless it is a database with sessions (`Settles.giveUp`): these an engine would end
unasked.

Whatever calls are made, what they lend is numbered through (`Memory.lent_handles`).
-/

namespace TimeSeries

open scoped List

/-- **The `Call` that releases** what is held under a lease. -/
def Lease.release : Lease → Call
  | database handle => .closeDatabase handle
  | session handle => .destroySession handle
  | cursor handle => .cursorClose handle

@[simp] theorem Lease.release?_release (lease : Lease) : lease.release.release? = some lease := by
  cases lease <;> rfl

/-- Leases with distinct handles are distinct. -/
theorem Lease.nodup_of_handles {leases : List Lease} (h : (leases.map handle).Nodup) :
    leases.Nodup :=
  List.Pairwise.of_map handle (fun _ _ hne heq => hne (congrArg handle heq)) h

/-- **Plain calls** neither lend nor release anything. -/
structure Call.Plain (call : Call) : Prop where
  /-- nothing is lent, whatever the reply is -/
  lends : ∀ reply, call.lease? reply = none
  /-- nothing is released -/
  releases : call.release? = none

/-! ### Lendings -/

namespace Lending

variable {l l' : Lending} {lease : Lease} {handle : Handle} {call : Call} {lent : Option Lease}

theorem map_handle_leases (l : Lending) :
    l.leases.map Lease.handle = l.databases.keys ++ l.sessions.keys ++ l.cursors.keys := by
  simp [leases, Function.comp_def, Lease.handle]

/-- Nothing is lent twice in a `Proper` lending. -/
theorem Proper.nodup_leases (h : l.Proper) : l.leases.Nodup := Lease.nodup_of_handles h.nodup

/-- No handle is twice in a table. -/
theorem Proper.distinct (h : l.Proper) :
    l.databases.Distinct ∧ l.sessions.Distinct ∧ l.cursors.Distinct := by
  have hnodup := h.nodup
  rw [map_handle_leases] at hnodup
  obtain ⟨hnodup, hcursors, -⟩ := List.nodup_append.mp hnodup
  obtain ⟨hdatabases, hsessions, -⟩ := List.nodup_append.mp hnodup
  exact ⟨hdatabases, hsessions, hcursors⟩

/-- **What a call lends** in a `Deal` that releases nothing comes on top of what was there. -/
theorem Deal.adds (h : l.Deal call lent l') (hl : l.Proper) (hrelease : call.release? = none) :
    l'.leases.Perm (lent.toList ++ l.leases) := by
  cases lent with
  | some lease => exact h.grows hl
  | none =>
    cases h with
    | idle => exact .refl _
    | _ => cases hrelease

/-- A call that releases nothing leaves the sessions that were there. -/
theorem Deal.sessions_find? (h : l.Deal call lent l') (hrelease : call.release? = none)
    (hne : handle ≠ l.next) : l'.sessions.find? handle = l.sessions.find? handle := by
  cases h with
  | begun => exact Table.find?_put_ne _ _ hne.symm
  | closed | ended | shut => cases hrelease
  | _ => rfl

/-- A session that is begun is on the database it is begun on. -/
theorem Deal.owner_eq {database : Handle} (h : l.Deal (.createSession database) (some lease) l') :
    l'.sessions.find? lease.handle = some database := by
  cases h with
  | begun => exact Table.find?_put_self _ _ _

/-- **What is returned** is no longer lent, and all else is. -/
structure Returns (l : Lending) (lease? : Option Lease) (l' : Lending) : Prop where
  /-- what is left is proper -/
  proper : l'.Proper
  /-- nothing else is returned -/
  leases : l.leases.Perm (lease?.toList ++ l'.leases)
  /-- the sessions that are left are on the databases they were on -/
  sessions : ∀ {handle owner}, l'.sessions.find? handle = some owner →
    l.sessions.find? handle = some owner

theorem Returns.refl (hl : l.Proper) : l.Returns none l := ⟨hl, .refl _, id⟩

/-- **A `release` returns** what is lent, if it is no database with sessions. -/
theorem Deal.returns (h : l.Deal lease.release lent l') (hl : l.Proper) (hlease : lease ∈ l.leases)
    (hfree : ∀ database, lease = .database database → database ∉ l.sessions.values) :
    lent = none ∧ l.Returns lease l' := by
  have hproper := hl.deal h
  obtain ⟨hdatabases, hsessions, hcursors⟩ := hl.distinct
  cases lease with
  | database database =>
    cases h with
    | idle hnone => exact absurd hlease (hnone _ rfl)
    | closed =>
      have hkept : l.sessions.keep (fun owner => owner ≠ database) = l.sessions := by
        apply Table.keep_of_forall
        rintro owner howner
        apply decide_eq_true
        rintro rfl
        exact hfree owner rfl howner
      rw [hkept] at hproper ⊢
      refine ⟨rfl, hproper, ?_, id⟩
      have hkeys := hdatabases.perm_keys (database_mem_leases.mp hlease)
      exact ((hkeys.map Lease.database).append_right _).append_right _
  | session session =>
    cases h with
    | idle hnone => exact absurd hlease (hnone _ rfl)
    | ended =>
      refine ⟨rfl, hproper, ?_, Table.find?_erase_eq_some⟩
      have hkeys := hsessions.perm_keys (session_mem_leases.mp hlease)
      calc l.leases
        _ ~ l.databases.keys.map .database ++
              (session :: (l.sessions.erase session).keys).map .session ++
              l.cursors.keys.map .cursor := ((hkeys.map _).append_left _).append_right _
        _ = l.databases.keys.map .database ++ .session session ::
              ((l.sessions.erase session).keys.map .session ++ l.cursors.keys.map .cursor) := by
            rw [List.append_assoc, List.map_cons, List.cons_append]
        _ ~ .session session :: (l.databases.keys.map .database ++
              ((l.sessions.erase session).keys.map .session ++ l.cursors.keys.map .cursor)) :=
            List.perm_middle
        _ = _ := by rw [← List.append_assoc]; rfl
  | cursor cursor =>
    cases h with
    | idle hnone => exact absurd hlease (hnone _ rfl)
    | shut =>
      refine ⟨rfl, hproper, ?_, id⟩
      have hkeys := hcursors.perm_keys (cursor_mem_leases.mp hlease)
      exact ((hkeys.map Lease.cursor).append_left _).trans List.perm_middle

end Lending

/-! ### Records -/

namespace World

variable {σ : Type}

/-- **What was released** by the `calls` that were made, latest first. -/
def released (w : World σ) : List Lease := w.calls.filterMap Call.release?

/-- **The `calls` that were made since** a world, in their order. -/
def since (w w' : World σ) : List Call :=
  (w'.calls.take (w'.calls.length - w.calls.length)).reverse

/-- **Gives up** what is held under a lease, if it is one, by its `release`. -/
def giveUp (E : Engine σ) (lease? : Option Lease) (w : World σ) : World σ :=
  match lease? with
  | some lease => (E.ask lease.release w).2
  | none => w

end World

namespace Engine

variable {σ : Type} {E : Engine σ}

/-- What calls one after another make of a world. -/
def asks (E : Engine σ) (calls : List Call) (w : World σ) : World σ :=
  calls.foldl (fun w call => (E.ask call w).2) w

theorem asks_append (calls calls' : List Call) (w : World σ) :
    E.asks (calls ++ calls') w = E.asks calls' (E.asks calls w) := List.foldl_append

/-- What `Leads` from one world to another are some calls. -/
theorem Leads.exists_asks {kind : Call → Prop} {w w' : World σ} (h : E.Leads kind w w') :
    ∃ calls, (∀ call ∈ calls, kind call) ∧ w' = E.asks calls w := by
  induction h with
  | refl => exact ⟨[], fun _ hcall => (by cases hcall), rfl⟩
  | ask call hcall _ ih =>
    obtain ⟨calls, hcalls, rfl⟩ := ih
    refine ⟨calls ++ [call], ?_, (asks_append calls [call] w).symm⟩
    intro other hother
    rcases List.mem_append.mp hother with hother | hother
    · exact hcalls other hother
    · rwa [List.mem_singleton.mp hother]

end Engine

/-! ### Calls -/

namespace Memory

variable (parse : String → Option Json) {w w' w'' : World Memory}

theorem calls_asks (calls : List Call) (w : World Memory) :
    ((engine parse).asks calls w).calls = calls.reverse ++ w.calls := by
  induction calls generalizing w with
  | nil => rfl
  | cons call calls ih =>
    rw [Engine.asks, List.foldl_cons]
    refine (ih _).trans ?_
    rw [calls_ask, List.reverse_cons, List.append_assoc, List.singleton_append]

/-- **The record tells** which calls were made, by `since`. -/
theorem since_asks (calls : List Call) (w : World Memory) :
    w.since ((engine parse).asks calls w) = calls := by
  simp [World.since, calls_asks]

theorem released_asks (calls : List Call) (w : World Memory) :
    ((engine parse).asks calls w).released =
      (calls.filterMap Call.release?).reverse ++ w.released := by
  rw [World.released, calls_asks, List.filterMap_append, List.filterMap_reverse, World.released]

/-- **What calls lend**, one after another, by `lease?`. -/
def lent : List Call → World Memory → List Lease
  | [], _ => []
  | call :: calls, w =>
    (call.lease? ((engine parse).ask call w).1).toList ++
      lent calls ((engine parse).ask call w).2

theorem lent_append (calls calls' : List Call) (w : World Memory) :
    lent parse (calls ++ calls') w =
      lent parse calls w ++ lent parse calls' ((engine parse).asks calls w) := by
  induction calls generalizing w with
  | nil => rfl
  | cons call calls ih =>
    rw [List.cons_append, lent, lent, ih, List.append_assoc]
    rfl

/-- Calls that lend nothing, whatever the replies are. -/
theorem lent_eq_nil {calls : List Call} (h : ∀ call ∈ calls, ∀ reply, call.lease? reply = none)
    (w : World Memory) : lent parse calls w = [] := by
  induction calls generalizing w with
  | nil => rfl
  | cons call calls ih =>
    rw [lent, h call List.mem_cons_self, ih fun other hother => h other (.tail call hother)]
    rfl

/-- **Handles are numbered through**, whatever calls they are lent by. -/
theorem lent_handles (calls : List Call) (w : World Memory) :
    (lent parse calls w).map Lease.handle =
        List.range' (w.engine.lastHandle + 1) (lent parse calls w).length ∧
      ((engine parse).asks calls w).engine.lastHandle =
        w.engine.lastHandle + (lent parse calls w).length := by
  induction calls generalizing w with
  | nil => exact ⟨rfl, rfl⟩
  | cons call calls ih =>
    obtain ⟨hhandles, hlast⟩ := ih ((engine parse).ask call w).2
    have hdeal := deal_ask parse call w
    rw [lent]
    cases hlease : call.lease? ((engine parse).ask call w).1 with
    | none =>
      rw [hlease] at hdeal
      have hsame : ((engine parse).ask call w).2.engine.lastHandle = w.engine.lastHandle :=
        hdeal.shrinks.2
      rw [hsame] at hhandles hlast
      exact ⟨hhandles, hlast⟩
    | some lease =>
      have hnext : lease.handle = w.engine.lastHandle + 1 ∧
          ((engine parse).ask call w).2.engine.lastHandle = w.engine.lastHandle + 1 :=
        hdeal.lease_eq hlease
      rw [hnext.2] at hhandles hlast
      constructor
      · rw [Option.toList_some, List.singleton_append, List.map_cons, hnext.1, hhandles,
          List.length_cons, List.range'_succ]
      · rw [Option.toList_some, List.singleton_append, List.length_cons, Nat.add_comm _ 1,
          ← Nat.add_assoc]
        exact hlast

/-! ### Settling -/

/-- **Calls settle**: what was lent before them or is lent by them is released by them or still
lent. -/
def Settles (w w' : World Memory) : Prop :=
  ∃ calls, w' = (engine parse).asks calls w ∧
    (lent parse calls w ++ w.engine.lending.leases).Perm
      (calls.filterMap Call.release? ++ w'.engine.lending.leases)

variable {parse}

theorem Settles.refl (w : World Memory) : Settles parse w w := ⟨[], rfl, .refl _⟩

theorem Settles.trans (h : Settles parse w w') (h' : Settles parse w' w'') :
    Settles parse w w'' := by
  obtain ⟨calls, rfl, hperm⟩ := h
  obtain ⟨calls', rfl, hperm'⟩ := h'
  refine ⟨calls ++ calls', (Engine.asks_append _ _ _).symm, ?_⟩
  rw [lent_append, List.filterMap_append]
  have hlater := hperm'.append_left (calls.filterMap Call.release?)
  -- what the later calls lend is put last, and then first again
  calc lent parse calls w ++ lent parse calls' _ ++ w.engine.lending.leases
    _ ~ lent parse calls w ++ w.engine.lending.leases ++ lent parse calls' _ := by
        simp only [List.append_assoc]
        exact List.perm_append_comm.append_left _
    _ ~ calls.filterMap Call.release? ++ ((engine parse).asks calls w).engine.lending.leases ++
          lent parse calls' _ := hperm.append_right _
    _ ~ calls.filterMap Call.release? ++ (lent parse calls' ((engine parse).asks calls w) ++
          ((engine parse).asks calls w).engine.lending.leases) := by
        rw [List.append_assoc]
        exact List.perm_append_comm.append_left _
    _ ~ calls.filterMap Call.release? ++ (calls'.filterMap Call.release? ++ _) := hlater
    _ = _ := (List.append_assoc ..).symm

/-- **A call that releases nothing** `Settles`. -/
theorem Settles.ask (hproper : w.engine.lending.Proper) {call : Call}
    (hrelease : call.release? = none) : Settles parse w ((engine parse).ask call w).2 := by
  refine ⟨[call], rfl, ?_⟩
  have hadds := (deal_ask parse call w).adds hproper hrelease
  simpa [lent, hrelease] using hadds.symm

/-- **To `giveUp`** what is lent, if it is no database with sessions, returns it and `Settles`. -/
theorem Settles.giveUp (parse : String → Option Json) (hproper : w.engine.lending.Proper)
    {lease? : Option Lease} (hlent : ∀ lease ∈ lease?, lease ∈ w.engine.lending.leases)
    (hfree : ∀ database, lease? = some (.database database) →
      database ∉ w.engine.lending.sessions.values) :
    Settles parse w (w.giveUp (engine parse) lease?) ∧
      w.engine.lending.Returns lease? (w.giveUp (engine parse) lease?).engine.lending := by
  cases lease? with
  | none => exact ⟨.refl w, .refl hproper⟩
  | some lease =>
    have hdeal := deal_ask parse lease.release w
    obtain ⟨hnone, hreturns⟩ := hdeal.returns hproper (hlent lease rfl)
      fun database hdatabase => hfree database (by rw [hdatabase])
    refine ⟨⟨[lease.release], rfl, ?_⟩, hreturns⟩
    simp only [lent, hnone, Option.toList_none, List.append_nil, List.filterMap_cons,
      Lease.release?_release, List.filterMap_nil]
    exact hreturns.leases

end Memory

end TimeSeries
