import TimeSeries.Proofs.Client.Transactions

/-!
# The balance of handles

Along a run the engine issues handles (`Workspace.ledger`), and the calls on record tell which it
was given back. As long as the caller keeps to what it is allowed (`Workspace.Obeys`) and no panic
is reported, the books balance at every point (`Workspace.Balanced`): what was issued was released,
or it is still lent and held. So every handle is released once when its owner was closed or
dropped, not before that and never again. Main result: `Workspace.balance_of_no_panic`.
-/

namespace TimeSeries

open scoped List

namespace Workspace

variable (parse : String → Option Json)

/-! ### What is issued -/

/-- **What is `issued`** when something happens: what the calls that go on record lend, by
`Memory.lent`. -/
def issued (ws : Workspace Memory) (happening : Happening) : List Lease :=
  Memory.lent parse (ws.world.since (ws.meet parse happening).world) ws.world

/-- **All that is `issued`** along a run, in order. -/
def ledger (ws : Workspace Memory) : List Happening → List Lease
  | [] => []
  | happening :: later => ws.issued parse happening ++ (ws.meet parse happening).ledger later

/-- **What the caller can cause**, one thing after another: each event is one that `Allows`
admits. -/
def Obeys (ws : Workspace Memory) : List Happening → Prop
  | [] => True
  | happening :: later =>
    (∀ e, happening = .event e → ws.Allows e) ∧ (ws.meet parse happening).Obeys later

variable {parse} {ws : Workspace Memory} {ledger : List Lease}

theorem obeys_nil : ws.Obeys parse [] := trivial

theorem obeys_cons {e : Event} {later : List Happening} :
    ws.Obeys parse (.event e :: later) ↔
      ws.Allows e ∧ (ws.meet parse (.event e)).Obeys parse later := by
  simp [Obeys]

/-- What is `issued` is what the calls lend that lead to the world after it. -/
theorem issued_eq {happening : Happening} {calls : List Call}
    (h : (ws.meet parse happening).world = (Memory.engine parse).asks calls ws.world) :
    ws.issued parse happening = Memory.lent parse calls ws.world := by
  rw [issued, h, Memory.since_asks]

/-- The command `dropAll` issues nothing. -/
theorem issued_dropAll (ws : Workspace Memory) :
    ws.issued parse (.event (.command .dropAll)) = [] := by
  obtain ⟨calls, hletsGo, hcalls⟩ := (ws.leads_dropAll parse).exists_asks
  have hissued : ws.issued parse (.event (.command .dropAll)) = Memory.lent parse calls ws.world :=
    issued_eq hcalls
  rw [hissued]
  apply Memory.lent_eq_nil
  intro call hcall reply
  have hkind := hletsGo call hcall
  cases call <;> first | rfl | exact hkind.elim

/-- If no calls are made, nothing is `issued`. -/
theorem issued_of_calls_eq {happening : Happening}
    (h : (ws.meet parse happening).world.calls = ws.world.calls) :
    ws.issued parse happening = [] := by
  simp [issued, World.since, h, Memory.lent]

/-! ### Balance -/

/-- **Balanced books**: the workspace is `Square`, all in the `ledger` is numbered through, and it
was released or is still lent. -/
structure Balanced (ws : Workspace Memory) (ledger : List Lease) : Prop where
  /-- it is square -/
  square : ws.Square []
  /-- what was issued is numbered through -/
  numbered : ledger.map Lease.handle = List.range' 1 ledger.length
  /-- the last handle is the number of what was issued -/
  last : ws.world.engine.lending.last = ledger.length
  /-- what was issued was released or is lent -/
  balance : ledger ~ ws.world.released ++ ws.world.engine.lending.leases

theorem balanced_ofWorld (files : FileTree) : (ofWorld { engine := {}, files }).Balanced [] :=
  ⟨square_ofWorld files, rfl, rfl, .refl _⟩

/-- **A command keeps the books `Balanced`.** -/
theorem Balanced.command (parse : String → Option Json) (h : ws.Balanced ledger) (c : Command)
    (hallows : ws.Allows (.command c)) :
    (ws.run (Memory.engine parse) c).2.Balanced
      (ledger ++ ws.issued parse (.event (.command c))) := by
  have htransacts := h.square.run parse c hallows
  obtain ⟨calls, hcalls, hperm⟩ := htransacts.settles
  have hissued : ws.issued parse (.event (.command c)) = Memory.lent parse calls ws.world :=
    issued_eq hcalls
  obtain ⟨hhandles, hlast⟩ := Memory.lent_handles parse calls ws.world
  have hbefore : ws.world.engine.lastHandle = ledger.length := h.last
  rw [hissued]
  refine ⟨htransacts.square, ?_, ?_, ?_⟩
  · rw [List.map_append, h.numbered, hhandles, hbefore, List.length_append, Nat.add_comm _ 1,
      List.range'_append_1]
  · rw [hcalls, List.length_append, ← hbefore]
    exact hlast
  · have hreleased : (ws.run (Memory.engine parse) c).2.world.released =
        (calls.filterMap Call.release?).reverse ++ ws.world.released := by
      rw [hcalls, Memory.released_asks]
    rw [hreleased]
    calc ledger ++ Memory.lent parse calls ws.world
      _ ~ ws.world.released ++ ws.world.engine.lending.leases ++
            Memory.lent parse calls ws.world := h.balance.append_right _
      _ ~ ws.world.released ++
            (Memory.lent parse calls ws.world ++ ws.world.engine.lending.leases) := by
          rw [List.append_assoc]
          exact List.perm_append_comm.append_left _
      _ ~ ws.world.released ++ (calls.filterMap Call.release? ++ _) := hperm.append_left _
      _ ~ calls.filterMap Call.release? ++ (ws.world.released ++ _) :=
          List.perm_append_comm_assoc _ _ _
      _ ~ (calls.filterMap Call.release?).reverse ++ (ws.world.released ++ _) :=
          (List.reverse_perm _).symm.append_right _
      _ = _ := (List.append_assoc ..).symm

/-- What makes no call and changes nothing about what is lent does not matter. -/
theorem Balanced.same (h : ws.Balanced ledger) {w : World Memory}
    (hpanic : w.channel.panic = none) (hlending : w.engine.lending = ws.world.engine.lending)
    (hcalls : w.calls = ws.world.calls) : Balanced { ws with world := w } ledger := by
  have hsquare : Square { ws with world := w } [] := by
    refine { h.square with panic := hpanic, proper := ?_, leases := ?_, owned := ?_ }
    · rw [hlending]
      exact h.square.proper
    · rw [hlending]
      exact h.square.leases
    · rw [hlending]
      exact h.square.owned
  refine ⟨hsquare, h.numbered, by rw [hlending]; exact h.last, ?_⟩
  rw [hlending, World.released, hcalls]
  exact h.balance

/-- **Whatever happens keeps the books `Balanced`**, but for a panic. -/
theorem Balanced.meet (h : ws.Balanced ledger) {happening : Happening}
    (hallows : ∀ e, happening = .event e → ws.Allows e)
    (hpanic : (ws.meet parse happening).world.channel.panic = none) :
    (ws.meet parse happening).Balanced (ledger ++ ws.issued parse happening) := by
  have hreport : happening.report? = none := by
    rw [panic_meet, h.square.panic] at hpanic
    exact hpanic
  cases happening with
  | record message => cases hreport
  | event e =>
    cases e with
    | command c => exact h.command parse c (hallows _ rfl)
    | files t =>
      rw [issued_of_calls_eq rfl, List.append_nil]
      exact h.same hpanic rfl rfl
    | disturb d =>
      have hcalls : (ws.meet parse (.event (.disturb d))).world.calls = ws.world.calls := by
        cases d <;> rfl
      rw [issued_of_calls_eq hcalls, List.append_nil]
      exact h.same hpanic (Memory.lending_disturb ws.world d) hcalls

/-- **The books stay `Balanced` along a run.** -/
theorem Balanced.undergo (h : ws.Balanced ledger) {happenings : List Happening}
    (hobeys : ws.Obeys parse happenings)
    (hpanic : (ws.undergo parse happenings).world.channel.panic = none) :
    (ws.undergo parse happenings).Balanced (ledger ++ ws.ledger parse happenings) := by
  induction happenings generalizing ws ledger with
  | nil => rwa [Workspace.ledger, List.append_nil]
  | cons happening later ih =>
    have hearlier : (ws.meet parse happening).world.channel.panic = none := by
      have hlater := panic_undergo parse (ws.meet parse happening) later
      rw [Workspace.undergo, List.foldl_cons] at hpanic
      exact (Option.or_eq_none_iff.mp (hlater.symm.trans hpanic)).1
    rw [Workspace.ledger, ← List.append_assoc]
    exact ih (h.meet hobeys.1 hearlier) hobeys.2 hpanic

/-! ### What the books say -/

theorem countP_leases {α : Type} (t : Table Label α) (lease? : α → Option Lease)
    (p : Lease → Bool) :
    (t.leases lease?).countP p = t.values.countP fun a => (lease? a).any p := by
  rw [Table.leases, List.countP_filterMap]
  apply List.countP_congr
  intro a _
  cases lease? a <;> rfl

/-- What is lent of some sort is what is `held` of it. -/
theorem Square.countP_eq (h : ws.Square []) (p : Lease → Bool) :
    ws.world.engine.databases.keys.countP (fun handle => p (.database handle)) +
        ws.world.engine.sessions.keys.countP (fun handle => p (.session handle)) +
        ws.world.engine.cursors.keys.countP (fun handle => p (.cursor handle)) =
      ws.databases.values.countP (fun d => d.lease?.any p) +
        ws.sessions.values.countP (fun s => s.it.lease?.any p) +
        ws.readers.values.countP (fun r => r.it.lease?.any p) := by
  have hcount := h.leases.countP_eq p
  simpa only [Lending.leases, Memory.lending, Table.keys_marks, List.nil_append, held,
    List.countP_append, List.countP_map, countP_leases, Function.comp_def] using hcount

/-- **An engine has open what the caller has open.** -/
theorem Square.sizes (h : ws.Square []) :
    ws.world.engine.databases.size = ws.databases.values.countP (·.handle.isSome) ∧
      ws.world.engine.sessions.size = ws.sessions.values.countP (·.it.handle.isSome) ∧
      ws.world.engine.cursors.size = ws.readers.values.countP (!·.it.isClosed) := by
  have hdatabases := h.countP_eq fun | .database _ => true | _ => false
  have hsessions := h.countP_eq fun | .session _ => true | _ => false
  have hcursors := h.countP_eq fun | .cursor _ => true | _ => false
  have hclosed : ∀ r : Reader, r.cursor.handle.isSome = !r.isClosed := by
    rintro (c | n)
    · exact (Option.not_isNone ..).symm
    · exact (Option.not_isNone ..).symm
  simp [Database.lease?, Session.lease?, Reader.lease?, Option.any_map, hclosed,
    Table.length_keys] at hdatabases hsessions hcursors
  exact ⟨hdatabases, hsessions, hcursors⟩

/-- What was `issued` was `released` or is `held`. -/
theorem Balanced.perm (h : ws.Balanced ledger) : ledger ~ ws.world.released ++ ws.held :=
  h.balance.trans (h.square.leases.append_left _)

/-- What is `held` was `issued`. -/
theorem Balanced.mem_ledger (h : ws.Balanced ledger) {lease : Lease} (hlease : lease ∈ ws.held) :
    lease ∈ ledger := h.perm.mem_iff.mpr (List.mem_append_right _ hlease)

/-- **A handle is `released` once**, and only if its owner holds it no longer. -/
theorem Balanced.count_released (h : ws.Balanced ledger) (lease : Lease) :
    ws.world.released.count lease = if lease ∈ ledger ∧ lease ∉ ws.held then 1 else 0 := by
  have hledger : ledger.Nodup := by
    apply Lease.nodup_of_handles
    rw [h.numbered]
    exact List.nodup_range'
  have hheld : ws.held.Nodup := (List.nodup_append.mp (h.perm.nodup_iff.mp hledger)).2.1
  have hcount := h.perm.count_eq lease
  rw [List.count_append, hledger.count, hheld.count] at hcount
  by_cases hlease : lease ∈ ws.held
  · have hissued := h.mem_ledger hlease
    simpa [hlease, hissued] using hcount
  · simpa [hlease] using hcount.symm

/-- After `dropAll` nothing is held. -/
theorem values_dropAll {σ : Type} (E : Engine σ) (ws : Workspace σ) :
    (ws.dropAll E).databases.values = [] ∧ (ws.dropAll E).sessions.values = [] ∧
      (ws.dropAll E).readers.values = [] := by
  obtain ⟨hdatabases, hsessions, hreaders⟩ := dropAll_tables E ws
  rw [hdatabases, hsessions, hreaders]
  refine ⟨?_, ?_, ?_⟩ <;> exact Table.values_eq_nil (find?_foldl_sortLabels _)

theorem held_dropAll {σ : Type} (E : Engine σ) (ws : Workspace σ) : (ws.dropAll E).held = [] := by
  obtain ⟨hdatabases, hsessions, hreaders⟩ := values_dropAll E ws
  simp [held, Table.leases, hdatabases, hsessions, hreaders]

/-- **The books balance.** Whatever a caller does that it is allowed, and whatever becomes of the
engine and the files, as long as no panic is reported: the engine has as many databases, sessions
and cursors open as the caller has values that are neither closed nor dropped, all of which it was
given. No handle was issued twice, and every handle was released once if its owner is open no
longer, and otherwise not at all. When all is let go of, nothing is open, and everything that was
ever issued was released once. -/
theorem balance_of_no_panic (files : FileTree) {happenings : List Happening}
    (hobeys : (ofWorld { engine := {}, files }).Obeys parse happenings)
    (hpanic : ((ofWorld { engine := {}, files }).undergo parse happenings).world.channel.panic =
      none) :
    let ws := (ofWorld { engine := {}, files }).undergo parse happenings
    let ledger := (ofWorld { engine := {}, files }).ledger parse happenings
    let gone := ws.dropAll (Memory.engine parse)
    ws.world.engine.databases.size = ws.databases.values.countP (·.handle.isSome) ∧
      ws.world.engine.sessions.size = ws.sessions.values.countP (·.it.handle.isSome) ∧
      ws.world.engine.cursors.size = ws.readers.values.countP (!·.it.isClosed) ∧
      ledger.map Lease.handle = List.range' 1 ledger.length ∧
      (∀ lease ∈ ws.held, lease ∈ ledger) ∧
      (∀ lease, ws.world.released.count lease =
        if lease ∈ ledger ∧ lease ∉ ws.held then 1 else 0) ∧
      gone.world.engine.databases.size = 0 ∧ gone.world.engine.sessions.size = 0 ∧
      gone.world.engine.cursors.size = 0 ∧
      ∀ lease, gone.world.released.count lease = if lease ∈ ledger then 1 else 0 := by
  intro ws ledger gone
  have hbalanced : ws.Balanced ledger := (balanced_ofWorld files).undergo hobeys hpanic
  have hgone : gone.Balanced ledger := by
    have hdropped := hbalanced.command parse .dropAll trivial
    rwa [issued_dropAll, List.append_nil] at hdropped
  obtain ⟨hdatabases, hsessions, hcursors⟩ := hbalanced.square.sizes
  obtain ⟨hdatabases', hsessions', hcursors'⟩ := hgone.square.sizes
  obtain ⟨hnoDatabase, hnoSession, hnoReader⟩ := values_dropAll (Memory.engine parse) ws
  rw [hnoDatabase] at hdatabases'
  rw [hnoSession] at hsessions'
  rw [hnoReader] at hcursors'
  refine ⟨hdatabases, hsessions, hcursors, hbalanced.numbered, ?_, hbalanced.count_released,
    hdatabases', hsessions', hcursors', ?_⟩
  · intro lease hlease
    exact hbalanced.mem_ledger hlease
  · intro lease
    have hcount := hgone.count_released lease
    simpa only [gone, held_dropAll, List.not_mem_nil, not_false_eq_true, and_true] using hcount

/-- A run with two databases on one file: opening another fails, a query is not understood, and all
but the second database and a session on it are closed, some of it twice, and dropped. -/
theorem balance_of_no_panic_closed_twice :
    let happenings : List Happening :=
      [.event (.command (.openDatabase "d" ⟨""⟩ "a" {})),
        .event (.command (.openDatabase "x" ⟨""⟩ "b" {})),
        .event (.command (.openDatabase "e" ⟨""⟩ "a" {})),
        .event (.command (.openSession "s" "d")),
        .event (.command (.openReader "c" "s" (.text "\x7b"))),
        .event (.command (.closeReader "c")), .event (.command (.closeReader "c")),
        .event (.command (.dropReader "c")), .event (.command (.openSession "t" "e")),
        .event (.command (.closeSession "s")), .event (.command (.closeSession "s")),
        .event (.command (.dropSession "s")), .event (.command (.closeDatabase "d"))]
    let files : FileTree := ⟨Table.empty.put ["a.akumuli"] (.file "")⟩
    let ws := (ofWorld { engine := {}, files }).undergo (fun _ => none) happenings
    let ledger := (ofWorld { engine := {}, files }).ledger (fun _ => none) happenings
    (ofWorld { engine := {}, files }).Obeys (fun _ => none) happenings ∧
      ws.world.channel.panic = none ∧
      ledger = [.database 1, .database 2, .session 3, .cursor 4, .session 5] ∧
      ws.held = [.database 2, .session 5] ∧
      ws.world.released.count (.session 3) = 1 ∧ ws.world.released.count (.session 5) = 0 ∧
      (ws.dropAll (Memory.engine fun _ => none)).world.released.count (.session 5) = 1 := by
  intro happenings files ws ledger
  have hobeys : (ofWorld { engine := {}, files }).Obeys (fun _ => none) happenings := by
    simp only [happenings, obeys_cons, obeys_nil, Allows, true_and, and_true]
    decide +kernel
  have hpanic : ws.world.channel.panic = none := by decide +kernel
  have hledger : ledger = [.database 1, .database 2, .session 3, .cursor 4, .session 5] := by
    decide +kernel
  have hheld : ws.held = [.database 2, .session 5] := by decide +kernel
  -- from here on it does not count how all this has come about
  clear_value happenings files
  have hbalance := balance_of_no_panic files hobeys hpanic
  have hcount : ∀ lease, ws.world.released.count lease =
      if lease ∈ ledger ∧ lease ∉ ws.held then 1 else 0 := hbalance.2.2.2.2.2.1
  have hgone : ∀ lease, (ws.dropAll (Memory.engine fun _ => none)).world.released.count lease =
      if lease ∈ ledger then 1 else 0 := hbalance.2.2.2.2.2.2.2.2.2
  refine ⟨hobeys, hpanic, hledger, hheld, ?_, ?_, ?_⟩
  · rw [hcount, hledger, hheld]
    rfl
  · rw [hcount, hledger, hheld]
    rfl
  · rw [hgone, hledger]
    rfl

end Workspace

end TimeSeries
