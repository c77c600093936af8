import TimeSeries.Proofs.Engine.Stores

/-!
# What a call leaves alone

Files, stores, databases and feeds are changed by few calls each, and handles are never taken
back (`Memory.framed_ask`), so nothing that is opened later gets in the way. A feed is touched by
the calls that read or close its cursor and by no others (`Memory.feed_ask`), and whatever is
done to a store, its series keep their names as long as the file is not removed
(`Memory.names_ask`). What is true of calls is true of all that is done by them.
-/

namespace TimeSeries

/-- **A `Call` on feeds** makes, reads or closes one. -/
def Call.OnFeed : Call → Prop
  | .query .. | .cursorRead .. | .cursorClose _ => True
  | _ => False

/-- **A `Call` on files** creates or removes one. -/
def Call.OnFiles : Call → Prop
  | .createDatabase .. | .removeDatabase _ => True
  | _ => False

/-- **A `Call` on stores** begins, removes or changes one. -/
def Call.OnStores : Call → Prop
  | .openDatabase .. | .removeDatabase _ | .seriesToId .. | .write .. | .query .. => True
  | _ => False

/-- **A `Call` on databases** opens or closes one. -/
def Call.OnDatabases : Call → Prop
  | .openDatabase .. | .closeDatabase _ => True
  | _ => False

/-- **A `Call` that touches a feed** that is there reads or closes it. -/
def Call.Touches (handle : Handle) : Call → Prop
  | .cursorRead cursor _ | .cursorClose cursor => cursor = handle
  | _ => False

namespace Memory

variable (parse : String → Option Json) {call : Call} {w : World Memory}

theorem setStore_eq (m : Memory) (session : Handle) (s : Store) :
    ∃ stores, m.setStore session s = { m with stores } := by
  rw [setStore]
  split <;> exact ⟨_, rfl⟩

/-- An answer, the `result` of a query, changes stores and uses up waiting bytes, and no more. -/
theorem result_eq (m : Memory) (session : Handle) (text : String) :
    ∃ stores rawResults, (m.result parse session text).2 = { m with stores, rawResults } := by
  rw [result]
  split
  · exact ⟨_, _, rfl⟩
  · split
    · exact ⟨_, _, rfl⟩
    next s _ =>
      obtain ⟨stores, hstores⟩ := m.setStore_eq session (s.query (parse text)).2
      exact ⟨stores, m.rawResults, hstores⟩

/-- **A `query`** gets `nextHandle` and a feed of its own, and leaves the engine as its `result`
does. -/
theorem ask_query (session : Handle) (text : String) (w : World Memory) :
    ∃ feed channel, (engine parse).ask (.query session text) w =
        (w.engine.nextHandle, { w with
          engine := { (w.engine.result parse session text).2 with
            lastHandle := w.engine.nextHandle
            cursors := (w.engine.result parse session text).2.cursors.put w.engine.nextHandle feed }
          channel
          calls := .query session text :: w.calls }) ∧
      channel.panic = w.channel.panic := by
  simp only [Engine.ask, engine, answer, query]
  split <;>
    next hasked =>
      rw [hasked]
      exact ⟨_, _, rfl, rfl⟩

/-- A `query` changes stores and uses up waiting bytes, and no feed but its own. -/
theorem query_eq (session : Handle) (text : String) :
    ∃ stores rawResults feed channel, ((engine parse).ask (.query session text) w).2 =
      { w with
        engine := { w.engine with
          stores, rawResults
          lastHandle := w.engine.nextHandle
          cursors := w.engine.cursors.put w.engine.nextHandle feed }
        channel
        calls := .query session text :: w.calls } := by
  obtain ⟨stores, rawResults, hresult⟩ := w.engine.result_eq parse session text
  obtain ⟨feed, channel, hasked, -⟩ := ask_query parse session text w
  rw [hasked, hresult]
  exact ⟨stores, rawResults, feed, channel, rfl⟩

/-! ### What each call leaves alone -/

/-- **What a call leaves alone**: files, stores, databases and feeds, unless it is on them. Handles
are not taken back, and an engine that refuses no writes goes on to refuse none. -/
structure Framed (call : Call) (w w' : World Memory) : Prop where
  /-- the files are the same -/
  files : ¬call.OnFiles → w'.files = w.files
  /-- the stores are the same -/
  stores : ¬call.OnStores → w'.engine.stores = w.engine.stores
  /-- the databases are the same -/
  databases : ¬call.OnDatabases → w'.engine.databases = w.engine.databases
  /-- the feeds are the same -/
  feeds : ¬call.OnFeed → w'.engine.cursors = w.engine.cursors
  /-- handles are not taken back -/
  lastHandle_le : w.engine.lastHandle ≤ w'.engine.lastHandle
  /-- no writes are refused -/
  idle : w.engine.busyWrites = 0 → w'.engine.busyWrites = 0

/-- The files are changed by calls that are `OnFiles` only. -/
theorem files_ask (h : ¬call.OnFiles) : ((engine parse).ask call w).2.files = w.files := by
  simp only [Engine.ask, engine]
  cases call with
  | createDatabase name directory volumes => exact absurd trivial h
  | removeDatabase path => exact absurd trivial h
  | openDatabase path log =>
    rw [answer, openDatabase]
    split <;> rfl
  | query session text =>
    rw [answer, query]
    split <;> rfl
  | _ => rfl

theorem framed_ask (call : Call) (w : World Memory) :
    Framed call w ((engine parse).ask call w).2 := by
  have hfiles := @files_ask parse call w
  have heffect := effect_ask parse call w
  generalize call.lease? ((engine parse).ask call w).1 = lent at heffect
  generalize ((engine parse).ask call w).2 = w' at hfiles heffect ⊢
  obtain ⟨m, files, channel, calls⟩ := w'
  dsimp only at hfiles heffect
  have hle := Nat.le_refl w.engine.lastHandle
  cases heffect with
  | idle | ended => exact ⟨hfiles, fun _ => rfl, fun _ => rfl, fun _ => rfl, hle, fun h => h⟩
  | opened => exact ⟨hfiles, absurd trivial, absurd trivial, fun _ => rfl, Nat.le_succ _, fun h => h⟩
  | closed database =>
    rw [closeDatabase]
    split <;> exact ⟨hfiles, fun _ => rfl, absurd trivial, fun _ => rfl, hle, fun h => h⟩
  | begun => exact ⟨hfiles, fun _ => rfl, fun _ => rfl, fun _ => rfl, Nat.le_succ _, fun h => h⟩
  | removed | enlisted | appended =>
    exact ⟨hfiles, absurd trivial, fun _ => rfl, fun _ => rfl, hle, fun h => h⟩
  | refused hbusy =>
    refine ⟨hfiles, fun _ => rfl, fun _ => rfl, fun _ => rfl, hle, fun hidle => ?_⟩
    cases hbusy.symm.trans hidle
  | answered | fed | denied =>
    exact ⟨hfiles, absurd trivial, fun _ => rfl, absurd trivial, Nat.le_succ _, fun h => h⟩
  | delivered | shut => exact ⟨hfiles, fun _ => rfl, fun _ => rfl, absurd trivial, hle, fun h => h⟩

/-! ### Feeds and names -/

/-- **A feed is left alone** by all calls but those that `Touches` names. -/
theorem feed_ask {handle : Handle} (hgiven : handle ≤ w.engine.lastHandle)
    (hother : ¬call.Touches handle) :
    ((engine parse).ask call w).2.engine.cursors.find? handle =
      w.engine.cursors.find? handle := by
  by_cases honFeed : call.OnFeed
  · cases call with
    | query session text =>
      obtain ⟨_, _, _, _, hquery⟩ := @query_eq parse w session text
      rw [hquery]
      exact Table.find?_put_ne _ _ (nextHandle_ne hgiven)
    | cursorRead cursor capacity =>
      have hne : cursor ≠ handle := hother
      rw [ask_cursorRead, onEngine, cursorRead]
      split
      · rfl
      · exact Table.find?_put_ne _ _ hne
    | cursorClose cursor =>
      have hne : cursor ≠ handle := hother
      exact (Table.find?_erase _ _ _).trans (if_neg hne)
    | _ => exact honFeed.elim
  · rw [(framed_ask parse call w).feeds honFeed]

/-- **Series keep their names** in the store of a file that is not removed. -/
theorem names_ask {file : FileKey} {st : Store} (hst : w.engine.stores.find? file = some st)
    (hremove : ∀ p, call = .removeDatabase p → p.key ≠ file) :
    ∃ st', ((engine parse).ask call w).2.engine.stores.find? file = some st' ∧
      st.names <+: st'.names := by
  have hchange := stores_ask parse call w file
  rw [hst] at hchange
  generalize ((engine parse).ask call w).2.engine.stores.find? file = after at hchange ⊢
  cases hchange with
  | step hstep => exact ⟨_, rfl, hstep.names⟩
  | removed hcall hkey => exact absurd hkey (hremove _ hcall)

/-! ### What is done by calls -/

/-- Handles are not taken back. -/
theorem lastHandle_le_leads {kind : Call → Prop} {w w' : World Memory}
    (h : (engine parse).Leads kind w w') : w.engine.lastHandle ≤ w'.engine.lastHandle :=
  h.keeps (P := fun v => w.engine.lastHandle ≤ v.engine.lastHandle)
    (fun call v _ hv => Nat.le_trans hv (framed_ask parse call v).lastHandle_le) (Nat.le_refl _)

/-- A feed is left alone by all that is done by calls of which none `Touches` it. -/
theorem feed_leads {kind : Call → Prop} {w w' : World Memory} {handle : Handle}
    (h : (engine parse).Leads kind w w') (hgiven : handle ≤ w.engine.lastHandle)
    (hother : ∀ call, kind call → ¬call.Touches handle) :
    w'.engine.cursors.find? handle = w.engine.cursors.find? handle :=
  (h.keeps
    (P := fun v => handle ≤ v.engine.lastHandle ∧
      v.engine.cursors.find? handle = w.engine.cursors.find? handle)
    (fun call v hcall ⟨hle, hfeed⟩ => ⟨Nat.le_trans hle (framed_ask parse call v).lastHandle_le,
      (feed_ask parse hle (hother call hcall)).trans hfeed⟩)
    ⟨hgiven, rfl⟩).2

/-- What is done by calls that are not `OnFiles` leaves them alone. -/
theorem files_leads {kind : Call → Prop} {w w' : World Memory}
    (h : (engine parse).Leads kind w w') (hkind : ∀ call, kind call → ¬call.OnFiles) :
    w'.files = w.files :=
  h.keeps (P := fun v => v.files = w.files)
    (fun call v hcall hv => ((framed_ask parse call v).files (hkind call hcall)).trans hv) rfl

/-- What is done by calls that are not `OnStores` leaves them alone. -/
theorem stores_leads {kind : Call → Prop} {w w' : World Memory}
    (h : (engine parse).Leads kind w w') (hkind : ∀ call, kind call → ¬call.OnStores) :
    w'.engine.stores = w.engine.stores :=
  h.keeps (P := fun v => v.engine.stores = w.engine.stores)
    (fun call v hcall hv => ((framed_ask parse call v).stores (hkind call hcall)).trans hv) rfl

/-- What is done by calls that are not `OnDatabases` leaves them alone. -/
theorem databases_leads {kind : Call → Prop} {w w' : World Memory}
    (h : (engine parse).Leads kind w w') (hkind : ∀ call, kind call → ¬call.OnDatabases) :
    w'.engine.databases = w.engine.databases :=
  h.keeps (P := fun v => v.engine.databases = w.engine.databases)
    (fun call v hcall hv => ((framed_ask parse call v).databases (hkind call hcall)).trans hv) rfl

/-- An engine that refuses no writes goes on to refuse none. -/
theorem idle_leads {kind : Call → Prop} {w w' : World Memory} (h : (engine parse).Leads kind w w')
    (hidle : w.engine.busyWrites = 0) : w'.engine.busyWrites = 0 :=
  h.keeps (P := fun v => v.engine.busyWrites = 0)
    (fun call v _ hv => (framed_ask parse call v).idle hv) hidle

end Memory

/-! ### What a command leaves alone -/

namespace Command

/-- **A `Command` on files** creates or removes one. -/
def OnFiles : Command → Prop
  | create .. | remove .. => True
  | _ => False

/-- **A `Command` on stores** begins, removes or changes one. -/
def OnStores : Command → Prop
  | openDatabase .. | remove .. | write .. | writeAt .. | writeAll .. | rows .. | openReader .. => True
  | _ => False

/-- **A `Command` on databases** opens or closes one. -/
def OnDatabases : Command → Prop
  | openDatabase .. | closeDatabase _ | dropDatabase _ => True
  | _ => False

end Command

namespace Workspace

variable {parse : String → Option Json} {ws : Workspace Memory} {c : Command}

/-- A call that `Reads` is on nothing but feeds. -/
theorem on_of_reads {call : Call} (h : call.Reads) :
    ¬call.OnFiles ∧ ¬call.OnStores ∧ ¬call.OnDatabases := by
  cases call <;> first | exact h.elim | exact ⟨id, id, id⟩

/-- A call that `LetsGo` of something is on databases at most. -/
theorem on_of_letsGo {call : Call} (h : call.LetsGo) : ¬call.OnFiles ∧ ¬call.OnStores := by
  cases call <;> first | exact h.elim | exact ⟨id, id⟩

/-- A command `Makes` calls on what it is on itself. -/
theorem on_of_makes {call : Call} (hall : c ≠ .dropAll) (h : ws.Makes c call) :
    (call.OnFiles → c.OnFiles) ∧ (call.OnStores → c.OnStores) ∧
      (call.OnDatabases → c.OnDatabases) := by
  have hreads : ∀ {label}, ws.ReadsAt label call →
      ¬call.OnFiles ∧ ¬call.OnStores ∧ ¬call.OnDatabases := fun hcall => on_of_reads hcall.reads
  have helim : ¬call.OnFiles ∧ ¬call.OnStores ∧ ¬call.OnDatabases → _ := fun ⟨hf, hs, hd⟩ =>
    (⟨fun h => absurd h hf, fun h => absurd h hs, fun h => absurd h hd⟩ :
      (call.OnFiles → c.OnFiles) ∧ (call.OnStores → c.OnStores) ∧
        (call.OnDatabases → c.OnDatabases))
  cases c with
  | create directory name volumes => cases h; exact ⟨id, fun h => h.elim, fun h => h.elim⟩
  | remove directory name => cases h; exact ⟨id, id, fun h => h.elim⟩
  | openDatabase label directory name settings =>
    obtain rfl | ⟨_, -, rfl⟩ := h
    · exact ⟨fun h => h.elim, id, id⟩
    · exact ⟨fun h => h.elim, fun h => h.elim, id⟩
  | openSession label database =>
    obtain ⟨_, -, rfl⟩ | ⟨_, -, rfl⟩ := h <;>
      exact ⟨fun h => h.elim, fun h => h.elim, fun h => h.elim⟩
  | closeDatabase label | dropDatabase label =>
    obtain ⟨_, -, rfl⟩ := h
    exact ⟨fun h => h.elim, fun h => h.elim, id⟩
  | closeSession label | dropSession label =>
    obtain ⟨_, -, rfl⟩ := h
    exact ⟨fun h => h.elim, fun h => h.elim, fun h => h.elim⟩
  | write label | writeAt label | writeAll label =>
    obtain ⟨_, -, hwrites⟩ := h
    cases call <;> first
      | exact hwrites.elim
      | exact ⟨fun h => h.elim, fun _ => trivial, fun h => h.elim⟩
  | rows label source =>
    obtain ⟨_, -, ⟨_, rfl⟩ | hcall⟩ := h
    · exact ⟨fun h => h.elim, fun _ => trivial, fun h => h.elim⟩
    · exact helim (on_of_reads hcall.reads)
  | openReader label session source =>
    obtain ⟨_, _, -, rfl⟩ | hcall := h
    · exact ⟨fun h => h.elim, fun _ => trivial, fun h => h.elim⟩
    · exact helim (hreads hcall)
  | next label | item label | done label | canProceed label | closeReader label | isClosed label
  | dropReader label => exact helim (hreads h)
  | dropAll => exact absurd rfl hall

/-- **The files** are left alone by commands that are not `OnFiles`. -/
theorem files_run (h : ¬c.OnFiles) :
    (ws.run (Memory.engine parse) c).2.world.files = ws.world.files := by
  by_cases hall : c = .dropAll
  · subst hall
    exact Memory.files_leads parse (leads_dropAll parse ws) fun _ hcall => (on_of_letsGo hcall).1
  · exact Memory.files_leads parse (leads_run parse ws c) fun _ hcall honFiles =>
      h ((on_of_makes hall hcall).1 honFiles)

/-- **The stores** are left alone by commands that are not `OnStores`. -/
theorem stores_run (h : ¬c.OnStores) :
    (ws.run (Memory.engine parse) c).2.world.engine.stores = ws.world.engine.stores := by
  by_cases hall : c = .dropAll
  · subst hall
    exact Memory.stores_leads parse (leads_dropAll parse ws) fun _ hcall => (on_of_letsGo hcall).2
  · exact Memory.stores_leads parse (leads_run parse ws c) fun _ hcall honStores =>
      h ((on_of_makes hall hcall).2.1 honStores)

/-- **The engine's databases** are left alone by commands that are not `OnDatabases`. -/
theorem engine_databases_run (hall : c ≠ .dropAll) (h : ¬c.OnDatabases) :
    (ws.run (Memory.engine parse) c).2.world.engine.databases = ws.world.engine.databases :=
  Memory.databases_leads parse (leads_run parse ws c) fun _ hcall honDatabases =>
    h ((on_of_makes hall hcall).2.2 honDatabases)

end Workspace

end TimeSeries
