import TimeSeries.Proofs.Client.EquivalentStores
import TimeSeries.Proofs.Engine.Frames

/-!
# What the stores of an engine list

`Store.Lists` says that a store lists given names, each once, and no others. Names that are only
registered change nothing about that (`Lists.grow`), and a writer adds the names that it registers
(`Lists.enlist`). Only calls that register a series for a writer or remove a file have to do with
what is listed (`Memory.storeOf_ask`), so commands that make no such calls leave it as it is
(`Workspace.lists_run`).
-/

namespace TimeSeries

/-! ### Stores that list names -/

namespace Store

/-- **Listing**: the names that a store lists are the given ones, each listed once. -/
structure Lists (s : Store) (names : List String) : Prop where
  /-- what is listed has a name -/
  named : ∀ id ∈ s.listed, ∃ name, s.name? id = some name
  /-- no name is listed twice -/
  nodup : s.listedNames.Nodup
  /-- the given names are listed, and no others -/
  mem : ∀ name, name ∈ s.listedNames ↔ name ∈ names

/-- The store after points were written, each by the name of its series. -/
def appendAll (s : Store) (written : List Written) : Store :=
  written.foldl (fun s w => s.appended w.series w.timestamp w.value) s

variable {s s' : Store} {names names' : List String}

theorem lists_empty : Lists empty [] :=
  ⟨fun _ h => (by cases h), List.nodup_nil, fun _ => .rfl⟩

/-- Names that are only registered are not listed. -/
theorem Lists.grow (h : s.Lists names) (hnames : s.names <+: s'.names)
    (hlisted : s'.listed = s.listed) : s'.Lists names := by
  have hname : ∀ id ∈ s.listed, s'.name? id = s.name? id := by
    intro id hid
    obtain ⟨name, hname⟩ := h.named id hid
    rw [hname, name?_of_isPrefix hnames hname]
  have hsame : s'.listedNames = s.listedNames := by
    rw [listedNames, listedNames, hlisted]
    exact List.filterMap_congr hname
  refine ⟨?_, hsame ▸ h.nodup, fun name => hsame ▸ h.mem name⟩
  intro id hid
  rw [hlisted] at hid
  rw [hname id hid]
  exact h.named id hid

/-- **A name that `enlist` registers is listed.** -/
theorem Lists.enlist (h : s.Lists names) (hsound : s.Sound) {name : String}
    (hcount : (s.enlist name).2.Countable) : (s.enlist name).2.Lists (names ++ [name]) := by
  have hlisted := hsound.listedNames_enlist hcount
  refine ⟨(hsound.enlist name).named hcount, ?_, ?_⟩
  · rw [hlisted]
    split
    · exact h.nodup
    next hnew =>
      rw [List.nodup_append]
      refine ⟨h.nodup, List.nodup_singleton name, ?_⟩
      rintro n hn _ hname rfl
      exact hnew (List.mem_singleton.mp hname ▸ hn)
  · intro n
    rw [hlisted, List.mem_append, List.mem_singleton, ← h.mem]
    split
    next hold =>
      refine ⟨.inl, ?_⟩
      rintro (hn | rfl)
      · exact hn
      · exact hold
    next => rw [List.mem_append, List.mem_singleton]

/-- **A write lists its series**, as `appended` leaves them. -/
theorem Lists.appended (h : s.Lists names) (hsound : s.Sound) {name : String}
    (hcount : (s.enlist name).2.Countable) (timestamp : Timestamp) (value : Double) :
    (s.appended name timestamp value).Lists (names ++ [name]) :=
  have henlisted := h.enlist hsound hcount
  ⟨henlisted.named, henlisted.nodup, henlisted.mem⟩

theorem names_appendAll (s : Store) (written : List Written) :
    s.names <+: (s.appendAll written).names := by
  induction written generalizing s with
  | nil => exact List.prefix_refl _
  | cons w written ih =>
    exact (enlist_grows s w.series).names.trans (ih (s.appended w.series w.timestamp w.value))

/-- Many writes by `appendAll` list their series. -/
theorem Lists.appendAll {written : List Written} (h : s.Lists names) (hsound : s.Sound)
    (hcount : (s.appendAll written).Countable) :
    (s.appendAll written).Lists (names ++ written.map Written.series) := by
  induction written generalizing s names with
  | nil => rwa [List.map_nil, List.append_nil]
  | cons w written ih =>
    have hnames := names_appendAll (s.appended w.series w.timestamp w.value) written
    have hfirst : (s.enlist w.series).2.Countable := Nat.lt_of_le_of_lt hnames.length_le hcount
    have hrest := ih (h.appended hsound hfirst w.timestamp w.value)
      (hsound.appended w.series w.timestamp w.value) hcount
    rwa [List.map_cons, List.append_cons]

/-- Stores that list the same names have the same `listedNames` in some order. -/
theorem Lists.perm (h : s.Lists names) (h' : s'.Lists names')
    (hsame : ∀ name, name ∈ names ↔ name ∈ names') : s.listedNames.Perm s'.listedNames := by
  rw [List.perm_ext_iff_of_nodup h.nodup h'.nodup]
  intro name
  rw [h.mem, h'.mem, hsame]

end Store

/-! ### Calls that list nothing -/

/-- **A `Call` that changes what is listed** registers a series for a writer or removes a file. -/
def Call.OnListings : Call → Prop
  | .seriesToId .. | .removeDatabase _ => True
  | _ => False

namespace Memory

/-- The store of a file. One that was not begun is empty. -/
def storeOf (m : Memory) (file : FileKey) : Store := (m.stores.find? file).getD .empty

variable (parse : String → Option Json) {w : World Memory} {file : FileKey} {call : Call}

/-- **A call that is not `OnListings`** lists nothing, and lets all names stay. -/
theorem storeOf_ask (hcall : ¬call.OnListings) :
    (w.engine.storeOf file).names <+: (((engine parse).ask call w).2.engine.storeOf file).names ∧
      (((engine parse).ask call w).2.engine.storeOf file).listed =
        (w.engine.storeOf file).listed := by
  have hsame : ∀ {s : Store}, s = w.engine.storeOf file →
      (w.engine.storeOf file).names <+: s.names ∧ s.listed = (w.engine.storeOf file).listed := by
    rintro _ rfl
    exact ⟨List.prefix_refl _, rfl⟩
  have hput : ∀ {session : Handle} {key : FileKey} {st new : Store},
      w.engine.Serves session key st → st.names <+: new.names → new.listed = st.listed →
      (w.engine.storeOf file).names <+: ((w.engine.withStore key new).storeOf file).names ∧
        ((w.engine.withStore key new).storeOf file).listed = (w.engine.storeOf file).listed := by
    intro session key st new hserves hnames hlisted
    by_cases hkey : key = file
    · subst hkey
      rw [storeOf, storeOf, withStore, Table.find?_put_self, hserves.find_eq]
      exact ⟨hnames, hlisted⟩
    · exact hsame (by rw [storeOf, storeOf, withStore, Table.find?_put_ne _ _ hkey])
  have heffect := effect_ask parse call w
  generalize call.lease? ((engine parse).ask call w).1 = lent at heffect
  generalize ((engine parse).ask call w).2.engine = m at heffect ⊢
  cases heffect with
  | opened path log =>
    apply hsame
    rw [opened, storeOf, storeOf]
    dsimp only
    split
    · rfl
    next hhas =>
      rw [Table.has, Bool.not_eq_true, Option.isSome_eq_false_iff, Option.isNone_iff_eq_none] at hhas
      rw [Table.find?_put]
      split
      next heq => rw [← heq, hhas]; rfl
      next => rfl
  | closed database =>
    rw [closeDatabase]
    split <;> exact hsame rfl
  | removed | enlisted => exact absurd trivial hcall
  | appended hserves happend =>
    rw [Store.append?_eq_some happend]
    exact hput hserves (List.prefix_refl _) rfl
  | @answered _ text _ st _ hserves =>
    exact hput hserves (Store.grows_query st (parse text)).names (Store.listed_query st (parse text))
  | idle | begun | ended | refused | fed | denied | delivered | shut => exact hsame rfl

/-- What is done by such calls lists nothing. -/
theorem lists_leads {kind : Call → Prop} {w w' : World Memory} {names : List String}
    (h : (engine parse).Leads kind w w') (hkind : ∀ call, kind call → ¬call.OnListings)
    (hlists : (w.engine.storeOf file).Lists names) : (w'.engine.storeOf file).Lists names := by
  refine h.keeps (P := fun v => (v.engine.storeOf file).Lists names) ?_ hlists
  intro call v hcall hv
  obtain ⟨hnames, hlisted⟩ := storeOf_ask parse (hkind call hcall)
  exact hv.grow hnames hlisted

end Memory

/-! ### Commands that list nothing -/

/-- **A `Command` that changes what is listed** writes, or removes a file. -/
def Command.OnListings : Command → Prop
  | remove .. | write .. | writeAt .. | writeAll .. => True
  | _ => False

namespace Workspace

variable (parse : String → Option Json) {ws : Workspace Memory} {c : Command} {file : FileKey}

/-- A command that lists nothing `Makes` no call that does. -/
theorem not_onListings_of_makes {call : Call} (hc : ¬c.OnListings) (hall : c ≠ .dropAll)
    (h : ws.Makes c call) : ¬call.OnListings := by
  have hreads : call.Reads → ¬call.OnListings := by
    intro hcall
    cases call <;> first | exact hcall.elim | exact id
  cases c with
  | create directory name volumes => cases h; exact id
  | openDatabase label directory name settings => obtain rfl | ⟨_, -, rfl⟩ := h <;> exact id
  | openSession label database => obtain ⟨_, -, rfl⟩ | ⟨_, -, rfl⟩ := h <;> exact id
  | closeDatabase label | dropDatabase label | closeSession label | dropSession label =>
    obtain ⟨_, -, rfl⟩ := h
    exact id
  | rows label source =>
    obtain ⟨_, -, ⟨_, rfl⟩ | hcall⟩ := h
    · exact id
    · exact hreads hcall.reads
  | openReader label session source =>
    obtain ⟨_, _, -, rfl⟩ | hcall := h
    · exact id
    · exact hreads hcall.reads
  | next label | item label | done label | canProceed label | closeReader label | isClosed label
  | dropReader label => exact hreads (ReadsAt.reads h)
  | dropAll => exact absurd rfl hall
  | remove directory name | write label series timestamp value | writeAt label series time value
  | writeAll label points => exact absurd trivial hc

/-- **To `run` a command that lists nothing** leaves what is listed. -/
theorem lists_run {names : List String} (hc : ¬c.OnListings)
    (hlists : (ws.world.engine.storeOf file).Lists names) :
    ((ws.run (Memory.engine parse) c).2.world.engine.storeOf file).Lists names := by
  by_cases hall : c = .dropAll
  · subst hall
    refine Memory.lists_leads parse (leads_dropAll parse ws) ?_ hlists
    intro call hcall
    cases call <;> first | exact hcall.elim | exact id
  · exact Memory.lists_leads parse (leads_run parse ws c)
      (fun call hcall => not_onListings_of_makes hc hall hcall) hlists

end Workspace

end TimeSeries
