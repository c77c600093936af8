import TimeSeries.Proofs.Client.Calls
import TimeSeries.Proofs.Client.Commands
import TimeSeries.Proofs.Engine.Effects
import TimeSeries.Proofs.Store.Listed

/-!
# The stores of an engine

A call changes a store in a few ways at most: it begins one, removes one, or makes of one what
a write or a query makes of it (`Memory.stores_ask`). So all stores of an engine are sound
whatever is asked (`Memory.sound_ask`), and they are so along every run (`Reached.sound`).
-/

namespace TimeSeries

/-- **Store changes**: what a single call can make of a store. -/
inductive Store.Step (s : Store) : Store → Prop where
  /-- nothing -/
  | refl : Step s s
  /-- a series is listed -/
  | enlist (name : String) : Step s (s.enlist name).2
  /-- a point is appended -/
  | append {s' : Store} (p : Point) : s.append? p = some s' → Step s s'
  /-- a query is answered -/
  | query (document : Option Json) : Step s (s.query document).2

theorem Store.Sound.step {s s' : Store} (h : s.Sound) (hstep : s.Step s') : s'.Sound := by
  cases hstep with
  | refl => exact h
  | enlist name => exact h.enlist name
  | append p happend => exact h.append? happend
  | query document => exact h.query document

/-- **What a call makes of the store of a file**: it changes it, begins one where there was none,
or removes the file. -/
inductive Store.Change (call : Call) (file : FileKey) : Option Store → Option Store → Prop where
  /-- the store changes -/
  | step {s s' : Store} : s.Step s' → Change call file (some s) (some s')
  /-- there is still none -/
  | none : Change call file none none
  /-- a store is begun -/
  | begun : Change call file none (some .empty)
  /-- the file is removed -/
  | removed {before : Option Store} {p : Path} :
    call = .removeDatabase p → p.key = file → Change call file before none

theorem Store.Change.refl {call : Call} {file : FileKey} (st? : Option Store) :
    Change call file st? st? := by
  cases st? with
  | none => exact .none
  | some st => exact .step .refl

theorem Store.Step.names {s s' : Store} (h : s.Step s') : s.names <+: s'.names := by
  cases h with
  | refl => exact List.prefix_refl _
  | enlist name => exact (enlist_grows s name).names
  | append p happend => rw [append?_eq_some happend]; exact List.prefix_refl _
  | query document => exact (grows_query s document).names

namespace Memory

variable (parse : String → Option Json)

variable {parse} in
/-- **Every `Effect` changes a store** in one of these ways at most. -/
theorem Effect.change {m m' : Memory} {call : Call} {lent : Option Lease}
    (h : Effect parse m call lent m') (file : FileKey) :
    Store.Change call file (m.stores.find? file) (m'.stores.find? file) := by
  have hsame : Store.Change call file (m.stores.find? file) (m.stores.find? file) := .refl _
  -- what is put in the place of a session's store
  have hput : ∀ {session : Handle} {key : FileKey} {st new : Store}, m.Serves session key st →
      st.Step new → Store.Change call file (m.stores.find? file)
        ((m.stores.put key new).find? file) := by
    intro session key st new hserves hstep
    rw [Table.find?_put]
    split
    next heq =>
      subst heq
      rw [hserves.find_eq]
      exact .step hstep
    next => exact hsame
  cases h with
  | opened path log =>
    rw [Memory.opened]
    dsimp only
    split
    · exact hsame
    next hhas =>
      rw [Table.find?_put]
      split
      next heq =>
        subst heq
        rw [Table.has, Bool.not_eq_true, Option.isSome_eq_false_iff, Option.isNone_iff_eq_none] at hhas
        rw [hhas]
        exact .begun
      next => exact hsame
  | closed database =>
    rw [closeDatabase]
    split <;> exact hsame
  | @removed path hclosed =>
    rw [Memory.removed, Table.find?_erase]
    split
    next heq => exact .removed rfl heq
    next => exact hsame
  | @enlisted _ _ name _ _ _ hserves => exact hput hserves (.enlist name)
  | appended hserves happend => exact hput hserves (.append _ happend)
  | answered text _ hserves => exact hput hserves (.query (parse text))
  | idle | begun | ended | refused | fed | denied | delivered | shut => exact hsame

/-- **Every call changes a store** as a `Change` at most. -/
theorem stores_ask (call : Call) (w : World Memory) (file : FileKey) :
    Store.Change call file (w.engine.stores.find? file)
      (((engine parse).ask call w).2.engine.stores.find? file) :=
  (effect_ask parse call w).change file

/-- **All stores are `Store.Sound`.** -/
def Sound (m : Memory) : Prop := ∀ file st, m.stores.find? file = some st → st.Sound

theorem sound_ask (call : Call) (w : World Memory) (h : w.engine.Sound) :
    ((engine parse).ask call w).2.engine.Sound := by
  intro file st' hst'
  have hchange := stores_ask parse call w file
  rw [hst'] at hchange
  generalize hst : w.engine.stores.find? file = before at hchange
  cases hchange with
  | step hstep => exact (h file _ hst).step hstep
  | begun => exact Store.sound_empty

end Memory

/-- **To `run` a command keeps all stores `Sound`.** -/
theorem Workspace.sound_run (parse : String → Option Json) (ws : Workspace Memory) (c : Command)
    (h : ws.world.engine.Sound) : (ws.run (Memory.engine parse) c).2.world.engine.Sound :=
  (leads_run parse ws c).keeps (P := fun w => w.engine.Sound)
    (fun call w _ hw => Memory.sound_ask parse call w hw) h

/-- **The stores of every run are `Sound`.** -/
theorem Reached.sound {parse : String → Option Json} {ws : Workspace Memory} {H : History}
    (h : Reached parse ws H) : ws.world.engine.Sound := by
  induction h with
  | start files =>
    intro file st hst
    cases hst
  | step e _ _ _ _ ih =>
    cases e with
    | command c => exact Workspace.sound_run parse _ c ih
    | files t => exact ih
    | disturb d => cases d <;> exact ih

end TimeSeries
