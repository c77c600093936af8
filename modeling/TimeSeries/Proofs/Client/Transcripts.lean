import TimeSeries.Proofs.Client.ReaderOutlooks

/-!
# Transcripts of runs

A transcript puts down what is done in a run and what is answered. Two runs are compared by
their transcripts: `Workspace.transcript` is that of some steps, each of which is done by a
command, and `Workspace.Permits` says that a run can go on by some events from a workspace.
-/

namespace TimeSeries

namespace Workspace

variable (parse : String → Option Json)

/-- **What a run can go on by**: events that `Allows` admits and that are `Quiet`, one after
another, with stores whose names fit in memory all along. -/
def Permits (ws : Workspace Memory) : List Event → Prop
  | [] => True
  | e :: es =>
    ws.Allows e ∧ e.Quiet ∧ (ws.react parse e).world.engine.Fits ∧ (ws.react parse e).Permits es

/-- **Transcript** of a run: its steps and what was answered to them. -/
def transcript {α : Type} (command : α → Command) (ws : Workspace Memory) : List α →
    List (α × Answer)
  | [] => []
  | step :: steps =>
    let (answer, ws) := ws.run (Memory.engine parse) (command step)
    (step, answer) :: ws.transcript command steps

/-- The workspace after some events, each by `react`. -/
def reactAll (ws : Workspace Memory) (es : List Event) : Workspace Memory :=
  es.foldl (react parse) ws

variable {parse} {ws : Workspace Memory} {H : History}

theorem permits_append {es es' : List Event} :
    ws.Permits parse (es ++ es') ↔ ws.Permits parse es ∧ (ws.reactAll parse es).Permits parse es' := by
  induction es generalizing ws with
  | nil => exact (iff_of_eq (true_and _)).symm
  | cons e es ih => simp only [List.cons_append, Permits, ih, reactAll, List.foldl_cons, and_assoc]

/-- **A run goes on** by what it `Permits`. -/
theorem Permits.reached {es : List Event} (h : ws.Permits parse es) (hreached : Reached parse ws H) :
    ∃ H', Reached parse (ws.reactAll parse es) H' := by
  induction es generalizing ws H with
  | nil => exact ⟨H, hreached⟩
  | cons e es ih =>
    obtain ⟨hallows, hquiet, hfits, hrest⟩ := h
    exact ih hrest (hreached.step e hallows hquiet hfits)

end Workspace

/-! ### Runs of readers -/

section Permits

variable {parse : String → Option Json} {ws : Workspace Memory} {H : History} {label : Label}
  {c : Command}

theorem Workspace.allows_of_reader? (hc : c.reader? = some label) : ws.Allows (.command c) := by
  cases c <;> trivial

/-- What is done with a reader, as `reader?` says, is seen in readers and feeds only. -/
theorem Workspace.run_of_reader? (parse : String → Option Json) (ws : Workspace Memory)
    (hc : c.reader? = some label) :
    ∃ w' readers, (ws.run (Memory.engine parse) c).2 = { ws with world := w', readers } ∧
      ws.world.Observed w' := by
  have hleads := ws.leads_run parse c
  have hwith : ∀ f : Reader → World Memory → Answer × Reader × World Memory,
      ∃ w' readers, (ws.withReader label f).2 = { ws with world := w', readers } := by
    intro f
    rw [withReader]
    split <;> exact ⟨_, _, rfl⟩
  have hobserved : ws.Makes c = ws.ReadsAt label →
      ws.world.Observed (ws.run (Memory.engine parse) c).2.world := fun hmakes =>
    (hmakes ▸ hleads).observed fun _ hcall => hcall.reads
  cases c with
  | next l | item l | done l | canProceed l | closeReader l | isClosed l =>
    obtain rfl := Option.some.inj hc
    obtain ⟨w', readers, hrun⟩ := hwith _
    have hw := hobserved rfl
    rw [Workspace.run] at hw ⊢
    rw [hrun] at hw ⊢
    exact ⟨w', readers, rfl, hw⟩
  | _ => cases hc

/-- What is only done with readers a run always `Permits`. -/
theorem Workspace.permits_of_readers {commands : List Command}
    (hcommands : ∀ c ∈ commands, c.reader?.isSome) (hfits : ws.world.engine.Fits) :
    ws.Permits parse (commands.map .command) := by
  induction commands generalizing ws with
  | nil => trivial
  | cons c commands ih =>
    obtain ⟨l, hl⟩ := Option.isSome_iff_exists.mp (hcommands c List.mem_cons_self)
    obtain ⟨w', readers, hrun, cursors, calls, rfl⟩ := ws.run_of_reader? parse hl
    have hfits' : (ws.react parse (.command c)).world.engine.Fits := by
      rw [react, hrun]
      exact hfits
    exact ⟨allows_of_reader? hl, trivial, hfits',
      ih (fun c hmem => hcommands c (List.mem_cons_of_mem _ hmem)) hfits'⟩

end Permits

end TimeSeries
