import TimeSeries.Engine.Memory

/-!
# Calls

What a caller does to the world it does by calls, one after another. `Engine.Leads`
says that one world comes from another by calls of some kind, so what every such call
keeps is kept (`Engine.Leads.keeps`). `World.Asked` is the special case of questions,
which leave everything but the record of calls as it was.

For the engine in memory, no call reports a panic (`Memory.panic_ask`) and each is
recorded once (`Memory.calls_ask`), and there is one equation for each call a reader
makes.
-/

namespace TimeSeries

/-! ### Questions -/

namespace World

variable {σ : Type}

/-- The world after a `Call` was recorded. -/
def called (w : World σ) (call : Call) : World σ := { w with calls := call :: w.calls }

@[simp] theorem called_engine (w : World σ) (call : Call) : (w.called call).engine = w.engine := rfl

@[simp] theorem called_files (w : World σ) (call : Call) : (w.called call).files = w.files := rfl

@[simp] theorem called_channel (w : World σ) (call : Call) :
    (w.called call).channel = w.channel := rfl

/-- **Only questions were asked**: the worlds differ at most in `calls`. -/
def Asked (w w' : World σ) : Prop := ∃ calls, w' = { w with calls }

namespace Asked

variable {w w' w'' : World σ}

theorem refl (w : World σ) : w.Asked w := ⟨w.calls, rfl⟩

theorem called (w : World σ) (call : Call) : w.Asked (w.called call) := ⟨_, rfl⟩

theorem trans (h : w.Asked w') (h' : w'.Asked w'') : w.Asked w'' := by
  obtain ⟨calls, rfl⟩ := h
  obtain ⟨calls', rfl⟩ := h'
  exact ⟨calls', rfl⟩

theorem engine (h : w.Asked w') : w'.engine = w.engine := by
  obtain ⟨calls, rfl⟩ := h
  rfl

theorem files (h : w.Asked w') : w'.files = w.files := by
  obtain ⟨calls, rfl⟩ := h
  rfl

theorem channel (h : w.Asked w') : w'.channel = w.channel := by
  obtain ⟨calls, rfl⟩ := h
  rfl

end Asked

theorem check_of_no_panic {w : World σ} (h : w.channel.panic = none) : w.check = .ok () := by
  rw [check, h]

end World

/-! ### Calls of a kind -/

namespace Engine

variable {σ : Type}

/-- **One world leads to another** by calls of some `kind`. -/
inductive Leads (E : Engine σ) (kind : Call → Prop) (w : World σ) : World σ → Prop where
  /-- no call -/
  | refl : Leads E kind w w
  /-- one call more -/
  | ask {w' : World σ} (call : Call) : kind call → Leads E kind w w' →
      Leads E kind w (E.ask call w').2

namespace Leads

variable {E : Engine σ} {kind kind' : Call → Prop} {w w' w'' : World σ}

/-- A single call. -/
theorem one {call : Call} (h : kind call) (w : World σ) : E.Leads kind w (E.ask call w).2 :=
  .ask call h .refl

theorem trans (h : E.Leads kind w w') (h' : E.Leads kind w' w'') : E.Leads kind w w'' := by
  induction h' with
  | refl => exact h
  | ask call hcall _ ih => exact .ask call hcall ih

theorem mono (h : E.Leads kind w w') (hkind : ∀ call, kind call → kind' call) :
    E.Leads kind' w w' := by
  induction h with
  | refl => exact .refl
  | ask call hcall _ ih => exact .ask call (hkind call hcall) ih

/-- **What each call keeps is kept** by all of them. -/
theorem keeps {P : World σ → Prop}
    (hstep : ∀ (call : Call) (w : World σ), kind call → P w → P (E.ask call w).2)
    (h : E.Leads kind w w') (hw : P w) : P w' := by
  induction h with
  | refl => exact hw
  | ask call hcall _ ih => exact hstep call _ hcall ih

end Leads

end Engine

namespace Memory

variable (parse : String → Option Json)

/-! ### What an answer changes -/

/-- **An `answer`** changes the engine, the files and the log, and nothing else. -/
theorem answer_eq (call : Call) (w : World Memory) : ∃ engine files log,
    (answer parse call w).2 = { w with engine, files, channel := { w.channel with log } } := by
  cases call with
  | createDatabase name directory volumes =>
    rw [answer, createDatabase]
    split
    · exact ⟨_, _, _, rfl⟩
    · split <;> exact ⟨_, _, _, rfl⟩
  | removeDatabase file =>
    rw [answer, removeDatabase]
    split
    · exact ⟨_, _, _, rfl⟩
    · split
      · exact ⟨_, _, _, rfl⟩
      · split <;> exact ⟨_, _, _, rfl⟩
  | openDatabase file log =>
    rw [answer, openDatabase]
    split <;> exact ⟨_, _, _, rfl⟩
  | query session text =>
    rw [answer, query]
    split <;> exact ⟨_, _, _, rfl⟩
  | _ => exact ⟨_, _, _, rfl⟩

/-- **To `ask` does not report a panic.** -/
theorem panic_ask (call : Call) (w : World Memory) :
    ((engine parse).ask call w).2.channel.panic = w.channel.panic := by
  obtain ⟨_, _, _, hanswer⟩ := answer_eq parse call (w.called call)
  have hpanic := congrArg (fun w' : World Memory => w'.channel.panic) hanswer
  exact hpanic

/-- **A call that is made by `ask` is on record** once. -/
theorem calls_ask (call : Call) (w : World Memory) :
    ((engine parse).ask call w).2.calls = call :: w.calls := by
  obtain ⟨_, _, _, hanswer⟩ := answer_eq parse call (w.called call)
  have hcalls := congrArg World.calls hanswer
  exact hcalls

/-! ### The calls of a reader -/

variable (w : World Memory)

theorem ask_cursorError (cursor : Handle) :
    (engine parse).ask (.cursorError cursor) w =
      (w.engine.cursorError cursor, w.called (.cursorError cursor)) := rfl

theorem ask_cursorIsDone (cursor : Handle) :
    (engine parse).ask (.cursorIsDone cursor) w =
      (w.engine.cursorIsDone cursor, w.called (.cursorIsDone cursor)) := rfl

theorem ask_idToSeries (session : Handle) (id : SeriesId) :
    (engine parse).ask (.idToSeries session id) w =
      (w.engine.idToSeries session id, w.called (.idToSeries session id)) := rfl

theorem ask_cursorRead (cursor : Handle) (capacity : Nat) :
    (engine parse).ask (.cursorRead cursor capacity) w =
      onEngine (w.called (.cursorRead cursor capacity)) (w.engine.cursorRead cursor capacity) :=
  rfl

end Memory

end TimeSeries
