import TimeSeries.Proofs.Client.LockstepStores

/-!
# Reading all of a query

What is read of a query at one go is made from the store of its session, the limit on deliveries and
the names that are forgotten, and from nothing else (`Store.readout`, `Session.readAll_of_serves`).
So in two worlds side by side the same is read, but for the row of a stray in a listing
(`Store.Beside.readout`).
-/

namespace TimeSeries

open Cursor

/-- **All items of a query** that a store is asked by `query`, under a limit on deliveries and while
some names are forgotten. -/
def Store.readout (st : Store) (limit? : Option Nat) (forgotten : List String)
    (document : Option Json) : List (Item Row) :=
  match st.query document with
  | (.ok records, st') => rationed limit? (readAlone (st'.recall forgotten))
      (records.map Record.encode)
  | (.error status, _) => [.error (.engine status)]

namespace Session

variable (parse : String → Option Json) {s : Session} {session : Handle} {file : FileKey}
  {st : Store} {w : World Memory}

/-- **Calling `readAll`** of a query that waiting bytes do not take the place of is the `readout` of
the store of the session. -/
theorem readAll_of_serves (hpanic : w.channel.panic = none) (hraw : w.engine.rawResults = [])
    (husable : s.settings.Usable) (hhandle : s.handle = some session)
    (hserves : w.engine.Serves session file st) (text : String) :
    (Workspace.readAll (Memory.engine parse) s text w).1 =
      .items (st.readout w.engine.chunkLimit w.engine.forgotten (parse text)) := by
  rw [Store.readout]
  rcases hquery : st.query (parse text) with ⟨status | records, st'⟩
  · obtain ⟨w', hopen, hitems, -⟩ :=
      items_of_refusal hpanic hraw husable hhandle hserves hquery
    rw [Workspace.readAll, hopen]
    exact congrArg Answer.items hitems
  · obtain ⟨w', hopen, hbecomes, -, hitems⟩ :=
      rationed_of_answer hpanic hraw husable hhandle hserves hquery
    have hserves' : w'.engine.Serves session file st' := by
      rw [hbecomes.engine]
      exact ⟨hserves.file_eq, Table.find?_put_self _ _ _⟩
    have hforgotten : w'.engine.forgotten = w.engine.forgotten := by rw [hbecomes.engine]; rfl
    rw [hserves'.idToSeries_eq_recall, hforgotten] at hitems
    rw [Workspace.readAll, hopen]
    exact congrArg Answer.items hitems

/-- A session whose store is gone reads that it is `closed`. -/
theorem readAll_of_unserved (hpanic : w.channel.panic = none) (hraw : w.engine.rawResults = [])
    (husable : s.settings.Usable) (hhandle : s.handle = some session)
    (hnone : w.engine.store? session = none) (text : String) :
    (Workspace.readAll (Memory.engine parse) s text w).1 = .items [.error (.engine .closed)] := by
  obtain ⟨w', hopen, hpanic', hfeed⟩ : ∃ w', s.openCursor (Memory.engine parse) text w =
        (.ok (.ofHandle session w.engine.nextHandle s.settings.buffer), w') ∧
      w'.channel.panic = none ∧
      w'.engine.cursors.find? w.engine.nextHandle = some { error := some .closed } := by
    rw [openCursor, hhandle, checkHandle_some hpanic]
    simp only [Engine.ask, Memory.engine, Memory.answer, Memory.query, Memory.result, hraw, hnone]
    exact ⟨_, rfl, hpanic, Table.find?_put_self _ _ _⟩
  rw [Workspace.readAll, hopen]
  exact congrArg Answer.items (items_of_failed parse (live_ofHandle _ _ husable.word)
    (ReadBuffer.unread_ofCapacity _) hpanic' hfeed).2

end Session

/-- Whether a document asks for **a listing**. -/
def Plan.lists (document : Option Json) : Bool :=
  match document.map Plan.ofJson with
  | some (.ok (.names _)) => true
  | _ => false

/-- **The `readout` of stores side by side** has the same items, and in a listing perhaps one
more. -/
theorem Store.Beside.readout {stray : Option String} {s s' : Store} (h : Beside stray s s')
    (limit? : Option Nat) (forgotten : List String) (document : Option Json)
    (hcount : (s.query document).2.Countable) :
    let items := s.readout limit? forgotten document
    let items' := s'.readout limit? forgotten document
    SameItems items items' ∨
      Plan.lists document = true ∧ ∃ name ∈ stray, ItemMore name items items' := by
  intro items items'
  cases document with
  | none => exact .inl (.refl _)
  | some j =>
    simp only [items, items', Store.readout, Store.query] at hcount ⊢
    cases hplan : Plan.ofJson j with
    | error status => exact .inl (.refl _)
    | ok p =>
      rw [hplan] at hcount
      refine (h.items_answer (Plan.narrow_of_ofJson hplan) hcount limit? forgotten).imp_right ?_
      rintro ⟨f, rfl, hmore⟩
      exact ⟨by rw [Plan.lists, Option.map_some, hplan], hmore⟩

end TimeSeries
