import TimeSeries.Proofs.Client.Panics

/-!
# A panic goes before all other failures

An operation has checks of its own: of names and settings, of handles that were given up, of
what the engine says. `Operation` are all operations that can fail, with all their arguments and
on whatever database, session or cursor they are made, and `Operation.attempt` is what each fails
with. A panic is asked for before any of the other checks, so after a panic every operation fails
with it and makes no call, with one exception: an instant without a timestamp is found out first
(`Operation.attempt_of_panic`). So along a run the failure is the first panic that was reported,
but for such an instant: `Workspace.fails_of_panic`.
-/

namespace TimeSeries

/-- **Operation** that can fail, with its arguments and on what it is made. Nothing is asked of
either: names and settings may be bad, and handles given up. -/
inductive Operation : Type where
  /-- create a database -/
  | create (directory : Path) (name : String) (volumes : VolumeSettings)
  /-- open a database -/
  | openAt (directory : Path) (name : String) (settings : OpenSettings)
  /-- remove a database -/
  | remove (directory : Path) (name : String)
  /-- begin a session -/
  | session (d : Database)
  /-- close a database -/
  | closeDatabase (d : Database)
  /-- write a point -/
  | write (s : Session) (series : String) (timestamp : Timestamp) (value : Double)
  /-- write a point at an instant -/
  | writeAt (s : Session) (series : String) (time : Instant) (value : Double)
  /-- start a query from its text -/
  | openCursor (s : Session) (text : String)
  /-- start a query -/
  | query (s : Session) (q : Query)
  /-- start a listing -/
  | listing (s : Session) (l : Listing)
  /-- close a session -/
  | closeSession (s : Session)
  /-- read the next row -/
  | nextRow (c : Cursor)
  /-- read the next name -/
  | nextName (n : NameCursor)
  /-- ask whether everything has been read -/
  | done (r : Reader)
  /-- ask whether the engine reports no error -/
  | canProceed (r : Reader)
  /-- close a cursor -/
  | closeReader (r : Reader)

namespace Operation

/-- What a result fails with, unless it is a success. -/
def failureOf {α : Type} : Except Failure α → Option Failure
  | .ok _ => none
  | .error failure => some failure

section Failing

variable {σ : Type} (E : Engine σ) (w : World σ)

/-- **What an `Operation` fails with**, unless it succeeds, and the world after it. -/
def attempt : Operation → Option Failure × World σ
  | create directory name volumes =>
    let (result, w) := Database.create E directory name volumes w
    (failureOf result, w)
  | openAt directory name settings =>
    let (result, w) := Database.openAt E directory name settings w
    (failureOf result, w)
  | remove directory name =>
    let (result, w) := Database.remove E directory name w
    (failureOf result, w)
  | session d =>
    let (result, w) := d.session E w
    (failureOf result, w)
  | closeDatabase d =>
    let (result, _, w) := d.close E w
    (failureOf result, w)
  | write s series timestamp value =>
    let (result, w) := s.write E series timestamp value w
    (failureOf result, w)
  | writeAt s series time value =>
    let (result, w) := s.writeAt E series time value w
    (failureOf result, w)
  | openCursor s text =>
    let (result, w) := s.openCursor E text w
    (failureOf result, w)
  | query s q =>
    let (result, w) := s.query E q w
    (failureOf result, w)
  | listing s l =>
    let (result, w) := s.listing E l w
    (failureOf result, w)
  | closeSession s =>
    let (result, _, w) := s.close E w
    (failureOf result, w)
  | nextRow c =>
    let (result, _, w) := c.nextRow E w
    (failureOf result, w)
  | nextName n =>
    let (result, _, w) := n.nextName E w
    (failureOf result, w)
  | done r =>
    let (result, w) := r.done E w
    (failureOf result, w)
  | canProceed r =>
    let (result, w) := r.canProceed E w
    (failureOf result, w)
  | closeReader r =>
    let (result, _, w) := r.close E w
    (failureOf result, w)

end Failing

/-- **The failure that goes before a panic**: that `timestamp?` finds none for an instant. -/
def before? : Operation → Option Failure
  | writeAt _ _ time _ =>
    match time.timestamp? with
    | none => some (.timeOutOfRange time)
    | some _ => none
  | _ => none

/-- **Punctual operations**: those without a failure by `before?`. -/
def Punctual (o : Operation) : Prop := o.before? = none

variable {σ : Type} (E : Engine σ) {w : World σ} {message : String}

/-- Calling `nextName` reads rows, and at least one. -/
theorem nextName_of_panic (h : w.channel.panic = some message) (n : NameCursor) :
    n.nextName E w = (.error (.panicked message), n, w) := by
  rw [NameCursor.nextName, Cursor.budget, NameCursor.nextNameWithin, n.rows.nextRow_of_panic E h]

theorem listing_of_panic (h : w.channel.panic = some message) (s : Session) (l : Listing) :
    s.listing E l w = (.error (.panicked message), w) := by
  rw [Session.listing, s.openCursor_of_panic E h]
  rfl

/-- An instant that has a `timestamp?` does not matter. -/
theorem writeAt_of_panic (h : w.channel.panic = some message) (s : Session) (series : String)
    (time : Instant) (value : Double) :
    s.writeAt E series time value w =
      (.error ((before? (.writeAt s series time value)).getD (.panicked message)), w) := by
  rw [Session.writeAt, before?]
  cases time.timestamp? with
  | none => rfl
  | some timestamp => exact s.write_of_panic E h series timestamp value

/-- **After a panic every `attempt` fails**, and makes no call: with the failure that goes `before?`
a panic, if there is one, and with the panic if not. -/
theorem attempt_of_panic (h : w.channel.panic = some message) (o : Operation) :
    o.attempt E w = (some (o.before?.getD (.panicked message)), w) := by
  cases o with
  | create directory name volumes => rw [attempt, Database.create_of_panic E h]; rfl
  | openAt directory name settings => rw [attempt, Database.openAt_of_panic E h]; rfl
  | remove directory name => rw [attempt, Database.remove_of_panic E h]; rfl
  | session d => rw [attempt, d.session_of_panic E h]; rfl
  | closeDatabase d => rw [attempt, d.close_of_panic E h]; rfl
  | write s series timestamp value => rw [attempt, s.write_of_panic E h]; rfl
  | writeAt s series time value => rw [attempt, writeAt_of_panic E h]; rfl
  | openCursor s text => rw [attempt, s.openCursor_of_panic E h]; rfl
  | query s q => rw [attempt, Session.query, s.openCursor_of_panic E h]; rfl
  | listing s l => rw [attempt, listing_of_panic E h]; rfl
  | closeSession s => rw [attempt, s.close_of_panic E h]; rfl
  | nextRow c => rw [attempt, c.nextRow_of_panic E h]; rfl
  | nextName n => rw [attempt, nextName_of_panic E h]; rfl
  | done r => rw [attempt, r.done_of_panic E h]; rfl
  | canProceed r => rw [attempt, r.canProceed_of_panic E h]; rfl
  | closeReader r => rw [attempt, r.close_of_panic E h]; rfl

/-- An instant past either end of the timestamps is what it takes not to be `Punctual`. -/
theorem punctual_iff {o : Operation} :
    o.Punctual ↔ ∀ s series time value, o = .writeAt s series time value →
      0 ≤ time.total ∧ time.total < Instant.timestamps := by
  constructor
  · rintro hpunctual s series time value rfl
    by_cases hin : 0 ≤ time.total ∧ time.total < Instant.timestamps
    · exact hin
    · rw [Punctual, before?, Instant.timestamp?, if_neg hin] at hpunctual
      cases hpunctual
  · intro hin
    cases o with
    | writeAt s series time value =>
      rw [Punctual, before?, Instant.timestamp?, if_pos (hin s series time value rfl)]
    | _ => rfl

/-- The panic is what an operation fails with just when it is `Punctual`. -/
theorem getD_before?_eq_panicked {o : Operation} (message : String) :
    o.before?.getD (.panicked message) = .panicked message ↔ o.Punctual := by
  rw [Punctual]
  cases o with
  | writeAt s series time value =>
    rw [before?]
    cases time.timestamp? <;> simp
  | _ => exact ⟨fun _ => rfl, fun _ => rfl⟩

end Operation

namespace Workspace

variable (parse : String → Option Json)

/-- **A panic goes first.** If a panic is there after a run, it is the first that was reported in
it; and then every `attempt` fails, whatever the arguments are and whether what the operation is
made on is open or was given up: with that panic if it is `Punctual`, and only then. It is not if it
is `writeAt` at an instant that has no timestamp, which is found out before. -/
theorem fails_of_panic (files : FileTree) (earlier : List Happening) {message : String}
    (hpanic : ((ofWorld { engine := {}, files }).undergo parse earlier).world.channel.panic =
      some message) (o : Operation) :
    earlier.findSome? Happening.report? = some message ∧
    let w := ((ofWorld { engine := {}, files }).undergo parse earlier).world
    o.attempt (Memory.engine parse) w = (some (o.before?.getD (.panicked message)), w) ∧
      ((o.attempt (Memory.engine parse) w).1 = some (.panicked message) ↔
        ∀ s series time value, o = .writeAt s series time value →
          0 ≤ time.total ∧ time.total < Instant.timestamps) := by
  have hfirst := (ofWorld { engine := {}, files }).panic_undergo parse earlier
  have hattempt := Operation.attempt_of_panic (Memory.engine parse) hpanic o
  rw [hpanic] at hfirst
  refine ⟨hfirst.symm, hattempt, ?_⟩
  rw [hattempt, Option.some_inj, Operation.getD_before?_eq_panicked, Operation.punctual_iff]

/-- A run in which a session is closed and two panics are recorded; then a query on the closed
session fails with the first. -/
theorem fails_of_panic_corrupt :
    let earlier : List Happening :=
      [.event (.command (.openDatabase "d" ⟨""⟩ "a" {})),
        .event (.command (.openSession "s" "d")), .event (.command (.closeSession "s")),
        .record "engine corrupt", .record "disk failure"]
    let files : FileTree := ⟨Table.empty.put ["a.akumuli"] (.file "")⟩
    let w := ((ofWorld { engine := {}, files }).undergo (fun _ => none) earlier).world
    w.channel.panic = some "engine corrupt" ∧ w.calls.length = 3 ∧
      (Operation.openCursor ⟨none, {}⟩ "\x7b").attempt (Memory.engine fun _ => none) w =
        (some (.panicked "engine corrupt"), w) := by
  intro earlier files w
  have hpanic : w.channel.panic = some "engine corrupt" := panic_undergo _ _ _
  obtain ⟨-, hattempt, -⟩ := fails_of_panic (fun _ => none) files earlier hpanic
    (.openCursor ⟨none, {}⟩ "\x7b")
  exact ⟨hpanic, rfl, hattempt⟩

/-- The panic does not always go first: on the open session of a run after which there is one, a
write fails with it, and a write at an instant before 1970 does not. -/
theorem instant_before_panic :
    let earlier : List Happening :=
      [.event (.command (.openDatabase "d" ⟨""⟩ "a" {})),
        .event (.command (.openSession "s" "d")), .record "engine corrupt"]
    let files : FileTree := ⟨Table.empty.put ["a.akumuli"] (.file "")⟩
    let ws := (ofWorld { engine := {}, files }).undergo (fun _ => none) earlier
    let E := Memory.engine fun _ => none
    ws.world.channel.panic = some "engine corrupt" ∧
      (ws.run E (.write "s" "cpu host=a" 5 ⟨0⟩)).1 = .failed (.panicked "engine corrupt") ∧
      (ws.run E (.writeAt "s" "cpu host=a" ⟨-1, 0⟩ ⟨0⟩)).1 =
        .failed (.timeOutOfRange ⟨-1, 0⟩) ∧
      ¬ ∀ o : Operation, (o.attempt E ws.world).1 = some (.panicked "engine corrupt") := by
  intro earlier files ws E
  refine ⟨rfl, rfl, rfl, fun hall => ?_⟩
  have hpanicked := hall (.writeAt ⟨some 2, {}⟩ "cpu host=a" ⟨-1, 0⟩ ⟨0⟩)
  have hfailed : some (Failure.timeOutOfRange ⟨-1, 0⟩) = some (.panicked "engine corrupt") :=
    hpanicked
  cases hfailed

end Workspace

end TimeSeries
