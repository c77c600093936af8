import TimeSeries.Proofs.Client.HandleBalance
import TimeSeries.Proofs.Engine.Coherence

/-!
# How often a write is tried

An engine that is busy refuses so many writes and then takes the next. A write is tried again until
it is taken or its policy gives up, which depends on the attempts so far and on the time they took
(`RetryPolicy.givesUp`), and until then nothing is changed but the number of refusals. So a write is
taken at the first attempt after the refusals if the policy gives up at none of these
(`Session.attempt_of_patient`), and otherwise it fails at the first attempt at which the policy
gives up (`Session.attempt_of_givesUp`); in either case the series is looked up once, before the
first try (`Session.write_eq_attempt`), unless the write is refused for it
(`Session.write_of_refusal`).

A policy without a timeout, or with one of zero, goes by the number of attempts only
(`RetryPolicy.limit?`), so `Session.write` has just as many of them as it may have.

The rest is that an open session has a store to write to. It does in every state that a caller can
bring about, however busy the engine is (`Workspace.serves_of_square`). Main result:
`Workspace.write_exact`.
-/

namespace TimeSeries

/-! ### Policies -/

namespace RetryPolicy

variable {p : RetryPolicy} {attempts elapsed n : Nat} {delays : List Nat}

/-- **Giving up** at the `n`th attempt to come, if that is refused: `attempts` were made before and
took `elapsed` nanoseconds, and those to come take `delays`. -/
def givesUp (p : RetryPolicy) (attempts elapsed : Nat) (delays : List Nat) (n : Nat) : Bool :=
  p.exhausted (min (attempts + n) Session.maxCount) ((delays.take n).foldl (· + ·) elapsed)

theorem givesUp_one : p.givesUp attempts elapsed delays 1 =
    p.exhausted (min (attempts + 1) Session.maxCount) (elapsed + delays.headD 0) := by
  cases delays <;> rfl

/-- With one attempt made, those to come are one fewer, and `givesUp` counts from there. -/
theorem givesUp_succ : p.givesUp attempts elapsed delays (n + 1) =
    p.givesUp (min (attempts + 1) Session.maxCount) (elapsed + delays.headD 0) delays.tail n := by
  have hcount : min (attempts + (n + 1)) Session.maxCount =
      min (min (attempts + 1) Session.maxCount + n) Session.maxCount := by omega
  have htime : (delays.take (n + 1)).foldl (· + ·) elapsed =
      (delays.tail.take n).foldl (· + ·) (elapsed + delays.headD 0) := by
    cases delays with
    | nil => simp
    | cons delay delays => rfl
  rw [givesUp, givesUp, hcount, htime]

/-- **Timeless policies**: those without a `timeout`, or with one of zero. -/
def Timeless (p : RetryPolicy) : Prop := ∀ timeout ∈ p.timeout, timeout = 0

/-- **How often a write is tried** at most under a `Timeless` policy: once if there is a `timeout`,
as it runs out at the first refusal, and else `maxAttempts` times. -/
def limit? (p : RetryPolicy) : Option Nat :=
  match p.timeout with
  | some _ => some 1
  | none => p.maxAttempts

/-- Of so many refusals, there is none at which `givesUp` holds, or a first one. -/
theorem patient_or_givesUp (p : RetryPolicy) (attempts elapsed : Nat) (delays : List Nat)
    (busy : Nat) : (∀ n < busy, p.givesUp attempts elapsed delays (n + 1) = false) ∨
      ∃ n < busy, (∀ k < n, p.givesUp attempts elapsed delays (k + 1) = false) ∧
        p.givesUp attempts elapsed delays (n + 1) = true := by
  induction busy with
  | zero => exact .inl fun n hn => absurd hn (Nat.not_lt_zero n)
  | succ busy ih =>
    obtain hpatient | ⟨n, hn, hfirst⟩ := ih
    · cases hlast : p.givesUp attempts elapsed delays (busy + 1) with
      | true => exact .inr ⟨busy, Nat.lt_succ_self busy, hpatient, hlast⟩
      | false =>
        refine .inl fun n hn => ?_
        obtain hn | rfl := Nat.lt_succ_iff_lt_or_eq.mp hn
        · exact hpatient n hn
        · exact hlast
    · exact .inr ⟨n, Nat.lt_succ_of_lt hn, hfirst⟩

/-- A `Timeless` policy gives up once a write was tried `limit?` times, whatever the `delays`
are. -/
theorem givesUp_iff (htimeless : p.Timeless) (hn : 0 < n) :
    p.givesUp 0 0 delays n = true ↔ ∃ limit ∈ p.limit?, limit ≤ min n Session.maxCount := by
  have hpos : 0 < min n Session.maxCount := Nat.lt_min.mpr ⟨hn, by decide⟩
  rw [givesUp, Nat.zero_add]
  generalize min n Session.maxCount = attempts at hpos ⊢
  obtain ⟨maxAttempts, _ | timeout⟩ := p
  · cases maxAttempts <;> simp [exhausted, limit?]
  · obtain rfl : timeout = 0 := htimeless timeout rfl
    simp [exhausted, limit?, Nat.one_le_iff_ne_zero, Nat.ne_of_gt hpos]

/-- A policy that passes its `check` allows one attempt at least. -/
theorem limit_pos (hcheck : p.check = .ok ()) {limit : Nat} (hlimit : limit ∈ p.limit?) :
    0 < limit := by
  obtain ⟨maxAttempts, _ | timeout⟩ := p
  · obtain rfl : maxAttempts = some limit := hlimit
    rcases Nat.eq_zero_or_pos limit with rfl | hpos
    · cases hcheck
    · exact hpos
  · obtain rfl : 1 = limit := Option.some.inj hlimit
    exact Nat.one_pos

/-- A `limit?` is counted by `Session.attempt` if the number of attempts is a word of 32 bits. -/
theorem limit_le (hword : ∀ limit ∈ p.maxAttempts, limit ≤ Session.maxCount) {limit : Nat}
    (hlimit : limit ∈ p.limit?) : limit ≤ Session.maxCount := by
  obtain ⟨maxAttempts, _ | timeout⟩ := p
  · exact hword limit hlimit
  · obtain rfl : 1 = limit := Option.some.inj hlimit
    decide

end RetryPolicy

/-! ### Attempts -/

/-- The world after `call` was made so many times and left the engine in state `m`. -/
def World.tried (w : World Memory) (call : Call) (attempts : Nat) (m : Memory) : World Memory :=
  { w with engine := m, calls := List.replicate attempts call ++ w.calls }

@[simp] theorem World.tried_engine (w : World Memory) (call : Call) (attempts : Nat) (m : Memory) :
    (w.tried call attempts m).engine = m := rfl

theorem World.tried_tried (w : World Memory) (call : Call) (attempts attempts' : Nat)
    (m m' : Memory) :
    (w.tried call attempts m).tried call attempts' m' = w.tried call (attempts' + attempts) m' := by
  rw [tried, tried, tried, ← List.replicate_append_replicate, List.append_assoc]

/-- The world after the call `seriesToId` of a write, which enlists the name of the series. -/
def World.lookedUp (w : World Memory) (session : Handle) (series name : String) (file : FileKey)
    (st : Store) : World Memory :=
  w.tried (.seriesToId session series) 1 (w.engine.withStore file (st.enlist name).2)

namespace Session

variable (parse : String → Option Json) {retry : RetryPolicy} {session : Handle} {file : FileKey}
  {st : Store} {p : Point} {fuel attempts elapsed busy : Nat} {delays : List Nat} {w : World Memory}

/-- The call of `Session.attempt` for a point. -/
abbrev writing (session : Handle) (p : Point) : Call :=
  .write session p.series p.timestamp p.value

/-! ### One attempt -/

theorem ask_write_busy (session : Handle) (p : Point) (hbusy : w.engine.busyWrites = busy + 1) :
    (Memory.engine parse).ask (.write session p.series p.timestamp p.value) w =
      (.busy, w.tried (writing session p) 1 (w.engine.refusing busy)) := by
  simp only [Engine.ask, Memory.engine, Memory.answer, Memory.onEngine, Memory.write, hbusy]
  rfl

/-- An `attempt` that is not refused appends the point. -/
theorem attempt_taken (hserves : w.engine.Serves session file st)
    (happend : st.append? p = some (st.withPoint p)) (hidle : w.engine.busyWrites = 0) :
    attempt (Memory.engine parse) retry session p (fuel + 1) attempts elapsed delays w =
      (.ok (), w.tried (writing session p) 1
        ((w.engine.withStore file (st.withPoint p)).refusing 0)) := by
  have hsame : (w.engine.withStore file (st.withPoint p)).refusing 0 =
      w.engine.withStore file (st.withPoint p) := by
    rw [Memory.refusing, ← hidle]
    rfl
  rw [attempt, hsame]
  simp only [Engine.ask, Memory.engine, Memory.answer, Memory.onEngine, Memory.write, hidle,
    hserves.store?_eq, happend, hserves.setStore_eq]
  rfl

/-- An `attempt` that is refused is the last if the policy `givesUp`. -/
theorem attempt_given_up (hbusy : w.engine.busyWrites = busy + 1)
    (hgone : retry.givesUp attempts elapsed delays 1 = true) :
    attempt (Memory.engine parse) retry session p (fuel + 1) attempts elapsed delays w =
      (.error (.writeBusy (min (attempts + 1) maxCount)),
        w.tried (writing session p) 1 (w.engine.refusing busy)) := by
  rw [attempt, ask_write_busy parse session p hbusy]
  dsimp only
  rw [if_pos (RetryPolicy.givesUp_one.symm.trans hgone)]

/-- An `attempt` that is refused is followed by the next if the policy does not give up. -/
theorem attempt_refused (hpanic : w.channel.panic = none) (hbusy : w.engine.busyWrites = busy + 1)
    (hmore : retry.givesUp attempts elapsed delays 1 = false) :
    attempt (Memory.engine parse) retry session p (fuel + 1) attempts elapsed delays w =
      attempt (Memory.engine parse) retry session p fuel (min (attempts + 1) maxCount)
        (elapsed + delays.headD 0) delays.tail
        (w.tried (writing session p) 1 (w.engine.refusing busy)) := by
  have hcheck : (w.tried (writing session p) 1 (w.engine.refusing busy)).check = .ok () :=
    World.check_of_no_panic hpanic
  rw [attempt, ask_write_busy parse session p hbusy]
  dsimp only
  rw [← RetryPolicy.givesUp_one, if_neg (by rw [hmore]; decide), hcheck]

/-! ### All attempts -/

/-- **A write is taken** at the first `attempt` that is not refused, if there is no refusal before
it at which the policy `givesUp`. -/
theorem attempt_of_patient (hpanic : w.channel.panic = none)
    (hserves : w.engine.Serves session file st) (happend : st.append? p = some (st.withPoint p))
    (hbusy : w.engine.busyWrites = busy) (hfuel : busy < fuel)
    (hmore : ∀ n < busy, retry.givesUp attempts elapsed delays (n + 1) = false) :
    attempt (Memory.engine parse) retry session p fuel attempts elapsed delays w =
      (.ok (), w.tried (writing session p) (busy + 1)
        ((w.engine.withStore file (st.withPoint p)).refusing 0)) := by
  obtain ⟨fuel, rfl⟩ := Nat.exists_eq_succ_of_ne_zero (Nat.ne_of_gt (Nat.zero_lt_of_lt hfuel))
  induction busy generalizing fuel attempts elapsed delays w with
  | zero => exact attempt_taken parse hserves happend hbusy
  | succ busy ih =>
    have hfuel := Nat.lt_of_succ_lt_succ hfuel
    obtain ⟨fuel, rfl⟩ := Nat.exists_eq_succ_of_ne_zero (Nat.ne_of_gt (Nat.zero_lt_of_lt hfuel))
    rw [attempt_refused parse hpanic hbusy (hmore 0 (Nat.succ_pos busy))]
    refine (ih (w := w.tried (writing session p) 1 (w.engine.refusing busy)) hpanic
      (hserves.refusing busy) rfl ?_ fuel hfuel).trans ?_
    · intro n hn
      rw [← RetryPolicy.givesUp_succ]
      exact hmore (n + 1) (Nat.succ_lt_succ hn)
    · rw [World.tried_tried]
      rfl

/-- **A write is given up** with `writeBusy` at the first refusal at which the policy `givesUp`. -/
theorem attempt_of_givesUp {n : Nat} (hpanic : w.channel.panic = none)
    (hbusy : w.engine.busyWrites = busy) (hn : n < busy) (hfuel : n < fuel)
    (hmore : ∀ k < n, retry.givesUp attempts elapsed delays (k + 1) = false)
    (hgone : retry.givesUp attempts elapsed delays (n + 1) = true) :
    attempt (Memory.engine parse) retry session p fuel attempts elapsed delays w =
      (.error (.writeBusy (min (attempts + (n + 1)) maxCount)),
        w.tried (writing session p) (n + 1) (w.engine.refusing (busy - (n + 1)))) := by
  obtain ⟨fuel, rfl⟩ := Nat.exists_eq_succ_of_ne_zero (Nat.ne_of_gt (Nat.zero_lt_of_lt hfuel))
  obtain ⟨busy, rfl⟩ := Nat.exists_eq_succ_of_ne_zero (Nat.ne_of_gt (Nat.zero_lt_of_lt hn))
  induction n generalizing fuel busy attempts elapsed delays w with
  | zero => exact attempt_given_up parse hbusy hgone
  | succ n ih =>
    have hn := Nat.lt_of_succ_lt_succ hn
    have hfuel := Nat.lt_of_succ_lt_succ hfuel
    obtain ⟨fuel, rfl⟩ := Nat.exists_eq_succ_of_ne_zero (Nat.ne_of_gt (Nat.zero_lt_of_lt hfuel))
    obtain ⟨busy, rfl⟩ := Nat.exists_eq_succ_of_ne_zero (Nat.ne_of_gt (Nat.zero_lt_of_lt hn))
    have hcount : min (min (attempts + 1) maxCount + (n + 1)) maxCount =
        min (attempts + (n + 1 + 1)) maxCount := by omega
    rw [attempt_refused parse hpanic hbusy (hmore 0 (Nat.succ_pos n))]
    refine (ih (w := w.tried (writing session p) 1 (w.engine.refusing (busy + 1))) hpanic ?_ ?_
      fuel hfuel busy rfl hn).trans ?_
    · intro k hk
      rw [← RetryPolicy.givesUp_succ]
      exact hmore (k + 1) (Nat.succ_lt_succ hk)
    · rw [← RetryPolicy.givesUp_succ]
      exact hgone
    · rw [World.tried_tried, hcount, Nat.succ_sub_succ (busy + 1)]
      rfl

/-! ### Writes -/

/-- **Why a write is refused** before `attempt` is come to, if it is: for its series, or because its
session has no store. -/
def refusal? (series : String) (served : Bool) : Option Status :=
  if Series.maxNameBytes < series.utf8ByteSize then some .badArg
  else if (Series.normalize series).isNone then some .badData
  else if served then none else some .closed

/-- A write without a `refusal?` has a short series with a name, in a session with a store. -/
theorem of_refusal?_eq_none {series : String} {served : Bool} (h : refusal? series served = none) :
    series.utf8ByteSize ≤ Series.maxNameBytes ∧ (∃ name, Series.normalize series = some name) ∧
      served = true := by
  rw [refusal?] at h
  split at h
  · cases h
  next hlength =>
    split at h
    · cases h
    next hname =>
      rw [Option.isNone_iff_eq_none] at hname
      split at h
      next hserved => exact ⟨Nat.le_of_not_lt hlength, Option.ne_none_iff_exists'.mp hname, hserved⟩
      next => cases h

/-- **A write with a `refusal?`** leaves no trace but its call of `seriesToId`, if it makes one. -/
theorem write_of_refusal {s : Session} {series : String} {status : Status}
    (hpanic : w.channel.panic = none) (hhandle : s.handle = some session)
    (h : refusal? series (w.engine.store? session).isSome = some status) (timestamp : Timestamp)
    (value : Double) :
    ∃ calls, s.write (Memory.engine parse) series timestamp value w =
      (.error (.invalidSeries series status), { w with calls }) := by
  rw [write, hhandle, checkHandle_some hpanic]
  dsimp only
  rw [refusal?] at h
  split at h
  next hlength =>
    obtain rfl := Option.some.inj h
    exact ⟨w.calls, by rw [if_pos hlength]⟩
  next hlength =>
    rw [if_neg hlength]
    simp only [Engine.ask, Memory.engine, Memory.answer, Memory.onEngine, Memory.seriesToId]
    cases hname : Series.normalize series with
    | none =>
      rw [hname] at h
      obtain rfl := Option.some.inj h
      exact ⟨_, rfl⟩
    | some name =>
      rw [hname] at h
      cases hstore : w.engine.store? session with
      | some st =>
        rw [hstore] at h
        cases h
      | none =>
        rw [hstore] at h
        obtain rfl := Option.some.inj h
        exact ⟨_, rfl⟩

section Writing

variable {s : Session} {series name : String} {timestamp : Timestamp} {value : Double}
  (htimeless : s.settings.retry.Timeless) (hpanic : w.channel.panic = none)
  (hhandle : s.handle = some session) (hserves : w.engine.Serves session file st)
  (hlength : series.utf8ByteSize ≤ Series.maxNameBytes)
  (hname : Series.normalize series = some name)

include hpanic hhandle hserves hlength hname

/-- **A `write` looks up its series once**, by `seriesToId`, and then it is an `attempt`. -/
theorem write_eq_attempt :
    let w' := w.lookedUp session series name file st
    s.write (Memory.engine parse) series timestamp value w =
      attempt (Memory.engine parse) s.settings.retry session
        ⟨(st.enlist name).1, timestamp, value⟩ (Memory.patience w' + 1) 0 0 w.delays w' := by
  intro w'
  rw [write, hhandle, checkHandle_some hpanic]
  dsimp only
  rw [if_neg (Nat.not_lt.mpr hlength)]
  simp only [Engine.ask, Memory.engine, Memory.answer, Memory.onEngine, Memory.seriesToId, hname,
    hserves.store?_eq, hserves.setStore_eq]
  rfl

include htimeless

/-- A `write` that may be tried more often than it is refused **appends its point**. -/
theorem write_of_lt (hcount : (st.enlist name).2.Countable)
    (hlimit : ∀ limit ∈ s.settings.retry.limit?, w.engine.busyWrites < limit) :
    let p : Point := ⟨(st.enlist name).1, timestamp, value⟩
    s.write (Memory.engine parse) series timestamp value w =
      (.ok (), (w.lookedUp session series name file st).tried (writing session p)
        (w.engine.busyWrites + 1)
        ((w.engine.withStore file ((st.enlist name).2.withPoint p)).refusing 0)) := by
  intro p
  have happend : (st.enlist name).2.append? p = some ((st.enlist name).2.withPoint p) :=
    Store.append?_of_name? (Store.name?_enlist hcount)
  have hfuel : w.engine.busyWrites <
      Memory.patience (w.lookedUp session series name file st) + 1 :=
    Nat.lt_succ_of_le (Nat.le_add_right _ _)
  rw [write_eq_attempt parse hpanic hhandle hserves hlength hname]
  refine (attempt_of_patient parse (w := w.lookedUp session series name file st) hpanic
    (hserves.withStore _) happend rfl hfuel ?_).trans ?_
  · intro n hn
    have hn : n < w.engine.busyWrites := hn
    rw [← Bool.not_eq_true, RetryPolicy.givesUp_iff htimeless (Nat.succ_pos n)]
    rintro ⟨limit, hmem, hreached⟩
    have hlt := hlimit limit hmem
    omega
  · rw [World.lookedUp, World.tried_engine, Memory.withStore_withStore]
    rfl

/-- A `write` that is refused `limit?` times **appends nothing**. -/
theorem write_of_le {limit : Nat} (hlimit : limit ∈ s.settings.retry.limit?)
    (hpos : 0 < limit) (hword : limit ≤ maxCount) (hreached : limit ≤ w.engine.busyWrites) :
    let p : Point := ⟨(st.enlist name).1, timestamp, value⟩
    s.write (Memory.engine parse) series timestamp value w =
      (.error (.writeBusy limit), (w.lookedUp session series name file st).tried
        (writing session p) limit
        ((w.engine.withStore file (st.enlist name).2).refusing
          (w.engine.busyWrites - limit))) := by
  intro p
  obtain ⟨n, rfl⟩ := Nat.exists_eq_succ_of_ne_zero (Nat.ne_of_gt hpos)
  have hfuel : n < Memory.patience (w.lookedUp session series name file st) + 1 :=
    Nat.lt_succ_of_le (Nat.le_trans (Nat.le_of_succ_le hreached) (Nat.le_add_right _ _))
  have hgivesUp (k : Nat) : s.settings.retry.givesUp 0 0 w.delays (k + 1) = true ↔
      ∃ limit ∈ s.settings.retry.limit?, limit ≤ min (k + 1) maxCount :=
    RetryPolicy.givesUp_iff htimeless (Nat.succ_pos k)
  rw [write_eq_attempt parse hpanic hhandle hserves hlength hname]
  refine (attempt_of_givesUp parse (w := w.lookedUp session series name file st) hpanic rfl
    hreached hfuel ?_ ?_).trans ?_
  · intro k hk
    rw [← Bool.not_eq_true, hgivesUp]
    rintro ⟨limit, hmem, hle⟩
    obtain rfl : n + 1 = limit := Option.some.inj (hlimit.symm.trans hmem)
    omega
  · rw [hgivesUp]
    exact ⟨n + 1, hlimit, Nat.le_min.mpr ⟨Nat.le_refl _, hword⟩⟩
  · rw [Nat.zero_add, Nat.min_eq_left hword]
    rfl

end Writing

end Session

/-! ### States that arise -/

/-- The points in the store of a file, if there is one. -/
def Memory.pointsIn (m : Memory) (file : FileKey) : List Point :=
  ((m.stores.find? file).map Store.points).getD []

theorem Memory.pointsIn_withStore (m : Memory) (file other : FileKey) (s : Store) :
    (m.withStore file s).pointsIn other = if file = other then s.points else m.pointsIn other := by
  rw [pointsIn, withStore, Table.find?_put]
  split <;> rfl

theorem Memory.Serves.pointsIn_eq {m : Memory} {session : Handle} {file : FileKey} {s : Store}
    (h : m.Serves session file s) : m.pointsIn file = s.points := by
  rw [pointsIn, h.find_eq]
  rfl

namespace Workspace

variable {parse : String → Option Json} {ws : Workspace Memory}

/-- **States that arise** from an engine without a past: those that a caller can bring about by what
it `Obeys`, whatever becomes of the engine and the files, as long as no panic is reported. -/
def Arises (parse : String → Option Json) (ws : Workspace Memory) : Prop :=
  ∃ files happenings, (ofWorld { engine := {}, files }).Obeys parse happenings ∧
    (ofWorld { engine := {}, files }).undergo parse happenings = ws ∧
      ws.world.channel.panic = none

theorem coherent_meet (h : ws.world.engine.Coherent) (happening : Happening) :
    (ws.meet parse happening).world.engine.Coherent := by
  cases happening with
  | record message => exact h
  | event e =>
    cases e with
    | command c =>
      exact (ws.leads_run parse c).keeps (P := fun w => w.engine.Coherent)
        (fun call _ _ hw => hw.ask parse call) h
    | files t => exact h
    | disturb d => exact Memory.coherent_act parse h (.disturb d)

theorem coherent_undergo (h : ws.world.engine.Coherent) (happenings : List Happening) :
    (ws.undergo parse happenings).world.engine.Coherent := by
  induction happenings generalizing ws with
  | nil => exact h
  | cons happening later ih => exact ih (coherent_meet h happening)

/-- An open session of a `Square` workspace over a `Coherent` engine **has a store** to work on. -/
theorem serves_of_square (hsquare : ws.Square []) (hcoherent : ws.world.engine.Coherent)
    {label : Label} {s : Child Session} {session : Handle}
    (hs : ws.sessions.find? label = some s) (hhandle : s.it.handle = some session) :
    ∃ file st, ws.world.engine.Serves session file st := by
  have hmem := Table.mem_values_of_find? hs
  have hlent := Lending.session_mem_leases.mp (hsquare.session_lent hmem hhandle)
  obtain ⟨owner, howner⟩ := Table.find?_of_mem_keys hlent
  have hopen := hsquare.proper.owned owner (Table.mem_values_of_find? howner)
  obtain ⟨file, hfile⟩ := Table.find?_of_mem_keys hopen
  have hhoused := hcoherent.housed file (Table.mem_values_of_find? hfile)
  obtain ⟨st, hst⟩ := Option.isSome_iff_exists.mp hhoused
  refine ⟨file, st, ?_, hst⟩
  rw [Memory.sessionFile?]
  exact Option.bind_eq_some_iff.mpr ⟨owner, howner, hfile⟩

theorem Arises.serves (h : ws.Arises parse) {label : Label} {s : Child Session}
    {session : Handle} (hs : ws.sessions.find? label = some s)
    (hhandle : s.it.handle = some session) :
    ∃ file st, ws.world.engine.Serves session file st := by
  obtain ⟨files, happenings, hobeys, rfl, hpanic⟩ := h
  have hbalanced := (balanced_ofWorld files).undergo hobeys hpanic
  exact serves_of_square hbalanced.square (coherent_undergo Memory.coherent_empty happenings) hs
    hhandle

theorem Arises.no_panic (h : ws.Arises parse) : ws.world.channel.panic = none := by
  obtain ⟨-, -, -, -, hpanic⟩ := h
  exact hpanic

/-- **A write is tried as often as it takes and no more.** In any state that `Arises`, whatever
number of writes the engine is about to refuse (`busyWrites`), and under a `Timeless` policy:
`Session.write` makes one call of `seriesToId`. If it may be tried more often than it is refused, it
is taken at the first try after that, which appends its point and no other. If not, it is tried
`limit?` times and fails with `writeBusy`, and no point is written anywhere. In either case as many
refusals are left as were not met with. -/
theorem write_exact (harises : ws.Arises parse) {label : Label} {s : Child Session}
    {session : Handle} (hs : ws.sessions.find? label = some s)
    (hhandle : s.it.handle = some session) (hcheck : s.it.settings.retry.check = .ok ())
    (htimeless : s.it.settings.retry.Timeless)
    (hword : ∀ limit ∈ s.it.settings.retry.maxAttempts, limit ≤ Session.maxCount)
    {series name : String} (hlength : series.utf8ByteSize ≤ Series.maxNameBytes)
    (hname : Series.normalize series = some name) (timestamp : Timestamp) (value : Double)
    (hroom : ∀ file st, ws.world.engine.stores.find? file = some st →
      (st.enlist name).2.Countable) :
    let m := ws.world.engine
    let result := s.it.write (Memory.engine parse) series timestamp value ws.world
    ∃ file st, m.Serves session file st ∧
      let st' := (st.enlist name).2
      let p : Point := ⟨(st.enlist name).1, timestamp, value⟩
      let w := ws.world.tried (.seriesToId session series) 1 (m.withStore file st')
      st'.name? p.series = some name ∧ st'.points = st.points ∧
        ((∀ limit ∈ s.it.settings.retry.limit?, m.busyWrites < limit) →
          result = (.ok (), w.tried (.write session p.series timestamp value) (m.busyWrites + 1)
            ((m.withStore file (st'.withPoint p)).refusing 0)) ∧
          ∀ other, result.2.engine.pointsIn other =
            m.pointsIn other ++ if file = other then [p] else []) ∧
        ∀ limit ∈ s.it.settings.retry.limit?, limit ≤ m.busyWrites →
          result = (.error (.writeBusy limit),
            w.tried (.write session p.series timestamp value) limit
              ((m.withStore file st').refusing (m.busyWrites - limit))) ∧
          ∀ other, result.2.engine.pointsIn other = m.pointsIn other := by
  intro m result
  obtain ⟨file, st, hserves⟩ := harises.serves hs hhandle
  have hcount := hroom file st hserves.find_eq
  have hpoints := (Store.enlist_grows st name).points
  have hbefore := hserves.pointsIn_eq
  refine ⟨file, st, hserves, Store.name?_enlist hcount, hpoints, fun hlimit => ?_,
    fun limit hlimit hreached => ?_⟩
  · have htaken := @Session.write_of_lt parse _ _ _ _ _ _ _ timestamp value htimeless
      harises.no_panic hhandle hserves hlength hname hcount hlimit
    refine ⟨htaken, fun other => ?_⟩
    rw [show result = _ from htaken, World.tried_engine]
    refine (Memory.pointsIn_withStore m file other _).trans ?_
    split
    next hother => rw [← hother, hbefore, Store.withPoint, hpoints]
    next => rw [List.append_nil]
  · have hgivenUp := @Session.write_of_le parse _ _ _ _ _ _ _ timestamp value htimeless
      harises.no_panic hhandle hserves hlength hname limit hlimit
      (RetryPolicy.limit_pos hcheck hlimit) (RetryPolicy.limit_le hword hlimit) hreached
    refine ⟨hgivenUp, fun other => ?_⟩
    rw [show result = _ from hgivenUp, World.tried_engine]
    refine (Memory.pointsIn_withStore m file other _).trans ?_
    split
    next hother => rw [← hother, hbefore, hpoints]
    next => rfl

/-- An engine that is about to refuse three writes, and a write that may be tried twice. -/
theorem write_exact_given_up :
    let settings : OpenSettings := { retry := ⟨some 2, none⟩ }
    let happenings : List Happening :=
      [.event (.command (.openDatabase "d" ⟨""⟩ "a" settings)),
        .event (.command (.openSession "s" "d")), .event (.disturb (.busyWrites 3))]
    let files : FileTree := ⟨Table.empty.put ["a.akumuli"] (.file "")⟩
    let ws := (ofWorld { engine := {}, files }).undergo (fun _ => none) happenings
    let result := (⟨some 2, settings⟩ : Session).write (Memory.engine fun _ => none) "cpu host=a" 5
      ⟨0⟩ ws.world
    ws.Arises (fun _ => none) ∧ ws.world.engine.busyWrites = 3 ∧
      result.1 = .error (.writeBusy 2) ∧ result.2.engine.busyWrites = 1 ∧
      result.2.calls.length = ws.world.calls.length + 3 ∧
      ∀ file, result.2.engine.pointsIn file = ws.world.engine.pointsIn file := by
  intro settings happenings files ws result
  have hobeys : (ofWorld { engine := {}, files }).Obeys (fun _ => none) happenings := by
    simp only [happenings, obeys_cons, obeys_nil, Allows, and_true]
    decide +kernel
  have hpanic : ws.world.channel.panic = none := by decide +kernel
  have harises : ws.Arises (fun _ => none) := ⟨files, happenings, hobeys, rfl, hpanic⟩
  have hs : ws.sessions.find? "s" = some ⟨"d", ⟨some 2, settings⟩⟩ := by decide +kernel
  have hbusy : ws.world.engine.busyWrites = 3 := by decide +kernel
  have hstores : ws.world.engine.stores = ⟨[(["a.akumuli"], .empty)]⟩ := by decide +kernel
  have hroom : ∀ file st, ws.world.engine.stores.find? file = some st →
      (st.enlist "cpu host=a").2.Countable := by
    intro file st hst
    have hmem := Table.mem_values_of_find? hst
    rw [hstores] at hmem
    obtain rfl : st = .empty := List.mem_singleton.mp hmem
    decide
  -- from here on it does not count how all this has come about
  clear_value happenings files
  obtain ⟨file, st, -, -, -, -, hgivenUp⟩ := write_exact harises hs rfl rfl
    (fun _ htimeout => by cases htimeout) (by decide) (by decide) Series.normalize_cpu 5 ⟨0⟩ hroom
  obtain ⟨hresult, hpoints⟩ := hgivenUp 2 rfl (by rw [hbusy]; decide)
  have hresult : result = _ := hresult
  refine ⟨harises, hbusy, ?_, ?_, ?_, hpoints⟩
  · rw [hresult]
  · rw [hresult, World.tried_engine, hbusy]
    rfl
  · rw [hresult]
    rfl

end Workspace

end TimeSeries
