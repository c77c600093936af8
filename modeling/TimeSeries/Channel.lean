/-!
# Channel: what an engine reports on its own

Apart from answering calls, an engine reports over a channel of its own: notices
for a log and, at worst, that it can't go on. The first such panic is kept for
good; later ones only leave a notice.
-/

namespace TimeSeries

/-- **Level** of a notice. -/
inductive Level : Type where
  /-- something went wrong -/
  | error
  /-- something happened -/
  | info
  /-- a detail -/
  | trace
  deriving DecidableEq, Repr

/-- **Notice** in the log. -/
structure Notice : Type where
  /-- how grave it is -/
  level : Level
  /-- what it says -/
  message : String
  deriving DecidableEq, Repr

/-- **Channel** of an engine. -/
structure Channel : Type where
  /-- the first panic that was reported -/
  panic : Option String := none
  /-- the notices, oldest first -/
  log : List Notice := []
  deriving DecidableEq, Repr

namespace Channel

/-- Appends a notice to the log. -/
def note (c : Channel) (level : Level) (message : String) : Channel :=
  { c with log := c.log ++ [⟨level, message⟩] }

/-- **Reports a panic.** It is kept if it is the first. -/
def reportPanic (c : Channel) (message : String) : Channel :=
  match c.panic with
  | none => { c with panic := some message }.note .error ("Engine panic recorded: " ++ message)
  | some _ => c.note .trace ("Ignoring subsequent panic: " ++ message)

/-- Whether a panic was reported. -/
def hasPanic (c : Channel) : Bool := c.panic.isSome

end Channel

end TimeSeries
