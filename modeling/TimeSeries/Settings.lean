import TimeSeries.Sample.Header
import TimeSeries.Text.Quoted

/-!
# Settings

What a caller may choose when a database is created or opened, and the limits on
it. Each kind of settings has a `check` that reports the first field that is out
of range; settings that pass are used as they are.
-/

namespace TimeSeries

/-- **Settings fault**: a field that is out of range. -/
inductive SettingsFault : Type where
  /-- volumes are smaller than allowed -/
  | volumeTooSmall (size : Nat)
  /-- volumes are larger than allowed -/
  | volumeTooLarge (size : Nat)
  /-- a database without volumes -/
  | noVolumes
  /-- a log without writers -/
  | noWriters
  /-- a log with one volume or with too many -/
  | logVolumes (volumes : Nat)
  /-- log volumes outside the allowed sizes -/
  | logVolumeSize (size : Nat)
  /-- a read buffer that is too small for the largest record -/
  | bufferTooSmall (size : Nat)
  /-- a write may not even be tried once -/
  | noAttempts
  /-- a database name that is blank or holds a path separator -/
  | badName (name : String)
  deriving DecidableEq, Repr

/-! ### Limits -/

/-- The smallest volume of a database, in bytes. -/
def minVolumeSize : Nat := 1024 * 1024

/-- The largest volume of a database, in bytes. -/
def maxVolumeSize : Nat := 4 * 1024 * 1024 * 1024

/-- The smallest volume of a log, in bytes. -/
def minLogVolumeSize : Nat := 1024 * 1024

/-- The largest volume of a log, in bytes. -/
def maxLogVolumeSize : Nat := 1024 * 1024 * 1024

/-- The largest number of volumes of a log. -/
def maxLogVolumes : Nat := 1000

/-- The text of a fault. -/
def SettingsFault.text : SettingsFault → String
  | volumeTooSmall size => s!"volume size {size} is too small, it can't be less than 1MB"
  | volumeTooLarge size => s!"volume size {size} exceeds 4GB"
  | noVolumes => "volumes must be greater or equal than 1"
  | noWriters => "WAL concurrency must be at least 1"
  | logVolumes volumes =>
    s!"WAL volumes {volumes} should not exceed {maxLogVolumes} or be equal to 1"
  | logVolumeSize size =>
    s!"WAL volume size {size} must be between {minLogVolumeSize} and {maxLogVolumeSize}"
  | bufferTooSmall size =>
    s!"read buffer of {size} bytes can't hold a {maxRecordSize} byte record"
  | noAttempts => "at least one write attempt is required"
  | badName name => "invalid database name " ++ Text.quoted name

/-! ### Creating a database -/

/-- **Volumes** of a new database. -/
structure VolumeSettings : Type where
  /-- how many volumes -/
  volumes : Nat := 4
  /-- bytes of each volume -/
  volumeSize : Nat := maxVolumeSize
  /-- whether their files are filled beforehand -/
  allocate : Bool := false
  deriving DecidableEq, Repr

/-- Size first, then number. -/
def VolumeSettings.check (s : VolumeSettings) : Except SettingsFault Unit :=
  if s.volumeSize < minVolumeSize then .error (.volumeTooSmall s.volumeSize)
  else if maxVolumeSize < s.volumeSize then .error (.volumeTooLarge s.volumeSize)
  else if s.volumes < 1 then .error .noVolumes
  else .ok ()

/-! ### Opening a database -/

/-- **Write-ahead log** of an open database. -/
structure LogSettings : Type where
  /-- how many writers at a time -/
  concurrency : Nat
  /-- bytes of each volume -/
  volumeSize : Nat
  /-- how many volumes; none means no log, and one is not allowed -/
  volumes : Nat
  deriving DecidableEq, Repr

/-- Writers first, then number of volumes, then their size. -/
def LogSettings.check (s : LogSettings) : Except SettingsFault Unit :=
  if s.concurrency < 1 then .error .noWriters
  else if s.volumes = 1 ∨ maxLogVolumes < s.volumes then .error (.logVolumes s.volumes)
  else if s.volumeSize < minLogVolumeSize ∨ maxLogVolumeSize < s.volumeSize then
    .error (.logVolumeSize s.volumeSize)
  else .ok ()

/-- A read buffer has to hold the largest record. -/
def checkBuffer (size : Nat) : Except SettingsFault Unit :=
  if size < maxRecordSize then .error (.bufferTooSmall size) else .ok ()

/-- **Retry policy** for writes that find the engine busy. `none` is no bound. -/
structure RetryPolicy : Type where
  /-- how often a write is tried at most -/
  maxAttempts : Option Nat := some 1024
  /-- nanoseconds after which a write is not tried again -/
  timeout : Option Nat := none
  deriving DecidableEq, Repr

namespace RetryPolicy

/-- Tries for as long as it takes. -/
def unbounded : RetryPolicy := ⟨none, none⟩

/-- A write has to be tried at least once. -/
def check (p : RetryPolicy) : Except SettingsFault Unit :=
  if p.maxAttempts = some 0 then .error .noAttempts else .ok ()

/-- Whether a write is given up after this many attempts, for which some nanoseconds
have elapsed. -/
def exhausted (p : RetryPolicy) (attempts elapsed : Nat) : Bool :=
  (p.maxAttempts.any fun limit => limit ≤ attempts) || p.timeout.any fun limit => limit ≤ elapsed

end RetryPolicy

/-- **Settings of an open database.** -/
structure OpenSettings : Type where
  /-- the write-ahead log, if one is wanted -/
  log : Option LogSettings := none
  /-- bytes of the read buffer of a cursor -/
  buffer : Nat := 1024
  /-- what a write does when the engine is busy -/
  retry : RetryPolicy := {}
  deriving DecidableEq, Repr

/-- Log first, then buffer, then retry policy. -/
def OpenSettings.check (s : OpenSettings) : Except SettingsFault Unit := do
  match s.log with
  | some log => log.check
  | none => pure ()
  checkBuffer s.buffer
  s.retry.check

end TimeSeries
