/-!
# Status: how an engine call ended

Every engine call that can fail ends with one of these statuses. Each has a
number, which is what travels between an engine and its callers, and a fixed
description. Main fact: `ofCode?_code` — a status is read back from its number,
so the numbers are pairwise distinct.
-/

namespace TimeSeries

/-- **Status** of an engine call, in the order of the numbers `0` to `23`. -/
inductive Status : Type where
  /-- the call did what was asked -/
  | success
  /-- there is no data to go on with -/
  | noData
  /-- memory ran out -/
  | noMem
  /-- the engine can't take the call right now -/
  | busy
  /-- what the call names does not exist -/
  | notFound
  /-- an argument is outside what the call accepts -/
  | badArg
  /-- a result does not fit where it should go -/
  | overflow
  /-- supplied data is malformed -/
  | badData
  /-- a failure without details -/
  | general
  /-- a write came too late -/
  | lateWrite
  /-- the engine does not offer what was asked -/
  | notImplemented
  /-- a query is malformed -/
  | queryParsingError
  /-- a detector met a negative value -/
  | anomalyNegVal
  /-- stale data has to be merged first -/
  | mergeRequired
  /-- the target was closed -/
  | closed
  /-- time ran out -/
  | timeout
  /-- the call should be made again -/
  | retry
  /-- access was denied -/
  | access
  /-- the operation is not permitted -/
  | notPermitted
  /-- a resource is not available -/
  | unavailable
  /-- a query has too many series -/
  | highCardinality
  /-- a query needs regular series -/
  | regularExpected
  /-- a function can't skip missing values -/
  | missingDataNotSupported
  /-- reading or writing a file failed -/
  | io
  deriving DecidableEq, Repr

namespace Status

/-- All statuses, in the order of their numbers. -/
def all : List Status :=
  [success, noData, noMem, busy, notFound, badArg, overflow, badData, general, lateWrite,
    notImplemented, queryParsingError, anomalyNegVal, mergeRequired, closed, timeout, retry,
    access, notPermitted, unavailable, highCardinality, regularExpected,
    missingDataNotSupported, io]

/-- The number of a status. -/
def code : Status → Nat
  | success => 0
  | noData => 1
  | noMem => 2
  | busy => 3
  | notFound => 4
  | badArg => 5
  | overflow => 6
  | badData => 7
  | general => 8
  | lateWrite => 9
  | notImplemented => 10
  | queryParsingError => 11
  | anomalyNegVal => 12
  | mergeRequired => 13
  | closed => 14
  | timeout => 15
  | retry => 16
  | access => 17
  | notPermitted => 18
  | unavailable => 19
  | highCardinality => 20
  | regularExpected => 21
  | missingDataNotSupported => 22
  | io => 23

/-- The status with a given number; numbers outside `0` to `23` name none. -/
def ofCode? : Int → Option Status
  | .ofNat n => all[n]?
  | .negSucc _ => none

/-- Only `success` is a success. -/
def isSuccess (s : Status) : Bool := s == success

/-- The description of a status. -/
def message : Status → String
  | success => "Success"
  | noData => "No data, can't proceed"
  | noMem => "Not enough memory"
  | busy => "Device is busy"
  | notFound => "Can't find result"
  | badArg => "Bad argument"
  | overflow => "Overflow error"
  | badData => "The supplied data is invalid"
  | general => "Error, no details available"
  | lateWrite => "Late write error"
  | notImplemented => "Not implemented error"
  | queryParsingError => "Invalid query"
  | anomalyNegVal => "Anomaly detector doesn't support negative values"
  | mergeRequired => "Stale data in sequencer, merge to disk required"
  | closed => "Operation on device can't be completed because device was closed"
  | timeout => "Timeout detected"
  | retry => "Retry required"
  | access => "Access denied"
  | notPermitted => "Operation not permitted"
  | unavailable => "Resource is not available"
  | highCardinality => "Query doesn't support high cardinality"
  | regularExpected => "Query doesn't support irregular series"
  | missingDataNotSupported => "Function can't handle missing values"
  | io => "I/O error"

/-- The text shown for a status: its description, then its number in parentheses. -/
def text (s : Status) : String := s.message ++ " (" ++ toString s.code ++ ")"

@[simp] theorem ofCode?_code (s : Status) : ofCode? s.code = some s := by
  cases s <;> rfl

end Status

end TimeSeries
