import TimeSeries.Json.Value

/-!
# Reading JSON text

A strict reader: one document and nothing after it, blanks between its parts
only, no other extension. Each reading function takes the characters that are
left and gives back what it read together with the characters after it, or
nothing if they do not begin with what it reads.

Numbers are read in one pass: the digits make up a significand of at most one
word, whatever comes after is only counted, and a number that is not whole is the
significand times or divided by a power of ten. This rounds up to three times, so
the result may be a neighbour of the nearest double.
-/

namespace TimeSeries.Json

/-- What a reading function gives: a result and the characters left over. -/
abbrev Reading (α : Type) : Type := Option (α × List Char)

/-- The blanks allowed between the parts of a document. -/
def isSpace (c : Char) : Bool := c == ' ' || c == '\n' || c == '\t' || c == '\r'

/-- Skips blanks. -/
def skip (cs : List Char) : List Char := cs.dropWhile isSpace

/-! ### Numbers -/

/-- The value of a decimal digit. -/
def digit? (c : Char) : Option Nat :=
  if '0' ≤ c ∧ c ≤ '9' then some (c.toNat - 48) else none

/-- **Significand** of a number under way: digits taken so far and the power of
ten they are to be multiplied by. -/
structure Significand : Type where
  /-- the digits taken, as one number below `2 ^ 64` -/
  digits : Nat
  /-- the power of ten -/
  exponent : Int
  /-- whether a digit was left out because the word was full -/
  full : Bool

/-- Takes one more digit in front of the point, or counts it if the word is
full. -/
def Significand.whole (s : Significand) (d : Nat) : Significand :=
  if s.full || UInt64.size ≤ s.digits * 10 + d then
    { s with exponent := s.exponent + 1, full := true }
  else { s with digits := s.digits * 10 + d }

/-- Takes one more digit after the point, or passes over it if the word is
full. -/
def Significand.fraction (s : Significand) (d : Nat) : Significand :=
  if s.full || UInt64.size ≤ s.digits * 10 + d then { s with full := true }
  else { s with digits := s.digits * 10 + d, exponent := s.exponent - 1 }

/-- Takes as many digits as there are. -/
def takeDigits (take : Significand → Nat → Significand) :
    Significand → List Char → Significand × List Char
  | s, [] => (s, [])
  | s, c :: cs =>
    match digit? c with
    | some d => takeDigits take (take s d) cs
    | none => (s, c :: cs)

/-- Scales a double by a power of ten, in steps no larger than the largest power a
double can hold. Nothing if the result is too large. -/
def scale : (fuel : Nat) → Double → Int → Option Double
  | 0, d, _ => some d
  | fuel + 1, d, e =>
    if e.natAbs ≤ 308 then
      if 0 ≤ e then
        let product := d.mul (Double.powerOfTen e.toNat)
        if product.isFinite then some product else none
      else some (d.div (Double.powerOfTen e.natAbs))
    else if d.magnitude = 0 then some d
    else if 0 ≤ e then none
    else scale fuel (d.div (Double.powerOfTen 308)) (e + 308)

/-- The double of a significand. Five steps bring the largest significand down to
zero. -/
def Significand.toDouble (s : Significand) : Option Double :=
  scale 5 (Double.ofWord (UInt64.ofNat s.digits)) s.exponent

/-- A double as a number, with its sign. -/
def signed (negative : Bool) (d : Double) : JsonNumber :=
  .double (if negative then d.neg else d)

/-- The number of a significand without point and exponent. A word that is full,
a negative zero and numbers below `-2 ^ 63` become doubles. -/
def wholeNumber (negative : Bool) (s : Significand) : Option JsonNumber :=
  if s.full then s.toDouble.map (signed negative)
  else if !negative then some (.word (UInt64.ofNat s.digits))
  else if s.digits = 0 ∨ UInt64.size / 2 < s.digits then
    some (signed true (Double.ofWord (UInt64.ofNat s.digits)))
  else some (.negative (UInt64.ofNat (s.digits - 1)))

/-- An exponent beyond this bound is not added up: it makes a number zero or too
large by itself. -/
def exponentBound : Nat := UInt32.size / 2 - 1

/-- Reads the exponent after an `e` and finishes the number. -/
def readExponent (negative : Bool) (s : Significand) (cs : List Char) : Reading JsonNumber :=
  let (down, cs) :=
    match cs with
    | '+' :: rest => (false, rest)
    | '-' :: rest => (true, rest)
    | _ => (false, cs)
  let shown := cs.takeWhile fun c => (digit? c).isSome
  let rest := cs.dropWhile fun c => (digit? c).isSome
  if shown.isEmpty then none
  else
    let e := shown.foldl (fun n c => n * 10 + (digit? c).getD 0) 0
    if exponentBound < e then
      if s.digits ≠ 0 ∧ !down then none
      else some (signed negative ⟨0⟩, rest)
    else
      let exponent := if down then s.exponent - e else s.exponent + e
      ({ s with exponent } : Significand).toDouble.map fun d => (signed negative d, rest)

/-- Reads what may follow the digits in front of the point, and finishes the
number. -/
def readTail (negative : Bool) (s : Significand) (cs : List Char) : Reading JsonNumber :=
  match cs with
  | '.' :: cs =>
    match cs with
    | c :: _ =>
      if (digit? c).isSome then
        let (s, cs) := takeDigits Significand.fraction { s with full := false } cs
        match cs with
        | 'e' :: cs | 'E' :: cs => readExponent negative s cs
        | cs => s.toDouble.map fun d => (signed negative d, cs)
      else none
    | [] => none
  | 'e' :: cs | 'E' :: cs => readExponent negative s cs
  | cs => (wholeNumber negative s).map fun n => (n, cs)

/-- Reads a number from its first digit on. A leading zero stands alone. -/
def readDigits (negative : Bool) (cs : List Char) : Reading JsonNumber :=
  match cs with
  | '0' :: c :: rest =>
    if (digit? c).isSome then none else readTail negative ⟨0, 0, false⟩ (c :: rest)
  | c :: rest =>
    match digit? c with
    | some d =>
      let (s, rest) := takeDigits Significand.whole ⟨d, 0, false⟩ rest
      readTail negative s rest
    | none => none
  | [] => none

/-- **Reads a number.** -/
def readNumber (cs : List Char) : Reading JsonNumber :=
  match cs with
  | '-' :: rest => readDigits true rest
  | cs => readDigits false cs

/-! ### Texts -/

/-- The value of a digit to base sixteen, in either case. -/
def hexValue? (c : Char) : Option Nat :=
  if '0' ≤ c ∧ c ≤ '9' then some (c.toNat - 48)
  else if 'a' ≤ c ∧ c ≤ 'f' then some (c.toNat - 87)
  else if 'A' ≤ c ∧ c ≤ 'F' then some (c.toNat - 55)
  else none

/-- The code unit that four digits spell. -/
def unit? (a b c d : Char) : Option Nat := do
  let a ← hexValue? a
  let b ← hexValue? b
  let c ← hexValue? c
  let d ← hexValue? d
  return a * 4096 + b * 256 + c * 16 + d

/-- The character that a backslash and this letter stand for. -/
def escaped? : Char → Option Char
  | '"' => some '"'
  | '\\' => some '\\'
  | '/' => some '/'
  | 'b' => some '\x08'
  | 'f' => some '\x0c'
  | 'n' => some '\n'
  | 'r' => some '\r'
  | 't' => some '\t'
  | _ => none

/-- Puts a character in front of a text that was read. -/
def push (c : Char) : Reading (List Char) → Reading (List Char) :=
  Option.map fun r => (c :: r.1, r.2)

/-- Reads a text from behind its opening quotation mark. Characters beyond the
first plane may be spelled as two units; half of such a pair is an error. -/
def readText : List Char → Reading (List Char)
  | [] => none
  | '"' :: rest => some ([], rest)
  | '\\' :: 'u' :: a :: b :: c :: d :: rest =>
    match unit? a b c d with
    | none => none
    | some n =>
      if 0xDC00 ≤ n ∧ n ≤ 0xDFFF then none
      else if 0xD800 ≤ n ∧ n ≤ 0xDBFF then
        match rest with
        | '\\' :: 'u' :: a :: b :: c :: d :: rest =>
          match unit? a b c d with
          | none => none
          | some low =>
            if 0xDC00 ≤ low ∧ low ≤ 0xDFFF then
              push (Char.ofNat (0x10000 + (n - 0xD800) * 0x400 + (low - 0xDC00))) (readText rest)
            else none
        | _ => none
      else push (Char.ofNat n) (readText rest)
  | '\\' :: e :: rest =>
    match escaped? e with
    | some c => push c (readText rest)
    | none => none
  | c :: rest => if c = '\\' ∨ c.toNat < 0x20 then none else push c (readText rest)

/-! ### Documents -/

/-- Drops the characters of a literal from the front. -/
def expect : List Char → List Char → Option (List Char)
  | [], cs => some cs
  | l :: ls, c :: cs => if l = c then expect ls cs else none
  | _ :: _, [] => none

/-- How deep lists and objects may be nested. -/
def maxDepth : Nat := 127

mutual

/-- Reads a document, in front of which there are no blanks. `depth` bounds the
nesting that is still allowed. -/
def readValue : (fuel : Nat) → (depth : Nat) → List Char → Reading Json
  | 0, _, _ => none
  | fuel + 1, depth, cs =>
    match cs with
    | 'n' :: rest => (expect ['u', 'l', 'l'] rest).map fun rest => (.null, rest)
    | 't' :: rest => (expect ['r', 'u', 'e'] rest).map fun rest => (.bool true, rest)
    | 'f' :: rest => (expect ['a', 'l', 's', 'e'] rest).map fun rest => (.bool false, rest)
    | '"' :: rest => (readText rest).map fun r => (.text (String.ofList r.1), r.2)
    | '[' :: rest =>
      match depth with
      | 0 => none
      | depth + 1 =>
        match skip rest with
        | ']' :: rest => some (.array [], rest)
        | rest => (readItems fuel depth rest).map fun r => (.array r.1, r.2)
    | '\x7b' :: rest =>
      match depth with
      | 0 => none
      | depth + 1 =>
        match skip rest with
        | '\x7d' :: rest => some (.object [], rest)
        | rest => (readFields fuel depth rest).map fun r => (ofFields r.1, r.2)
    | cs => (readNumber cs).map fun r => (.number r.1, r.2)

/-- Reads one or more items up to the closing bracket. -/
def readItems : (fuel : Nat) → (depth : Nat) → List Char → Reading (List Json)
  | 0, _, _ => none
  | fuel + 1, depth, cs =>
    match readValue fuel depth cs with
    | none => none
    | some (item, rest) =>
      match skip rest with
      | ']' :: rest => some ([item], rest)
      | ',' :: rest => (readItems fuel depth (skip rest)).map fun r => (item :: r.1, r.2)
      | _ => none

/-- Reads one or more fields up to the closing brace. -/
def readFields : (fuel : Nat) → (depth : Nat) → List Char → Reading (List (String × Json))
  | 0, _, _ => none
  | fuel + 1, depth, cs =>
    match cs with
    | '"' :: rest =>
      match readText rest with
      | none => none
      | some (key, rest) =>
        match skip rest with
        | ':' :: rest =>
          match readValue fuel depth (skip rest) with
          | none => none
          | some (value, rest) =>
            let entry := (String.ofList key, value)
            match skip rest with
            | '\x7d' :: rest => some ([entry], rest)
            | ',' :: rest => (readFields fuel depth (skip rest)).map fun r => (entry :: r.1, r.2)
            | _ => none
        | _ => none
    | _ => none

end

/-- **Reads a text as one document.** Every other call consumes a character, so
twice the length is fuel enough. -/
def parse? (s : String) : Option Json :=
  let cs := s.toList
  match readValue (2 * cs.length + 2) maxDepth (skip cs) with
  | some (j, rest) => if (skip rest).isEmpty then some j else none
  | none => none

end TimeSeries.Json
