import TimeSeries.Decimal.Notation
import TimeSeries.Json.Value

/-!
# JSON text

The compact text of a document: no blanks between its parts. A text escapes the
quotation mark, the backslash and the control characters and nothing else.
-/

namespace TimeSeries.Json

/-- One of the sixteen lower-case digits. -/
def hexDigit (n : Nat) : Char := Nat.digitChar (n % 16)

/-- How one character of a text is written. -/
def escapeChar (c : Char) : List Char :=
  match c with
  | '"' => ['\\', '"']
  | '\\' => ['\\', '\\']
  | '\x08' => ['\\', 'b']
  | '\t' => ['\\', 't']
  | '\n' => ['\\', 'n']
  | '\x0c' => ['\\', 'f']
  | '\r' => ['\\', 'r']
  | c =>
    if c.toNat < 0x20 then ['\\', 'u', '0', '0', hexDigit (c.toNat / 16), hexDigit c.toNat]
    else [c]

/-- A text between quotation marks. -/
def writeText (s : String) : List Char := '"' :: (s.toList.flatMap escapeChar ++ ['"'])

/-- A number, in decimal. -/
def writeNumber : JsonNumber → List Char
  | .word w => Nat.toDigits 10 w.toNat
  | .negative n => '-' :: Nat.toDigits 10 (n.toNat + 1)
  | .double d => (Decimal.text d).toList

mutual

/-- The characters of a document. -/
def write : Json → List Char
  | .null => "null".toList
  | .bool true => "true".toList
  | .bool false => "false".toList
  | .number n => writeNumber n
  | .text s => writeText s
  | .array items => '[' :: (writeItems items ++ [']'])
  | .object fields => '\x7b' :: (writeFields fields ++ ['\x7d'])

/-- Items with commas between. -/
def writeItems : List Json → List Char
  | [] => []
  | [item] => write item
  | item :: next :: rest => write item ++ ',' :: writeItems (next :: rest)

/-- Fields with commas between. -/
def writeFields : List (String × Json) → List Char
  | [] => []
  | [(key, value)] => writeText key ++ ':' :: write value
  | (key, value) :: next :: rest =>
    writeText key ++ ':' :: (write value ++ ',' :: writeFields (next :: rest))

end

/-- **Text of a document.** -/
def print (j : Json) : String := String.ofList (write j)

end TimeSeries.Json
