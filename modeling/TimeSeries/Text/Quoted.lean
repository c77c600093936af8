import TimeSeries.Text.Hidden

/-!
# Quoted text in messages

A message that shows a text to people puts it between quotation marks and
spells out every character that would not show as itself. The spelling is
unambiguous: a quotation mark or a backslash of the text is always preceded by
a backslash.
-/

namespace TimeSeries.Text

/-- The digits of a number to base sixteen, in lower case. -/
def hexDigits (n : Nat) : List Char := Nat.toDigits 16 n

/-- How one character of a quoted text is spelled. -/
def quoteChar (c : Char) : List Char :=
  match c with
  | '"' => ['\\', '"']
  | '\\' => ['\\', '\\']
  | '\n' => ['\\', 'n']
  | '\r' => ['\\', 'r']
  | '\t' => ['\\', 't']
  | '\x00' => ['\\', '0']
  | c =>
    if isHidden c then
      ['\\', 'u', '\x7b'] ++ hexDigits c.toNat ++ ['\x7d']
    else [c]

/-- **Quoted text**, as messages show it. -/
def quoted (s : String) : String :=
  String.ofList ('"' :: s.toList.flatMap quoteChar ++ ['"'])

end TimeSeries.Text
