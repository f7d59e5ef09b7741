import ElmIntake.Text.Visible

/-! # Quoted text

    The written form of a string between double quotes. Tab, line feed,
    carriage return, NUL, the backslash and the quote have escapes of two
    characters; a character that cannot be seen on its own is written by its
    code point in hexadecimal, and every other one stands for itself. -/

namespace ElmIntake.Text

/-- Lower case hexadecimal digits, without leading zeros. -/
def hexDigits (n : Nat) : List Char := Nat.toDigits 16 n

/-- Written form of one character inside a quoted string. -/
def quoteChar (c : Char) : List Char :=
  if c = '\t' then ['\\', 't']
  else if c = '\n' then ['\\', 'n']
  else if c = '\r' then ['\\', 'r']
  else if c = '\x00' then ['\\', '0']
  else if c = '\\' then ['\\', '\\']
  else if c = '"' then ['\\', '"']
  else if isExtending c || !isPrintable c then
    ['\\', 'u', '{'] ++ hexDigits c.toNat ++ ['}']
  else [c]

/-- Written form of a string, with its quotes. -/
def quote (s : String) : String :=
  String.ofList ('"' :: s.toList.flatMap quoteChar ++ ['"'])

end ElmIntake.Text
