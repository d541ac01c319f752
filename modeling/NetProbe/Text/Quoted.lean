import NetProbe.Text.Invisible
set_option autoImplicit false

/-! # Quoted texts in messages

A message that repeats a text it was given puts it between double quotes, with a backslash before
quotes and backslashes, the usual short escapes, and the code point in hexadecimal for every
character that could not be seen. -/

namespace NetProbe.Text

/-- The digit for a value below sixteen, in lower case. -/
def hexDigit (n : Nat) : Char :=
  Char.ofNat (if n < 10 then 48 + n else 87 + n)

/-- The hexadecimal digits of a number, without leading zeros. -/
def hexDigits (n : Nat) : List Char :=
  if n < 16 then [hexDigit n] else hexDigits (n / 16) ++ [hexDigit (n % 16)]

/-- One character as it stands between the quotes. -/
def quoteChar (c : Char) : List Char :=
  if c == '\x00' then ['\\', '0']
  else if c == '\t' then ['\\', 't']
  else if c == '\r' then ['\\', 'r']
  else if c == '\n' then ['\\', 'n']
  else if c == '\\' then ['\\', '\\']
  else if c == '"' then ['\\', '"']
  else if isInvisible c then ['\\', 'u', '{'] ++ hexDigits c.toNat ++ ['}']
  else [c]

/-- The text between double quotes, as messages show it. -/
def quote (s : String) : String :=
  String.ofList ('"' :: s.toList.flatMap quoteChar ++ ['"'])

/-- A list of texts as messages show it. -/
def quoteList (xs : List String) : String :=
  "[" ++ ", ".intercalate (xs.map quote) ++ "]"

end NetProbe.Text
