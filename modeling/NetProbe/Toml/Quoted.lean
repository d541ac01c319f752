import NetProbe.Text.Hex
import NetProbe.Toml.Basic
set_option autoImplicit false

/-! # Strings of TOML

The four notations of strings: with escapes or without, on one line or on several. Each reader
starts behind the opening quotes and gives the characters of the string and what follows the
closing quotes. -/

namespace NetProbe.Toml

abbrev Read := Option (List Char × List Char)

/-- Adds a character in front of what was read. -/
def consChar (c : Char) : Read → Read
  | some (cs, rest) => some (c :: cs, rest)
  | none => none

/-- The character of a code point in hexadecimal. -/
def charOfHex (cs : List Char) : Option Char := do
  let ds ← cs.mapM Text.hexValue?
  let n := ds.foldl (fun n d => n * 16 + d) 0
  if n.isValidChar then return Char.ofNat n
  none

/-- The character of an escape of one letter. -/
def shortEscape? (c : Char) : Option Char :=
  if c == 'b' then some '\x08'
  else if c == 't' then some '\t'
  else if c == 'n' then some '\n'
  else if c == 'f' then some '\x0c'
  else if c == 'r' then some '\r'
  else if c == 'e' then some '\x1b'
  else if c == '"' then some '"'
  else if c == '\\' then some '\\'
  else none

/-- A string with escapes on one line. -/
def readBasic : List Char → Read
  | [] => none
  | '"' :: rest => some ([], rest)
  | '\\' :: 'x' :: a :: b :: rest =>
    match charOfHex [a, b] with
    | some c => consChar c (readBasic rest)
    | none => none
  | '\\' :: 'u' :: a :: b :: c :: d :: rest =>
    match charOfHex [a, b, c, d] with
    | some c => consChar c (readBasic rest)
    | none => none
  | '\\' :: 'U' :: a :: b :: c :: d :: e :: f :: g :: h :: rest =>
    match charOfHex [a, b, c, d, e, f, g, h] with
    | some c => consChar c (readBasic rest)
    | none => none
  | '\\' :: e :: rest =>
    match shortEscape? e with
    | some c => consChar c (readBasic rest)
    | none => none
  | c :: rest => if isControl c then none else consChar c (readBasic rest)

/-- A string without escapes on one line. -/
def readLiteral : List Char → Read
  | [] => none
  | '\'' :: rest => some ([], rest)
  | c :: rest => if isControl c then none else consChar c (readLiteral rest)

def isSpace (c : Char) : Bool := c == ' ' || c == '\t'

/-- Whether a line ends after the spaces at the front. -/
def endsLine (cs : List Char) : Bool :=
  match cs.dropWhile isSpace with
  | '\n' :: _ => true
  | '\r' :: '\n' :: _ => true
  | _ => false

/-- The end of a string on several lines, behind three closing quotes: up to two more quotes belong
    to the string. -/
def closing (quote : Char) : List Char → List Char × List Char
  | a :: b :: rest =>
    if a = quote then (if b = quote then ([quote, quote], rest) else ([quote], b :: rest))
    else ([], a :: b :: rest)
  | [a] => if a = quote then ([quote], []) else ([], [a])
  | [] => ([], [])

/-- A string with escapes on several lines. A backslash at the end of a line takes away the white
    space up to the next visible character; `skipping` says that this is under way. -/
def readLongBasic (skipping : Bool) : List Char → Read
  | [] => none
  | '\n' :: rest =>
    if skipping then readLongBasic true rest else consChar '\n' (readLongBasic false rest)
  | '\r' :: '\n' :: rest =>
    if skipping then readLongBasic true rest
    else consChar '\r' (consChar '\n' (readLongBasic false rest))
  | ' ' :: rest =>
    if skipping then readLongBasic true rest else consChar ' ' (readLongBasic false rest)
  | '\t' :: rest =>
    if skipping then readLongBasic true rest else consChar '\t' (readLongBasic false rest)
  | '"' :: '"' :: '"' :: rest => some (closing '"' rest)
  | '\\' :: 'x' :: a :: b :: rest =>
    match charOfHex [a, b] with
    | some c => consChar c (readLongBasic false rest)
    | none => none
  | '\\' :: 'u' :: a :: b :: c :: d :: rest =>
    match charOfHex [a, b, c, d] with
    | some c => consChar c (readLongBasic false rest)
    | none => none
  | '\\' :: 'U' :: a :: b :: c :: d :: e :: f :: g :: h :: rest =>
    match charOfHex [a, b, c, d, e, f, g, h] with
    | some c => consChar c (readLongBasic false rest)
    | none => none
  | '\\' :: e :: rest =>
    if endsLine (e :: rest) then readLongBasic true (e :: rest)
    else match shortEscape? e with
      | some c => consChar c (readLongBasic false rest)
      | none => none
  | c :: rest => if isControl c then none else consChar c (readLongBasic false rest)

/-- A string without escapes on several lines. -/
def readLongLiteral : List Char → Read
  | [] => none
  | '\n' :: rest => consChar '\n' (readLongLiteral rest)
  | '\r' :: '\n' :: rest => consChar '\r' (consChar '\n' (readLongLiteral rest))
  | '\'' :: '\'' :: '\'' :: rest => some (closing '\'' rest)
  | c :: rest => if isControl c then none else consChar c (readLongLiteral rest)

/-- A line break right behind the opening quotes of a string on several lines does not belong to
    it. -/
def dropFirstBreak : List Char → List Char
  | '\n' :: rest => rest
  | '\r' :: '\n' :: rest => rest
  | cs => cs

/-- A string on one line in either notation. -/
def readLine : List Char → Read
  | '"' :: rest => readBasic rest
  | '\'' :: rest => readLiteral rest
  | _ => none

/-- A string in any of the four notations. -/
def readQuoted : List Char → Read
  | '"' :: '"' :: '"' :: rest => readLongBasic false (dropFirstBreak rest)
  | '\'' :: '\'' :: '\'' :: rest => readLongLiteral (dropFirstBreak rest)
  | cs => readLine cs

end NetProbe.Toml
