import NetProbe.Toml.Basic
set_option autoImplicit false

/-! # Writing TOML

A text is written in the plainest notation that holds it: on one line without escapes if it can
be, else on several lines, else with escapes. A text with line breaks that is written on several
lines starts on a line of its own. -/

namespace NetProbe.Toml

/-- The notations of texts. -/
inductive Style where
  | basic
  | literal
  | longBasic
  | longLiteral
deriving DecidableEq, Repr

/-- The length of the longest row of one character, behind a row of `here` at the front. -/
def longestRow (c : Char) (here : Nat) : List Char → Nat
  | [] => here
  | d :: rest => if d = c then longestRow c (here + 1) rest else Nat.max here (longestRow c 0 rest)

/-- Whether a character is a control character other than the tab and the line break. -/
def isCode (c : Char) : Bool := isControl c && c != '\n'

/-- The notation in which a text is written. -/
def styleOf (cs : List Char) : Style :=
  let codes := cs.any isCode
  let backslash := cs.contains '\\'
  let lines := cs.contains '\n'
  if !codes && !backslash && !cs.contains '"' && !lines then .basic
  else if !codes && !cs.contains '\'' && !lines then .literal
  else if !codes && !backslash && longestRow '"' 0 cs ≤ 2 then .longBasic
  else if !codes && longestRow '\'' 0 cs ≤ 2 then .longLiteral
  else if lines then .longBasic
  else .basic

/-- The digit for a value below sixteen, in upper case. -/
def upperDigit (n : Nat) : Char :=
  Char.ofNat (if n < 10 then 48 + n else 55 + n)

/-- The escape of a control character. -/
def escapeCode (c : Char) : List Char :=
  ['\\', 'u', '0', '0', upperDigit (c.toNat / 16), upperDigit (c.toNat % 16)]

/-- A text with escapes. `long` says that line breaks and up to two quotes in a row need none;
    `room` is the number of quotes that may still follow without one. -/
def writeEscaped (long : Bool) (room : Nat) : List Char → List Char
  | [] => []
  | c :: rest =>
    let full := if long then 2 else 0
    if c = '"' then
      match room with
      | 0 => '\\' :: '"' :: writeEscaped long full rest
      | room + 1 => '"' :: writeEscaped long room rest
    else if c = '\x08' then '\\' :: 'b' :: writeEscaped long full rest
    else if c = '\t' then '\\' :: 't' :: writeEscaped long full rest
    else if c = '\n' then
      if long then '\n' :: writeEscaped long full rest
      else '\\' :: 'n' :: writeEscaped long full rest
    else if c = '\x0c' then '\\' :: 'f' :: writeEscaped long full rest
    else if c = '\r' then '\\' :: 'r' :: writeEscaped long full rest
    else if c = '\\' then '\\' :: '\\' :: writeEscaped long full rest
    else if isControl c then escapeCode c ++ writeEscaped long full rest
    else c :: writeEscaped long full rest

/-- The line break in front of a text that has some. -/
def firstBreak (cs : List Char) : List Char :=
  if cs.contains '\n' then ['\n'] else []

/-- A text in its quotes. -/
def writeText (cs : List Char) : List Char :=
  match styleOf cs with
  | .basic => '"' :: writeEscaped false 0 cs ++ ['"']
  | .literal => '\'' :: cs ++ ['\'']
  | .longBasic =>
    ['"', '"', '"'] ++ firstBreak cs ++ writeEscaped true 2 cs ++ ['"', '"', '"']
  | .longLiteral => ['\'', '\'', '\''] ++ firstBreak cs ++ cs ++ ['\'', '\'', '\'']

/-- A whole number in decimal. -/
def writeNat (n : Nat) : List Char := Nat.toDigits 10 n

/-- An assignment on a line. -/
def writeAssignment (key value : List Char) : List Char :=
  key ++ [' ', '=', ' '] ++ value ++ ['\n']

/-- The header of a table on a line. -/
def writeHeader (key : List Char) : List Char :=
  '[' :: key ++ [']', '\n']

end NetProbe.Toml
