import NetProbe.Toml.Document
import NetProbe.Toml.Quoted
import NetProbe.Toml.Scalar
set_option autoImplicit false

/-! # Reading TOML

A document is read statement by statement. Lists and tables within braces may spread over lines,
with comments between their parts and a comma behind the last one. -/

namespace NetProbe.Toml

def skipSpaces (cs : List Char) : List Char :=
  cs.dropWhile isSpace

/-- What follows white space, line breaks and comments. `comment` says that a comment is under
    way. -/
def skipFiller (comment : Bool) : List Char → Option (List Char)
  | [] => some []
  | '\n' :: rest => skipFiller false rest
  | '\r' :: '\n' :: rest => skipFiller false rest
  | c :: rest =>
    if comment then (if isControl c then none else skipFiller true rest)
    else if isSpace c then skipFiller false rest
    else if c == '#' then skipFiller true rest
    else some (c :: rest)

/-- The rest of a line may hold white space and a comment. -/
def endLine (cs : List Char) : Option (List Char) :=
  let cs := skipSpaces cs
  let cs := if cs.head? = some '#' then cs.dropWhile fun c => !isControl c else cs
  match cs with
  | [] => some []
  | '\n' :: rest => some rest
  | '\r' :: '\n' :: rest => some rest
  | _ => none

/-! ## Keys -/

/-- A key without dots. -/
def readKey (cs : List Char) : Option (String × List Char) :=
  let bare := cs.takeWhile isKeyChar
  if bare.isEmpty then (readLine cs).map fun r => (String.ofList r.1, r.2)
  else some (String.ofList bare, cs.drop bare.length)

/-- The parts of a key with dots. -/
def readKeys (fuel : Nat) (cs : List Char) : Option (List String × List Char) :=
  match fuel with
  | 0 => none
  | fuel + 1 => do
    let (key, rest) ← readKey (skipSpaces cs)
    let rest := skipSpaces rest
    match rest with
    | '.' :: rest => do
      let (keys, rest) ← readKeys fuel rest
      return (key :: keys, rest)
    | _ => return ([key], rest)

/-- The path of a key and its last part. -/
def splitPath (keys : List String) : Option (List String × String) :=
  keys.getLast?.map fun key => (keys.dropLast, key)

/-! ## Values -/

/-- The characters that end a scalar without quotes. -/
def isScalarEnd (c : Char) : Bool :=
  isSpace c || c == '\n' || c == '\r' || c == ',' || c == ']' || c == '\x7d' || c == '#'

/-- A scalar without quotes. A date and a time of day may have one space between them. -/
def readScalar (cs : List Char) : Option (Toml × List Char) :=
  let token := cs.takeWhile fun c => !isScalarEnd c
  let rest := cs.drop token.length
  let moment := match rest with
    | ' ' :: c :: more =>
      if isDate token ∧ isDigit c then
        let time := (c :: more).takeWhile fun c => !isScalarEnd c
        some (token ++ ' ' :: time, (c :: more).drop time.length)
      else none
    | _ => none
  let (token, rest) := moment.getD (token, rest)
  (scalar? token).map fun v => (v, rest)

/-- Adds an assignment to the members of a table within braces. -/
def addMember (ms : Members) (keys : List String) (v : Toml) : Option Members := do
  let (path, key) ← splitPath keys
  Members.assign path key v .header ms

mutual

/-- A value. Every call takes at least one character or hands on to one that does, so twice as much
    `fuel` as the text is long is enough. -/
def readValue (fuel : Nat) (cs : List Char) : Option (Toml × List Char) :=
  match fuel with
  | 0 => none
  | fuel + 1 =>
    match cs with
    | '[' :: rest => (readItems fuel rest).map fun r => (.array r.1, r.2)
    | '\x7b' :: rest => (readMembers fuel [] rest).map fun r => (.table r.1, r.2)
    | '"' :: _ | '\'' :: _ => (readQuoted cs).map fun r => (.string (String.ofList r.1), r.2)
    | _ => readScalar cs

/-- The items of a list, up to the closing bracket. -/
def readItems (fuel : Nat) (cs : List Char) : Option (List Toml × List Char) :=
  match fuel with
  | 0 => none
  | fuel + 1 => do
    match ← skipFiller false cs with
    | ']' :: rest => return ([], rest)
    | cs => do
      let (v, rest) ← readValue fuel cs
      match ← skipFiller false rest with
      | ']' :: rest => return ([v], rest)
      | ',' :: rest => do
        let (vs, rest) ← readItems fuel rest
        return (v :: vs, rest)
      | _ => none

/-- The members of a table within braces, up to the closing brace. -/
def readMembers (fuel : Nat) (ms : Members) (cs : List Char) :
    Option (List (String × Toml) × List Char) :=
  match fuel with
  | 0 => none
  | fuel + 1 => do
    match ← skipFiller false cs with
    | '\x7d' :: rest => return (membersToToml ms, rest)
    | cs => do
      let (keys, rest) ← readKeys fuel cs
      let (v, rest) ← readAssigned fuel rest
      let ms ← addMember ms keys v
      match ← skipFiller false rest with
      | '\x7d' :: rest => return (membersToToml ms, rest)
      | ',' :: rest => readMembers fuel ms rest
      | _ => none

/-- The value behind an equals sign. -/
def readAssigned (fuel : Nat) (cs : List Char) : Option (Toml × List Char) :=
  match fuel with
  | 0 => none
  | fuel + 1 =>
    match cs with
    | '=' :: rest => readValue fuel (skipSpaces rest)
    | _ => none

end

/-! ## Statements -/

/-- The keys of a header behind its opening brackets. -/
def readHeader (fuel : Nat) (cs : List Char) : Option ((List String × String) × List Char) := do
  let (keys, rest) ← readKeys fuel cs
  return (← splitPath keys, rest)

/-- One statement with the line break behind it. -/
def readStatement (fuel : Nat) (cs : List Char) : Option (Statement × List Char) := do
  match cs with
  | '[' :: '[' :: rest => do
    let ((path, key), rest) ← readHeader fuel rest
    match rest with
    | ']' :: ']' :: rest => return (.openNext path key, ← endLine rest)
    | _ => none
  | '[' :: rest => do
    let ((path, key), rest) ← readHeader fuel rest
    match rest with
    | ']' :: rest => return (.open path key, ← endLine rest)
    | _ => none
  | cs => do
    let (keys, rest) ← readKeys fuel cs
    let (v, rest) ← readAssigned fuel rest
    let (path, key) ← splitPath keys
    return (.assign path key v, ← endLine rest)

/-- The statements of a text. -/
def readStatements (fuel : Nat) (cs : List Char) : Option (List Statement) :=
  match fuel with
  | 0 => none
  | fuel + 1 => do
    match ← skipFiller false cs with
    | [] => return []
    | cs => do
      let (s, rest) ← readStatement fuel cs
      return s :: (← readStatements fuel rest)

/-- The text without a mark of the byte order at its front. -/
def dropMark : List Char → List Char
  | '\ufeff' :: rest => rest
  | cs => cs

/-- The members of the document that a text spells. -/
def parse? (text : String) : Option (List (String × Toml)) := do
  let cs := dropMark text.toList
  ofStatements (← readStatements (2 * cs.length + 4) cs)

end NetProbe.Toml
