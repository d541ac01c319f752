import NetProbe.Json.Error
import NetProbe.Text.Hex
import NetProbe.Text.Utf8
set_option autoImplicit false

/-! # Reading JSON

The parts of a JSON text, each read from the front of a list of characters and returned with what
follows it. `readValue` builds the value; `skipValue` only finds its end, and is laxer: it checks
neither surrogates nor the range of numbers nor the depth of nesting. The depth that
`readValue` admits is a parameter: a list or an object takes one level, and level zero is too
deep. -/

namespace NetProbe.Json

/-- The deepest nesting of lists and objects that is read, plus one. -/
def depthLimit : Nat := 128

def isBlank (c : Char) : Bool :=
  c == ' ' || c == '\n' || c == '\t' || c == '\r'

def skipBlank (cs : List Char) : List Char :=
  cs.dropWhile isBlank

/-! ## Strings -/

/-- The sixteen-bit unit that four hexadecimal digits spell. -/
def hexUnit? (a b c d : Char) : Option Nat := do
  let a ← Text.hexValue? a
  let b ← Text.hexValue? b
  let c ← Text.hexValue? c
  let d ← Text.hexValue? d
  return ((a * 16 + b) * 16 + c) * 16 + d

/-- The fault of an escape with fewer than four characters left: it is cut off only when fewer
    than four bytes are left. -/
def shortEscape (cs : List Char) : ReadError :=
  if Text.byteCount cs < 4 then .endInString else .invalidEscape

/-- The character that a one-letter escape stands for. -/
def simpleEscape? (c : Char) : Option Char :=
  if c == '"' then some '"'
  else if c == '\\' then some '\\'
  else if c == '/' then some '/'
  else if c == 'b' then some '\x08'
  else if c == 'f' then some '\x0c'
  else if c == 'n' then some '\n'
  else if c == 'r' then some '\r'
  else if c == 't' then some '\t'
  else none

def isHighSurrogate (n : Nat) : Bool := 0xd800 ≤ n && n ≤ 0xdbff

def isLowSurrogate (n : Nat) : Bool := 0xdc00 ≤ n && n ≤ 0xdfff

/-- Puts a character before what a further reading gives. -/
def consRead (c : Char) :
    Except ReadError (List Char × List Char) → Except ReadError (List Char × List Char)
  | .ok (s, rest) => .ok (c :: s, rest)
  | .error e => .error e

/-- The characters of a string up to its closing quote, after the opening one. -/
def readChars : List Char → Except ReadError (List Char × List Char)
  | [] => .error .endInString
  | '"' :: rest => .ok ([], rest)
  | ['\\'] => .error .endInString
  | '\\' :: 'u' :: a :: b :: c :: d :: rest =>
    match hexUnit? a b c d with
    | none => .error .invalidEscape
    | some n =>
      if isLowSurrogate n then .error .loneSurrogate
      else if !isHighSurrogate n then consRead (Char.ofNat n) (readChars rest)
      else match rest with
        | [] => .error .endInString
        | ['\\'] => .error .endInString
        | '\\' :: 'u' :: a :: b :: c :: d :: rest =>
          match hexUnit? a b c d with
          | none => .error .invalidEscape
          | some m =>
            if isLowSurrogate m then
              consRead (Char.ofNat ((n - 0xd800) * 1024 + (m - 0xdc00) + 0x10000))
                (readChars rest)
            else .error .loneSurrogate
        | '\\' :: 'u' :: short => .error (shortEscape short)
        | _ => .error .brokenSurrogatePair
  | '\\' :: 'u' :: short => .error (shortEscape short)
  | '\\' :: e :: rest =>
    match simpleEscape? e with
    | some c => consRead c (readChars rest)
    | none => .error .invalidEscape
  | c :: rest => if c.toNat < 0x20 then .error .controlCharacter else consRead c (readChars rest)

/-- A string, after its opening quote. -/
def readString (cs : List Char) : Except ReadError (String × List Char) :=
  match readChars cs with
  | .ok (s, rest) => .ok (String.ofList s, rest)
  | .error e => .error e

/-- What follows a string that nobody needs, after its opening quote. -/
def skipString : List Char → Except ReadError (List Char)
  | [] => .error .endInString
  | '"' :: rest => .ok rest
  | ['\\'] => .error .endInString
  | '\\' :: 'u' :: a :: b :: c :: d :: rest =>
    match hexUnit? a b c d with
    | none => .error .invalidEscape
    | some _ => skipString rest
  | '\\' :: 'u' :: short => .error (shortEscape short)
  | '\\' :: e :: rest =>
    match simpleEscape? e with
    | some _ => skipString rest
    | none => .error .invalidEscape
  | c :: rest => if c.toNat < 0x20 then .error .controlCharacter else skipString rest

/-! ## Numbers -/

/-- The largest whole number that is read exactly. -/
def largestWhole : Nat := 18446744073709551615

/-- Takes digits into a whole number as long as it stays in range. Returns the number, how many
    digits it took, and the rest. -/
def absorbDigits (s : Nat) : List Char → Nat × Nat × List Char
  | [] => (s, 0, [])
  | c :: rest =>
    if c.isDigit && s * 10 + (c.toNat - 48) ≤ largestWhole then
      let (t, n, rest) := absorbDigits (s * 10 + (c.toNat - 48)) rest
      (t, n + 1, rest)
    else (s, 0, c :: rest)

/-- A number too far from one for the format is a fault, or zero. -/
def scaled (negative : Bool) (s : Nat) (e : Int) (rest : List Char) :
    Except ReadError (JsonNumber × List Char) :=
  match Binary.ofDecimal negative (UInt64.ofNat s) e with
  | some x => .ok (.fraction x, rest)
  | none => .error .numberOutOfRange

/-- The largest exponent that is read digit by digit. -/
def largestExponent : Nat := 2147483647

/-- The digits of an exponent as a number; `none` when it passes `largestExponent`. -/
def exponentValue? (ds : List Char) : Option Nat :=
  ds.foldl (fun acc c => acc.bind fun n =>
    let m := n * 10 + (c.toNat - 48)
    if m ≤ largestExponent then some m else none) (some 0)

/-- The exponent and what follows, after its letter, for a number `s · 10 ^ start`. -/
def readExponent (negative : Bool) (s : Nat) (start : Int) (cs : List Char) :
    Except ReadError (JsonNumber × List Char) :=
  let (down, cs) := match cs with
    | '+' :: rest => (false, rest)
    | '-' :: rest => (true, rest)
    | _ => (false, cs)
  match cs with
  | [] => .error .endInValue
  | c :: _ =>
    if c.isDigit then
      let ds := cs.takeWhile Char.isDigit
      let rest := cs.dropWhile Char.isDigit
      match exponentValue? ds with
      | some e => scaled negative s (if down then start - e else start + e) rest
      | none =>
        if s != 0 && !down then .error .numberOutOfRange
        else .ok (.fraction (Binary.zero negative), rest)
    else .error .invalidNumber

/-- The digits after a decimal point and what follows, for a number `s · 10 ^ start`. -/
def readFraction (negative : Bool) (s : Nat) (start : Int) (cs : List Char) :
    Except ReadError (JsonNumber × List Char) :=
  let (s', n, rest) := absorbDigits s cs
  let more := rest.takeWhile Char.isDigit
  let rest := rest.dropWhile Char.isDigit
  if n == 0 && more.isEmpty then
    if rest.isEmpty then .error .endInValue else .error .invalidNumber
  else match rest with
    | 'e' :: rest => readExponent negative s' (start - n) rest
    | 'E' :: rest => readExponent negative s' (start - n) rest
    | _ => scaled negative s' (start - n) rest

/-- A number without point and exponent. Minus zero and what lies below the signed range are
    fractions. -/
def wholeNumber (negative : Bool) (s : Nat) : JsonNumber :=
  if !negative then .whole s
  else if s == 0 || 9223372036854775808 < s then
    .fraction (Binary.ofFloat (-(UInt64.ofNat s).toFloat))
  else .whole (-(s : Int))

/-- A number, after its sign. -/
def readUnsigned (negative : Bool) : List Char → Except ReadError (JsonNumber × List Char)
  | [] => .error .endInValue
  | '0' :: rest =>
    match rest with
    | '.' :: rest => readFraction negative 0 0 rest
    | 'e' :: rest => readExponent negative 0 0 rest
    | 'E' :: rest => readExponent negative 0 0 rest
    | c :: _ => if c.isDigit then .error .invalidNumber else .ok (wholeNumber negative 0, rest)
    | [] => .ok (wholeNumber negative 0, [])
  | c :: rest =>
    if c.isDigit then
      let (s, _, rest) := absorbDigits 0 (c :: rest)
      let more := (rest.takeWhile Char.isDigit).length
      match rest.dropWhile Char.isDigit with
      | '.' :: rest => readFraction negative s more rest
      | 'e' :: rest => readExponent negative s more rest
      | 'E' :: rest => readExponent negative s more rest
      | rest =>
        if more == 0 then .ok (wholeNumber negative s, rest) else scaled negative s more rest
    else .error .invalidNumber

/-- A number. -/
def readNumber : List Char → Except ReadError (JsonNumber × List Char)
  | '-' :: rest => readUnsigned true rest
  | cs => readUnsigned false cs

/-- What follows the exponent of a number that nobody needs, after its letter. -/
def skipExponent (cs : List Char) : Except ReadError (List Char) :=
  let cs := match cs with
    | '+' :: rest => rest
    | '-' :: rest => rest
    | _ => cs
  match cs with
  | c :: _ => if c.isDigit then .ok (cs.dropWhile Char.isDigit) else .error .invalidNumber
  | [] => .error .invalidNumber

/-- What follows the whole part of a number that nobody needs. -/
def skipAfterWhole : List Char → Except ReadError (List Char)
  | '.' :: cs =>
    let rest := cs.dropWhile Char.isDigit
    if (cs.takeWhile Char.isDigit).isEmpty then .error .invalidNumber
    else match rest with
      | 'e' :: rest => skipExponent rest
      | 'E' :: rest => skipExponent rest
      | _ => .ok rest
  | 'e' :: rest => skipExponent rest
  | 'E' :: rest => skipExponent rest
  | cs => .ok cs

/-- What follows a number that nobody needs, after its sign. -/
def skipUnsigned : List Char → Except ReadError (List Char)
  | '0' :: rest =>
    match rest with
    | c :: _ => if c.isDigit then .error .invalidNumber else skipAfterWhole rest
    | [] => .ok []
  | c :: rest =>
    if c.isDigit then skipAfterWhole (rest.dropWhile Char.isDigit) else .error .invalidNumber
  | [] => .error .invalidNumber

/-! ## Words -/

/-- What follows a word of which the first letter is already read. -/
def readWord : List Char → List Char → Except ReadError (List Char)
  | [], rest => .ok rest
  | _ :: _, [] => .error .endInValue
  | w :: ws, c :: cs => if w == c then readWord ws cs else .error .expectedIdentifier

/-! ## Values -/

/-- The colon after a key. -/
def readColon (cs : List Char) : Except ReadError (List Char) :=
  match skipBlank cs with
  | ':' :: rest => .ok rest
  | [] => .error .endInObject
  | _ => .error .expectedColon

/-- Whether another member follows. If so the rest starts after the opening quote of its key, and
    otherwise at the closing brace. `first` says that no member has been read. -/
def nextKey (first : Bool) (cs : List Char) : Except ReadError (Bool × List Char) :=
  match skipBlank cs with
  | [] => .error .endInObject
  | c :: rest =>
    if c == '\x7d' then .ok (false, c :: rest)
    else if first then
      if c == '"' then .ok (true, rest) else .error .keyNotString
    else if c == ',' then
      match skipBlank rest with
      | [] => .error .endInValue
      | d :: rest =>
        if d == '"' then .ok (true, rest)
        else if d == '\x7d' then .error .trailingComma
        else .error .keyNotString
    else .error .expectedObjectEnd

/-- Whether another item follows. If so the rest starts at it, and otherwise at the closing
    bracket. `first` says that no item has been read. -/
def nextItem (first : Bool) (cs : List Char) : Except ReadError (Bool × List Char) :=
  match skipBlank cs with
  | [] => .error .endInList
  | c :: rest =>
    if c == ']' then .ok (false, c :: rest)
    else if first then .ok (true, c :: rest)
    else if c == ',' then
      match skipBlank rest with
      | [] => .error .endInValue
      | d :: rest => if d == ']' then .error .trailingComma else .ok (true, d :: rest)
    else .error .expectedListEnd

/-- The closing brace of an object of which all members are read. -/
def endObject (cs : List Char) : Except ReadError (List Char) :=
  match skipBlank cs with
  | [] => .error .endInObject
  | c :: rest =>
    if c == '\x7d' then .ok rest
    else if c == ',' then .error .trailingComma
    else .error .expectedObjectEnd

/-- The closing bracket of a list of which no more items are wanted. -/
def endList (cs : List Char) : Except ReadError (List Char) :=
  match skipBlank cs with
  | [] => .error .endInList
  | c :: rest =>
    if c == ']' then .ok rest
    else if c == ',' then
      match skipBlank rest with
      | ']' :: _ => .error .trailingComma
      | _ => .error .trailingCharacters
    else .error .trailingCharacters

mutual

/-- A value. Each call takes at least one character of the text, so as much `fuel` as the text is
    long is enough. -/
def readValue (fuel depth : Nat) (cs : List Char) : Except ReadError (Json × List Char) :=
  match fuel with
  | 0 => .error .endInValue
  | fuel + 1 =>
    match skipBlank cs with
    | [] => .error .endInValue
    | 'n' :: rest => do
      let rest ← readWord ['u', 'l', 'l'] rest
      return (.null, rest)
    | 't' :: rest => do
      let rest ← readWord ['r', 'u', 'e'] rest
      return (.bool true, rest)
    | 'f' :: rest => do
      let rest ← readWord ['a', 'l', 's', 'e'] rest
      return (.bool false, rest)
    | '"' :: rest => do
      let (s, rest) ← readString rest
      return (.string s, rest)
    | '[' :: rest =>
      match depth with
      | 0 | 1 => .error .tooDeep
      | depth + 1 => do
        let (items, rest) ← readItems fuel depth true rest
        let rest ← endList rest
        return (.array items, rest)
    | '\x7b' :: rest =>
      match depth with
      | 0 | 1 => .error .tooDeep
      | depth + 1 => do
        let (members, rest) ← readMembers fuel depth true rest
        let rest ← endObject rest
        return (ofMembers members, rest)
    | c :: rest =>
      if c == '-' || c.isDigit then do
        let (n, rest) ← readNumber (c :: rest)
        return (.number n, rest)
      else .error .expectedValue

/-- The items of a list up to its closing bracket. -/
def readItems (fuel depth : Nat) (first : Bool) (cs : List Char) :
    Except ReadError (List Json × List Char) :=
  match fuel with
  | 0 => .error .endInValue
  | fuel + 1 => do
    let (more, rest) ← nextItem first cs
    if more then
      let (v, rest) ← readValue fuel depth rest
      let (vs, rest) ← readItems fuel depth false rest
      return (v :: vs, rest)
    else return ([], rest)

/-- The members of an object up to its closing brace, as they stand. -/
def readMembers (fuel depth : Nat) (first : Bool) (cs : List Char) :
    Except ReadError (List (String × Json) × List Char) :=
  match fuel with
  | 0 => .error .endInValue
  | fuel + 1 => do
    let (more, rest) ← nextKey first cs
    if more then
      let (key, rest) ← readString rest
      let rest ← readColon rest
      let (v, rest) ← readValue fuel depth rest
      let (ms, rest) ← readMembers fuel depth false rest
      return ((key, v) :: ms, rest)
    else return ([], rest)

end

mutual

/-- What follows a value that nobody needs. -/
def skipValue (fuel : Nat) (cs : List Char) : Except ReadError (List Char) :=
  match fuel with
  | 0 => .error .endInValue
  | fuel + 1 =>
    match skipBlank cs with
    | [] => .error .endInValue
    | 'n' :: rest => readWord ['u', 'l', 'l'] rest
    | 't' :: rest => readWord ['r', 'u', 'e'] rest
    | 'f' :: rest => readWord ['a', 'l', 's', 'e'] rest
    | '"' :: rest => skipString rest
    | '[' :: rest => skipItems fuel true rest
    | '\x7b' :: rest => skipMembers fuel true rest
    | '-' :: rest => skipUnsigned rest
    | c :: rest => if c.isDigit then skipUnsigned (c :: rest) else .error .expectedValue

/-- What follows the closing bracket of a list that nobody needs. -/
def skipItems (fuel : Nat) (first : Bool) (cs : List Char) : Except ReadError (List Char) :=
  match fuel with
  | 0 => .error .endInValue
  | fuel + 1 =>
    match skipBlank cs with
    | [] => .error .endInList
    | c :: rest =>
      if c == ']' then .ok rest
      else if first then do
        let rest ← skipValue fuel (c :: rest)
        skipItems fuel false rest
      else if c == ',' then do
        let rest ← skipValue fuel rest
        skipItems fuel false rest
      else .error .expectedListEnd

/-- What follows the closing brace of an object that nobody needs. -/
def skipMembers (fuel : Nat) (first : Bool) (cs : List Char) : Except ReadError (List Char) :=
  match fuel with
  | 0 => .error .endInValue
  | fuel + 1 =>
    match skipBlank cs with
    | [] => .error .endInObject
    | c :: rest =>
      if c == '\x7d' then .ok rest
      else if first then skipMember fuel (c :: rest)
      else if c == ',' then skipMember fuel rest
      else .error .expectedObjectEnd

/-- What follows an object that nobody needs, from the key of a member on. -/
def skipMember (fuel : Nat) (cs : List Char) : Except ReadError (List Char) :=
  match fuel with
  | 0 => .error .endInValue
  | fuel + 1 =>
    match skipBlank cs with
    | [] => .error .endInObject
    | c :: rest =>
      if c == '"' then do
        let rest ← skipString rest
        let rest ← readColon rest
        let rest ← skipValue fuel rest
        skipMembers fuel false rest
      else .error .keyNotString

end

/-- The fault of a text that has something else where `expected` should stand. -/
def unexpected (expected : String) (cs : List Char) : ReadError :=
  let wrong (found : String) := ReadError.misfit (.wrongKind found expected)
  let word (ws : List Char) (v : Json) (rest : List Char) :=
    match readWord ws rest with
    | .ok _ => wrong (describe v)
    | .error e => e
  match cs with
  | 'n' :: rest => word ['u', 'l', 'l'] .null rest
  | 't' :: rest => word ['r', 'u', 'e'] (.bool true) rest
  | 'f' :: rest => word ['a', 'l', 's', 'e'] (.bool false) rest
  | '"' :: rest =>
    match readString rest with
    | .ok (s, _) => wrong (describe (.string s))
    | .error e => e
  | '[' :: _ => wrong "sequence"
  | '\x7b' :: _ => wrong "map"
  | c :: rest =>
    if c == '-' || c.isDigit then
      match readNumber (c :: rest) with
      | .ok (n, _) => wrong (describe (.number n))
      | .error e => e
    else .expectedValue
  | [] => .expectedValue

/-- A string where a string is asked for. -/
def expectString (cs : List Char) : Except ReadError (String × List Char) :=
  match skipBlank cs with
  | [] => .error .endInValue
  | '"' :: rest => readString rest
  | rest => .error (unexpected "a string" rest)

/-- Nothing but white space may follow the value of a text. -/
def expectEnd (cs : List Char) : Except ReadError Unit :=
  match skipBlank cs with
  | [] => .ok ()
  | _ => .error .trailingCharacters

/-- As much fuel as reading a text can take. -/
def fuelFor (cs : List Char) : Nat := 2 * cs.length + 2

/-- The value that a text holds. -/
def parse (text : String) : Except ReadError Json := do
  let cs := text.toList
  let (v, rest) ← readValue (fuelFor cs) depthLimit cs
  expectEnd rest
  return v

end NetProbe.Json
