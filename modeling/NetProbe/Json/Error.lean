import NetProbe.Json.Writer
set_option autoImplicit false

/-! # What can be wrong with a JSON text

A text may break the grammar, end too early, or hold a value that does not fit what the reader was
asked for. The first fault in the text is the one reported. -/

namespace NetProbe.Json

/-- A value that does not fit. -/
inductive Misfit where
  /-- A value of another kind than expected. -/
  | wrongKind (found expected : String)
  /-- A number of the right kind outside the range. -/
  | outOfRange (found expected : String)
  /-- A list that is too short or too long. -/
  | wrongLength (length : Nat) (expected : String)
  | missingField (name : String)
  | duplicateField (name : String)
deriving DecidableEq, Repr

def Misfit.message : Misfit → String
  | .wrongKind found expected => "invalid type: " ++ found ++ ", expected " ++ expected
  | .outOfRange found expected => "invalid value: " ++ found ++ ", expected " ++ expected
  | .wrongLength n expected => "invalid length " ++ toString n ++ ", expected " ++ expected
  | .missingField name => "missing field `" ++ name ++ "`"
  | .duplicateField name => "duplicate field `" ++ name ++ "`"

/-- The first fault of a text. -/
inductive ReadError where
  | misfit (m : Misfit)
  | endInValue
  | endInList
  | endInObject
  | endInString
  | expectedColon
  | expectedListEnd
  | expectedObjectEnd
  | expectedIdentifier
  | expectedValue
  | invalidEscape
  | invalidNumber
  | numberOutOfRange
  | loneSurrogate
  | brokenSurrogatePair
  | keyNotString
  | controlCharacter
  | trailingComma
  | trailingCharacters
  | tooDeep
deriving DecidableEq, Repr

/-- The three sorts of fault. -/
inductive FaultSort where
  | grammar
  | content
  | ending
deriving DecidableEq, Repr

namespace ReadError

def message : ReadError → String
  | misfit m => m.message
  | endInValue => "EOF while parsing a value"
  | endInList => "EOF while parsing a list"
  | endInObject => "EOF while parsing an object"
  | endInString => "EOF while parsing a string"
  | expectedColon => "expected `:`"
  | expectedListEnd => "expected `,` or `]`"
  | expectedObjectEnd => "expected `,` or `\x7d`"
  | expectedIdentifier => "expected ident"
  | expectedValue => "expected value"
  | invalidEscape => "invalid escape"
  | invalidNumber => "invalid number"
  | numberOutOfRange => "number out of range"
  | loneSurrogate => "lone leading surrogate in hex escape"
  | brokenSurrogatePair => "unexpected end of hex escape"
  | keyNotString => "key must be a string"
  | controlCharacter =>
      "control character (\\u0000-\\u001F) found while parsing a string"
  | trailingComma => "trailing comma"
  | trailingCharacters => "trailing characters"
  | tooDeep => "recursion limit exceeded"

def sort : ReadError → FaultSort
  | misfit _ => .content
  | endInValue | endInList | endInObject | endInString => .ending
  | _ => .grammar

end ReadError

/-- The words for a number in a message. -/
def JsonNumber.describe : JsonNumber → String
  | .whole n => "integer `" ++ String.ofList (writeInt n) ++ "`"
  | .fraction x => "floating point `" ++ String.ofList (writeFraction x) ++ "`"

/-- The words for a value that does not fit. -/
def describe : Json → String
  | .null => "null"
  | .bool true => "boolean `true`"
  | .bool false => "boolean `false`"
  | .number n => JsonNumber.describe n
  | .string s => "string " ++ Text.quote s
  | .array _ => "sequence"
  | .object _ => "map"

end NetProbe.Json
