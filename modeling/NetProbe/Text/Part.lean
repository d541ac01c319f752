set_option autoImplicit false

/-! # Parts of a text -/

namespace NetProbe.Text

/-- Whether the characters occur somewhere in the others, in a row. -/
def occursIn (part : List Char) : List Char → Bool
  | [] => part.isEmpty
  | c :: rest => part.isPrefixOf (c :: rest) || occursIn part rest

/-- Whether a text holds another one. -/
def holds (s part : String) : Bool :=
  occursIn part.toList s.toList

/-- A letter of ASCII in lower case; every other character as it is. -/
def lowerAscii (c : Char) : Char :=
  if 'A' ≤ c ∧ c ≤ 'Z' then Char.ofNat (c.toNat + 32) else c

/-- A text with its ASCII letters in lower case. -/
def toLowerAscii (s : String) : String :=
  String.ofList (s.toList.map lowerAscii)

/-- Equality of texts up to the case of ASCII letters. -/
def sameIgnoringCase (s t : String) : Bool :=
  s.toList.map lowerAscii == t.toList.map lowerAscii

end NetProbe.Text
