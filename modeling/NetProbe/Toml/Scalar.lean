import NetProbe.Toml.Basic
set_option autoImplicit false

/-! # Scalars of TOML without quotes

Booleans, whole numbers in four bases, numbers with a fraction or an exponent, and moments. A
number may have underscores, each between two digits. -/

namespace NetProbe.Toml

def isDigit (c : Char) : Bool := '0' ≤ c && c ≤ '9'

/-- The value of a digit in the given base. -/
def digitValue? (base : Nat) (c : Char) : Option Nat :=
  let n :=
    if '0' ≤ c ∧ c ≤ '9' then c.toNat - 48
    else if 'a' ≤ c ∧ c ≤ 'f' then c.toNat - 87
    else if 'A' ≤ c ∧ c ≤ 'F' then c.toNat - 55
    else base
  if n < base then some n else none

/-- The digits of a row of at least one, with single underscores between digits taken out. -/
def digits? (base : Nat) : List Char → Option (List Nat)
  | [] => none
  | [c] => (digitValue? base c).map fun d => [d]
  | c :: '_' :: rest => do return (← digitValue? base c) :: (← digits? base rest)
  | c :: rest => do return (← digitValue? base c) :: (← digits? base rest)

/-- The number that digits spell. -/
def value (base : Nat) (ds : List Nat) : Nat :=
  ds.foldl (fun n d => n * base + d) 0

/-- A whole number in decimal, without leading zeros. -/
def decimal? (cs : List Char) : Option Nat := do
  let ds ← digits? 10 cs
  if 1 < ds.length ∧ ds.head? = some 0 then none
  return value 10 ds

/-- The text after its sign, and whether the sign is a minus. -/
def splitSign : List Char → Bool × List Char
  | '-' :: rest => (true, rest)
  | '+' :: rest => (false, rest)
  | cs => (false, cs)

/-- A whole number. Only decimal ones may have a sign. -/
def integer? : List Char → Option Int
  | '0' :: 'x' :: rest => (digits? 16 rest).map fun ds => (value 16 ds : Int)
  | '0' :: 'o' :: rest => (digits? 8 rest).map fun ds => (value 8 ds : Int)
  | '0' :: 'b' :: rest => (digits? 2 rest).map fun ds => (value 2 ds : Int)
  | cs =>
    let (negative, cs) := splitSign cs
    (decimal? cs).map fun n => if negative then -(n : Int) else n

def isExponentMark (c : Char) : Bool := c == 'e' || c == 'E'

/-- Whether what follows the exponent mark of a number is an exponent. -/
def isExponent (cs : List Char) : Bool :=
  (digits? 10 (splitSign cs).2).isSome

/-- Whether a text is a number with a fraction or an exponent, or names a special one. -/
def isFloat (cs : List Char) : Bool :=
  let cs := (splitSign cs).2
  if cs == ['i', 'n', 'f'] || cs == ['n', 'a', 'n'] then true
  else
    let whole := cs.takeWhile fun c => c != '.' && !isExponentMark c
    if (decimal? whole).isNone then false
    else match cs.drop whole.length with
      | '.' :: rest =>
        let fraction := rest.takeWhile fun c => !isExponentMark c
        (digits? 10 fraction).isSome &&
          match rest.drop fraction.length with
          | [] => true
          | _ :: exponent => isExponent exponent
      | _ :: exponent => isExponent exponent
      | [] => false

/-! ## Moments -/

/-- The number of so many digits at the front, and the rest. -/
def fixedDigits (count : Nat) (cs : List Char) : Option (Nat × List Char) :=
  let front := cs.take count
  if front.length = count ∧ front.all isDigit then
    some (value 10 (front.map fun c => c.toNat - 48), cs.drop count)
  else none

def isLeapYear (year : Nat) : Bool :=
  year % 4 = 0 && (year % 100 != 0 || year % 400 = 0)

def daysOfMonth (year month : Nat) : Nat :=
  if month = 2 then (if isLeapYear year then 29 else 28)
  else if month = 4 ∨ month = 6 ∨ month = 9 ∨ month = 11 then 30
  else 31

/-- What follows a character. -/
def after (c : Char) : List Char → Option (List Char)
  | d :: rest => if c = d then some rest else none
  | [] => none

/-- What follows a date. -/
def afterDate (cs : List Char) : Option (List Char) := do
  let (year, cs) ← fixedDigits 4 cs
  let (month, cs) ← fixedDigits 2 (← after '-' cs)
  let (day, cs) ← fixedDigits 2 (← after '-' cs)
  if 1 ≤ month ∧ month ≤ 12 ∧ 1 ≤ day ∧ day ≤ daysOfMonth year month then return cs
  none

/-- What follows a time of day; its seconds may be missing. -/
def afterTime (cs : List Char) : Option (List Char) := do
  let (hour, cs) ← fixedDigits 2 cs
  let (minute, cs) ← fixedDigits 2 (← after ':' cs)
  if 24 ≤ hour ∨ 60 ≤ minute then none
  match after ':' cs with
  | none => return cs
  | some cs => do
    let (second, cs) ← fixedDigits 2 cs
    if 60 < second then none
    match after '.' cs with
    | none => return cs
    | some cs =>
      if (cs.takeWhile isDigit).isEmpty then none
      return cs.dropWhile isDigit

/-- Whether a text is the distance of a clock from the universal one. -/
def isOffset : List Char → Bool
  | ['Z'] | ['z'] => true
  | sign :: cs =>
    (sign == '+' || sign == '-') &&
      match (do
        let (hour, cs) ← fixedDigits 2 cs
        let (minute, cs) ← fixedDigits 2 (← after ':' cs)
        return (hour, minute, cs) : Option (Nat × Nat × List Char)) with
      | some (hour, minute, []) => hour < 24 && minute < 60
      | _ => false
  | [] => false

/-- Whether a text is a date, a time of day or both. -/
def isMoment (cs : List Char) : Bool :=
  match afterDate cs with
  | some [] => true
  | some (c :: rest) =>
    (c == 'T' || c == 't' || c == ' ') &&
      match afterTime rest with
      | some [] => true
      | some offset => isOffset offset
      | none => false
  | none => afterTime cs == some []

/-- Whether a text is a date alone. -/
def isDate (cs : List Char) : Bool :=
  afterDate cs == some []

/-- The value that a text without quotes spells. -/
def scalar? (cs : List Char) : Option Toml :=
  if cs == ['t', 'r', 'u', 'e'] then some (.bool true)
  else if cs == ['f', 'a', 'l', 's', 'e'] then some (.bool false)
  else match integer? cs with
    | some n => some (.integer n)
    | none =>
      if isFloat cs then some (.float (String.ofList cs))
      else if isMoment cs then some (.moment (String.ofList cs))
      else none

end NetProbe.Toml
