set_option autoImplicit false

/-! # Kinds of values

Every value that flows through a program has a kind, known by its name. A sum of kinds is the set
of its members: a list in ascending order of names without repetition, which makes equality of
sums equality of sets. Three kinds are about control: the error, the exception and the skip mark;
`complete` adds them to a sum and `main` takes them away. -/

namespace NetProbe

/-- The kind of a value, by its name. -/
structure Kind where
  name : String
deriving DecidableEq, Repr, Inhabited

namespace Kind

def void : Kind := ⟨"*Void"⟩
def lookupInput : Kind := ⟨"*DNSLookupInput"⟩
def lookupOutput : Kind := ⟨"*DNSLookupOutput"⟩
def endpoint : Kind := ⟨"*Endpoint"⟩
def endpoints : Kind := ⟨"[]*Endpoint"⟩
def tcpConnection : Kind := ⟨"*TCPConnection"⟩
def tlsConnection : Kind := ⟨"*TLSConnection"⟩
def quicConnection : Kind := ⟨"*QUICConnection"⟩
def httpResponse : Kind := ⟨"*HTTPResponse"⟩

/-- A failure of a measurement. -/
def error : Kind := ⟨"error"⟩

/-- A fault of the program. -/
def exception : Kind := ⟨"*Exception"⟩

/-- The mark of a branch that has nothing more to do. -/
def skip : Kind := ⟨"*Skip"⟩

/-- The kinds that are about control. -/
def control : List Kind := [error, exception, skip]

def isControl (k : Kind) : Bool :=
  control.contains k

/-- Puts a kind into an ascending list, unless it is there. -/
def insert (k : Kind) : List Kind → List Kind
  | [] => [k]
  | l :: rest =>
    if k.name < l.name then k :: l :: rest
    else if k = l then l :: rest
    else l :: insert k rest

end Kind

/-- Names in ascending order, each once. -/
def Ascending (ks : List Kind) : Prop :=
  ks.Pairwise fun k l => k.name < l.name

theorem Kind.mem_insert {k l : Kind} {ks : List Kind} :
    l ∈ Kind.insert k ks ↔ l = k ∨ l ∈ ks := by
  induction ks with
  | nil => simp [Kind.insert]
  | cons m rest ih =>
    simp only [Kind.insert]
    split
    · simp
    · split
      · next h => subst h; simp
      · simp only [List.mem_cons, ih]
        constructor
        · rintro (h | h | h) <;> simp [h]
        · rintro (h | h | h) <;> simp [h]

theorem Kind.ascending_insert {k : Kind} {ks : List Kind} (h : Ascending ks) :
    Ascending (Kind.insert k ks) := by
  induction ks with
  | nil => simp [Kind.insert, Ascending]
  | cons m rest ih =>
    obtain ⟨hm, hrest⟩ := List.pairwise_cons.1 h
    simp only [Kind.insert]
    split
    · next hlt =>
      refine List.pairwise_cons.2 ⟨fun l hl => ?_, h⟩
      rcases List.mem_cons.1 hl with rfl | hl
      · exact hlt
      · exact String.lt_trans hlt (hm l hl)
    · split
      · exact h
      · next hlt hne =>
        refine List.pairwise_cons.2 ⟨fun l hl => ?_, ih hrest⟩
        rcases Kind.mem_insert.1 hl with rfl | hl
        · rcases Decidable.em (m.name < l.name) with h' | h'
          · exact h'
          · have : l.name = m.name := String.le_antisymm h' hlt
            exact absurd (congrArg Kind.mk this) hne
        · exact hm l hl

/-- A sum of kinds, as the set of its members. -/
structure Kinds where
  members : List Kind
  ascending : Ascending members

namespace Kinds

instance : DecidableEq Kinds := fun a b =>
  match a, b with
  | ⟨xs, _⟩, ⟨ys, _⟩ =>
    if h : xs = ys then isTrue (by subst h; rfl)
    else isFalse (fun e => h (congrArg Kinds.members e))

/-- The sum with no members. -/
def empty : Kinds := ⟨[], List.Pairwise.nil⟩

instance : Inhabited Kinds := ⟨empty⟩

/-- The sum with one more member. -/
def insert (a : Kinds) (k : Kind) : Kinds :=
  ⟨Kind.insert k a.members, Kind.ascending_insert a.ascending⟩

/-- The sum with more members. -/
def append (a : Kinds) (ks : List Kind) : Kinds :=
  ks.foldl insert a

/-- The sum of the given kinds. -/
def sum (ks : List Kind) : Kinds :=
  empty.append ks

instance : Coe Kind Kinds := ⟨fun k => sum [k]⟩

/-- The sum with the three control kinds. -/
def complete (a : Kinds) : Kinds :=
  a.append Kind.control

/-- The sum without the three control kinds. -/
def main (a : Kinds) : Kinds :=
  ⟨a.members.filter fun k => !k.isControl, a.ascending.filter _⟩

def contains (a : Kinds) (k : Kind) : Bool :=
  a.members.contains k

def size (a : Kinds) : Nat :=
  a.members.length

def isEmpty (a : Kinds) : Bool :=
  a.members.isEmpty

/-- Whether every member of the sum is a member of the other. -/
def canConvertTo (a b : Kinds) : Bool :=
  a.members.all b.contains

/-- The names of the members with bars between them. -/
def text (a : Kinds) : String :=
  " | ".intercalate (a.members.map Kind.name)

end Kinds

end NetProbe
