import Mathlib.Algebra.Group.Int.Defs
import NetProbe.Json.Basic
set_option autoImplicit false

/-! # The shape of values

How deep a value is nested, and what its numbers and objects are like. A value is `Canonical` when
it is one that the reader can build: its whole numbers have sixty-four bits, signed or unsigned, and
the members of its objects stand in ascending order of their keys, no key twice. -/

namespace NetProbe.Json

mutual

/-- How many lists and objects stand in one another in a value. -/
def nesting : Json → Nat
  | .null => 0
  | .bool _ => 0
  | .number _ => 0
  | .string _ => 0
  | .array items => nestingItems items + 1
  | .object members => nestingMembers members + 1

def nestingItems : List Json → Nat
  | [] => 0
  | v :: rest => max (nesting v) (nestingItems rest)

def nestingMembers : List (String × Json) → Nat
  | [] => 0
  | (_, v) :: rest => max (nesting v) (nestingMembers rest)

end

mutual

/-- Whether every number in a value has one property, and the members of every object another. -/
def Everywhere (N : JsonNumber → Prop) (M : List (String × Json) → Prop) : Json → Prop
  | .null => True
  | .bool _ => True
  | .number n => N n
  | .string _ => True
  | .array items => EveryItem N M items
  | .object members => M members ∧ EveryMember N M members

def EveryItem (N : JsonNumber → Prop) (M : List (String × Json) → Prop) : List Json → Prop
  | [] => True
  | v :: rest => Everywhere N M v ∧ EveryItem N M rest

def EveryMember (N : JsonNumber → Prop) (M : List (String × Json) → Prop) :
    List (String × Json) → Prop
  | [] => True
  | (_, v) :: rest => Everywhere N M v ∧ EveryMember N M rest

end

/-- A whole number that has sixty-four bits, signed or unsigned, or any fraction. -/
def InRange : JsonNumber → Prop
  | .whole n => -(2 ^ 63) ≤ n ∧ n < 2 ^ 64
  | .fraction _ => True

def IsWhole : JsonNumber → Prop
  | .whole _ => True
  | .fraction _ => False

/-- Members in ascending order of their keys, no key twice. -/
def Ascending (members : List (String × Json)) : Prop :=
  members.Pairwise fun m n => m.1 < n.1

/-- A value that the reader can build. -/
def Canonical : Json → Prop :=
  Everywhere InRange Ascending

/-- A value without fractions in it. -/
def Fractionless : Json → Prop :=
  Everywhere IsWhole fun _ => True

/-- A value that the reader can build, and that has no fractions in it. -/
def Exact : Json → Prop :=
  Everywhere (fun n => InRange n ∧ IsWhole n) Ascending

section

variable {N N' : JsonNumber → Prop} {M M' : List (String × Json) → Prop}

mutual

theorem Everywhere.and : ∀ {v : Json}, Everywhere N M v → Everywhere N' M' v →
    Everywhere (fun n => N n ∧ N' n) (fun ms => M ms ∧ M' ms) v
  | .null, _, _ => trivial
  | .bool _, _, _ => trivial
  | .number _, h, h' => ⟨h, h'⟩
  | .string _, _, _ => trivial
  | .array _, h, h' => EveryItem.and h h'
  | .object _, h, h' => ⟨⟨h.1, h'.1⟩, EveryMember.and h.2 h'.2⟩

theorem EveryItem.and : ∀ {items : List Json}, EveryItem N M items → EveryItem N' M' items →
    EveryItem (fun n => N n ∧ N' n) (fun ms => M ms ∧ M' ms) items
  | [], _, _ => trivial
  | _ :: _, h, h' => ⟨h.1.and h'.1, EveryItem.and h.2 h'.2⟩

theorem EveryMember.and : ∀ {members : List (String × Json)}, EveryMember N M members →
    EveryMember N' M' members →
    EveryMember (fun n => N n ∧ N' n) (fun ms => M ms ∧ M' ms) members
  | [], _, _ => trivial
  | (_, _) :: _, h, h' => ⟨h.1.and h'.1, EveryMember.and h.2 h'.2⟩

end

end

theorem Canonical.exact {v : Json} (hc : v.Canonical) (hf : v.Fractionless) : v.Exact := by
  have h := Everywhere.and hc hf
  simp only [and_true] at h
  exact h

end NetProbe.Json
