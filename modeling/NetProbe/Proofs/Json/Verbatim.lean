import Mathlib.Data.List.DropRight
import NetProbe.Proofs.Json.Skipping
import NetProbe.Proofs.Results
set_option autoImplicit false

/-! # Values as they stand in a text

`readVerbatim` reads a value and keeps the members of its objects as they stand, in their order and
with repeated keys. The reader of values keeps one value of each key, in ascending order, and is the
same otherwise: `readValue_eq`. So a text tells whether an object in it repeats a key, which its
value no longer does: `KeysOnce`.

`Reads` lists the ways in which a value is read, by the character that it starts with. More fuel
than enough changes nothing (`readVerbatim_mono`), and what can be read can be skipped
(`skipValue_of_readVerbatim`). -/

namespace NetProbe.Json

/-! ## Reading -/

mutual

/-- A value, with the members of its objects as they stand. -/
def readVerbatim (fuel depth : Nat) (cs : List Char) : Except ReadError (Json × List Char) :=
  match fuel with
  | 0 => .error .endInValue
  | fuel + 1 =>
    match skipBlank cs with
    | [] => .error .endInValue
    | 'n' :: rest => do
      let rest ← readWord ['u', 'l', 'l'] rest
      return (.null, rest)
    | 't' :: rest => do
      let rest ← readWord ['r', 'u', 'e'] rest
      return (.bool true, rest)
    | 'f' :: rest => do
      let rest ← readWord ['a', 'l', 's', 'e'] rest
      return (.bool false, rest)
    | '"' :: rest => do
      let (s, rest) ← readString rest
      return (.string s, rest)
    | '[' :: rest =>
      match depth with
      | 0 | 1 => .error .tooDeep
      | depth + 1 => do
        let (items, rest) ← readVerbatimItems fuel depth true rest
        let rest ← endList rest
        return (.array items, rest)
    | '\x7b' :: rest =>
      match depth with
      | 0 | 1 => .error .tooDeep
      | depth + 1 => do
        let (members, rest) ← readVerbatimMembers fuel depth true rest
        let rest ← endObject rest
        return (.object members, rest)
    | c :: rest =>
      if c == '-' || c.isDigit then do
        let (n, rest) ← readNumber (c :: rest)
        return (.number n, rest)
      else .error .expectedValue

/-- The items of a list up to its closing bracket. -/
def readVerbatimItems (fuel depth : Nat) (first : Bool) (cs : List Char) :
    Except ReadError (List Json × List Char) :=
  match fuel with
  | 0 => .error .endInValue
  | fuel + 1 => do
    let (more, rest) ← nextItem first cs
    if more then
      let (v, rest) ← readVerbatim fuel depth rest
      let (vs, rest) ← readVerbatimItems fuel depth false rest
      return (v :: vs, rest)
    else return ([], rest)

/-- The members of an object up to its closing brace. -/
def readVerbatimMembers (fuel depth : Nat) (first : Bool) (cs : List Char) :
    Except ReadError (List (String × Json) × List Char) :=
  match fuel with
  | 0 => .error .endInValue
  | fuel + 1 => do
    let (more, rest) ← nextKey first cs
    if more then
      let (key, rest) ← readString rest
      let rest ← readColon rest
      let (v, rest) ← readVerbatim fuel depth rest
      let (ms, rest) ← readVerbatimMembers fuel depth false rest
      return ((key, v) :: ms, rest)
    else return ([], rest)

end

/-- The value that a text holds, as it stands. -/
def parseVerbatim (text : String) : Except ReadError Json := do
  let cs := text.toList
  let (v, rest) ← readVerbatim (fuelFor cs) depthLimit cs
  expectEnd rest
  return v

mutual

/-- The value that a reader keeps: of every object, the last value of each key, in ascending order
    of the keys. -/
def collapse : Json → Json
  | .null => .null
  | .bool b => .bool b
  | .number n => .number n
  | .string s => .string s
  | .array items => .array (collapseItems items)
  | .object members => ofMembers (collapseMembers members)

def collapseItems : List Json → List Json
  | [] => []
  | v :: rest => collapse v :: collapseItems rest

def collapseMembers : List (String × Json) → List (String × Json)
  | [] => []
  | (key, v) :: rest => (key, collapse v) :: collapseMembers rest

end

/-- Whether no two members have the same key. -/
def DistinctKeys (members : List (String × Json)) : Prop :=
  (members.map Prod.fst).Nodup

/-- Whether no object in a value repeats a key. -/
def Unrepeated : Json → Prop :=
  Everywhere (fun _ => True) DistinctKeys

/-- Whether a text holds a value in which no object repeats a key. -/
def KeysOnce (text : String) : Prop :=
  ∃ v, parseVerbatim text = .ok v ∧ v.Unrepeated

theorem keys_collapseMembers (members : List (String × Json)) :
    (collapseMembers members).map Prod.fst = members.map Prod.fst := by
  induction members with
  | nil => rfl
  | cons m members ih =>
    rw [collapseMembers, List.map_cons, List.map_cons, ih]

/-! ## The two readers -/

mutual

theorem readValue_eq : ∀ (fuel depth : Nat) (cs : List Char), readValue fuel depth cs =
    (readVerbatim fuel depth cs).map fun r => (r.1.collapse, r.2)
  | 0, _, _ => rfl
  | fuel + 1, depth, cs => by
    -- Either reader looks at the first character, which tells what to read.
    rcases hstart : skipBlank cs with _ | ⟨c, body⟩
    · rw [readValue, readVerbatim, hstart]
      rfl
    by_cases hn : c = 'n'
    · subst hn
      rw [readValue, readVerbatim, hstart]
      change (readWord _ body >>= _) = Except.map _ (readWord _ body >>= _)
      cases readWord ['u', 'l', 'l'] body <;> rfl
    by_cases ht : c = 't'
    · subst ht
      rw [readValue, readVerbatim, hstart]
      change (readWord _ body >>= _) = Except.map _ (readWord _ body >>= _)
      cases readWord ['r', 'u', 'e'] body <;> rfl
    by_cases hf : c = 'f'
    · subst hf
      rw [readValue, readVerbatim, hstart]
      change (readWord _ body >>= _) = Except.map _ (readWord _ body >>= _)
      cases readWord ['a', 'l', 's', 'e'] body <;> rfl
    by_cases hquote : c = '"'
    · subst hquote
      rw [readValue, readVerbatim, hstart]
      change (readString body >>= _) = Except.map _ (readString body >>= _)
      cases readString body <;> rfl
    by_cases hlist : c = '['
    · subst hlist
      rw [readValue, readVerbatim, hstart]
      match depth with
      | 0 => rfl
      | 1 => rfl
      | depth + 2 =>
        change (readItems fuel (depth + 1) true body >>= _) =
          Except.map _ (readVerbatimItems fuel (depth + 1) true body >>= _)
        rw [readItems_eq]
        cases readVerbatimItems fuel (depth + 1) true body with
        | error e => rfl
        | ok r =>
          change (endList r.2 >>= _) = Except.map _ (endList r.2 >>= _)
          cases endList r.2 <;> rfl
    by_cases hobject : c = '\x7b'
    · subst hobject
      rw [readValue, readVerbatim, hstart]
      match depth with
      | 0 => rfl
      | 1 => rfl
      | depth + 2 =>
        change (readMembers fuel (depth + 1) true body >>= _) =
          Except.map _ (readVerbatimMembers fuel (depth + 1) true body >>= _)
        rw [readMembers_eq]
        cases readVerbatimMembers fuel (depth + 1) true body with
        | error e => rfl
        | ok r =>
          change (endObject r.2 >>= _) = Except.map _ (endObject r.2 >>= _)
          cases endObject r.2 <;> rfl
    simp only [readValue, readVerbatim, hstart]
    split
    · cases readNumber (c :: body) <;> rfl
    · rfl

theorem readItems_eq : ∀ (fuel depth : Nat) (first : Bool) (cs : List Char),
    readItems fuel depth first cs =
      (readVerbatimItems fuel depth first cs).map fun r => (collapseItems r.1, r.2)
  | 0, _, _, _ => rfl
  | fuel + 1, depth, first, cs => by
    rw [readItems, readVerbatimItems]
    cases nextItem first cs with
    | error e => rfl
    | ok r =>
      obtain ⟨more, rest⟩ := r
      cases more with
      | false => rfl
      | true =>
        change (readValue fuel depth rest >>= _) =
          Except.map _ (readVerbatim fuel depth rest >>= _)
        rw [readValue_eq]
        cases readVerbatim fuel depth rest with
        | error e => rfl
        | ok r =>
          change (readItems fuel depth false r.2 >>= _) =
            Except.map _ (readVerbatimItems fuel depth false r.2 >>= _)
          rw [readItems_eq]
          cases readVerbatimItems fuel depth false r.2 <;> rfl

theorem readMembers_eq : ∀ (fuel depth : Nat) (first : Bool) (cs : List Char),
    readMembers fuel depth first cs =
      (readVerbatimMembers fuel depth first cs).map fun r => (collapseMembers r.1, r.2)
  | 0, _, _, _ => rfl
  | fuel + 1, depth, first, cs => by
    rw [readMembers, readVerbatimMembers]
    cases nextKey first cs with
    | error e => rfl
    | ok r =>
      obtain ⟨more, rest⟩ := r
      cases more with
      | false => rfl
      | true =>
        change (readString rest >>= _) = Except.map _ (readString rest >>= _)
        cases readString rest with
        | error e => rfl
        | ok r =>
          change (readColon r.2 >>= _) = Except.map _ (readColon r.2 >>= _)
          cases readColon r.2 with
          | error e => rfl
          | ok rest =>
            change (readValue fuel depth rest >>= _) =
              Except.map _ (readVerbatim fuel depth rest >>= _)
            rw [readValue_eq]
            cases readVerbatim fuel depth rest with
            | error e => rfl
            | ok r =>
              change (readMembers fuel depth false r.2 >>= _) =
                Except.map _ (readVerbatimMembers fuel depth false r.2 >>= _)
              rw [readMembers_eq]
              cases readVerbatimMembers fuel depth false r.2 <;> rfl

end

/-- The value that a text holds is what is kept of the one that stands in it. -/
theorem parse_eq (text : String) : parse text = (parseVerbatim text).map collapse := by
  rw [parse, parseVerbatim]
  dsimp only
  rw [readValue_eq]
  cases readVerbatim (fuelFor text.toList) depthLimit text.toList with
  | error e => rfl
  | ok r =>
    change (expectEnd r.2 >>= _) = Except.map _ (expectEnd r.2 >>= _)
    cases expectEnd r.2 <;> rfl

/-! ## How a value is read -/

/-- Whether a value is neither a text nor a list nor an object. -/
def IsPlainValue : Json → Prop
  | .null | .bool _ | .number _ => True
  | _ => False

/-- The ways in which a value is read. -/
inductive Reads (fuel depth : Nat) (cs rest : List Char) : Json → Prop
  /-- A word or a number is read whatever the fuel and the depth, and skipped as well. -/
  | plain {c : Char} {body : List Char} {v : Json} (start : skipBlank cs = c :: body)
      (quote : c ≠ '"') (list : c ≠ '[') (object : c ≠ '\x7b') (value : IsPlainValue v)
      (read : ∀ k d, readVerbatim (k + 1) d cs = .ok (v, rest))
      (skip : ∀ k, skipValue (k + 1) cs = .ok rest) : Reads fuel depth cs rest v
  | text {body : List Char} {s : String} (start : skipBlank cs = '"' :: body)
      (read : readString body = .ok (s, rest)) : Reads fuel depth cs rest (.string s)
  | list {d : Nat} {body mid : List Char} {items : List Json} (start : skipBlank cs = '[' :: body)
      (deep : depth = d + 2) (read : readVerbatimItems fuel (d + 1) true body = .ok (items, mid))
      (close : endList mid = .ok rest) : Reads fuel depth cs rest (.array items)
  | object {d : Nat} {body mid : List Char} {members : List (String × Json)}
      (start : skipBlank cs = '\x7b' :: body) (deep : depth = d + 2)
      (read : readVerbatimMembers fuel (d + 1) true body = .ok (members, mid))
      (close : endObject mid = .ok rest) : Reads fuel depth cs rest (.object members)

section

variable {fuel depth : Nat} {cs rest : List Char} {v : Json}

theorem Reads.of_word {c : Char} {ws body : List Char} (hstart : skipBlank cs = c :: body)
    (hword : readWord ws body = .ok rest) (hv : IsPlainValue v)
    (hc : (c, ws, v) ∈ [('n', ['u', 'l', 'l'], Json.null), ('t', ['r', 'u', 'e'], .bool true),
      ('f', ['a', 'l', 's', 'e'], .bool false)]) : Reads fuel depth cs rest v := by
  simp only [List.mem_cons, Prod.mk.injEq, List.not_mem_nil, or_false] at hc
  rcases hc with ⟨rfl, rfl, rfl⟩ | ⟨rfl, rfl, rfl⟩ | ⟨rfl, rfl, rfl⟩
  all_goals
    refine .plain hstart (by decide) (by decide) (by decide) hv (fun k d => ?_) fun k => ?_
    · rw [readVerbatim, hstart]
      change (readWord _ body >>= _) = _
      rw [hword]
      rfl
    · rw [skipValue, hstart]
      exact hword

/-- A number starts with another character than any other value. -/
theorem ne_of_starts_number {c d : Char} (hc : (c == '-' || c.isDigit) = true)
    (hd : (d == '-' || d.isDigit) = false) : c ≠ d := by
  intro heq
  rw [heq, hd] at hc
  cases hc

theorem Reads.of_number {c : Char} {body : List Char} {n : JsonNumber}
    (hstart : skipBlank cs = c :: body) (hc : (c == '-' || c.isDigit) = true)
    (hnumber : readNumber (c :: body) = .ok (n, rest)) :
    Reads fuel depth cs rest (.number n) := by
  have hn : c = 'n' → False := ne_of_starts_number hc (by decide)
  have ht : c = 't' → False := ne_of_starts_number hc (by decide)
  have hf : c = 'f' → False := ne_of_starts_number hc (by decide)
  have hquote : c = '"' → False := ne_of_starts_number hc (by decide)
  have hlist : c = '[' → False := ne_of_starts_number hc (by decide)
  have hobject : c = '{' → False := ne_of_starts_number hc (by decide)
  refine .plain hstart hquote hlist hobject trivial (fun k d => ?_) fun k => ?_
  · simp only [readVerbatim, hstart, if_pos hc, hnumber]
    rfl
  · rw [readNumber.eq_def] at hnumber
    split at hnumber
    · next heq =>
      obtain ⟨rfl, rfl⟩ := List.cons.inj heq
      rw [skipValue, hstart]
      exact skipUnsigned_of_readUnsigned hnumber
    · next hne =>
      have hminus : c = '-' → False := fun heq => hne body (by rw [heq])
      have hdigit : c.isDigit = true := by
        rw [Bool.or_eq_true, beq_iff_eq] at hc
        exact hc.resolve_left hminus
      simp only [skipValue, hstart, if_pos hdigit]
      exact skipUnsigned_of_readUnsigned hnumber

theorem reads_of_readVerbatim (h : readVerbatim (fuel + 1) depth cs = .ok (v, rest)) :
    Reads fuel depth cs rest v := by
  rw [readVerbatim.eq_def] at h
  dsimp only at h
  split at h
  · cases h
  · next hstart =>
    obtain ⟨rest, hword, h⟩ := bind_eq_ok_iff.1 h
    cases h
    exact .of_word hstart hword trivial (by simp)
  · next hstart =>
    obtain ⟨rest, hword, h⟩ := bind_eq_ok_iff.1 h
    cases h
    exact .of_word hstart hword trivial (by simp)
  · next hstart =>
    obtain ⟨rest, hword, h⟩ := bind_eq_ok_iff.1 h
    cases h
    exact .of_word hstart hword trivial (by simp)
  · next hstart =>
    obtain ⟨⟨s, rest⟩, hstring, h⟩ := bind_eq_ok_iff.1 h
    cases h
    exact .text hstart hstring
  · next hstart =>
    match depth with
    | 0 => cases h
    | 1 => cases h
    | d + 2 =>
      obtain ⟨⟨items, mid⟩, hitems, h⟩ := bind_eq_ok_iff.1 h
      obtain ⟨rest, hclose, h⟩ := bind_eq_ok_iff.1 h
      cases h
      exact .list hstart rfl hitems hclose
  · next hstart =>
    match depth with
    | 0 => cases h
    | 1 => cases h
    | d + 2 =>
      obtain ⟨⟨members, mid⟩, hmembers, h⟩ := bind_eq_ok_iff.1 h
      obtain ⟨rest, hclose, h⟩ := bind_eq_ok_iff.1 h
      cases h
      exact .object hstart rfl hmembers hclose
  · next c body _ _ _ _ _ _ hstart =>
    split at h
    · next hc =>
      obtain ⟨⟨n, rest⟩, hnumber, h⟩ := bind_eq_ok_iff.1 h
      cases h
      exact .of_number hstart hc hnumber
    · cases h

theorem readVerbatim_of_reads (h : Reads fuel depth cs rest v) :
    readVerbatim (fuel + 1) depth cs = .ok (v, rest) := by
  cases h with
  | plain _ _ _ _ _ hread _ => exact hread fuel depth
  | text hstart hread =>
    rw [readVerbatim, hstart]
    change (readString _ >>= _) = _
    rw [hread]
    rfl
  | list hstart hdeep hread hclose =>
    rw [hdeep, readVerbatim, hstart]
    change (readVerbatimItems _ _ _ _ >>= _) = _
    rw [hread]
    change (endList _ >>= _) = _
    rw [hclose]
    rfl
  | object hstart hdeep hread hclose =>
    rw [hdeep, readVerbatim, hstart]
    change (readVerbatimMembers _ _ _ _ >>= _) = _
    rw [hread]
    change (endObject _ >>= _) = _
    rw [hclose]
    rfl

/-- The items of a list are read one by one. -/
theorem readVerbatimItems_iff {first : Bool} {items : List Json} :
    readVerbatimItems (fuel + 1) depth first cs = .ok (items, rest) ↔
      (items = [] ∧ nextItem first cs = .ok (false, rest)) ∨
      ∃ v vs body mid, items = v :: vs ∧ nextItem first cs = .ok (true, body) ∧
        readVerbatim fuel depth body = .ok (v, mid) ∧
        readVerbatimItems fuel depth false mid = .ok (vs, rest) := by
  rw [readVerbatimItems]
  constructor
  · intro h
    obtain ⟨⟨more, body⟩, hnext, h⟩ := bind_eq_ok_iff.1 h
    cases more with
    | false =>
      cases h
      exact .inl ⟨rfl, hnext⟩
    | true =>
      obtain ⟨⟨v, mid⟩, hv, h⟩ := bind_eq_ok_iff.1 h
      obtain ⟨⟨vs, rest⟩, hvs, h⟩ := bind_eq_ok_iff.1 h
      cases h
      exact .inr ⟨v, vs, body, mid, rfl, hnext, hv, hvs⟩
  · rintro (⟨rfl, hnext⟩ | ⟨v, vs, body, mid, rfl, hnext, hv, hvs⟩)
    · rw [hnext]
      rfl
    · rw [hnext]
      change (readVerbatim fuel depth body >>= _) = _
      rw [hv]
      change (readVerbatimItems fuel depth false mid >>= _) = _
      rw [hvs]
      rfl

/-- The members of an object are read one by one, each key before its value. -/
theorem readVerbatimMembers_iff {first : Bool} {members : List (String × Json)} :
    readVerbatimMembers (fuel + 1) depth first cs = .ok (members, rest) ↔
      (members = [] ∧ nextKey first cs = .ok (false, rest)) ∨
      ∃ key v ms body colon value mid, members = (key, v) :: ms ∧
        nextKey first cs = .ok (true, body) ∧ readString body = .ok (key, colon) ∧
        readColon colon = .ok value ∧ readVerbatim fuel depth value = .ok (v, mid) ∧
        readVerbatimMembers fuel depth false mid = .ok (ms, rest) := by
  rw [readVerbatimMembers]
  constructor
  · intro h
    obtain ⟨⟨more, body⟩, hnext, h⟩ := bind_eq_ok_iff.1 h
    cases more with
    | false =>
      cases h
      exact .inl ⟨rfl, hnext⟩
    | true =>
      obtain ⟨⟨key, colon⟩, hkey, h⟩ := bind_eq_ok_iff.1 h
      obtain ⟨value, hcolon, h⟩ := bind_eq_ok_iff.1 h
      obtain ⟨⟨v, mid⟩, hv, h⟩ := bind_eq_ok_iff.1 h
      obtain ⟨⟨ms, rest⟩, hms, h⟩ := bind_eq_ok_iff.1 h
      cases h
      exact .inr ⟨key, v, ms, body, colon, value, mid, rfl, hnext, hkey, hcolon, hv, hms⟩
  · rintro (⟨rfl, hnext⟩ | ⟨key, v, ms, body, colon, value, mid, rfl, hnext, hkey, hcolon, hv, hms⟩)
    · rw [hnext]
      rfl
    · rw [hnext]
      change (readString body >>= _) = _
      rw [hkey]
      change (readColon colon >>= _) = _
      rw [hcolon]
      change (readVerbatim fuel depth value >>= _) = _
      rw [hv]
      change (readVerbatimMembers fuel depth false mid >>= _) = _
      rw [hms]
      rfl

end

/-! ## More fuel -/

mutual

theorem readVerbatim_mono : ∀ {fuel more depth : Nat} {cs rest : List Char} {v : Json},
    readVerbatim fuel depth cs = .ok (v, rest) → fuel ≤ more →
    readVerbatim more depth cs = .ok (v, rest)
  | 0, _, _, _, _, _, h, _ => by cases h
  | _ + 1, 0, _, _, _, _, _, hle => absurd hle (Nat.not_succ_le_zero _)
  | fuel + 1, more + 1, depth, cs, rest, v, h, hle => by
    have hle := Nat.le_of_succ_le_succ hle
    refine readVerbatim_of_reads ?_
    cases reads_of_readVerbatim h with
    | plain hstart hquote hlist hobject hv hread hskip =>
      exact .plain hstart hquote hlist hobject hv hread hskip
    | text hstart hread => exact .text hstart hread
    | list hstart hdeep hread hclose =>
      exact .list hstart hdeep (readVerbatimItems_mono hread hle) hclose
    | object hstart hdeep hread hclose =>
      exact .object hstart hdeep (readVerbatimMembers_mono hread hle) hclose

theorem readVerbatimItems_mono : ∀ {fuel more depth : Nat} {first : Bool} {cs rest : List Char}
    {items : List Json}, readVerbatimItems fuel depth first cs = .ok (items, rest) → fuel ≤ more →
    readVerbatimItems more depth first cs = .ok (items, rest)
  | 0, _, _, _, _, _, _, h, _ => by cases h
  | _ + 1, 0, _, _, _, _, _, _, hle => absurd hle (Nat.not_succ_le_zero _)
  | fuel + 1, more + 1, depth, first, cs, rest, items, h, hle => by
    have hle := Nat.le_of_succ_le_succ hle
    refine readVerbatimItems_iff.2 ?_
    rcases readVerbatimItems_iff.1 h with hnil | ⟨v, vs, body, mid, hitems, hnext, hv, hvs⟩
    · exact .inl hnil
    · exact .inr ⟨v, vs, body, mid, hitems, hnext, readVerbatim_mono hv hle,
        readVerbatimItems_mono hvs hle⟩

theorem readVerbatimMembers_mono : ∀ {fuel more depth : Nat} {first : Bool}
    {cs rest : List Char} {members : List (String × Json)},
    readVerbatimMembers fuel depth first cs = .ok (members, rest) → fuel ≤ more →
    readVerbatimMembers more depth first cs = .ok (members, rest)
  | 0, _, _, _, _, _, _, h, _ => by cases h
  | _ + 1, 0, _, _, _, _, _, _, hle => absurd hle (Nat.not_succ_le_zero _)
  | fuel + 1, more + 1, depth, first, cs, rest, members, h, hle => by
    have hle := Nat.le_of_succ_le_succ hle
    refine readVerbatimMembers_iff.2 ?_
    rcases readVerbatimMembers_iff.1 h with
      hnil | ⟨key, v, ms, body, colon, value, mid, hmembers, hnext, hkey, hcolon, hv, hms⟩
    · exact .inl hnil
    · exact .inr ⟨key, v, ms, body, colon, value, mid, hmembers, hnext, hkey, hcolon,
        readVerbatim_mono hv hle, readVerbatimMembers_mono hms hle⟩

end

/-- The value that is kept is read with any fuel that is enough. -/
theorem readValue_of_readVerbatim {fuel more depth : Nat} {cs rest : List Char} {v : Json}
    (h : readVerbatim fuel depth cs = .ok (v, rest)) (hle : fuel ≤ more) :
    readValue more depth cs = .ok (v.collapse, rest) := by
  rw [readValue_eq, readVerbatim_mono h hle]
  rfl

/-! ## Skipping

Skipping takes a step more for each member of an object, so twice the fuel is enough. -/

theorem skipBlank_of_eq_cons {cs rest : List Char} {c : Char} (h : skipBlank cs = c :: rest) :
    skipBlank (c :: rest) = c :: rest := by
  rw [← h]
  exact List.dropWhile_idempotent isBlank cs

theorem skipValue_congr {cs ds : List Char} (h : skipBlank cs = skipBlank ds) (fuel : Nat) :
    skipValue fuel cs = skipValue fuel ds := by
  cases fuel with
  | zero => rfl
  | succ fuel => simp only [skipValue, h]

section

variable {fuel : Nat} {first : Bool} {cs body mid rest : List Char}

/-- Where no item follows, the list ends. -/
theorem skipItems_of_nextItem_false (hnext : nextItem first cs = .ok (false, mid))
    (hclose : endList mid = .ok rest) : skipItems (fuel + 1) first cs = .ok rest := by
  revert hnext
  fun_cases nextItem first cs with
  | case2 c ds hstart hc =>
    intro hnext
    cases hnext
    rw [endList, skipBlank_of_eq_cons hstart] at hclose
    dsimp only at hclose
    rw [if_pos hc] at hclose
    rw [skipItems, hstart]
    dsimp only
    rw [if_pos hc, hclose]
  | _ =>
    intro h
    cases h

theorem skipItems_of_nextItem_true (hnext : nextItem first cs = .ok (true, body)) :
    skipItems (fuel + 1) first cs = (do
      let rest ← skipValue fuel body
      skipItems fuel false rest) := by
  revert hnext
  fun_cases nextItem first cs with
  | case3 c ds hstart hc hfirst =>
    intro hnext
    cases hnext
    rw [skipItems, hstart]
    dsimp only
    rw [if_neg hc, if_pos hfirst]
  | case6 c ds hstart hc hfirst hcomma d ds' hstart' hd =>
    intro hnext
    cases hnext
    have hcongr := skipValue_congr (hstart'.trans (skipBlank_of_eq_cons hstart').symm) fuel
    rw [skipItems, hstart]
    dsimp only
    rw [if_neg hc, if_neg hfirst, if_pos hcomma, hcongr]
  | _ =>
    intro h
    cases h

theorem skipMembers_of_nextKey_false (hnext : nextKey first cs = .ok (false, mid))
    (hclose : endObject mid = .ok rest) : skipMembers (fuel + 1) first cs = .ok rest := by
  revert hnext
  fun_cases nextKey first cs with
  | case2 c ds hstart hc =>
    intro hnext
    cases hnext
    rw [endObject, skipBlank_of_eq_cons hstart] at hclose
    dsimp only at hclose
    rw [if_pos hc] at hclose
    rw [skipMembers, hstart]
    dsimp only
    rw [if_pos hc, hclose]
  | _ =>
    intro h
    cases h

theorem skipMember_of_start (hstart : skipBlank cs = '"' :: body) :
    skipMember (fuel + 1) cs = (do
      let rest ← skipString body
      let rest ← readColon rest
      let rest ← skipValue fuel rest
      skipMembers fuel false rest) := by
  rw [skipMember, hstart]
  rfl

theorem skipMembers_of_nextKey_true (hnext : nextKey first cs = .ok (true, body)) :
    skipMembers (fuel + 2) first cs = (do
      let rest ← skipString body
      let rest ← readColon rest
      let rest ← skipValue fuel rest
      skipMembers fuel false rest) := by
  revert hnext
  fun_cases nextKey first cs with
  | case3 c ds hstart hc hfirst hquote =>
    intro hnext
    cases hnext
    rw [skipMembers, hstart]
    dsimp only
    rw [eq_of_beq hquote] at hstart hc ⊢
    rw [if_neg hc, if_pos hfirst, skipMember_of_start (skipBlank_of_eq_cons hstart)]
  | case6 c ds hstart hc hfirst hcomma d ds' hstart' hquote =>
    intro hnext
    cases hnext
    rw [skipMembers, hstart]
    dsimp only
    rw [eq_of_beq hquote] at hstart'
    rw [if_neg hc, if_neg hfirst, if_pos hcomma, skipMember_of_start hstart']
  | _ =>
    intro h
    cases h

end

mutual

theorem skipValue_of_readVerbatim : ∀ {fuel more depth : Nat} {cs rest : List Char} {v : Json},
    readVerbatim fuel depth cs = .ok (v, rest) → 2 * fuel ≤ more → skipValue more cs = .ok rest
  | 0, _, _, _, _, _, h, _ => by cases h
  | fuel + 1, more, depth, cs, rest, v, h, hle => by
    obtain ⟨more, rfl⟩ : ∃ k, more = k + 1 := ⟨more - 1, by omega⟩
    cases reads_of_readVerbatim h with
    | plain _ _ _ _ _ _ hskip => exact hskip more
    | text hstart hread =>
      rw [skipValue, hstart]
      exact skipString_of_readString hread
    | list hstart _ hread hclose =>
      rw [skipValue, hstart]
      exact skipItems_of_readVerbatim hread hclose (by omega)
    | object hstart _ hread hclose =>
      rw [skipValue, hstart]
      exact skipMembers_of_readVerbatim hread hclose (by omega)

theorem skipItems_of_readVerbatim : ∀ {fuel more depth : Nat} {first : Bool}
    {cs mid rest : List Char} {items : List Json},
    readVerbatimItems fuel depth first cs = .ok (items, mid) → endList mid = .ok rest →
    2 * fuel ≤ more → skipItems more first cs = .ok rest
  | 0, _, _, _, _, _, _, _, h, _, _ => by cases h
  | fuel + 1, more, depth, first, cs, mid, rest, items, h, hclose, hle => by
    obtain ⟨more, rfl⟩ : ∃ k, more = k + 1 := ⟨more - 1, by omega⟩
    rcases readVerbatimItems_iff.1 h with ⟨-, hnext⟩ | ⟨v, vs, body, mid', -, hnext, hv, hvs⟩
    · exact skipItems_of_nextItem_false hnext hclose
    · rw [skipItems_of_nextItem_true hnext, skipValue_of_readVerbatim hv (by omega), ok_bind]
      exact skipItems_of_readVerbatim hvs hclose (by omega)

theorem skipMembers_of_readVerbatim : ∀ {fuel more depth : Nat} {first : Bool}
    {cs mid rest : List Char} {members : List (String × Json)},
    readVerbatimMembers fuel depth first cs = .ok (members, mid) → endObject mid = .ok rest →
    2 * fuel ≤ more → skipMembers more first cs = .ok rest
  | 0, _, _, _, _, _, _, _, h, _, _ => by cases h
  | fuel + 1, more, depth, first, cs, mid, rest, members, h, hclose, hle => by
    obtain ⟨more, rfl⟩ : ∃ k, more = k + 2 := ⟨more - 2, by omega⟩
    rcases readVerbatimMembers_iff.1 h with
      ⟨-, hnext⟩ | ⟨key, v, ms, body, colon, value, mid', -, hnext, hkey, hcolon, hv, hms⟩
    · exact skipMembers_of_nextKey_false hnext hclose
    · rw [skipMembers_of_nextKey_true hnext, skipString_of_readString hkey, ok_bind, hcolon,
        ok_bind, skipValue_of_readVerbatim hv (by omega), ok_bind]
      exact skipMembers_of_readVerbatim hms hclose (by omega)

end

end NetProbe.Json
