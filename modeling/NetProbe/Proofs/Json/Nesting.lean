import NetProbe.Json.Writer
import NetProbe.Proofs.Json.Shape
set_option autoImplicit false

/-! # How deep a text is nested

`textNesting` counts how many brackets and braces stand open at once in a text, strings aside, and
knows nothing else of the format. Of a text that was written it is the nesting of the value:
`textNesting_compact`. -/

namespace NetProbe.Json

/-- Where in a text a scan stands. -/
inductive Place where
  | outside
  | inString
  /-- In a string, behind a backslash. -/
  | escaped

/-- The most brackets and braces that are open at once in the rest of a text, of which `level` are
    open before it. -/
def deepest : Place → Nat → List Char → Nat
  | _, level, [] => level
  | .escaped, level, _ :: cs => deepest .inString level cs
  | .inString, level, c :: cs =>
    if c = '"' then deepest .outside level cs
    else if c = '\\' then deepest .escaped level cs
    else deepest .inString level cs
  | .outside, level, c :: cs =>
    if c = '"' then deepest .inString level cs
    else if c = '[' ∨ c = '{' then deepest .outside (level + 1) cs
    else if c = ']' ∨ c = '}' then max level (deepest .outside (level - 1) cs)
    else deepest .outside level cs

/-- How deep lists and objects stand in one another in a text. -/
def textNesting (text : String) : Nat :=
  deepest .outside 0 text.toList

/-! ## One character -/

theorem le_deepest (p : Place) (level : Nat) (cs : List Char) : level ≤ deepest p level cs := by
  induction cs generalizing p level with
  | nil => cases p <;> exact Nat.le_refl level
  | cons c cs ih =>
    cases p with
    | escaped => exact ih _ _
    | inString =>
      rw [deepest]
      split
      · exact ih _ _
      · split <;> exact ih _ _
    | outside =>
      rw [deepest]
      split
      · exact ih _ _
      · split
        · exact Nat.le_trans (Nat.le_succ level) (ih _ _)
        · split
          · exact Nat.le_max_left _ _
          · exact ih _ _

/-- A character that neither opens nor closes anything. -/
def IsPlain (c : Char) : Prop :=
  c ∉ ['"', '[', '{', ']', '}']

instance (c : Char) : Decidable (IsPlain c) :=
  inferInstanceAs (Decidable (c ∉ ['"', '[', '{', ']', '}']))

theorem deepest_plain {c : Char} (h : IsPlain c) (level : Nat) (cs : List Char) :
    deepest .outside level (c :: cs) = deepest .outside level cs := by
  simp only [IsPlain, List.mem_cons, List.not_mem_nil, or_false, not_or] at h
  obtain ⟨hquote, hbracket, hbrace, hbracket', hbrace'⟩ := h
  rw [deepest, if_neg hquote, if_neg (by simp [hbracket, hbrace]),
    if_neg (by simp [hbracket', hbrace'])]

theorem deepest_append {cs : List Char} (h : ∀ c ∈ cs, IsPlain c) (level : Nat)
    (rest : List Char) : deepest .outside level (cs ++ rest) = deepest .outside level rest := by
  induction cs with
  | nil => rfl
  | cons c cs ih =>
    rw [List.cons_append, deepest_plain (h c List.mem_cons_self),
      ih fun d hd => h d (List.mem_cons_of_mem c hd)]

@[simp] theorem deepest_quote (level : Nat) (cs : List Char) :
    deepest .outside level ('"' :: cs) = deepest .inString level cs := rfl

@[simp] theorem deepest_bracket (level : Nat) (cs : List Char) :
    deepest .outside level ('[' :: cs) = deepest .outside (level + 1) cs := rfl

@[simp] theorem deepest_brace (level : Nat) (cs : List Char) :
    deepest .outside level ('{' :: cs) = deepest .outside (level + 1) cs := rfl

@[simp] theorem deepest_bracket' (level : Nat) (cs : List Char) :
    deepest .outside (level + 1) (']' :: cs) = max (level + 1) (deepest .outside level cs) := rfl

@[simp] theorem deepest_brace' (level : Nat) (cs : List Char) :
    deepest .outside (level + 1) ('}' :: cs) = max (level + 1) (deepest .outside level cs) := rfl

@[simp] theorem deepest_comma (level : Nat) (cs : List Char) :
    deepest .outside level (',' :: cs) = deepest .outside level cs := rfl

@[simp] theorem deepest_colon (level : Nat) (cs : List Char) :
    deepest .outside level (':' :: cs) = deepest .outside level cs := rfl

/-! ## Written tokens -/

theorem hexDigit_ne (n : Nat) : Text.hexDigit (n % 16) ≠ '"' ∧ Text.hexDigit (n % 16) ≠ '\\' := by
  have h : n % 16 < 16 := Nat.mod_lt n (by decide)
  revert h
  generalize n % 16 = d
  revert d
  decide

theorem deepest_hexDigit (n level : Nat) (cs : List Char) :
    deepest .inString level (Text.hexDigit (n % 16) :: cs) = deepest .inString level cs := by
  rw [deepest, if_neg (hexDigit_ne n).1, if_neg (hexDigit_ne n).2]

theorem deepest_escapeChar (c : Char) (level : Nat) (rest : List Char) :
    deepest .inString level (escapeChar c ++ rest) = deepest .inString level rest := by
  simp only [escapeChar, beq_iff_eq]
  iterate 7
    split
    · rfl
  split
  · -- A backslash, the letter `u` and four digits.
    change deepest .inString level (fourDigits c.toNat ++ rest) = _
    simp only [fourDigits, List.cons_append, List.nil_append, deepest_hexDigit]
  · next hquote hslash _ _ _ _ _ _ =>
    rw [List.cons_append, List.nil_append, deepest, if_neg hquote, if_neg hslash]

theorem deepest_writeString (s : String) (level : Nat) (rest : List Char) :
    deepest .outside level (writeString s ++ rest) = deepest .outside level rest := by
  have hchars (cs : List Char) : deepest .inString level (cs.flatMap escapeChar ++ '"' :: rest) =
      deepest .outside level rest := by
    induction cs with
    | nil => rfl
    | cons c cs ih => rw [List.flatMap_cons, List.append_assoc, deepest_escapeChar, ih]
  simp [writeString, hchars]

theorem isPlain_of_isDigit {c : Char} (h : c.isDigit = true) : IsPlain c := by
  intro hc
  simp only [List.mem_cons, List.not_mem_nil, or_false] at hc
  rcases hc with rfl | rfl | rfl | rfl | rfl <;> exact absurd h (by decide)

theorem isPlain_writeNat (n : Nat) : ∀ c ∈ writeNat n, IsPlain c := fun _ hc =>
  isPlain_of_isDigit (Nat.isDigit_of_mem_toDigits (by decide) (by decide) hc)

theorem isPlain_zeros (n : Nat) : ∀ c ∈ zeros n, IsPlain c := by
  intro c hc
  rw [List.eq_of_mem_replicate hc]
  decide

theorem isPlain_cons {c : Char} {cs : List Char} (hc : IsPlain c) (h : ∀ d ∈ cs, IsPlain d) :
    ∀ d ∈ c :: cs, IsPlain d :=
  List.forall_mem_cons.2 ⟨hc, h⟩

theorem isPlain_of_all {cs : List Char} (h : (cs.all fun c => decide (IsPlain c)) = true) :
    ∀ c ∈ cs, IsPlain c := by
  simpa only [List.all_eq_true, decide_eq_true_eq] using h

theorem isPlain_append {cs ds : List Char} (hc : ∀ c ∈ cs, IsPlain c) (hd : ∀ d ∈ ds, IsPlain d) :
    ∀ c ∈ cs ++ ds, IsPlain c :=
  List.forall_mem_append.2 ⟨hc, hd⟩

theorem isPlain_layOut (layout : FractionLayout) (d : Decimal) :
    ∀ c ∈ layOut layout d, IsPlain c := by
  have hds := isPlain_writeNat d.digits
  have hzeros := isPlain_zeros
  simp only [layOut]
  split
  · exact isPlain_append (isPlain_append hds (hzeros _)) (isPlain_of_all rfl)
  split
  · exact isPlain_append (fun c hc => hds c (List.mem_of_mem_take hc))
      (isPlain_cons (by decide) fun c hc => hds c (List.mem_of_mem_drop hc))
  split
  · exact isPlain_cons (by decide) (isPlain_cons (by decide) (isPlain_append (hzeros _) hds))
  · refine isPlain_append ?_ (isPlain_cons (by decide) (isPlain_cons ?_ (isPlain_writeNat _)))
    · split
      · exact fun c hc => absurd hc List.not_mem_nil
      · next h => rwa [h] at hds
      · next c cs _ h =>
        rw [h] at hds
        obtain ⟨hc, hcs⟩ := List.forall_mem_cons.1 hds
        exact isPlain_cons hc (isPlain_cons (by decide) hcs)
    · split <;> decide

theorem isPlain_writeNumber (n : JsonNumber) : ∀ c ∈ writeNumber n, IsPlain c := by
  cases n with
  | whole n =>
    rw [writeNumber, writeInt]
    split
    · exact isPlain_cons (by decide) (isPlain_writeNat _)
    · exact isPlain_writeNat _
  | fraction x =>
    have hsign : ∀ c ∈ (if x.isNegative then ['-'] else [] : List Char), IsPlain c := by
      split <;> exact isPlain_of_all rfl
    simp only [writeNumber, writeFraction]
    split
    · exact isPlain_append hsign (isPlain_of_all rfl)
    · exact isPlain_append hsign (isPlain_layOut _ _)

/-! ## Written values -/

mutual

theorem deepest_write : ∀ (v : Json) (level : Nat) (rest : List Char),
    deepest .outside level (write v ++ rest) = max (level + nesting v) (deepest .outside level rest)
  | .null, level, rest => (Nat.max_eq_right (le_deepest _ level rest)).symm
  | .bool true, level, rest => (Nat.max_eq_right (le_deepest _ level rest)).symm
  | .bool false, level, rest => (Nat.max_eq_right (le_deepest _ level rest)).symm
  | .number n, level, rest => by
    rw [write, deepest_append (isPlain_writeNumber n), nesting, Nat.add_zero,
      Nat.max_eq_right (le_deepest _ level rest)]
  | .string s, level, rest => by
    rw [write, deepest_writeString, nesting, Nat.add_zero,
      Nat.max_eq_right (le_deepest _ level rest)]
  | .array items, level, rest => by
    simp only [write, List.cons_append, List.append_assoc, List.nil_append, deepest_bracket,
      deepest_writeItems items, deepest_bracket', nesting]
    omega
  | .object members, level, rest => by
    simp only [write, List.cons_append, List.append_assoc, List.nil_append, deepest_brace,
      deepest_writeMembers members, deepest_brace', nesting]
    omega

theorem deepest_writeItems : ∀ (items : List Json) (level : Nat) (rest : List Char),
    deepest .outside level (writeItems items ++ rest) =
      max (level + nestingItems items) (deepest .outside level rest)
  | [], level, rest => (Nat.max_eq_right (le_deepest _ level rest)).symm
  | [v], level, rest => by
    rw [writeItems, deepest_write v, nestingItems, nestingItems, Nat.max_zero]
  | v :: w :: items, level, rest => by
    rw [writeItems, List.append_assoc, deepest_write v, List.cons_append, deepest_comma,
      deepest_writeItems (w :: items)]
    · simp only [nestingItems]
      omega
    · simp

theorem deepest_writeMembers : ∀ (members : List (String × Json)) (level : Nat) (rest : List Char),
    deepest .outside level (writeMembers members ++ rest) =
      max (level + nestingMembers members) (deepest .outside level rest)
  | [], level, rest => (Nat.max_eq_right (le_deepest _ level rest)).symm
  | [(k, v)], level, rest => by
    rw [writeMembers, List.append_assoc, deepest_writeString, List.cons_append, deepest_colon,
      deepest_write v, nestingMembers, nestingMembers, Nat.max_zero]
  | (k, v) :: m :: members, level, rest => by
    rw [writeMembers, List.append_assoc, List.append_assoc, deepest_writeString, List.cons_append,
      deepest_colon, deepest_write v, List.cons_append, deepest_comma,
      deepest_writeMembers (m :: members)]
    · simp only [nestingMembers]
      omega
    · simp

end

theorem textNesting_compact (v : Json) : textNesting v.compact = nesting v := by
  have h := deepest_write v 0 []
  rw [List.append_nil] at h
  rw [textNesting, compact, String.toList_ofList, h, deepest, Nat.zero_add, Nat.max_zero]

end NetProbe.Json
