import Mathlib.Algebra.Group.Int.Defs
import NetProbe.Json.Reader
set_option autoImplicit false

/-! # Tokens are read back

A string or a whole number that was written is read back exactly, whatever follows the string and
whatever may follow the number in a written text (`Ends`): `readString_writeString` and
`readNumber_writeInt`. -/

namespace NetProbe.Json

/-! ## Characters -/

theorem isDigit_iff {c : Char} : c.isDigit = true ↔ 48 ≤ c.toNat ∧ c.toNat ≤ 57 := by
  simp only [Char.isDigit, Bool.and_eq_true, decide_eq_true_eq, ge_iff_le, UInt32.le_iff_toNat_le]
  rfl

theorem isBlank_eq_false {c : Char} (h : 0x20 < c.toNat) : isBlank c = false := by
  cases hc : isBlank c with
  | false => rfl
  | true =>
    simp only [isBlank, Bool.or_eq_true, beq_iff_eq] at hc
    rcases hc with ((rfl | rfl) | rfl) | rfl <;> revert h <;> decide

theorem skipBlank_cons {c : Char} (h : isBlank c = false) (cs : List Char) :
    skipBlank (c :: cs) = c :: cs := by
  rw [skipBlank, List.dropWhile_cons, h]
  rfl

/-- What may follow a value in a written text: nothing that a number would take in. -/
def Ends : List Char → Prop
  | [] => True
  | c :: _ => c = ',' ∨ c = ']' ∨ c = '}'

theorem Ends.isDigit {c : Char} {cs : List Char} (h : Ends (c :: cs)) : c.isDigit = false := by
  rcases h with rfl | rfl | rfl <;> rfl

/-! ## Strings -/

theorem hexUnit?_fourDigits {n : Nat} (h : n < 0x20) :
    hexUnit? (Text.hexDigit (n / 4096 % 16)) (Text.hexDigit (n / 256 % 16))
      (Text.hexDigit (n / 16 % 16)) (Text.hexDigit (n % 16)) = some n := by
  revert n
  decide

/-- A character that needs no escape stands for itself. -/
theorem readChars_plain {c : Char} (hquote : c ≠ '"') (hslash : c ≠ '\\') (h : 0x20 ≤ c.toNat)
    (cs : List Char) : readChars (c :: cs) = consRead c (readChars cs) := by
  have hplain : ¬ c.toNat < 0x20 := Nat.not_lt.2 h
  rw [readChars, if_neg hplain] <;> simp_all

theorem readChars_escapeChar (c : Char) (cs : List Char) :
    readChars (escapeChar c ++ cs) = consRead c (readChars cs) := by
  simp only [escapeChar, beq_iff_eq]
  -- The escapes of two characters first, in the order in which the writer tries them.
  split
  · next h => rw [h]; rfl
  split
  · next h => rw [h]; rfl
  split
  · next h => rw [h]; rfl
  split
  · next h => rw [h]; rfl
  split
  · next h => rw [h]; rfl
  split
  · next h => rw [h]; rfl
  split
  · next h => rw [h]; rfl
  split
  · next h =>
    have hlow : isLowSurrogate c.toNat = false := by
      simp only [isLowSurrogate, Bool.and_eq_false_iff, decide_eq_false_iff_not]
      omega
    have hhigh : isHighSurrogate c.toNat = false := by
      simp only [isHighSurrogate, Bool.and_eq_false_iff, decide_eq_false_iff_not]
      omega
    simp only [fourDigits, List.cons_append, List.nil_append]
    rw [readChars.eq_def]
    simp [hexUnit?_fourDigits h, hlow, hhigh, Char.ofNat_toNat]
  · next hquote hslash _ _ _ _ _ h => exact readChars_plain hquote hslash (by omega) cs

theorem readChars_flatMap (cs rest : List Char) :
    readChars (cs.flatMap escapeChar ++ '"' :: rest) = .ok (cs, rest) := by
  induction cs with
  | nil => rfl
  | cons c cs ih =>
    rw [List.flatMap_cons, List.append_assoc, readChars_escapeChar, ih]
    rfl

theorem readString_writeString (s : String) (rest : List Char) :
    ∃ body, writeString s ++ rest = '"' :: body ∧ readString body = .ok (s, rest) := by
  refine ⟨s.toList.flatMap escapeChar ++ '"' :: rest, by simp [writeString], ?_⟩
  rw [readString, readChars_flatMap]
  exact congrArg (fun t => Except.ok (t, rest)) String.ofList_toList

/-! ## Whole numbers -/

theorem le_ofDigitChars (ds : List Char) (s : Nat) : s ≤ Nat.ofDigitChars 10 ds s := by
  induction ds generalizing s with
  | nil => exact Nat.le_refl s
  | cons d ds ih =>
    rw [Nat.ofDigitChars_cons]
    exact Nat.le_trans (by omega) (ih _)

/-- Digits are taken in to the last one when the number that they spell is in range. -/
theorem absorbDigits_append {ds rest : List Char} {s : Nat} (hds : ∀ d ∈ ds, d.isDigit = true)
    (hrest : Ends rest) (hle : Nat.ofDigitChars 10 ds s ≤ largestWhole) :
    absorbDigits s (ds ++ rest) = (Nat.ofDigitChars 10 ds s, ds.length, rest) := by
  induction ds generalizing s with
  | nil =>
    cases rest with
    | nil => rfl
    | cons c cs => simp [absorbDigits, hrest.isDigit]
  | cons d ds ih =>
    have hd : d.isDigit = true := hds d List.mem_cons_self
    have hstep : 10 * s + (d.toNat - '0'.toNat) = s * 10 + (d.toNat - 48) := by
      rw [Nat.mul_comm]
      rfl
    rw [Nat.ofDigitChars_cons, hstep] at hle ⊢
    have hroom : s * 10 + (d.toNat - 48) ≤ largestWhole :=
      Nat.le_trans (le_ofDigitChars ds _) hle
    rw [List.cons_append, absorbDigits, hd, decide_eq_true hroom,
      ih (fun e he => hds e (List.mem_cons_of_mem d he)) hle]
    rfl

theorem exists_writeNat_eq_cons (n : Nat) : ∃ c cs, writeNat n = c :: cs ∧ c.isDigit = true := by
  cases h : writeNat n with
  | nil => exact absurd h Nat.toDigits_ne_nil
  | cons c cs =>
    have hmem : c ∈ Nat.toDigits 10 n := by
      rw [writeNat] at h
      rw [h]
      exact List.mem_cons_self
    exact ⟨c, cs, rfl, Nat.isDigit_of_mem_toDigits (by decide) (by decide) hmem⟩

/-- Only zero starts with the digit zero. -/
theorem exists_toDigits_eq_cons {n : Nat} (hn : 0 < n) :
    ∃ c cs, Nat.toDigits 10 n = c :: cs ∧ c ≠ '0' := by
  induction n using Nat.strongRecOn with
  | ind n ih =>
    rw [Nat.toDigits_eq_if (by decide)]
    split
    · refine ⟨_, [], rfl, fun h => ?_⟩
      have := Nat.digitChar_eq_zero.1 h
      omega
    · obtain ⟨c, cs, hcs, hc⟩ := ih (n / 10) (by omega) (by omega)
      exact ⟨c, cs ++ [(n % 10).digitChar], by rw [hcs]; rfl, hc⟩

theorem readUnsigned_writeNat (negative : Bool) {n : Nat} (hn : n ≤ largestWhole)
    {rest : List Char} (hrest : Ends rest) :
    readUnsigned negative (writeNat n ++ rest) = .ok (wholeNumber negative n, rest) := by
  rcases Nat.eq_zero_or_pos n with rfl | hpos
  · cases rest with
    | nil => rfl
    | cons c cs => rcases hrest with rfl | rfl | rfl <;> rfl
  · obtain ⟨c, cs, hcs, hc⟩ := exists_toDigits_eq_cons hpos
    have hdigits : ∀ d ∈ c :: cs, d.isDigit = true := fun d hd =>
      Nat.isDigit_of_mem_toDigits (by decide) (by decide) (hcs ▸ hd)
    have hvalue : Nat.ofDigitChars 10 (c :: cs) 0 = n :=
      hcs ▸ Nat.ofDigitChars_toDigits (by decide) (by decide)
    have habsorb := absorbDigits_append (s := 0) hdigits hrest (by rw [hvalue]; exact hn)
    rw [hvalue, List.cons_append] at habsorb
    rw [writeNat, hcs, List.cons_append, readUnsigned.eq_def]
    split
    · next h => cases h
    · next h => exact absurd (List.cons.inj h).1 hc
    · next h =>
      obtain ⟨rfl, rfl⟩ := List.cons.inj h
      simp only [hdigits _ List.mem_cons_self, if_true, habsorb]
      cases rest with
      | nil => rfl
      | cons d ds => rcases hrest with rfl | rfl | rfl <;> rfl

theorem wholeNumber_natAbs {n : Int} (h : -(2 ^ 63) ≤ n) :
    wholeNumber (decide (n < 0)) n.natAbs = .whole n := by
  by_cases hneg : n < 0
  · have hrange : (n.natAbs == 0 || decide (9223372036854775808 < n.natAbs)) = false := by
      rw [Bool.or_eq_false_iff, beq_eq_false_iff_ne, decide_eq_false_iff_not]
      omega
    have habs : -(n.natAbs : Int) = n := by omega
    rw [wholeNumber, decide_eq_true hneg, if_neg (by decide), hrange, if_neg (by decide), habs]
  · have habs : (n.natAbs : Int) = n := by omega
    rw [wholeNumber, decide_eq_false hneg, if_pos (by decide), habs]

theorem readNumber_writeInt {n : Int} (h : -(2 ^ 63) ≤ n ∧ n < 2 ^ 64) {rest : List Char}
    (hrest : Ends rest) : readNumber (writeInt n ++ rest) = .ok (.whole n, rest) := by
  have hsize : n.natAbs ≤ largestWhole := by
    unfold largestWhole
    omega
  have hread (negative : Bool) := readUnsigned_writeNat negative hsize hrest
  have hwhole := wholeNumber_natAbs h.1
  unfold writeInt
  split
  · next hneg =>
    rw [decide_eq_true hneg] at hwhole
    rw [List.cons_append, readNumber, hread, hwhole]
  · next hpos =>
    rw [decide_eq_false hpos] at hwhole
    obtain ⟨c, cs, hcs, hc⟩ := exists_writeNat_eq_cons n.natAbs
    rw [← hwhole, ← hread, hcs, List.cons_append, readNumber.eq_def]
    split
    · next heq =>
      -- No digit is a minus sign.
      rw [(List.cons.inj heq).1] at hc
      exact absurd hc (by decide)
    · rfl

/-- A number starts with a minus sign or a digit. -/
theorem exists_writeInt_eq_cons (n : Int) :
    ∃ c cs, writeInt n = c :: cs ∧ (c = '-' ∨ c.isDigit = true) := by
  unfold writeInt
  split
  · exact ⟨_, _, rfl, .inl rfl⟩
  · obtain ⟨c, cs, hcs, hc⟩ := exists_writeNat_eq_cons n.natAbs
    exact ⟨c, cs, hcs, .inr hc⟩

end NetProbe.Json
