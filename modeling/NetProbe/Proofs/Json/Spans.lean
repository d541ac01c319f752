import NetProbe.Json.Reader
import NetProbe.Proofs.Json.Nesting
import NetProbe.Proofs.Json.Tokens
set_option autoImplicit false

/-! # What is read does not outgrow its text

`Spans k cs rest` says of two places of a text that between them lists and objects stand `k` deep in
one another, at least, and that all of them are closed. Each token that is read or skipped spans
nothing, and each bracket that is opened and closed adds one. -/

namespace NetProbe.Json

/-- Between two places of a text something is nested at least so deep, and whatever is open at the
    first is open at the second. -/
def Spans (k : Nat) (cs rest : List Char) : Prop :=
  ∀ level, max (level + k) (deepest .outside level rest) ≤ deepest .outside level cs

namespace Spans

variable {k m : Nat} {c : Char} {cs mid rest : List Char}

theorem of_le (h : ∀ level, deepest .outside level rest ≤ deepest .outside level cs) :
    Spans 0 cs rest := fun level =>
  Nat.max_le.2 ⟨le_deepest _ level cs, h level⟩

theorem refl (cs : List Char) : Spans 0 cs cs := of_le fun _ => Nat.le_refl _

theorem trans (h : Spans k cs mid) (h' : Spans m mid rest) : Spans (max k m) cs rest := by
  intro level
  have h₁ := h level
  have h₂ := h' level
  omega

theorem mono (h : Spans k cs rest) (hm : m ≤ k) : Spans m cs rest := by
  intro level
  have := h level
  omega

/-- What comes before does not count if nothing is nested in it. -/
theorem after (h : Spans 0 cs mid) (h' : Spans k mid rest) : Spans k cs rest := by
  have := h.trans h'
  rwa [Nat.zero_max] at this

theorem before (h : Spans k cs mid) (h' : Spans 0 mid rest) : Spans k cs rest := by
  have := h.trans h'
  rwa [Nat.max_zero] at this

theorem plain (hc : IsPlain c) (cs : List Char) : Spans 0 (c :: cs) cs :=
  of_le fun level => Nat.le_of_eq (deepest_plain hc level cs).symm

theorem cons (hc : IsPlain c) (h : Spans k cs rest) : Spans k (c :: cs) rest :=
  (plain hc cs).after h

theorem dropWhile {p : Char → Bool} (hp : ∀ c, p c = true → IsPlain c) (cs : List Char) :
    Spans 0 cs (cs.dropWhile p) := by
  induction cs with
  | nil => exact refl []
  | cons c cs ih =>
    rw [List.dropWhile_cons]
    split
    · next h => exact cons (hp c h) ih
    · exact refl _

theorem list (h : Spans k cs (']' :: rest)) : Spans (k + 1) ('[' :: cs) rest := by
  intro level
  have h' := h (level + 1)
  rw [deepest_bracket'] at h'
  rw [deepest_bracket]
  omega

theorem object (h : Spans k cs ('}' :: rest)) : Spans (k + 1) ('{' :: cs) rest := by
  intro level
  have h' := h (level + 1)
  rw [deepest_brace'] at h'
  rw [deepest_brace]
  omega

end Spans

theorem isPlain_of_isBlank {c : Char} (h : isBlank c = true) : IsPlain c := by
  simp only [isBlank, Bool.or_eq_true, beq_iff_eq] at h
  rcases h with ((rfl | rfl) | rfl) | rfl <;> decide

theorem spans_skipBlank {cs rest : List Char} (h : skipBlank cs = rest) : Spans 0 cs rest :=
  h ▸ Spans.dropWhile (fun _ => isPlain_of_isBlank) cs

/-! ## Strings -/

theorem ne_of_hexValue? {c : Char} {n : Nat} (h : Text.hexValue? c = some n) :
    c ≠ '"' ∧ c ≠ '\\' := by
  constructor <;> (rintro rfl; cases h)

theorem deepest_inString {c : Char} (h : c ≠ '"' ∧ c ≠ '\\') (level : Nat) (cs : List Char) :
    deepest .inString level (c :: cs) = deepest .inString level cs := by
  rw [deepest, if_neg h.1, if_neg h.2]

theorem deepest_hexUnit {a b c d : Char} {n : Nat} (h : hexUnit? a b c d = some n) (level : Nat)
    (cs : List Char) :
    deepest .inString level ('\\' :: 'u' :: a :: b :: c :: d :: cs) =
      deepest .inString level cs := by
  simp only [hexUnit?, Option.bind_eq_bind, Option.bind_eq_some_iff] at h
  obtain ⟨_, ha, _, hb, _, hc, _, hd, -⟩ := h
  change deepest .inString level (a :: b :: c :: d :: cs) = _
  rw [deepest_inString (ne_of_hexValue? ha), deepest_inString (ne_of_hexValue? hb),
    deepest_inString (ne_of_hexValue? hc), deepest_inString (ne_of_hexValue? hd)]

theorem consRead_eq_ok {c : Char} {r : Except ReadError (List Char × List Char)}
    {s rest : List Char} (h : consRead c r = .ok (s, rest)) : ∃ s', r = .ok (s', rest) := by
  cases r with
  | error e => cases h
  | ok p =>
    obtain ⟨s', rest'⟩ := p
    cases h
    exact ⟨s', rfl⟩

theorem ne_backslash {c : Char} {cs : List Char} (hnil : c = '\\' → cs = [] → False)
    (hcons : ∀ e rest, c = '\\' → cs = e :: rest → False) : c ≠ '\\' := fun h =>
  match cs with
  | [] => hnil h rfl
  | e :: rest => hcons e rest h rfl

theorem deepest_readChars {cs s rest : List Char} (h : readChars cs = .ok (s, rest)) (level : Nat) :
    deepest .inString level cs = deepest .outside level rest := by
  fun_induction readChars cs generalizing s with
  | case2 =>
    cases h
    rfl
  | case6 a b c d cs n hn _ _ ih =>
    obtain ⟨s, h⟩ := consRead_eq_ok h
    rw [deepest_hexUnit hn, ih h]
  | case10 a b c d n hn _ _ a' b' c' d' cs m hm _ ih =>
    obtain ⟨s, h⟩ := consRead_eq_ok h
    rw [deepest_hexUnit hn, deepest_hexUnit hm, ih h]
  | case15 e cs _ _ c _ ih =>
    obtain ⟨s, h⟩ := consRead_eq_ok h
    exact ih h
  | case18 c cs hquote hnil _ _ hcons _ ih =>
    obtain ⟨s, h⟩ := consRead_eq_ok h
    rw [deepest_inString ⟨hquote, ne_backslash hnil hcons⟩, ih h]
  | _ => cases h

theorem deepest_skipString {cs rest : List Char} (h : skipString cs = .ok rest) (level : Nat) :
    deepest .inString level cs = deepest .outside level rest := by
  fun_induction skipString cs with
  | case2 =>
    cases h
    rfl
  | case5 a b c d cs n hn ih => rw [deepest_hexUnit hn, ih h]
  | case7 e cs _ _ c _ ih => exact ih h
  | case10 c cs hquote hnil _ _ hcons _ ih =>
    rw [deepest_inString ⟨hquote, ne_backslash hnil hcons⟩, ih h]
  | _ => cases h

theorem spans_readString {cs rest : List Char} {s : String} (h : readString cs = .ok (s, rest)) :
    Spans 0 ('"' :: cs) rest := by
  rw [readString] at h
  split at h
  · next hchars =>
    cases h
    exact Spans.of_le fun level => Nat.le_of_eq (deepest_readChars hchars level).symm
  · cases h

theorem spans_skipString {cs rest : List Char} (h : skipString cs = .ok rest) :
    Spans 0 ('"' :: cs) rest :=
  Spans.of_le fun level => Nat.le_of_eq (deepest_skipString h level).symm

/-! ## Numbers -/

theorem spans_digits (cs : List Char) : Spans 0 cs (cs.dropWhile Char.isDigit) :=
  Spans.dropWhile (fun _ => isPlain_of_isDigit) cs

theorem absorbDigits_le {s : Nat} (hs : s ≤ largestWhole) (cs : List Char) :
    (absorbDigits s cs).1 ≤ largestWhole := by
  fun_induction absorbDigits s cs with
  | case1 => exact hs
  | case2 s c cs hc t n rest heq ih =>
    simp only [Bool.and_eq_true, decide_eq_true_eq] at hc
    simpa only [heq] using ih hc.2
  | case3 => exact hs

theorem spans_absorbDigits (s : Nat) (cs : List Char) : Spans 0 cs (absorbDigits s cs).2.2 := by
  fun_induction absorbDigits s cs with
  | case1 => exact Spans.refl []
  | case2 s c cs hc t n rest heq ih =>
    simp only [Bool.and_eq_true, decide_eq_true_eq] at hc
    rw [heq] at ih
    exact ih.cons (isPlain_of_isDigit hc.1)
  | case3 => exact Spans.refl _

/-- What a reading of a number leaves: a number in range, and no bracket behind. -/
def TookNumber (cs : List Char) (r : JsonNumber × List Char) : Prop :=
  InRange r.1 ∧ Spans 0 cs r.2

theorem TookNumber.after {cs mid : List Char} {r : JsonNumber × List Char} (h : Spans 0 cs mid)
    (h' : TookNumber mid r) : TookNumber cs r :=
  ⟨h'.1, h.after h'.2⟩

theorem TookNumber.cons {c : Char} {cs : List Char} {r : JsonNumber × List Char} (hc : IsPlain c)
    (h : TookNumber cs r) : TookNumber (c :: cs) r :=
  h.after (Spans.plain hc cs)

theorem inRange_wholeNumber (negative : Bool) {s : Nat} (hs : s ≤ largestWhole) :
    InRange (wholeNumber negative s) := by
  unfold largestWhole at hs
  rw [wholeNumber]
  split
  · exact ⟨by omega, by omega⟩
  · split
    · trivial
    · next h =>
      simp only [Bool.or_eq_true, decide_eq_true_eq, not_or] at h
      exact ⟨by omega, by omega⟩

section

variable {negative : Bool} {s : Nat} {start : Int} {cs : List Char} {r : JsonNumber × List Char}

theorem scaled_eq_ok (h : scaled negative s start cs = .ok r) : TookNumber cs r := by
  rw [scaled] at h
  split at h
  · cases h
    exact ⟨trivial, Spans.refl cs⟩
  · cases h

theorem spans_sign {down : Bool} {ds : List Char}
    (h : (match cs with
      | '+' :: rest => (false, rest)
      | '-' :: rest => (true, rest)
      | _ => (false, cs)) = (down, ds)) : Spans 0 cs ds := by
  split at h <;> cases h
  · exact Spans.plain (by decide) _
  · exact Spans.plain (by decide) _
  · exact Spans.refl cs

theorem readExponent_eq_ok (h : readExponent negative s start cs = .ok r) : TookNumber cs r := by
  unfold readExponent at h
  split at h
  next down ds heq =>
  have hspans := (spans_sign heq).after (spans_digits ds)
  split at h
  · cases h
  · split at h
    · dsimp only at h
      split at h
      · exact (scaled_eq_ok h).after hspans
      · split at h
        · cases h
        · cases h
          exact ⟨trivial, hspans⟩
    · cases h

theorem readFraction_eq_ok (h : readFraction negative s start cs = .ok r) : TookNumber cs r := by
  have hdigits {s' n : Nat} {rest ds : List Char} (heq : absorbDigits s cs = (s', n, rest))
      (hds : rest.dropWhile Char.isDigit = ds) : Spans 0 cs ds := by
    have hspans := spans_absorbDigits s cs
    rw [heq] at hspans
    rw [← hds]
    exact hspans.after (spans_digits rest)
  revert h
  fun_cases readFraction negative s start cs with
  | case3 s' n rest heq more ds _ exponent hds =>
    intro h
    exact ((readExponent_eq_ok h).cons (by decide)).after (hdigits heq hds)
  | case4 s' n rest heq more ds _ exponent hds =>
    intro h
    exact ((readExponent_eq_ok h).cons (by decide)).after (hdigits heq hds)
  | case5 s' n rest heq =>
    intro h
    exact (scaled_eq_ok h).after (hdigits heq rfl)
  | _ => exact nofun

theorem readUnsigned_eq_ok (h : readUnsigned negative cs = .ok r) : TookNumber cs r := by
  have hzero : TookNumber ('0' :: cs) (wholeNumber negative 0, cs) :=
    ⟨inRange_wholeNumber negative (by decide), Spans.plain (by decide) cs⟩
  have hdigits {s' n : Nat} {cs rest ds : List Char} (heq : absorbDigits 0 cs = (s', n, rest))
      (hds : rest.dropWhile Char.isDigit = ds) : s' ≤ largestWhole ∧ Spans 0 cs ds := by
    have hle := absorbDigits_le (by decide : 0 ≤ largestWhole) cs
    have hspans := spans_absorbDigits 0 cs
    rw [heq] at hle hspans
    rw [← hds]
    exact ⟨hle, hspans.after (spans_digits rest)⟩
  revert h
  fun_cases readUnsigned negative cs with
  | case2 cs =>
    intro h
    exact ((readFraction_eq_ok h).cons (by decide)).cons (by decide)
  | case3 cs =>
    intro h
    exact ((readExponent_eq_ok h).cons (by decide)).cons (by decide)
  | case4 cs =>
    intro h
    exact ((readExponent_eq_ok h).cons (by decide)).cons (by decide)
  | case6 c cs =>
    intro h
    cases h
    exact ⟨inRange_wholeNumber negative (by decide), Spans.plain (by decide) _⟩
  | case7 =>
    intro h
    cases h
    exact ⟨inRange_wholeNumber negative (by decide), Spans.plain (by decide) _⟩
  | case8 c cs _ _ s n rest heq more ds hds =>
    intro h
    exact ((readFraction_eq_ok h).cons (by decide)).after (hdigits heq hds).2
  | case9 c cs _ _ s n rest heq more ds hds =>
    intro h
    exact ((readExponent_eq_ok h).cons (by decide)).after (hdigits heq hds).2
  | case10 c cs _ _ s n rest heq more ds hds =>
    intro h
    exact ((readExponent_eq_ok h).cons (by decide)).after (hdigits heq hds).2
  | case11 c cs _ _ s n rest heq more =>
    intro h
    cases h
    have hds := hdigits heq rfl
    exact ⟨inRange_wholeNumber negative hds.1, hds.2⟩
  | case12 c cs _ _ s n rest heq more =>
    intro h
    exact (scaled_eq_ok h).after (hdigits heq rfl).2
  | _ => exact nofun

theorem readNumber_eq_ok (h : readNumber cs = .ok r) : TookNumber cs r := by
  rw [readNumber.eq_def] at h
  split at h
  · exact (readUnsigned_eq_ok h).cons (by decide)
  · exact readUnsigned_eq_ok h

end

section

variable {cs rest : List Char}

theorem spans_skipExponent (h : skipExponent cs = .ok rest) : Spans 0 cs rest := by
  revert h
  fun_cases skipExponent cs with
  | case1 ds c tail heq =>
    intro h
    have hsign : Spans 0 cs ds := by
      simp only [ds]
      split
      · exact Spans.plain (by decide) _
      · exact Spans.plain (by decide) _
      · exact Spans.refl cs
    rw [← Except.ok.inj h]
    exact hsign.after (spans_digits ds)
  | _ => exact nofun

theorem spans_skipAfterWhole (h : skipAfterWhole cs = .ok rest) : Spans 0 cs rest := by
  revert h
  fun_cases skipAfterWhole cs with
  | case2 cs ds _ exponent hds =>
    intro h
    have hspans : Spans 0 cs ('e' :: exponent) := hds ▸ spans_digits cs
    exact (hspans.after ((spans_skipExponent h).cons (by decide))).cons (by decide)
  | case3 cs ds _ exponent hds =>
    intro h
    have hspans : Spans 0 cs ('E' :: exponent) := hds ▸ spans_digits cs
    exact (hspans.after ((spans_skipExponent h).cons (by decide))).cons (by decide)
  | case4 cs =>
    intro h
    rw [← Except.ok.inj h]
    exact (spans_digits cs).cons (by decide)
  | case5 cs =>
    intro h
    exact (spans_skipExponent h).cons (by decide)
  | case6 cs =>
    intro h
    exact (spans_skipExponent h).cons (by decide)
  | case7 cs =>
    intro h
    cases h
    exact Spans.refl _
  | _ => exact nofun

theorem spans_skipUnsigned (h : skipUnsigned cs = .ok rest) : Spans 0 cs rest := by
  revert h
  fun_cases skipUnsigned cs with
  | case2 c cs =>
    intro h
    exact (spans_skipAfterWhole h).cons (by decide)
  | case3 =>
    intro h
    cases h
    exact Spans.plain (by decide) []
  | case4 c cs _ hc =>
    intro h
    exact ((spans_digits cs).after (spans_skipAfterWhole h)).cons (isPlain_of_isDigit hc)
  | _ => exact nofun

/-! ## Words and punctuation -/

theorem spans_readWord {ws : List Char} (hws : ∀ w ∈ ws, IsPlain w)
    (h : readWord ws cs = .ok rest) : Spans 0 cs rest := by
  fun_induction readWord ws cs with
  | case1 =>
    cases h
    exact Spans.refl _
  | case2 => cases h
  | case3 w ws c cs hc ih =>
    rw [← eq_of_beq hc]
    exact (ih (fun v hv => hws v (List.mem_cons_of_mem w hv)) h).cons (hws w List.mem_cons_self)
  | case4 => cases h

theorem spans_word {w : Char} {ws : List Char} (hws : ∀ v ∈ w :: ws, IsPlain v)
    (h : readWord ws cs = .ok rest) : Spans 0 (w :: cs) rest :=
  (spans_readWord (fun v hv => hws v (List.mem_cons_of_mem w hv)) h).cons
    (hws w List.mem_cons_self)

theorem spans_readColon (h : readColon cs = .ok rest) : Spans 0 cs rest := by
  rw [readColon] at h
  split at h
  · next heq =>
    cases h
    exact (spans_skipBlank heq).after (Spans.plain (by decide) _)
  · cases h
  · cases h

theorem spans_nextItem {first more : Bool} (h : nextItem first cs = .ok (more, rest)) :
    Spans 0 cs rest := by
  revert h
  fun_cases nextItem first cs with
  | case2 c cs' heq =>
    intro h
    cases h
    exact spans_skipBlank heq
  | case3 c cs' heq =>
    intro h
    cases h
    exact spans_skipBlank heq
  | case6 c cs' heq _ _ hc d cs'' heq' =>
    intro h
    cases h
    rw [eq_of_beq hc] at heq
    exact (spans_skipBlank heq).after ((spans_skipBlank heq').cons (by decide))
  | _ => exact nofun

/-- If a member follows, its key starts before the rest. -/
theorem spans_nextKey {first more : Bool} (h : nextKey first cs = .ok (more, rest)) :
    Spans 0 cs (if more then '"' :: rest else rest) := by
  revert h
  fun_cases nextKey first cs with
  | case2 c cs' heq =>
    intro h
    cases h
    exact spans_skipBlank heq
  | case3 c cs' heq _ _ hc =>
    intro h
    cases h
    rw [eq_of_beq hc] at heq
    exact spans_skipBlank heq
  | case6 c cs' heq _ _ hc d cs'' heq' hd =>
    intro h
    cases h
    rw [eq_of_beq hc] at heq
    rw [eq_of_beq hd] at heq'
    exact (spans_skipBlank heq).after ((spans_skipBlank heq').cons (by decide))
  | _ => exact nofun

theorem spans_endList (h : endList cs = .ok rest) : Spans 0 cs (']' :: rest) := by
  revert h
  fun_cases endList cs with
  | case2 c cs' heq hc =>
    intro h
    cases h
    rw [eq_of_beq hc] at heq
    exact spans_skipBlank heq
  | _ => exact nofun

theorem spans_endObject (h : endObject cs = .ok rest) : Spans 0 cs ('}' :: rest) := by
  revert h
  fun_cases endObject cs with
  | case2 c cs' heq hc =>
    intro h
    cases h
    rw [eq_of_beq hc] at heq
    exact spans_skipBlank heq
  | _ => exact nofun

end

end NetProbe.Json
