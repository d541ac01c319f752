import NetProbe.Proofs.Json.Spans
set_option autoImplicit false

/-! # Tokens that are skipped

A string or a number that can be read can be skipped, and the same follows it. -/

namespace NetProbe.Json

/-! ## Strings -/

theorem skipString_of_readChars {cs s rest : List Char} (h : readChars cs = .ok (s, rest)) :
    skipString cs = .ok rest := by
  fun_induction readChars cs generalizing s with
  | case2 cs =>
    cases h
    rw [skipString]
  | case6 a b c d cs n hn _ _ ih =>
    obtain ⟨s, h⟩ := consRead_eq_ok h
    rw [skipString, hn]
    exact ih h
  | case10 a b c d n hn _ _ a' b' c' d' cs m hm _ ih =>
    obtain ⟨s, h⟩ := consRead_eq_ok h
    rw [skipString, hn]
    dsimp only
    rw [skipString, hm]
    exact ih h
  | case15 e cs hunit hshort c he ih =>
    obtain ⟨s, h⟩ := consRead_eq_ok h
    rw [skipString, he]
    · exact ih h
    · exact hunit
    · exact hshort
  | case18 c cs hquote hnil hunit hshort hcons hc ih =>
    obtain ⟨s, h⟩ := consRead_eq_ok h
    rw [skipString, if_neg hc]
    · exact ih h
    · exact hquote
    · exact hnil
    · exact hunit
    · exact hshort
    · exact hcons
  | _ => cases h

theorem skipString_of_readString {cs rest : List Char} {s : String}
    (h : readString cs = .ok (s, rest)) : skipString cs = .ok rest := by
  rw [readString] at h
  split at h
  · next hchars =>
    cases h
    exact skipString_of_readChars hchars
  · cases h

/-! ## Numbers -/

/-- The digits that do not fit into a number any more are passed over. -/
theorem dropWhile_absorbDigits (s : Nat) (cs : List Char) :
    (absorbDigits s cs).2.2.dropWhile Char.isDigit = cs.dropWhile Char.isDigit := by
  fun_induction absorbDigits s cs with
  | case1 => rfl
  | case2 s c cs hc t n rest heq ih =>
    simp only [Bool.and_eq_true, decide_eq_true_eq] at hc
    rw [heq] at ih
    rw [List.dropWhile_cons, if_pos hc.1]
    exact ih
  | case3 => rfl

/-- If there is a digit, some number absorbs it or it is passed over. -/
theorem takeWhile_ne_nil_of_absorbDigits {s t n : Nat} {cs rest : List Char}
    (h : absorbDigits s cs = (t, n, rest))
    (hsome : (n == 0 && (rest.takeWhile Char.isDigit).isEmpty) = false) :
    (cs.takeWhile Char.isDigit).isEmpty = false := by
  cases cs with
  | nil =>
    cases h
    exact absurd hsome (by decide)
  | cons c cs =>
    rw [List.takeWhile_cons]
    by_cases hc : c.isDigit = true
    · rw [if_pos hc]
      rfl
    · rw [absorbDigits, if_neg (by simp [hc])] at h
      cases h
      simp [hc] at hsome

section

variable {negative : Bool} {s : Nat} {start : Int} {cs rest : List Char} {n : JsonNumber}

theorem skips_scaled (h : scaled negative s start cs = .ok (n, rest)) : rest = cs := by
  rw [scaled] at h
  split at h <;> cases h
  rfl

/-- An exponent is skipped from behind its sign. -/
theorem skipExponent_signed {down : Bool} {ds : List Char} :
    (match cs with
      | '+' :: rest => (false, rest)
      | '-' :: rest => (true, rest)
      | _ => (false, cs)) = (down, ds) →
    skipExponent cs = match ds with
      | c :: _ =>
        if c.isDigit then .ok (ds.dropWhile Char.isDigit) else .error .invalidNumber
      | [] => .error .invalidNumber := by
  intro h
  rcases cs with _ | ⟨c, cs⟩
  · cases h
    rfl
  by_cases hplus : c = '+'
  · subst hplus
    cases h
    rfl
  by_cases hminus : c = '-'
  · subst hminus
    cases h
    rfl
  have hds : ds = c :: cs := by
    split at h
    · next heq => exact absurd (List.cons.inj heq).1 hplus
    · next heq => exact absurd (List.cons.inj heq).1 hminus
    · exact (Prod.mk.inj h).2.symm
  rw [hds]
  unfold skipExponent
  simp [hplus, hminus]

theorem skipExponent_of_readExponent (h : readExponent negative s start cs = .ok (n, rest)) :
    skipExponent cs = .ok rest := by
  unfold readExponent at h
  split at h
  next down ds hsign =>
  rw [skipExponent_signed hsign]
  cases ds with
  | nil => cases h
  | cons c ds =>
    dsimp only at h ⊢
    split at h
    · next hc =>
      rw [if_pos hc]
      split at h
      · rw [skips_scaled h]
      · split at h <;> cases h
        rfl
    · cases h

theorem skipAfterWhole_of_readFraction (h : readFraction negative s start cs = .ok (n, rest)) :
    skipAfterWhole ('.' :: cs) = .ok rest := by
  have hdigits {t m : Nat} {mid : List Char} (habsorb : absorbDigits s cs = (t, m, mid))
      (hsome : ¬ (m == 0 && (mid.takeWhile Char.isDigit).isEmpty) = true) :
      ¬ (cs.takeWhile Char.isDigit).isEmpty = true := by
    rw [takeWhile_ne_nil_of_absorbDigits habsorb (by simpa using hsome)]
    exact Bool.false_ne_true
  have hdrop {t m : Nat} {mid ds : List Char} (habsorb : absorbDigits s cs = (t, m, mid))
      (hds : mid.dropWhile Char.isDigit = ds) : cs.dropWhile Char.isDigit = ds := by
    rw [← dropWhile_absorbDigits s cs, habsorb, ← hds]
  rw [skipAfterWhole]
  revert h
  fun_cases readFraction negative s start cs with
  | case3 t m mid habsorb more ds hsome exponent hds =>
    intro h
    rw [if_neg (hdigits habsorb hsome), hdrop habsorb hds]
    exact skipExponent_of_readExponent h
  | case4 t m mid habsorb more ds hsome exponent hds =>
    intro h
    rw [if_neg (hdigits habsorb hsome), hdrop habsorb hds]
    exact skipExponent_of_readExponent h
  | case5 t m mid habsorb more ds hsome hlower hupper =>
    intro h
    rw [if_neg (hdigits habsorb hsome), hdrop habsorb rfl, skips_scaled h]
    split
    · next hds => exact absurd hds (hlower _)
    · next hds => exact absurd hds (hupper _)
    · rfl
  | _ =>
    intro h
    cases h

/-- What is no part of a number ends it. -/
theorem skipAfterWhole_of_ne (hdot : ∀ ds, cs ≠ '.' :: ds) (hlower : ∀ ds, cs ≠ 'e' :: ds)
    (hupper : ∀ ds, cs ≠ 'E' :: ds) : skipAfterWhole cs = .ok cs := by
  rw [skipAfterWhole]
  · exact hdot
  · exact hlower
  · exact hupper

theorem skipUnsigned_of_readUnsigned (h : readUnsigned negative cs = .ok (n, rest)) :
    skipUnsigned cs = .ok rest := by
  have hskip {t m : Nat} {c : Char} {cs mid : List Char} (hzero : c ≠ '0')
      (hc : c.isDigit = true) (habsorb : absorbDigits 0 (c :: cs) = (t, m, mid)) :
      skipUnsigned (c :: cs) = skipAfterWhole (mid.dropWhile Char.isDigit) := by
    have hdrop := dropWhile_absorbDigits 0 (c :: cs)
    rw [habsorb, List.dropWhile_cons, if_pos hc] at hdrop
    rw [skipUnsigned, if_pos hc, hdrop]
    exact hzero
  revert h
  fun_cases readUnsigned negative cs with
  | case2 cs =>
    intro h
    exact skipAfterWhole_of_readFraction h
  | case3 cs =>
    intro h
    exact skipExponent_of_readExponent h
  | case4 cs =>
    intro h
    exact skipExponent_of_readExponent h
  | case6 c cs hdot hlower hupper hc =>
    intro h
    cases h
    rw [skipUnsigned, if_neg hc]
    refine skipAfterWhole_of_ne ?_ ?_ ?_
    · exact fun ds hds => hdot (List.cons.inj hds).1
    · exact fun ds hds => hlower (List.cons.inj hds).1
    · exact fun ds hds => hupper (List.cons.inj hds).1
  | case7 =>
    intro h
    cases h
    rfl
  | case8 c cs hzero hc t m mid habsorb more ds hds =>
    intro h
    rw [hskip hzero hc habsorb, hds]
    exact skipAfterWhole_of_readFraction h
  | case9 c cs hzero hc t m mid habsorb more ds hds =>
    intro h
    rw [hskip hzero hc habsorb, hds]
    exact skipExponent_of_readExponent h
  | case10 c cs hzero hc t m mid habsorb more ds hds =>
    intro h
    rw [hskip hzero hc habsorb, hds]
    exact skipExponent_of_readExponent h
  | case11 c cs hzero hc t m mid habsorb more _ hdot hlower hupper =>
    intro h
    cases h
    rw [hskip hzero hc habsorb]
    exact skipAfterWhole_of_ne hdot hlower hupper
  | case12 c cs hzero hc t m mid habsorb more _ hdot hlower hupper =>
    intro h
    rw [hskip hzero hc habsorb, skips_scaled h]
    exact skipAfterWhole_of_ne hdot hlower hupper
  | _ =>
    intro h
    cases h

end

end NetProbe.Json
