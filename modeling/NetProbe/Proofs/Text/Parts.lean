import NetProbe.Net.Domain
set_option autoImplicit false

/-! # Texts taken apart

What was joined by separators is taken apart again, if none of the parts holds one, and what was
taken apart is joined again. -/

namespace NetProbe

theorem splitChars_of_not_mem {sep : Char} {cs : List Char} (h : sep ∉ cs) :
    splitChars sep cs = [cs] := by
  induction cs with
  | nil => rfl
  | cons c cs ih =>
    obtain ⟨hc, hcs⟩ := not_or.1 (mt List.mem_cons.2 h)
    rw [splitChars, if_neg (Ne.symm hc), ih hcs]

theorem splitChars_append {sep : Char} {cs : List Char} (h : sep ∉ cs) (rest : List Char) :
    splitChars sep (cs ++ sep :: rest) = cs :: splitChars sep rest := by
  induction cs with
  | nil => rw [List.nil_append, splitChars, if_pos rfl]
  | cons c cs ih =>
    obtain ⟨hc, hcs⟩ := not_or.1 (mt List.mem_cons.2 h)
    rw [List.cons_append, splitChars, if_neg (Ne.symm hc), ih hcs]

theorem splitChars_ne_nil (sep : Char) (cs : List Char) : splitChars sep cs ≠ [] := by
  cases cs with
  | nil => simp [splitChars]
  | cons c cs =>
    rw [splitChars]
    split
    · simp
    · split <;> simp

/-- The parts of a text, with the separators put back between them, are the text. -/
theorem intercalate_splitChars (sep : Char) (cs : List Char) :
    [sep].intercalate (splitChars sep cs) = cs := by
  induction cs with
  | nil => simp [splitChars]
  | cons c cs ih =>
    have hne := splitChars_ne_nil sep cs
    rw [splitChars]
    by_cases hc : c = sep
    · rw [if_pos hc, List.intercalate_cons_of_ne_nil hne, ih, hc]
      simp
    · rw [if_neg hc]
      cases hparts : splitChars sep cs with
      | nil => exact absurd hparts hne
      | cons part parts =>
        rw [hparts] at ih
        cases parts with
        | nil =>
          rw [List.intercalate_singleton] at ih
          simp [ih]
        | cons next parts =>
          rw [List.intercalate_cons_cons] at ih
          simp only [List.intercalate_cons_cons, List.cons_append, ih]

/-- The lines of a text. A carriage return and a line feed stand between two of them. -/
def splitBreaks : List Char → List (List Char)
  | [] => [[]]
  | '\r' :: '\n' :: rest => [] :: splitBreaks rest
  | c :: rest =>
    match splitBreaks rest with
    | [] => [[c]]
    | line :: lines => (c :: line) :: lines

theorem splitBreaks_cons {c : Char} (hc : c ≠ '\r') (cs : List Char) {line : List Char}
    {lines : List (List Char)} (h : splitBreaks cs = line :: lines) :
    splitBreaks (c :: cs) = (c :: line) :: lines := by
  rw [splitBreaks.eq_def]
  split
  · next hnil => cases hnil
  · next hbreak => exact absurd (List.cons.inj hbreak).1 hc
  · next hcons =>
    obtain ⟨rfl, rfl⟩ := List.cons.inj hcons
    rw [h]

theorem splitBreaks_append {cs : List Char} (h : '\r' ∉ cs) (rest : List Char) :
    splitBreaks (cs ++ '\r' :: '\n' :: rest) = cs :: splitBreaks rest := by
  induction cs with
  | nil => rfl
  | cons c cs ih =>
    obtain ⟨hc, hcs⟩ := not_or.1 (mt List.mem_cons.2 h)
    exact splitBreaks_cons (Ne.symm hc) _ (ih hcs)

/-- What stands before the first colon that a space follows, and what stands behind the two. -/
def splitField : List Char → Option (List Char × List Char)
  | [] => none
  | ':' :: ' ' :: rest => some ([], rest)
  | c :: rest => (splitField rest).map fun r => (c :: r.1, r.2)

theorem splitField_append {name : List Char} (h : ':' ∉ name) (value : List Char) :
    splitField (name ++ ':' :: ' ' :: value) = some (name, value) := by
  induction name with
  | nil => rfl
  | cons c name ih =>
    obtain ⟨hc, hname⟩ := not_or.1 (mt List.mem_cons.2 h)
    rw [List.cons_append, splitField.eq_def]
    split
    · next hnil => cases hnil
    · next hcolon => exact absurd (List.cons.inj hcolon).1 (Ne.symm hc)
    · next hcons =>
      obtain ⟨rfl, rfl⟩ := List.cons.inj hcons
      rw [ih hname]
      rfl

end NetProbe
