import Mathlib.Algebra.Group.Nat.Defs
import NetProbe.Http.Response
import NetProbe.Proofs.Text.Utf8
set_option autoImplicit false

/-! # Lines of a stream

A line that a peer sends is read back as its text, whatever follows it (`readLine_bytes`), and the
digits of a number as the number. So a line that announces the size of a chunk is understood, with
any zeros before the size, white space around it and extensions behind it
(`chunkSizeOf_of_announces`). -/

namespace NetProbe.Http

/-- A line as a peer may send it: a text without breaks, not too long with its end. -/
structure Line where
  text : String
  unbroken : '\n' ∉ text.toList ∧ '\r' ∉ text.toList
  short : (Text.toBytes text).length + 2 ≤ maxLine

namespace Line

/-- The bytes of a line, with a carriage return and a line feed at the end. -/
def bytes (l : Line) : Bytes := Text.toBytes l.text ++ [13, 10]

/-- The line that ends heads and trailers. -/
def blank : Line where
  text := ""
  unbroken := by decide
  short := by
    rw [Text.toBytes_eq_flatMap]
    decide

theorem not_mem_bytes (l : Line) :
    (10 : UInt8) ∉ Text.toBytes l.text ∧ (13 : UInt8) ∉ Text.toBytes l.text :=
  ⟨fun h => l.unbroken.1 ((Text.mem_toBytes_iff (c := '\n') (by decide) l.text).1 h),
   fun h => l.unbroken.2 ((Text.mem_toBytes_iff (c := '\r') (by decide) l.text).1 h)⟩

end Line

theorem takeLine_append {most : Nat} {bs : Bytes} (hbs : lineFeed ∉ bs) (hmost : bs.length < most)
    (rest : Bytes) : takeLine most (bs ++ lineFeed :: rest) = bs ++ [lineFeed] := by
  induction bs generalizing most with
  | nil =>
    obtain ⟨most, rfl⟩ : ∃ k, most = k + 1 := ⟨most - 1, by simp at hmost; omega⟩
    rw [List.nil_append, takeLine, if_pos rfl]
    rfl
  | cons b bs ih =>
    obtain ⟨hb, hbs⟩ := not_or.1 (mt List.mem_cons.2 hbs)
    obtain ⟨most, rfl⟩ : ∃ k, most = k + 1 := ⟨most - 1, by simp at hmost; omega⟩
    rw [List.cons_append, takeLine, if_neg (Ne.symm hb), ih hbs (Nat.lt_of_succ_lt_succ hmost)]
    rfl

theorem withoutBreaks_append {bs : Bytes} (h : (10 : UInt8) ∉ bs ∧ (13 : UInt8) ∉ bs) :
    withoutBreaks (bs ++ [13, 10]) = bs := by
  have hkeep : bs.reverse.dropWhile (fun b => b = 10 || b = 13) = bs.reverse := by
    cases hrev : bs.reverse with
    | nil => rfl
    | cons b cs =>
      have hb : b ∈ bs := by
        rw [← List.mem_reverse, hrev]
        exact List.mem_cons_self
      have hne : (decide (b = 10) || decide (b = 13)) = false := by
        simp only [Bool.or_eq_false_iff, decide_eq_false_iff_not]
        exact ⟨fun h10 => h.1 (h10 ▸ hb), fun h13 => h.2 (h13 ▸ hb)⟩
      rw [List.dropWhile_cons, hne]
      rfl
  rw [withoutBreaks]
  simp [hkeep]

theorem readLine_bytes (l : Line) (ending : StreamEnd) (rest : Bytes) :
    readLine ending (l.bytes ++ rest) = .ok (l.text, rest) := by
  have hbs := l.not_mem_bytes
  have htake : takeLine maxLine (l.bytes ++ rest) = l.bytes := by
    have hfeed : lineFeed ∉ Text.toBytes l.text ++ [13] := by
      simp only [List.mem_append, List.mem_singleton, not_or]
      exact ⟨hbs.1, by decide⟩
    have hline : l.bytes ++ rest = (Text.toBytes l.text ++ [13]) ++ lineFeed :: rest := by
      simp [Line.bytes, lineFeed]
    rw [hline, takeLine_append hfeed (by have := l.short; simp; omega)]
    simp [Line.bytes, lineFeed]
  have hlast : l.bytes.getLast? = some lineFeed := by simp [Line.bytes, lineFeed]
  rw [readLine]
  simp only [htake, if_pos hlast]
  rw [Line.bytes, withoutBreaks_append hbs, Text.ofBytes?_toBytes]
  simp

/-! ## Numbers -/

/-- The digits of a number, from left to right, in either case and with any zeros before them. -/
inductive Spells (base : Nat) : List Char → Nat → Prop
  | digit {c : Char} {d : Nat} : AddressText.digit? base c = some d → Spells base [c] d
  | more {cs : List Char} {n : Nat} {c : Char} {d : Nat} : Spells base cs n →
      AddressText.digit? base c = some d → Spells base (cs ++ [c]) (n * base + d)

namespace Spells

variable {base n : Nat} {cs : List Char}

theorem ne_nil (h : Spells base cs n) : cs ≠ [] := by
  cases h <;> simp

theorem digits (h : Spells base cs n) : ∃ ds, cs.mapM (AddressText.digit? base) = some ds ∧
    ds.foldl (fun n d => n * base + d) 0 = n := by
  induction h with
  | @digit c d hd => exact ⟨[d], by simp [hd], by simp⟩
  | @more cs n c d _ hd ih =>
    obtain ⟨ds, hds, hvalue⟩ := ih
    exact ⟨ds ++ [d], by simp [List.mapM_append, hds, hd], by simp [hvalue]⟩

theorem isDigit (h : Spells base cs n) : ∀ c ∈ cs, (AddressText.digit? base c).isSome := by
  induction h with
  | digit hd => simp [hd]
  | more _ hd ih => simpa [hd, or_imp, forall_and] using ih

end Spells

theorem range_of_digit? {base : Nat} {c : Char} (h : (AddressText.digit? base c).isSome) :
    (48 ≤ c.toNat ∧ c.toNat ≤ 57) ∨ (65 ≤ c.toNat ∧ c.toNat ≤ 90) ∨
      (97 ≤ c.toNat ∧ c.toNat ≤ 122) := by
  rw [AddressText.digit?] at h
  split at h
  · next hc => exact .inl hc
  split at h
  · next hc => exact .inr (.inr hc)
  split at h
  · next hc => exact .inr (.inl hc)
  · simp at h

theorem Spells.not_mem {base n : Nat} {cs : List Char} {c : Char} (h : Spells base cs n)
    (hc : c.toNat < 48 ∨ (57 < c.toNat ∧ c.toNat < 65)) : c ∉ cs := by
  intro hmem
  have := range_of_digit? (h.isDigit c hmem)
  omega

theorem number?_of_spells {base n limit : Nat} {cs : List Char} (h : Spells base cs n)
    (hn : n ≤ limit) : number? base limit cs = some n := by
  obtain ⟨ds, hds, hvalue⟩ := h.digits
  have hplus : cs.head? ≠ some '+' := fun hplus =>
    h.not_mem (by decide) (List.mem_of_head? hplus)
  rw [number?, if_neg hplus]
  simp only [List.isEmpty_iff, h.ne_nil, if_false, hds, hvalue, if_pos hn]

/-- Numbers as they are usually written. -/
theorem spells_toDigits {base : Nat} (hbase : 1 < base)
    (hdigit : ∀ d < base, AddressText.digit? base d.digitChar = some d) (n : Nat) :
    Spells base (Nat.toDigits base n) n := by
  induction n using Nat.strongRecOn with
  | ind n ih =>
    rw [Nat.toDigits_eq_if hbase]
    split
    · next h => exact .digit (hdigit n h)
    · next h =>
      have hlt : n / base < n := Nat.div_lt_self (by omega) hbase
      have hvalue : n / base * base + n % base = n := Nat.div_add_mod' n base
      have hmore := (ih (n / base) hlt).more (hdigit (n % base) (Nat.mod_lt n (by omega)))
      rwa [hvalue] at hmore

theorem spells_decimal (n : Nat) : Spells 10 (Nat.toDigits 10 n) n :=
  spells_toDigits (by decide) (by decide) n

theorem spells_hexadecimal (n : Nat) : Spells 16 (Nat.toDigits 16 n) n :=
  spells_toDigits (by decide) (by decide) n

/-! ## Sizes of chunks -/

/-- A line that announces a chunk of so many bytes: the size in hexadecimal, perhaps with white
    space around it, and perhaps something behind a semicolon. -/
def Announces (line : String) (size : Nat) : Prop :=
  ∃ before digits after extension : List Char,
    line.toList = before ++ digits ++ after ++ extension ∧
    (∀ c ∈ before ++ after, c = ' ' ∨ c = '\t') ∧ Spells 16 digits size ∧
    (extension = [] ∨ extension.head? = some ';')

theorem dropWhile_isBlank {before cs : List Char} (hbefore : ∀ c ∈ before, Text.isBlank c = true)
    (hcs : ∀ c ∈ cs, Text.isBlank c = false) (rest : List Char) (hne : cs ≠ []) :
    (before ++ (cs ++ rest)).dropWhile Text.isBlank = cs ++ rest := by
  rw [List.dropWhile_append_of_pos hbefore]
  cases cs with
  | nil => exact absurd rfl hne
  | cons c cs => rw [List.cons_append, List.dropWhile_cons, hcs c List.mem_cons_self]; rfl

theorem trimChars_append {before cs after : List Char}
    (hbefore : ∀ c ∈ before, Text.isBlank c = true) (hafter : ∀ c ∈ after, Text.isBlank c = true)
    (hcs : ∀ c ∈ cs, Text.isBlank c = false) (hne : cs ≠ []) :
    Text.trimChars (before ++ cs ++ after) = cs := by
  rw [Text.trimChars, List.append_assoc, dropWhile_isBlank hbefore hcs after hne]
  have h : (after.reverse ++ (cs.reverse ++ [])).dropWhile Text.isBlank = cs.reverse ++ [] :=
    dropWhile_isBlank (by simpa using hafter) (by simpa using hcs) [] (by simpa using hne)
  rw [List.append_nil] at h
  rw [List.reverse_append, h, List.reverse_reverse]

theorem chunkSizeOf_of_announces {line : String} {size : Nat} (h : Announces line size)
    (hsize : size < 2 ^ 64) : chunkSizeOf line = .ok size := by
  obtain ⟨before, digits, after, extension, hline, hblank, hspells, hext⟩ := h
  have hwhite : ∀ c ∈ before ++ after, Text.isBlank c = true ∧ c ≠ ';' := by
    intro c hc
    rcases hblank c hc with rfl | rfl <;> decide
  have hdigits : ∀ c ∈ digits, Text.isBlank c = false ∧ c ≠ ';' := by
    intro c hc
    refine ⟨?_, fun h => hspells.not_mem (by decide) (h ▸ hc)⟩
    have := range_of_digit? (hspells.isDigit c hc)
    simp only [Text.isBlank, Bool.or_eq_false_iff, Bool.and_eq_false_iff, decide_eq_false_iff_not,
      beq_eq_false_iff_ne]
    omega
  have hsemicolon : ∀ c ∈ before ++ digits ++ after, (c != ';') = true := by
    intro c hc
    rw [bne_iff_ne]
    rcases List.mem_append.1 hc with hc | hc
    · rcases List.mem_append.1 hc with hc | hc
      · exact (hwhite c (List.mem_append_left _ hc)).2
      · exact (hdigits c hc).2
    · exact (hwhite c (List.mem_append_right _ hc)).2
  have hfield : line.toList.takeWhile (· != ';') = before ++ digits ++ after := by
    rw [hline, List.takeWhile_append_of_pos hsemicolon]
    rcases hext with rfl | hext
    · simp
    · obtain ⟨t, rfl⟩ : ∃ t, extension = ';' :: t := by
        cases extension with
        | nil => cases hext
        | cons c t => exact ⟨t, by rw [Option.some.inj hext]⟩
      simp
  have htrim : Text.trimChars (before ++ digits ++ after) = digits :=
    trimChars_append (fun c hc => (hwhite c (List.mem_append_left _ hc)).1)
      (fun c hc => (hwhite c (List.mem_append_right _ hc)).1) (fun c hc => (hdigits c hc).1)
      hspells.ne_nil
  rw [chunkSizeOf]
  simp only [hfield, htrim, number?_of_spells hspells (Nat.le_of_lt_succ hsize)]

/-- The line that announces a size and nothing else. -/
def Line.ofSize (size : Nat) (h : size < 2 ^ 64) : Line where
  text := String.ofList (Nat.toDigits 16 size)
  unbroken := by
    rw [String.toList_ofList]
    exact ⟨(spells_hexadecimal size).not_mem (by decide),
      (spells_hexadecimal size).not_mem (by decide)⟩
  short := by
    have hdigits : (Nat.toDigits 16 size).length ≤ 16 :=
      (Nat.length_toDigits_le_iff (by decide) (by decide)).2 h
    have hbytes := Text.length_toBytes_le (String.ofList (Nat.toDigits 16 size))
    rw [String.toList_ofList] at hbytes
    unfold maxLine
    omega

theorem Line.announces_ofSize {size : Nat} (h : size < 2 ^ 64) :
    Announces (Line.ofSize size h).text size :=
  ⟨[], _, [], [], by simp [Line.ofSize], nofun, spells_hexadecimal size, .inl rfl⟩

end NetProbe.Http
