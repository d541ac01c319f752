import NetProbe.Toml.Quoted
import NetProbe.Toml.Writer
set_option autoImplicit false

/-! # Texts are read back

A text is written in one of four notations, and the reader tells them apart by the quotes:
`readQuoted_writeText`. Both readers of escapes undo what the writer of escapes does with a
character (`ReadsEscapes`); what is left are the quotes of a text on several lines, of which up to
two may stand right before the closing ones. -/

namespace NetProbe.Toml

variable {long : Bool} {room : Nat} {c : Char} {cs rest : List Char}

/-! ## Escapes -/

theorem charOfHex_escapeCode {n : Nat} (h : n < 128) :
    charOfHex ['0', '0', upperDigit (n / 16), upperDigit (n % 16)] = some (Char.ofNat n) := by
  revert n
  decide +kernel

theorem charOfHex_of_isControl (h : isControl c = true) :
    charOfHex ['0', '0', upperDigit (c.toNat / 16), upperDigit (c.toNat % 16)] = some c := by
  have hlt : c.toNat < 128 := by
    simp only [isControl, Bool.or_eq_true, Bool.and_eq_true, decide_eq_true_eq, beq_iff_eq] at h
    omega
  rw [charOfHex_escapeCode hlt, Char.ofNat_toNat]

/-- Characters that are no short escape: they begin longer ones, or are white space. -/
theorem ne_of_shortEscape? {d e : Char} (hd : d ∈ ['x', 'u', 'U', ' ', '\t', '\n', '\r'])
    (h : shortEscape? e = some c) : e ≠ d := by
  rintro rfl
  simp only [List.mem_cons, List.not_mem_nil, or_false] at hd
  rcases hd with rfl | rfl | rfl | rfl | rfl | rfl | rfl <;> cases h

/-- A reader that gives back every character that is written plainly or with an escape. -/
structure ReadsEscapes (read : List Char → Read) : Prop where
  plain : ∀ c cs, c ≠ '"' → c ≠ '\\' → c ≠ '\n' → isControl c = false →
    read (c :: cs) = consChar c (read cs)
  short : ∀ e c cs, shortEscape? e = some c → read ('\\' :: e :: cs) = consChar c (read cs)
  code : ∀ c cs, isControl c = true → read (escapeCode c ++ cs) = consChar c (read cs)

theorem escapeCode_append : escapeCode c ++ cs =
    '\\' :: 'u' :: '0' :: '0' :: upperDigit (c.toNat / 16) :: upperDigit (c.toNat % 16) :: cs :=
  rfl

theorem readsEscapes_readBasic : ReadsEscapes readBasic where
  plain c cs hquote hslash _ hcontrol := by
    rw [readBasic, hcontrol, if_neg Bool.false_ne_true] <;> simp_all
  short e c cs h := by
    have hx : e ≠ 'x' := ne_of_shortEscape? (by decide) h
    have hu : e ≠ 'u' := ne_of_shortEscape? (by decide) h
    have hU : e ≠ 'U' := ne_of_shortEscape? (by decide) h
    rw [readBasic.eq_def]
    simp [h, hx, hu, hU]
  code c cs h := by
    rw [escapeCode_append, readBasic, charOfHex_of_isControl h]

theorem readsEscapes_readLongBasic : ReadsEscapes (readLongBasic false) where
  plain c cs hquote hslash hbreak hcontrol := by
    have hreturn : c ≠ '\r' := by
      rintro rfl
      cases hcontrol
    by_cases hspace : c = ' '
    · rw [hspace, readLongBasic, if_neg Bool.false_ne_true]
    by_cases htab : c = '\t'
    · rw [htab, readLongBasic, if_neg Bool.false_ne_true]
    rw [readLongBasic, hcontrol, if_neg Bool.false_ne_true] <;> simp_all
  short e c cs h := by
    have hx : e ≠ 'x' := ne_of_shortEscape? (by decide) h
    have hu : e ≠ 'u' := ne_of_shortEscape? (by decide) h
    have hU : e ≠ 'U' := ne_of_shortEscape? (by decide) h
    have hends : endsLine (e :: cs) = false := by
      have hspace : isSpace e = false := by
        simp [isSpace, ne_of_shortEscape? (d := ' ') (by decide) h,
          ne_of_shortEscape? (d := '\t') (by decide) h]
      rw [endsLine, List.dropWhile_cons, hspace, if_neg Bool.false_ne_true]
      simp [ne_of_shortEscape? (d := '\n') (by decide) h,
        ne_of_shortEscape? (d := '\r') (by decide) h]
    rw [readLongBasic.eq_def]
    simp [h, hx, hu, hU, hends]
  code c cs h := by
    rw [escapeCode_append, readLongBasic, charOfHex_of_isControl h]

/-! ## Texts with escapes -/

/-- What may be written for a character that is no quote. -/
inductive Written (long : Bool) : Char → List Char → Prop
  | plain {c : Char} : c ≠ '"' → c ≠ '\\' → c ≠ '\n' → isControl c = false → Written long c [c]
  | short {e c : Char} : shortEscape? e = some c → Written long c ['\\', e]
  | code {c : Char} : isControl c = true → Written long c (escapeCode c)
  | lineBreak : long = true → Written long '\n' ['\n']

/-- The quotes that may stand side by side. -/
def fullRoom (long : Bool) : Nat := if long then 2 else 0

/-- A character other than a quote is written by itself, and then there is room for quotes again. -/
theorem exists_written (long : Bool) (hquote : c ≠ '"') : ∃ w, Written long c w ∧ ∀ room cs,
    writeEscaped long room (c :: cs) = w ++ writeEscaped long (fullRoom long) cs := by
  simp only [writeEscaped, if_neg hquote]
  -- The cases are those of the writer, in its order.
  split
  · next hc => exact ⟨_, .short (e := 'b') (hc ▸ rfl), fun _ _ => rfl⟩
  split
  · next hc => exact ⟨_, .short (e := 't') (hc ▸ rfl), fun _ _ => rfl⟩
  split
  · next hc =>
    subst hc
    cases long with
    | true => exact ⟨_, .lineBreak rfl, fun _ _ => rfl⟩
    | false => exact ⟨_, .short (e := 'n') rfl, fun _ _ => rfl⟩
  split
  · next hc => exact ⟨_, .short (e := 'f') (hc ▸ rfl), fun _ _ => rfl⟩
  split
  · next hc => exact ⟨_, .short (e := 'r') (hc ▸ rfl), fun _ _ => rfl⟩
  split
  · next hc => exact ⟨_, .short (e := '\\') (by rw [hc]; rfl), fun _ _ => rfl⟩
  split
  · next hcontrol => exact ⟨_, .code hcontrol, fun _ _ => rfl⟩
  · next hbreak _ _ hslash hcontrol =>
    exact ⟨_, .plain hquote hslash hbreak (Bool.eq_false_iff.2 hcontrol), fun _ _ => rfl⟩

/-- The first character of what is written: a line break only for a line break, and neither a quote
    nor a carriage return. -/
theorem Written.exists_eq_cons {w : List Char} (h : Written long c w) :
    ∃ d more, w = d :: more ∧ d ≠ '"' ∧ d ≠ '\r' ∧ (d = '\n' → c = '\n') := by
  cases h with
  | plain hquote hslash hbreak hcontrol =>
    refine ⟨c, [], rfl, hquote, ?_, id⟩
    rintro rfl
    cases hcontrol
  | short h => exact ⟨_, _, rfl, by decide, by decide, nofun⟩
  | code h => exact ⟨_, _, rfl, by decide, by decide, nofun⟩
  | lineBreak h => exact ⟨_, _, rfl, by decide, by decide, id⟩

theorem ReadsEscapes.read_written {read : List Char → Read} (h : ReadsEscapes read) {w : List Char}
    (hw : Written long c w)
    (hbreak : long = true → ∀ cs, read ('\n' :: cs) = consChar '\n' (read cs)) :
    read (w ++ rest) = consChar c (read rest) := by
  cases hw with
  | plain hquote hslash hline hcontrol => exact h.plain c rest hquote hslash hline hcontrol
  | short he => exact h.short _ c rest he
  | code hcontrol => exact h.code c rest hcontrol
  | lineBreak hlong => exact hbreak hlong rest

theorem readBasic_writeEscaped (cs rest : List Char) :
    readBasic (writeEscaped false 0 cs ++ '"' :: rest) = some (cs, rest) := by
  induction cs with
  | nil => rfl
  | cons c cs ih =>
    by_cases hquote : c = '"'
    · subst hquote
      have hshort : readBasic (writeEscaped false 0 ('"' :: cs) ++ '"' :: rest) =
          consChar '"' (readBasic (writeEscaped false 0 cs ++ '"' :: rest)) :=
        readsEscapes_readBasic.short '"' '"' _ rfl
      rw [hshort, ih]
      rfl
    · obtain ⟨w, hw, hwrite⟩ := exists_written false hquote
      rw [hwrite, List.append_assoc, readsEscapes_readBasic.read_written hw nofun]
      exact congrArg (consChar c) ih

/-! ### On several lines -/

theorem readLongBasic_quote (h : ∀ more, cs ≠ '"' :: '"' :: more) :
    readLongBasic false ('"' :: cs) = consChar '"' (readLongBasic false cs) := by
  rw [readLongBasic]
  · rfl
  all_goals simp_all

/-- What stands before the closing quotes begins with a quote only if the text does. -/
theorem exists_of_writeEscaped_append {more : List Char}
    (h : writeEscaped true room cs ++ rest = '"' :: more) :
    (cs = [] ∧ rest = '"' :: more) ∨
      ∃ r ds, room = r + 1 ∧ cs = '"' :: ds ∧ writeEscaped true r ds ++ rest = more := by
  cases cs with
  | nil => exact .inl ⟨rfl, h⟩
  | cons c cs =>
    by_cases hquote : c = '"'
    · subst hquote
      cases room with
      | zero => cases h
      | succ r => exact .inr ⟨r, cs, rfl, rfl, (List.cons.inj h).2⟩
    · obtain ⟨w, hw, hwrite⟩ := exists_written true hquote
      obtain ⟨d, ds, rfl, hd, -, -⟩ := hw.exists_eq_cons
      rw [hwrite] at h
      exact absurd (List.cons.inj h).1 hd

theorem closing_lineBreak (quote : Char) (h : quote ≠ '\n') (rest : List Char) :
    closing quote ('\n' :: rest) = ([], '\n' :: rest) := by
  cases rest <;> simp [closing, h.symm]

/-- The closing quotes, and how many quotes of the text stand before them. -/
theorem readLongBasic_writeEscaped (cs rest : List Char) (hroom : room ≤ 2) :
    readLongBasic false (writeEscaped true room cs ++ '"' :: '"' :: '"' :: '\n' :: rest) =
      some (cs, '\n' :: rest) := by
  induction cs generalizing room with
  | nil =>
    rw [writeEscaped, List.nil_append, readLongBasic, closing_lineBreak _ (by decide)]
  | cons c cs ih =>
    by_cases hquote : c = '"'
    · subst hquote
      cases room with
      | zero =>
        have hshort := readsEscapes_readLongBasic.short '"' '"'
          (writeEscaped true 2 cs ++ '"' :: '"' :: '"' :: '\n' :: rest) rfl
        rw [ih (Nat.le_refl 2)] at hshort
        exact hshort
      | succ r =>
        by_cases hclosing : ∃ more,
            writeEscaped true r cs ++ '"' :: '"' :: '"' :: '\n' :: rest = '"' :: '"' :: more
        · -- Three quotes in a row: the text has at most one more quote.
          obtain ⟨more, hmore⟩ := hclosing
          rcases exists_of_writeEscaped_append hmore with ⟨rfl, -⟩ | ⟨s, ds, rfl, rfl, hds⟩
          · rfl
          · rcases exists_of_writeEscaped_append hds with ⟨rfl, -⟩ | ⟨t, es, rfl, -, -⟩
            · rfl
            · omega
        · rw [writeEscaped.eq_def]
          change readLongBasic false ('"' :: (writeEscaped true r cs ++ _)) = _
          rw [readLongBasic_quote fun more hmore => hclosing ⟨more, hmore⟩, ih (by omega)]
          rfl
    · obtain ⟨w, hw, hwrite⟩ := exists_written true hquote
      have hbreak (cs : List Char) :
          readLongBasic false ('\n' :: cs) = consChar '\n' (readLongBasic false cs) := by
        rw [readLongBasic, if_neg Bool.false_ne_true]
      rw [hwrite, List.append_assoc,
        readsEscapes_readLongBasic.read_written hw fun _ => hbreak, fullRoom, if_pos rfl,
        ih (Nat.le_refl 2)]
      rfl

/-! ## Texts without escapes -/

theorem readLiteral_append (hquote : '\'' ∉ cs) (hcontrol : ∀ c ∈ cs, isControl c = false)
    (rest : List Char) : readLiteral (cs ++ '\'' :: rest) = some (cs, rest) := by
  induction cs with
  | nil => rfl
  | cons c cs ih =>
    obtain ⟨hc, hcs⟩ := List.forall_mem_cons.1 hcontrol
    obtain ⟨hne, hquotes⟩ := not_or.1 (mt List.mem_cons.2 hquote)
    rw [List.cons_append, readLiteral, hc, ih hquotes hcs]
    · rfl
    · exact fun h => hne h.symm

theorem le_longestRow (c : Char) (n : Nat) (cs : List Char) : n ≤ longestRow c n cs := by
  induction cs generalizing n with
  | nil => exact Nat.le_refl n
  | cons d cs ih =>
    rw [longestRow]
    split
    · exact Nat.le_trans (Nat.le_succ n) (ih (n + 1))
    · exact Nat.le_max_left _ _

theorem longestRow_mono {c : Char} {n m : Nat} (h : n ≤ m) (cs : List Char) :
    longestRow c n cs ≤ longestRow c m cs := by
  induction cs generalizing n m with
  | nil => exact h
  | cons d cs ih =>
    rw [longestRow, longestRow]
    split
    · exact ih (Nat.succ_le_succ h)
    · exact Nat.max_le.2 ⟨Nat.le_trans h (Nat.le_max_left _ _), Nat.le_max_right _ _⟩

theorem longestRow_tail_le (c d : Char) (cs : List Char) :
    longestRow c 0 cs ≤ longestRow c 0 (d :: cs) := by
  rw [longestRow]
  split
  · exact longestRow_mono (Nat.zero_le 1) cs
  · exact Nat.le_max_right _ _

theorem readLongLiteral_append (hcodes : ∀ c ∈ cs, isCode c = false)
    (hrow : longestRow '\'' 0 cs ≤ 2) (rest : List Char) :
    readLongLiteral (cs ++ '\'' :: '\'' :: '\'' :: '\n' :: rest) = some (cs, '\n' :: rest) := by
  induction cs with
  | nil => rw [List.nil_append, readLongLiteral, closing_lineBreak _ (by decide)]
  | cons c cs ih =>
    obtain ⟨hc, hcs⟩ := List.forall_mem_cons.1 hcodes
    have htail := ih hcs (Nat.le_trans (longestRow_tail_le _ c cs) hrow)
    by_cases hclosing : c = '\'' ∧ ∃ more,
        cs ++ '\'' :: '\'' :: '\'' :: '\n' :: rest = '\'' :: '\'' :: more
    · -- Three quotes in a row: the text has at most one more quote.
      obtain ⟨rfl, more, hmore⟩ := hclosing
      match cs with
      | [] => rfl
      | [d] =>
        obtain ⟨rfl, -⟩ := List.cons.inj hmore
        rfl
      | d :: e :: cs =>
        obtain ⟨rfl, hquotes⟩ := List.cons.inj hmore
        obtain ⟨rfl, -⟩ := List.cons.inj hquotes
        exact absurd (Nat.le_trans (le_longestRow '\'' 3 cs) hrow) (by decide)
    · by_cases hbreak : c = '\n'
      · rw [hbreak, List.cons_append, readLongLiteral, htail]
        rfl
      · have hcontrol : isControl c = false := by
          simpa [isCode, hbreak] using hc
        have hreturn : c ≠ '\r' := by
          rintro rfl
          cases hcontrol
        rw [List.cons_append, readLongLiteral, hcontrol, htail]
        · rfl
        · exact hbreak
        · exact fun _ h => absurd h hreturn
        · exact fun more hquote hmore => hclosing ⟨hquote, more, hmore⟩

/-! ## Any text -/

theorem isCode_of_any (h : cs.any isCode = false) : ∀ c ∈ cs, isCode c = false := fun c hc =>
  Bool.eq_false_iff.2 (List.any_eq_false.1 h c hc)

theorem styleOf_eq_literal (h : styleOf cs = .literal) :
    '\'' ∉ cs ∧ ∀ c ∈ cs, isControl c = false := by
  simp only [styleOf] at h
  split at h
  · cases h
  split at h
  · next hplain =>
    simp only [Bool.and_eq_true, Bool.not_eq_true', List.contains_eq_mem,
      decide_eq_false_iff_not] at hplain
    obtain ⟨⟨hcodes, hquote⟩, hbreak⟩ := hplain
    refine ⟨hquote, fun c hc => ?_⟩
    have hne : c ≠ '\n' := fun h => hbreak (h ▸ hc)
    simpa [isCode, hne] using isCode_of_any hcodes c hc
  repeat' split at h
  all_goals cases h

theorem styleOf_eq_longLiteral (h : styleOf cs = .longLiteral) :
    (∀ c ∈ cs, isCode c = false) ∧ longestRow '\'' 0 cs ≤ 2 := by
  simp only [styleOf] at h
  split at h
  · cases h
  split at h
  · cases h
  split at h
  · cases h
  split at h
  · next hrow =>
    simp only [Bool.and_eq_true, Bool.not_eq_true', decide_eq_true_eq] at hrow
    exact ⟨isCode_of_any hrow.1, hrow.2⟩
  · split at h <;> cases h

theorem dropFirstBreak_of_ne (hbreak : c ≠ '\n') (hreturn : c ≠ '\r') :
    dropFirstBreak (c :: cs) = c :: cs := by
  rw [dropFirstBreak]
  · simpa using hbreak
  · exact fun _ h => absurd (List.cons.inj h).1 hreturn

/-- The line break in front of a text is dropped, and nothing of the text. -/
theorem dropFirstBreak_firstBreak {w : List Char}
    (h : '\n' ∉ cs → ∃ d more, w = d :: more ∧ d ≠ '\n' ∧ d ≠ '\r') :
    dropFirstBreak (firstBreak cs ++ w) = w := by
  rw [firstBreak]
  split
  · rfl
  · next hcontains =>
    obtain ⟨d, more, rfl, hbreak, hreturn⟩ := h (by simpa using hcontains)
    exact dropFirstBreak_of_ne hbreak hreturn

/-- The first character of a text with escapes: a quote only where there is room for it. -/
theorem exists_writeEscaped_eq_cons (long : Bool) (room : Nat) (c : Char) (cs : List Char) :
    ∃ d more, writeEscaped long room (c :: cs) = d :: more ∧ (d = '"' → 0 < room) ∧
      (d = '\n' → c = '\n') ∧ d ≠ '\r' := by
  by_cases hquote : c = '"'
  · subst hquote
    cases room with
    | zero => exact ⟨_, _, rfl, nofun, nofun, by decide⟩
    | succ room => exact ⟨_, _, rfl, fun _ => Nat.succ_pos room, nofun, by decide⟩
  · obtain ⟨w, hw, hwrite⟩ := exists_written long hquote
    obtain ⟨d, more, rfl, hd, hreturn, hbreak⟩ := hw.exists_eq_cons
    exact ⟨d, _, hwrite room cs, fun h => absurd h hd, hbreak, hreturn⟩

theorem readQuoted_basic (h : ∀ more, cs ≠ '"' :: '"' :: more) :
    readQuoted ('"' :: cs) = readBasic cs := by
  rw [readQuoted]
  · rfl
  · simpa using h
  · simp

theorem readQuoted_literal (h : ∀ more, cs ≠ '\'' :: '\'' :: more) :
    readQuoted ('\'' :: cs) = readLiteral cs := by
  rw [readQuoted]
  · rfl
  · simp
  · simpa using h

/-- A text at the end of a line is read back. -/
theorem readQuoted_writeText (cs rest : List Char) :
    readQuoted (writeText cs ++ '\n' :: rest) = some (cs, '\n' :: rest) := by
  rw [writeText]
  cases hstyle : styleOf cs with
  | basic =>
    have hquotes (more : List Char) :
        writeEscaped false 0 cs ++ '"' :: '\n' :: rest ≠ '"' :: '"' :: more := by
      cases cs with
      | nil => simp [writeEscaped]
      | cons c cs =>
        obtain ⟨d, ds, hd, hquote, -, -⟩ := exists_writeEscaped_eq_cons false 0 c cs
        rw [hd]
        exact fun h => Nat.lt_irrefl 0 (hquote (List.cons.inj h).1)
    have hread := readBasic_writeEscaped cs ('\n' :: rest)
    rw [← readQuoted_basic hquotes] at hread
    simpa using hread
  | literal =>
    obtain ⟨hquote, hcontrol⟩ := styleOf_eq_literal hstyle
    have hquotes (more : List Char) : cs ++ '\'' :: '\n' :: rest ≠ '\'' :: '\'' :: more := by
      cases cs with
      | nil => simp
      | cons c cs => exact fun h => hquote ((List.cons.inj h).1 ▸ List.mem_cons_self)
    have hread := readLiteral_append hquote hcontrol ('\n' :: rest)
    rw [← readQuoted_literal hquotes] at hread
    simpa using hread
  | longBasic =>
    have hdrop : dropFirstBreak (firstBreak cs ++ (writeEscaped true 2 cs ++ '"' :: '"' :: '"' ::
        '\n' :: rest)) = writeEscaped true 2 cs ++ '"' :: '"' :: '"' :: '\n' :: rest := by
      refine dropFirstBreak_firstBreak fun hbreak => ?_
      cases cs with
      | nil => exact ⟨_, _, rfl, by decide, by decide⟩
      | cons c cs =>
        obtain ⟨d, ds, hd, -, hline, hreturn⟩ := exists_writeEscaped_eq_cons true 2 c cs
        rw [hd]
        exact ⟨d, _, rfl, fun h => hbreak (hline h ▸ List.mem_cons_self), hreturn⟩
    have hread := readLongBasic_writeEscaped cs rest (Nat.le_refl 2)
    rw [← hdrop] at hread
    simpa [readQuoted] using hread
  | longLiteral =>
    obtain ⟨hcodes, hrow⟩ := styleOf_eq_longLiteral hstyle
    have hdrop : dropFirstBreak (firstBreak cs ++ (cs ++ '\'' :: '\'' :: '\'' :: '\n' :: rest)) =
        cs ++ '\'' :: '\'' :: '\'' :: '\n' :: rest := by
      refine dropFirstBreak_firstBreak fun hbreak => ?_
      cases cs with
      | nil => exact ⟨_, _, rfl, by decide, by decide⟩
      | cons c cs =>
        refine ⟨c, _, rfl, fun h => hbreak (h ▸ List.mem_cons_self), ?_⟩
        rintro rfl
        cases hcodes _ List.mem_cons_self
    have hread := readLongLiteral_append hcodes hrow rest
    rw [← hdrop] at hread
    simpa [readQuoted] using hread

end NetProbe.Toml
