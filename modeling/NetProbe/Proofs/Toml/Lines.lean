import NetProbe.Proofs.Json.Tokens
import NetProbe.Proofs.Toml.Quoted
import NetProbe.Toml.Reader
set_option autoImplicit false

/-! # Lines are read back

What is written line by line is read statement by statement. A text `Spells` a value if it is read
as that value at the end of a line, a `Line` is read as one statement, and `Lines` are read as their
statements in order, whatever blank lines stand between them: `readStatements_lines`. -/

namespace NetProbe.Toml

variable {c : Char} {cs ds rest : List Char}

/-- A character of a class is none of those outside of it. -/
theorem ne_of_class {p : Char → Bool} {d : Char} (hc : p c = true) (hd : p d = false) : c ≠ d := by
  rintro rfl
  rw [hc] at hd
  cases hd

/-! ## Whole numbers -/

theorem isDigit_of_mem_writeNat {n : Nat} (h : c ∈ writeNat n) : c.isDigit = true :=
  Nat.isDigit_of_mem_toDigits (by decide) (by decide) h

theorem digitValue?_of_isDigit (h : c.isDigit = true) :
    digitValue? 10 c = some (c.toNat - 48) := by
  obtain ⟨hlow, hhigh⟩ := Json.isDigit_iff.1 h
  have hle : '0' ≤ c ∧ c ≤ '9' := ⟨hlow, hhigh⟩
  have hlt : c.toNat - 48 < 10 := by omega
  simp only [digitValue?, if_pos hle, if_pos hlt]

theorem digits?_of_isDigit (hne : ds ≠ []) (hds : ∀ d ∈ ds, d.isDigit = true) :
    digits? 10 ds = some (ds.map fun d => d.toNat - 48) := by
  induction ds with
  | nil => exact absurd rfl hne
  | cons d ds ih =>
    have hd := digitValue?_of_isDigit (hds d List.mem_cons_self)
    cases ds with
    | nil => rw [digits?, hd]; rfl
    | cons e es =>
      have he : e ≠ '_' := ne_of_class (hds e (by simp)) rfl
      rw [digits?, hd, ih (List.cons_ne_nil e es) fun x hx => hds x (List.mem_cons_of_mem d hx)]
      · rfl
      · nofun
      · exact fun _ h => he (List.cons.inj h).1

theorem value_map (ds : List Char) :
    value 10 (ds.map fun d => d.toNat - 48) = Nat.ofDigitChars 10 ds 0 := by
  rw [value, List.foldl_map, Nat.ofDigitChars]
  congr 1
  funext n d
  rw [Nat.mul_comm]
  rfl

theorem decimal?_writeNat (n : Nat) : decimal? (writeNat n) = some n := by
  have hzero : ¬ (1 < ((writeNat n).map fun d => d.toNat - 48).length ∧
      ((writeNat n).map fun d => d.toNat - 48).head? = some 0) := by
    rintro ⟨hlength, hhead⟩
    rcases Nat.eq_zero_or_pos n with rfl | hpos
    · exact absurd hlength (by decide)
    · obtain ⟨c, cs, hcs, hc⟩ := Json.exists_toDigits_eq_cons hpos
      have hwrite : writeNat n = c :: cs := hcs
      have hmem : c ∈ writeNat n := hwrite ▸ List.mem_cons_self
      have hrange := Json.isDigit_iff.1 (isDigit_of_mem_writeNat hmem)
      rw [hwrite] at hhead
      have hvalue : c.toNat - 48 = 0 := Option.some.inj hhead
      have hnat : c.toNat = '0'.toNat := Nat.le_antisymm (Nat.le_of_sub_eq_zero hvalue) hrange.1
      exact hc (Char.toNat_inj.1 hnat)
  have hne : writeNat n ≠ [] := Nat.toDigits_ne_nil
  rw [decimal?, digits?_of_isDigit hne fun _ => isDigit_of_mem_writeNat]
  simp only [Option.bind_eq_bind, Option.bind_some, if_neg hzero]
  rw [value_map, writeNat, Nat.ofDigitChars_toDigits (by decide) (by decide)]
  rfl

/-- Numbers in decimal are no numbers in another base, nor names of other scalars. -/
theorem scalar?_writeNat (n : Nat) : scalar? (writeNat n) = some (.integer n) := by
  have hdigits (d : Char) (hd : d ∈ writeNat n) : d.isDigit = true := isDigit_of_mem_writeNat hd
  have hdecimal := decimal?_writeNat n
  cases hcs : writeNat n with
  | nil => exact absurd hcs Nat.toDigits_ne_nil
  | cons c cs =>
    rw [hcs] at hdigits hdecimal
    have hfirst {d : Char} : d.isDigit = false → c ≠ d := ne_of_class (hdigits c List.mem_cons_self)
    have hbase {d : Char} {more : List Char} (hd : d.isDigit = false) :
        c :: cs ≠ '0' :: d :: more := fun h =>
      ne_of_class (hdigits d (h ▸ by simp)) hd rfl
    have hsign : splitSign (c :: cs) = (false, c :: cs) := by
      rw [splitSign]
      · exact fun _ h => hfirst rfl (List.cons.inj h).1
      · exact fun _ h => hfirst rfl (List.cons.inj h).1
    have hinteger : integer? (c :: cs) = some (n : Int) := by
      rw [integer?, hsign]
      · simp only [hdecimal]
        rfl
      · exact fun _ => hbase rfl
      · exact fun _ => hbase rfl
      · exact fun _ => hbase rfl
    have ht : c ≠ 't' := hfirst rfl
    have hf : c ≠ 'f' := hfirst rfl
    simp [scalar?, ht, hf, hinteger]

theorem takeWhile_append_cons {p : Char → Bool} (hcs : ∀ d ∈ cs, p d = true) (hc : p c = false) :
    (cs ++ c :: rest).takeWhile p = cs := by
  rw [List.takeWhile_append_of_pos hcs, List.takeWhile_cons_of_neg (Bool.eq_false_iff.1 hc),
    List.append_nil]

theorem isScalarEnd_of_isDigit (h : c.isDigit = true) : isScalarEnd c = false := by
  rw [Bool.eq_false_iff]
  intro hend
  simp only [isScalarEnd, isSpace, Bool.or_eq_true, beq_iff_eq] at hend
  rcases hend with ((((((rfl | rfl) | rfl) | rfl) | rfl) | rfl) | rfl) | rfl <;> cases h

theorem readScalar_writeNat (n : Nat) (rest : List Char) :
    readScalar (writeNat n ++ '\n' :: rest) = some (.integer n, '\n' :: rest) := by
  have htoken : (writeNat n ++ '\n' :: rest).takeWhile (fun c => !isScalarEnd c) = writeNat n := by
    refine takeWhile_append_cons (fun d hd => ?_) rfl
    rw [isScalarEnd_of_isDigit (isDigit_of_mem_writeNat hd)]
    rfl
  simp only [readScalar, htoken, List.drop_left]
  -- A line break is no space, behind which a time of day could stand.
  change (scalar? (writeNat n)).map (fun v => (v, '\n' :: rest)) = _
  rw [scalar?_writeNat]
  rfl

/-! ## Values -/

/-- A text that is read as a value at the end of a line. -/
structure Spells (cs : List Char) (v : Toml) : Prop where
  first : ∃ c more, cs = c :: more ∧ isSpace c = false
  read : ∀ fuel rest, readValue (fuel + 1) (cs ++ '\n' :: rest) = some (v, '\n' :: rest)

theorem spells_writeNat (n : Nat) : Spells (writeNat n) (.integer n) := by
  obtain ⟨c, cs, hcs, hc⟩ := Json.exists_writeNat_eq_cons n
  have hcs : writeNat n = c :: cs := hcs
  have hfirst {d : Char} : d.isDigit = false → c ≠ d := ne_of_class hc
  refine ⟨⟨c, cs, hcs, by simp [isSpace, hfirst]⟩, fun fuel rest => ?_⟩
  rw [← readScalar_writeNat, hcs, List.cons_append, readValue]
  · exact fun _ h => hfirst rfl (List.cons.inj h).1
  · exact fun _ h => hfirst rfl (List.cons.inj h).1
  · exact fun _ h => hfirst rfl (List.cons.inj h).1
  · exact fun _ h => hfirst rfl (List.cons.inj h).1

theorem exists_writeText_eq_cons (cs : List Char) :
    ∃ c more, writeText cs = c :: more ∧ (c = '"' ∨ c = '\'') := by
  rw [writeText]
  cases styleOf cs with
  | basic => exact ⟨_, _, rfl, .inl rfl⟩
  | literal => exact ⟨_, _, rfl, .inr rfl⟩
  | longBasic => exact ⟨_, _, rfl, .inl rfl⟩
  | longLiteral => exact ⟨_, _, rfl, .inr rfl⟩

theorem spells_writeText (s : String) : Spells (writeText s.toList) (.string s) := by
  obtain ⟨c, cs, hcs, hc⟩ := exists_writeText_eq_cons s.toList
  refine ⟨⟨c, cs, hcs, by rcases hc with rfl | rfl <;> rfl⟩, fun fuel rest => ?_⟩
  have hread := readQuoted_writeText s.toList rest
  rw [hcs, List.cons_append] at hread ⊢
  have hvalue : readValue (fuel + 1) (c :: (cs ++ '\n' :: rest)) =
      (readQuoted (c :: (cs ++ '\n' :: rest))).map fun r => (.string (String.ofList r.1), r.2) := by
    rcases hc with rfl | rfl <;> rw [readValue]
  rw [hvalue, hread, Option.map_some, String.ofList_toList]

/-! ## Keys -/

/-- A key that needs no quotes. -/
structure IsBareKey (key : List Char) : Prop where
  ne_nil : key ≠ []
  chars : ∀ c ∈ key, isKeyChar c = true

instance (key : List Char) : Decidable (IsBareKey key) :=
  decidable_of_iff (key ≠ [] ∧ key.all isKeyChar = true)
    ⟨fun h => ⟨h.1, List.all_eq_true.1 h.2⟩, fun h => ⟨h.ne_nil, List.all_eq_true.2 h.chars⟩⟩

theorem skipSpaces_cons (h : isSpace c = false) : skipSpaces (c :: cs) = c :: cs := by
  rw [skipSpaces, List.dropWhile_cons, h, if_neg Bool.false_ne_true]

theorem isSpace_of_isKeyChar (h : isKeyChar c = true) : isSpace c = false := by
  simp [isSpace, ne_of_class (d := ' ') h rfl, ne_of_class (d := '\t') h rfl]

namespace IsBareKey

variable {key : List Char}

theorem exists_eq_cons (h : IsBareKey key) : ∃ c cs, key = c :: cs ∧ isKeyChar c = true := by
  obtain ⟨c, cs, rfl⟩ := List.exists_cons_of_ne_nil h.ne_nil
  exact ⟨c, cs, rfl, h.chars c List.mem_cons_self⟩

theorem readKey (h : IsBareKey key) (hc : isKeyChar c = false) (rest : List Char) :
    readKey (key ++ c :: rest) = some (String.ofList key, c :: rest) := by
  have hempty : key.isEmpty = false := List.isEmpty_eq_false_iff.2 h.ne_nil
  simp only [Toml.readKey, takeWhile_append_cons h.chars hc, hempty, if_neg Bool.false_ne_true,
    List.drop_left]

/-- A key is read alone if no dot follows it. -/
theorem readKeys (h : IsBareKey key) (hc : isKeyChar c = false) (rest : List Char)
    (hskip : ∃ d more, skipSpaces (c :: rest) = d :: more ∧ d ≠ '.') (fuel : Nat) :
    readKeys (fuel + 1) (key ++ c :: rest) =
      some ([String.ofList key], skipSpaces (c :: rest)) := by
  obtain ⟨d, more, hd, hdot⟩ := hskip
  obtain ⟨e, es, rfl, he⟩ := h.exists_eq_cons
  have hread := h.readKey hc rest
  rw [Toml.readKeys, List.cons_append, skipSpaces_cons (isSpace_of_isKeyChar he),
    ← List.cons_append, hread]
  simp only [Option.bind_eq_bind, Option.bind_some, hd]
  split
  · next hcons => exact absurd (List.cons.inj hcons).1 hdot
  · rfl

end IsBareKey

/-! ## Statements -/

/-- A text that is read as one statement. -/
structure Line (cs : List Char) (s : Statement) : Prop where
  first : ∃ c more, cs = c :: more ∧ (isKeyChar c = true ∨ c = '[')
  read : ∀ fuel rest, readStatement (fuel + 2) (cs ++ rest) = some (s, rest)

theorem line_writeHeader {key : List Char} (h : IsBareKey key) :
    Line (writeHeader key) (.open [] (String.ofList key)) := by
  refine ⟨⟨_, _, rfl, .inr rfl⟩, fun fuel rest => ?_⟩
  have hkeys := h.readKeys (c := ']') rfl ('\n' :: rest) ⟨_, _, rfl, by decide⟩ (fuel + 1)
  obtain ⟨c, cs, rfl, hc⟩ := h.exists_eq_cons
  have hwrite : writeHeader (c :: cs) ++ rest = '[' :: (c :: cs ++ ']' :: '\n' :: rest) := by
    simp [writeHeader]
  rw [hwrite, readStatement]
  · simp only [readHeader, hkeys, Option.bind_eq_bind, Option.bind_some]
    rfl
  · exact fun _ hcons => ne_of_class (d := '[') hc rfl (List.cons.inj hcons).1

theorem line_writeAssignment {key value : List Char} {v : Toml} (h : IsBareKey key)
    (hvalue : Spells value v) :
    Line (writeAssignment key value) (.assign [] (String.ofList key) v) := by
  obtain ⟨c, cs, rfl, hc⟩ := h.exists_eq_cons
  refine ⟨⟨c, _, rfl, .inl hc⟩, fun fuel rest => ?_⟩
  obtain ⟨d, more, rfl, hd⟩ := hvalue.first
  have hkeys := h.readKeys (c := ' ') rfl ('=' :: ' ' :: (d :: more ++ '\n' :: rest))
    ⟨_, _, rfl, by decide⟩ (fuel + 1)
  have hskip : skipSpaces (' ' :: '=' :: ' ' :: (d :: more ++ '\n' :: rest)) =
      '=' :: ' ' :: (d :: more ++ '\n' :: rest) := rfl
  have hassigned : readAssigned (fuel + 2) ('=' :: ' ' :: (d :: more ++ '\n' :: rest)) =
      some (v, '\n' :: rest) := by
    have hspace : skipSpaces (' ' :: (d :: more ++ '\n' :: rest)) = d :: more ++ '\n' :: rest :=
      skipSpaces_cons hd
    rw [readAssigned, hspace, hvalue.read]
  have hwrite : writeAssignment (c :: cs) (d :: more) ++ rest =
      c :: cs ++ ' ' :: '=' :: ' ' :: (d :: more ++ '\n' :: rest) := by
    simp [writeAssignment]
  have hbracket : c ≠ '[' := ne_of_class hc rfl
  rw [hwrite, readStatement]
  · simp only [hkeys, hskip, hassigned, Option.bind_eq_bind, Option.bind_some]
    rfl
  · exact fun _ hcons => hbracket (List.cons.inj hcons).1
  · exact fun _ hcons => hbracket (List.cons.inj hcons).1

/-! ## Documents -/

/-- A text of lines, with blank lines between some of them, and their statements. -/
inductive Lines : List Char → List Statement → Prop
  | nil : Lines [] []
  | blank {cs : List Char} {ss : List Statement} : Lines cs ss → Lines ('\n' :: cs) ss
  | line {ds cs : List Char} {s : Statement} {ss : List Statement} :
    Line ds s → Lines cs ss → Lines (ds ++ cs) (s :: ss)

namespace Lines

variable {ss ts : List Statement}

theorem append (hcs : Lines cs ss) (hds : Lines ds ts) : Lines (cs ++ ds) (ss ++ ts) := by
  induction hcs with
  | nil => exact hds
  | blank _ ih => exact .blank ih
  | line hline _ ih =>
    rw [List.append_assoc, List.cons_append]
    exact .line hline ih

theorem length_le (h : Lines cs ss) : ss.length ≤ cs.length := by
  induction h with
  | nil => exact Nat.le_refl 0
  | blank _ ih => exact Nat.le_succ_of_le ih
  | line hline _ ih =>
    obtain ⟨c, more, rfl, -⟩ := hline.first
    simp only [List.cons_append, List.length_cons, List.length_append]
    omega

end Lines

/-- No filler stands in front of a line. -/
theorem Line.skipFiller {s : Statement} (h : Line cs s) (rest : List Char) :
    skipFiller false (cs ++ rest) = some (cs ++ rest) := by
  obtain ⟨c, more, rfl, hc⟩ := h.first
  have hfirst {d : Char} (hd : isKeyChar d = false) (hbracket : '[' ≠ d) : c ≠ d := by
    rcases hc with hc | rfl
    · exact ne_of_class hc hd
    · exact hbracket
  have hspace : isSpace c = false := by
    simp [isSpace, hfirst (d := ' ') rfl (by decide), hfirst (d := '\t') rfl (by decide)]
  have hcomment : c ≠ '#' := hfirst rfl (by decide)
  rw [List.cons_append, Toml.skipFiller]
  · simp [hspace, hcomment]
  · exact hfirst rfl (by decide)
  · exact fun _ h => absurd h (hfirst rfl (by decide))

theorem readStatements_of_lines {ss : List Statement} {fuel : Nat} (h : Lines cs ss)
    (hfuel : ss.length + 3 ≤ fuel) : readStatements fuel cs = some ss := by
  -- Each statement takes one of the fuel, and reading the last one needs two more.
  induction h generalizing fuel with
  | nil =>
    obtain ⟨fuel, rfl⟩ := Nat.exists_eq_add_of_le' hfuel
    rfl
  | blank _ ih =>
    rw [← ih hfuel]
    obtain ⟨fuel, rfl⟩ := Nat.exists_eq_add_of_le' hfuel
    rfl
  | @line ds cs s ss hline _ ih =>
    obtain ⟨fuel, rfl⟩ := Nat.exists_eq_add_of_le' hfuel
    have hrest := ih (Nat.le_add_left (ss.length + 3) fuel)
    have hread := hline.read (fuel + (ss.length + 1)) cs
    change readStatements (fuel + (ss.length + 3) + 1) (ds ++ cs) = _
    rw [readStatements, hline.skipFiller cs]
    obtain ⟨c, more, rfl, -⟩ := hline.first
    change ((readStatement (fuel + (ss.length + 1) + 2) (c :: more ++ cs)).bind fun r =>
      (readStatements (fuel + (ss.length + 3)) r.2).bind fun ts => some (r.1 :: ts)) = _
    rw [hread, Option.bind_some, hrest]
    rfl

/-- A text of lines spells the document of their statements. -/
theorem parse?_of_lines {ss : List Statement} (h : Lines cs ss) (hmark : cs.head? ≠ some '\ufeff') :
    parse? (String.ofList cs) = ofStatements ss := by
  have hdrop : dropMark cs = cs := by
    rw [dropMark]
    rintro rest rfl
    exact hmark rfl
  -- Every statement has at least one character, so the fuel is enough.
  have hlength := h.length_le
  rw [parse?, String.toList_ofList, hdrop, readStatements_of_lines h (by omega)]
  rfl

end NetProbe.Toml
