import NetProbe.Proofs.Json.Schema
import NetProbe.Proofs.Json.Shape
import NetProbe.Proofs.Json.Tokens
set_option autoImplicit false

/-! # Values are read back

A value without fractions that was written is read back exactly if it is nested less deep than the
reader admits, and otherwise refused for its depth and for nothing else: `readValue_write`. -/

namespace NetProbe.Json

/-! ## One step of the reader -/

theorem readValue_string (fuel depth : Nat) (cs : List Char) :
    readValue (fuel + 1) depth ('"' :: cs) = (do
      let (s, rest) ← readString cs
      return (.string s, rest)) := rfl

theorem readValue_array (fuel depth : Nat) (cs : List Char) :
    readValue (fuel + 1) (depth + 2) ('[' :: cs) = (do
      let (items, rest) ← readItems fuel (depth + 1) true cs
      let rest ← endList rest
      return (.array items, rest)) := rfl

theorem readValue_object (fuel depth : Nat) (cs : List Char) :
    readValue (fuel + 1) (depth + 2) ('{' :: cs) = (do
      let (members, rest) ← readMembers fuel (depth + 1) true cs
      let rest ← endObject rest
      return (ofMembers members, rest)) := rfl

theorem readValue_number {c : Char} (h : c = '-' ∨ c.isDigit = true) (fuel depth : Nat)
    (cs : List Char) :
    readValue (fuel + 1) depth (c :: cs) = (do
      let (n, rest) ← readNumber (c :: cs)
      return (.number n, rest)) := by
  have hblank : isBlank c = false := by
    rcases h with rfl | h
    · rfl
    · exact isBlank_eq_false (by have := isDigit_iff.1 h; omega)
  have hkind : (c == '-' || c.isDigit) = true := by simpa using h
  rw [readValue.eq_def]
  simp only [skipBlank_cons hblank]
  split
  · next heq => cases heq
  -- The words, the quote and the brackets start neither with a digit nor with the minus sign.
  iterate 6
    · next heq =>
      cases heq
      exact absurd h (by decide)
  · next heq =>
    cases heq
    rw [if_pos hkind]

/-! ## Items and members in a row -/

/-- The items of a list as they are written: all of them, or those behind the first one, with the
    comma before them. -/
def itemsText (first : Bool) (items : List Json) : List Char :=
  if first || items.isEmpty then writeItems items else ',' :: writeItems items

/-- The members of an object as they are written: all of them, or those behind the first one, with
    the comma before them. -/
def membersText (first : Bool) (members : List (String × Json)) : List Char :=
  if first || members.isEmpty then writeMembers members else ',' :: writeMembers members

theorem writeItems_cons (v : Json) (items : List Json) :
    writeItems (v :: items) = write v ++ itemsText false items := by
  cases items with
  | nil => simp [writeItems, itemsText]
  | cons w items => simp [writeItems, itemsText]

theorem writeMembers_cons (k : String) (v : Json) (members : List (String × Json)) :
    writeMembers ((k, v) :: members) =
      writeString k ++ ':' :: (write v ++ membersText false members) := by
  cases members with
  | nil => simp [writeMembers, membersText]
  | cons m members => simp [writeMembers, membersText]

theorem write_array_append (items : List Json) (rest : List Char) :
    write (.array items) ++ rest = '[' :: (itemsText true items ++ ']' :: rest) := by
  simp [write, itemsText]

theorem write_object_append (members : List (String × Json)) (rest : List Char) :
    write (.object members) ++ rest = '{' :: (membersText true members ++ '}' :: rest) := by
  simp [write, membersText]

theorem ends_itemsText (items : List Json) (rest : List Char) :
    Ends (itemsText false items ++ ']' :: rest) := by
  cases items with
  | nil => exact .inr (.inl rfl)
  | cons v items => exact .inl rfl

theorem ends_membersText (members : List (String × Json)) (rest : List Char) :
    Ends (membersText false members ++ '}' :: rest) := by
  cases members with
  | nil => exact .inr (.inr rfl)
  | cons m members => exact .inl rfl

/-- A value that does not start like white space or like the end of a list. -/
def Starts (v : Json) : Prop :=
  ∃ c cs, write v = c :: cs ∧ isBlank c = false ∧ c ≠ ']'

theorem Exact.starts {v : Json} (h : v.Exact) : v.Starts := by
  cases v with
  | null => exact ⟨_, _, rfl, rfl, by decide⟩
  | bool b => cases b <;> exact ⟨_, _, rfl, rfl, by decide⟩
  | string s => exact ⟨_, _, rfl, rfl, by decide⟩
  | array items => exact ⟨_, _, rfl, rfl, by decide⟩
  | object members => exact ⟨_, _, rfl, rfl, by decide⟩
  | number n =>
    cases n with
    | fraction x => exact h.2.elim
    | whole n =>
      obtain ⟨c, cs, hcs, hc⟩ := exists_writeInt_eq_cons n
      refine ⟨c, cs, hcs, ?_, ?_⟩
      · rcases hc with rfl | hc
        · rfl
        · exact isBlank_eq_false (by have := isDigit_iff.1 hc; omega)
      · rintro rfl
        exact absurd hc (by decide)

theorem Starts.length_pos {v : Json} (h : v.Starts) : 0 < (write v).length := by
  obtain ⟨c, cs, hcs, -, -⟩ := h
  rw [hcs]
  exact Nat.succ_pos _

theorem nextItem_nil (first : Bool) (rest : List Char) :
    nextItem first (itemsText first [] ++ ']' :: rest) = .ok (false, ']' :: rest) := by
  cases first <;> rfl

theorem nextItem_cons (first : Bool) {v : Json} (hv : v.Starts) (items : List Json)
    (rest : List Char) :
    nextItem first (itemsText first (v :: items) ++ rest) =
      .ok (true, write v ++ (itemsText false items ++ rest)) := by
  obtain ⟨c, cs, hcs, hblank, hend⟩ := hv
  have hend : (c == ']') = false := beq_eq_false_iff_ne.2 hend
  have hcomma : isBlank ',' = false := rfl
  cases first <;>
    simp [itemsText, writeItems_cons, hcs, nextItem, skipBlank_cons hcomma, skipBlank_cons hblank,
      hend]

theorem nextKey_nil (first : Bool) (rest : List Char) :
    nextKey first (membersText first [] ++ '}' :: rest) = .ok (false, '}' :: rest) := by
  cases first <;> rfl

theorem nextKey_cons (first : Bool) (k : String) (v : Json) (members : List (String × Json))
    (rest : List Char) :
    ∃ body, nextKey first (membersText first ((k, v) :: members) ++ rest) = .ok (true, body) ∧
      readString body = .ok (k, ':' :: (write v ++ (membersText false members ++ rest))) := by
  obtain ⟨body, hbody, hread⟩ :=
    readString_writeString k (':' :: (write v ++ (membersText false members ++ rest)))
  have htext : writeMembers ((k, v) :: members) ++ rest = '"' :: body := by
    rw [writeMembers_cons, ← hbody]
    simp
  refine ⟨body, ?_, hread⟩
  cases first with
  | true =>
    rw [membersText, Bool.true_or, if_pos rfl, htext]
    rfl
  | false =>
    rw [membersText, if_neg (by simp), List.cons_append, htext]
    rfl

/-! ## Whole values -/

/-- What is read of something that is nested so deep, if the reader admits it. -/
def admitted {α : Type} (nesting depth : Nat) (a : α) : Except ReadError α :=
  if nesting < depth then .ok a else .error .tooDeep

section

variable {α β : Type} {n m depth : Nat} {a : α} {b : β} {f : α → Except ReadError β}

theorem admitted_zero (h : 0 < depth) : admitted 0 depth a = .ok a := if_pos h

theorem admitted_succ : admitted (n + 1) (depth + 1) a = admitted n depth a := by
  simp only [admitted, Nat.add_lt_add_iff_right]

/-- Nothing is read behind what is too deep. -/
theorem admitted_bind (h : f a = admitted m depth b) :
    admitted n depth a >>= f = admitted (max n m) depth b := by
  by_cases hn : n < depth
  · rw [admitted, if_pos hn]
    refine h.trans ?_
    simp only [admitted, Nat.max_lt, hn, true_and]
  · rw [admitted, if_neg hn, admitted, if_neg fun hmax => hn (Nat.max_lt.1 hmax).1]
    rfl

theorem admitted_bind_ok (h : f a = .ok b) : admitted n depth a >>= f = admitted n depth b := by
  by_cases hn : n < depth
  · rw [admitted, if_pos hn, admitted, if_pos hn]
    exact h
  · rw [admitted, if_neg hn, admitted, if_neg hn]
    rfl

end

mutual

/-- The induction is on the value. The fuel is enough as long as it covers what is written. -/
theorem readValue_write : ∀ {v : Json}, v.Exact → ∀ {fuel depth : Nat} {rest : List Char},
    (write v).length ≤ fuel → 0 < depth → Ends rest →
    readValue fuel depth (write v ++ rest) = admitted (nesting v) depth (v, rest)
  | v, h, 0, _, _, hfuel, _, _ => by
    have := h.starts.length_pos
    omega
  | .null, _, _ + 1, _, _, _, hdepth, _ => (admitted_zero hdepth).symm
  | .bool true, _, _ + 1, _, _, _, hdepth, _ => (admitted_zero hdepth).symm
  | .bool false, _, _ + 1, _, _, _, hdepth, _ => (admitted_zero hdepth).symm
  | .number (.fraction _), h, _ + 1, _, _, _, _, _ => h.2.elim
  | .number (.whole n), h, _ + 1, _, _, _, hdepth, hrest => by
    obtain ⟨c, cs, hcs, hc⟩ := exists_writeInt_eq_cons n
    have hread := readNumber_writeInt h.1 hrest
    rw [hcs, List.cons_append] at hread
    rw [write, writeNumber, hcs, List.cons_append, readValue_number hc, hread]
    exact (admitted_zero hdepth).symm
  | .string s, _, _ + 1, _, rest, _, hdepth, _ => by
    obtain ⟨body, hbody, hread⟩ := readString_writeString s rest
    rw [write, hbody, readValue_string, hread]
    exact (admitted_zero hdepth).symm
  | .array _, _, _ + 1, 1, _, _, _, _ => rfl
  | .array items, h, fuel + 1, depth + 2, rest, hfuel, _, _ => by
    have hlength : (itemsText true items).length < fuel := by
      simp only [write, List.length_append, List.length_cons, List.length_nil] at hfuel
      simp only [itemsText, Bool.true_or, if_true]
      omega
    rw [write_array_append, readValue_array,
      readItems_itemsText h true hlength (Nat.succ_pos depth), nesting, admitted_succ]
    exact admitted_bind_ok rfl
  | .object _, _, _ + 1, 1, _, _, _, _ => rfl
  | .object members, h, fuel + 1, depth + 2, rest, hfuel, _, _ => by
    have hlength : (membersText true members).length < fuel := by
      simp only [write, List.length_append, List.length_cons, List.length_nil] at hfuel
      simp only [membersText, Bool.true_or, if_true]
      omega
    rw [write_object_append, readValue_object,
      readMembers_membersText h.2 true hlength (Nat.succ_pos depth), nesting, admitted_succ,
      ← ofMembers_of_pairwise h.1]
    exact admitted_bind_ok rfl

theorem readItems_itemsText : ∀ {items : List Json},
    EveryItem (fun n => InRange n ∧ IsWhole n) Ascending items → ∀ (first : Bool)
    {fuel depth : Nat} {rest : List Char}, (itemsText first items).length < fuel → 0 < depth →
    readItems fuel depth first (itemsText first items ++ ']' :: rest) =
      admitted (nestingItems items) depth (items, ']' :: rest)
  | _, _, _, 0, _, _, hfuel, _ => absurd hfuel (Nat.not_lt_zero _)
  | [], _, first, _ + 1, _, _, _, hdepth => by
    rw [readItems, nextItem_nil]
    exact (admitted_zero hdepth).symm
  | v :: items, h, first, fuel + 1, depth, rest, hfuel, hdepth => by
    have hlength : (write v).length + (itemsText false items).length < fuel + 1 := by
      refine Nat.lt_of_le_of_lt ?_ hfuel
      cases first <;> simp [itemsText, writeItems_cons]
    have hpos := (Exact.starts h.1).length_pos
    have hv : readValue fuel depth (write v ++ (itemsText false items ++ ']' :: rest)) =
        admitted (nesting v) depth (v, itemsText false items ++ ']' :: rest) :=
      readValue_write h.1 (by omega) hdepth (ends_itemsText items rest)
    have hitems : readItems fuel depth false (itemsText false items ++ ']' :: rest) =
        admitted (nestingItems items) depth (items, ']' :: rest) :=
      readItems_itemsText h.2 false (by omega) hdepth
    rw [readItems, nextItem_cons first (Exact.starts h.1)]
    change (readValue fuel depth _ >>= fun p => readItems fuel depth false p.2 >>= _) = _
    rw [hv]
    refine admitted_bind ?_
    rw [hitems]
    exact admitted_bind_ok rfl

theorem readMembers_membersText : ∀ {members : List (String × Json)},
    EveryMember (fun n => InRange n ∧ IsWhole n) Ascending members → ∀ (first : Bool)
    {fuel depth : Nat} {rest : List Char}, (membersText first members).length < fuel → 0 < depth →
    readMembers fuel depth first (membersText first members ++ '}' :: rest) =
      admitted (nestingMembers members) depth (members, '}' :: rest)
  | _, _, _, 0, _, _, hfuel, _ => absurd hfuel (Nat.not_lt_zero _)
  | [], _, first, _ + 1, _, _, _, hdepth => by
    rw [readMembers, nextKey_nil]
    exact (admitted_zero hdepth).symm
  | (k, v) :: members, h, first, fuel + 1, depth, rest, hfuel, hdepth => by
    have hlength : (write v).length + (membersText false members).length < fuel + 1 := by
      refine Nat.lt_of_le_of_lt ?_ hfuel
      cases first <;> simp [membersText, writeMembers_cons] <;> omega
    have hpos := (Exact.starts h.1).length_pos
    have hv : readValue fuel depth (write v ++ (membersText false members ++ '}' :: rest)) =
        admitted (nesting v) depth (v, membersText false members ++ '}' :: rest) :=
      readValue_write h.1 (by omega) hdepth (ends_membersText members rest)
    have hmembers : readMembers fuel depth false (membersText false members ++ '}' :: rest) =
        admitted (nestingMembers members) depth (members, '}' :: rest) :=
      readMembers_membersText h.2 false (by omega) hdepth
    obtain ⟨body, hkey, hread⟩ := nextKey_cons first k v members ('}' :: rest)
    rw [readMembers, hkey]
    change (readString body >>= fun p => readColon p.2 >>= fun rest =>
      readValue fuel depth rest >>= fun q => readMembers fuel depth false q.2 >>= _) = _
    rw [hread]
    change (readValue fuel depth _ >>= fun q => readMembers fuel depth false q.2 >>= _) = _
    rw [hv]
    refine admitted_bind ?_
    rw [hmembers]
    exact admitted_bind_ok rfl

end

end NetProbe.Json
