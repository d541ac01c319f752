import NetProbe.Proofs.Net.Text
import NetProbe.Proofs.Text.Parts
import NetProbe.Url.Host
set_option autoImplicit false

/-! # Hosts that texts name

A text can name a host by a name or by an address (`Host.named?`). The text that a URL shows for a
host names that host (`Host.named?_text`). -/

namespace NetProbe.Url

open AddressText
open Http (Spells)

namespace Host

/-- The host that a text names: an address of version six, perhaps in brackets, an address of
    version four in decimal, or a name, of which the case of letters does not matter. -/
def named? (text : String) : Option Host :=
  let cs := text.toList
  if cs.head? = some '[' then
    if cs.getLast? = some ']' then (whole (readIpv6 cs.tail.dropLast)).map .ipv6 else none
  else if ':' ∈ cs then (whole (readIpv6 cs)).map .ipv6
  else
    let label := cs.map Text.lowerAscii
    if label.isEmpty || label.any isForbidden then none
    else if endsInNumber label then (whole (readIpv4 cs)).map .ipv4
    else some (.name (String.ofList label))

end Host

theorem whole_eq_some_iff {α : Type} {r : Option (α × List Char)} {a : α} :
    whole r = some a ↔ r = some (a, []) := by
  constructor
  · intro h
    match r, h with
    | some (b, []), h => rw [← Option.some.inj h]
  · rintro rfl
    rfl

/-! ## Characters -/

theorem lowerAscii_of_ne {c : Char} (h : ¬ (65 ≤ c.toNat ∧ c.toNat ≤ 90)) :
    Text.lowerAscii c = c :=
  if_neg h

theorem toNat_lowerAscii {c : Char} (h : 65 ≤ c.toNat ∧ c.toNat ≤ 90) :
    (Text.lowerAscii c).toNat = c.toNat + 32 := by
  have hvalid : (c.toNat + 32).isValidChar := .inl (by omega)
  have hupper : 'A' ≤ c ∧ c ≤ 'Z' := h
  rw [Text.lowerAscii, if_pos hupper, Char.ofNat, dif_pos hvalid]
  rfl

theorem isForbidden_of_range {c : Char}
    (h : (48 ≤ c.toNat ∧ c.toNat ≤ 57) ∨ (65 ≤ c.toNat ∧ c.toNat ≤ 90) ∨
      (97 ≤ c.toNat ∧ c.toNat ≤ 122)) :
    Host.isForbidden c = false := by
  have hhidden : isHidden c = false := by
    simp only [isHidden, Bool.or_eq_false_iff, decide_eq_false_iff_not]
    omega
  have hmem : c ∉ [' ', '#', '/', ':', '<', '>', '?', '@', '[', '\\', ']', '^', '|', '%'] := by
    intro hc
    simp only [List.mem_cons, List.not_mem_nil, or_false] at hc
    rcases hc with rfl | rfl | rfl | rfl | rfl | rfl | rfl | rfl | rfl | rfl | rfl | rfl | rfl | rfl
    all_goals revert h; decide
  rw [Host.isForbidden, hhidden, Bool.false_or, List.contains_eq_mem, decide_eq_false hmem]

theorem isForbidden_lowerAscii (c : Char) :
    Host.isForbidden (Text.lowerAscii c) = Host.isForbidden c := by
  by_cases h : 65 ≤ c.toNat ∧ c.toNat ≤ 90
  · have hlower := toNat_lowerAscii h
    rw [isForbidden_of_range (.inr (.inl h)), isForbidden_of_range (.inr (.inr (by omega)))]
  · rw [lowerAscii_of_ne h]

theorem map_lowerAscii_map_lowerAscii (cs : List Char) :
    (cs.map Text.lowerAscii).map Text.lowerAscii = cs.map Text.lowerAscii := by
  rw [List.map_map]
  refine List.map_congr_left fun c _ => ?_
  rw [Function.comp_apply]
  by_cases h : 65 ≤ c.toNat ∧ c.toNat ≤ 90
  · have hlower := toNat_lowerAscii h
    exact lowerAscii_of_ne (by omega)
  · rw [lowerAscii_of_ne h, lowerAscii_of_ne h]

theorem decode_of_not_mem {bs : List UInt8} (h : 0x25 ∉ bs) : decode bs = bs := by
  induction bs with
  | nil => rfl
  | cons b bs ih =>
    obtain ⟨hb, hbs⟩ := not_or.1 (mt List.mem_cons.2 h)
    rw [decode.eq_def]
    split
    · next hpercent => exact absurd (List.cons.inj hpercent).1.symm hb
    · next hcons =>
      obtain ⟨rfl, rfl⟩ := List.cons.inj hcons
      rw [ih hbs]
    · next hnil => cases hnil

/-! ## Addresses of version four -/

theorem range_of_decimal {c : Char} (h : (digit? 10 c).isSome) :
    48 ≤ c.toNat ∧ c.toNat ≤ 57 := by
  have hsmall : ∀ n, (if n < 10 then some n else none).isSome = true → n < 10 := by
    intro n hn
    split at hn
    · assumption
    · cases hn
  rw [digit?] at h
  split at h
  · next hc => exact hc
  split at h
  · next hc =>
    have hle : 97 ≤ c.toNat := hc.1
    have := hsmall _ h
    omega
  split at h
  · next hc =>
    have hle : 65 ≤ c.toNat := hc.1
    have := hsmall _ h
    omega
  · cases h

theorem number?_of_octet {cs : List Char} {n : Nat} (h : Octet cs n) :
    Host.number? cs = some n := by
  obtain ⟨ds, hds, hvalue⟩ := h.spells.digits
  obtain ⟨c, t, rfl⟩ := List.exists_cons_of_ne_nil h.spells.ne_nil
  have hbase : Host.baseOf (c :: t) = (10, c :: t) := by
    by_cases hc : c = '0'
    · subst hc
      have ht : t = [] := by simpa using h.canonical rfl
      rw [ht]
      rfl
    · rw [Host.baseOf.eq_def]
      split <;> simp_all
  rw [Host.number?, hbase]
  simp only [List.isEmpty_cons, Bool.false_eq_true, if_false, hds, Option.map_some, hvalue]

theorem char_of_dotted {cs : List Char} {a : Ipv4} (h : Dotted cs a) :
    ∀ c ∈ cs, c = '.' ∨ (48 ≤ c.toNat ∧ c.toNat ≤ 57) := by
  obtain ⟨hw, hx, hy, hz⟩ := h
  have hoctet : ∀ {cs : List Char} {n : Nat}, Octet cs n →
      ∀ c ∈ cs, c = '.' ∨ (48 ≤ c.toNat ∧ c.toNat ≤ 57) :=
    fun ho c hc => .inr (range_of_decimal (ho.spells.isDigit c hc))
  simp only [List.forall_mem_append, List.forall_mem_cons]
  exact ⟨hoctet hw, .inl trivial, hoctet hx, .inl trivial, hoctet hy, .inl trivial, hoctet hz⟩

/-- The parts of an address of version four are its numbers. -/
theorem numberParts_of_dotted {cs : List Char} {a : Ipv4} (h : Dotted cs a) :
    ∃ w x y z k l m n, Host.numberParts cs = [w, x, y, z] ∧
      Octet w k ∧ Octet x l ∧ Octet y m ∧ Octet z n ∧
      a = Ipv4.ofBytes [UInt8.ofNat k, UInt8.ofNat l, UInt8.ofNat m, UInt8.ofNat n] := by
  obtain ⟨hw, hx, hy, hz⟩ := h
  refine ⟨_, _, _, _, _, _, _, _, ?_, hw, hx, hy, hz, rfl⟩
  have hdot : ∀ {cs : List Char} {n : Nat}, Octet cs n → '.' ∉ cs :=
    fun ho => ho.spells.not_mem (by decide)
  rw [Host.numberParts, splitChars_append (hdot hw), splitChars_append (hdot hx),
    splitChars_append (hdot hy), splitChars_of_not_mem (hdot hz)]
  simp [hz.spells.ne_nil]

theorem endsInNumber_of_dotted {cs : List Char} {a : Ipv4} (h : Dotted cs a) :
    Host.endsInNumber cs = true := by
  obtain ⟨w, x, y, z, k, l, m, n, hparts, hw, hx, hy, hz, rfl⟩ := numberParts_of_dotted h
  rw [Host.endsInNumber, hparts]
  simp [number?_of_octet hz]

theorem ipv4OfNumbers_of_dotted {cs : List Char} {a : Ipv4} (h : Dotted cs a) :
    ((Host.numberParts cs).mapM Host.number?).bind Host.ipv4OfNumbers = some a := by
  obtain ⟨w, x, y, z, k, l, m, n, hparts, hw, hx, hy, hz, rfl⟩ := numberParts_of_dotted h
  have hmod : ∀ {cs : List Char} {n : Nat}, Octet cs n → n % 256 = n :=
    fun ho => Nat.mod_eq_of_lt (Nat.lt_succ_of_le ho.small)
  have haddress : Host.ipv4OfNumbers [k, l, m, n] =
      some (Ipv4.ofBytes [UInt8.ofNat k, UInt8.ofNat l, UInt8.ofNat m, UInt8.ofNat n]) := by
    simp [Host.ipv4OfNumbers, Ipv4.ofBytes, numberOfBytes, hmod hw, hmod hx, hmod hy, hmod hz,
      hw.small, hx.small, hy.small, Nat.lt_succ_of_le hz.small]
  rw [hparts]
  simp [number?_of_octet hw, number?_of_octet hx, number?_of_octet hy, number?_of_octet hz,
    haddress]

/-! ## Reading of hosts -/

theorem ne_of_isForbidden {c d : Char} (hc : Host.isForbidden c = false)
    (hd : Host.isForbidden d = true) : c ≠ d := by
  rintro rfl
  rw [hc] at hd
  cases hd

theorem isForbidden_of_isAddressChar {c : Char} (hc : IsAddressChar c) (hcolon : c ≠ ':') :
    Host.isForbidden c = false := by
  rcases hc with hc | rfl | hc
  · exact absurd hc hcolon
  · decide
  · exact isForbidden_of_range hc

theorem allowed_of_dotted {cs : List Char} {a : Ipv4} (h : Dotted cs a) :
    ∀ c ∈ cs, Host.isForbidden c = false := by
  intro c hc
  refine isForbidden_of_isAddressChar (h.isAddressChar c hc) ?_
  rintro rfl
  rcases char_of_dotted h ':' hc with h | h <;> revert h <;> decide

theorem lowerAscii_of_dotted {cs : List Char} {a : Ipv4} (h : Dotted cs a) :
    cs.map Text.lowerAscii = cs := by
  refine (List.map_congr_left fun c hc => lowerAscii_of_ne ?_).trans (List.map_id cs)
  rcases char_of_dotted h c hc with rfl | hdigit
  · decide
  · omega

namespace Host

theorem parse_bracketed {cs : List Char} {a : Ipv6} (h : readIpv6 cs = some (a, [])) :
    parse ('[' :: (cs ++ [']'])) = .ok (.ipv6 a) := by
  rw [parse]
  simp [h, whole]

/-- Without percent signs, and with nothing else that is forbidden, a text is read as it is. -/
theorem parse_allowed {cs : List Char} (hne : cs ≠ [])
    (hall : ∀ c ∈ cs, isForbidden c = false) :
    parse cs =
      if endsInNumber (cs.map Text.lowerAscii) then
        match ((numberParts (cs.map Text.lowerAscii)).mapM number?).bind ipv4OfNumbers with
        | some a => .ok (.ipv4 a)
        | none => .error .ipv4
      else .ok (.name (String.ofList (cs.map Text.lowerAscii))) := by
  have hpercent : 0x25 ∉ Text.toBytes (String.ofList cs) := by
    intro hmem
    have hchar := (Text.mem_toBytes_iff (c := '%') (by decide) _).1 hmem
    rw [String.toList_ofList] at hchar
    exact absurd (hall _ hchar) (by decide)
  have hforbidden : (cs.map Text.lowerAscii).any isForbidden = false := by
    rw [List.any_eq_false]
    intro c hc
    obtain ⟨d, hd, rfl⟩ := List.mem_map.1 hc
    rw [isForbidden_lowerAscii, hall d hd]
    exact Bool.false_ne_true
  have hempty : (cs.map Text.lowerAscii).isEmpty = false := by
    simp [hne]
  -- Brackets are forbidden too, so what is read is a name or an address of version four.
  rw [parse.eq_def]
  split
  · exact absurd (hall '[' List.mem_cons_self) (by decide)
  · rw [decode_of_not_mem hpercent, Text.ofBytes?_toBytes]
    dsimp only
    rewrite [String.toList_ofList, hforbidden, hempty, if_neg Bool.false_ne_true,
      if_neg Bool.false_ne_true]
    rfl

theorem parse_dotted {cs : List Char} {a : Ipv4} (h : Dotted cs a) :
    parse cs = .ok (.ipv4 a) := by
  rw [parse_allowed (List.ne_nil_of_mem h.dot) (allowed_of_dotted h), lowerAscii_of_dotted h,
    if_pos (endsInNumber_of_dotted h), ipv4OfNumbers_of_dotted h]

end Host

/-! ## Names and addresses -/

/-- Whether characters are a name. -/
structure IsName (cs : List Char) : Prop where
  nonempty : cs ≠ []
  allowed : ∀ c ∈ cs, Host.isForbidden c = false
  notNumber : Host.endsInNumber (cs.map Text.lowerAscii) = false

theorem IsName.ne {cs : List Char} (h : IsName cs) {d : Char} (hd : Host.isForbidden d = true) :
    d ∉ cs :=
  fun hmem => ne_of_isForbidden (h.allowed d hmem) hd rfl

theorem IsName.lower {cs : List Char} (h : IsName cs) : IsName (cs.map Text.lowerAscii) where
  nonempty := by simp [h.nonempty]
  allowed := by
    intro c hc
    obtain ⟨d, hd, rfl⟩ := List.mem_map.1 hc
    rw [isForbidden_lowerAscii]
    exact h.allowed d hd
  notNumber := by
    rw [map_lowerAscii_map_lowerAscii]
    exact h.notNumber

namespace Host

/-- What a text is that names a host. -/
theorem named?_cases {text : String} {h : Host} (hnamed : named? text = some h) :
    (∃ cs a, text.toList = '[' :: (cs ++ [']']) ∧ readIpv6 cs = some (a, []) ∧ h = .ipv6 a) ∨
      (∃ a, readIpv6 text.toList = some (a, []) ∧ h = .ipv6 a) ∨
      (∃ a, Dotted text.toList a ∧ h = .ipv4 a) ∨
      (IsName text.toList ∧ h = .name (Text.toLowerAscii text)) := by
  rw [named?] at hnamed
  dsimp only at hnamed
  split at hnamed
  · -- In brackets, of which both must be there.
    next hopen =>
    split at hnamed
    · next hclose =>
      obtain ⟨a, ha, rfl⟩ := Option.map_eq_some_iff.1 hnamed
      obtain ⟨cs, hcs⟩ : ∃ cs, text.toList = '[' :: cs := by
        rw [List.head?_eq_some_iff] at hopen
        exact hopen
      rw [hcs] at ha hclose
      obtain ⟨ds, hds⟩ : ∃ ds, cs = ds ++ [']'] := by
        cases cs with
        | nil => exact absurd (Option.some.inj hclose) (by decide)
        | cons c cs =>
          rw [List.getLast?_cons_cons] at hclose
          exact List.getLast?_eq_some_iff.1 hclose
      subst hds
      rw [List.tail_cons, List.dropLast_concat] at ha
      exact .inl ⟨ds, a, hcs, whole_eq_some_iff.1 ha, rfl⟩
    · cases hnamed
  split at hnamed
  · -- With a colon.
    obtain ⟨a, ha, rfl⟩ := Option.map_eq_some_iff.1 hnamed
    exact .inr (.inl ⟨a, whole_eq_some_iff.1 ha, rfl⟩)
  split at hnamed
  · cases hnamed
  next hlabel =>
  -- A text that ends in a number has to be an address.
  split at hnamed
  · obtain ⟨a, ha, rfl⟩ := Option.map_eq_some_iff.1 hnamed
    obtain ⟨ds, hds, hdotted⟩ := dotted_of_readIpv4 (whole_eq_some_iff.1 ha)
    rw [List.append_nil] at hds
    exact .inr (.inr (.inl ⟨a, hds ▸ hdotted, rfl⟩))
  · next hnumber =>
    have hallowed : ∀ c ∈ text.toList, isForbidden c = false := by
      intro c hc
      simp only [Bool.or_eq_true, not_or, List.any_eq_true, not_exists, not_and] at hlabel
      have hlower := hlabel.2 _ (List.mem_map_of_mem hc)
      rwa [isForbidden_lowerAscii, Bool.not_eq_true] at hlower
    have hnonempty : text.toList ≠ [] := by
      rintro hnil
      simp [hnil] at hlabel
    exact .inr (.inr (.inr ⟨⟨hnonempty, hallowed, Bool.not_eq_true _ ▸ hnumber⟩,
      (Option.some.inj hnamed).symm⟩))

theorem named?_bracketed {cs : List Char} {a : Ipv6} (h : readIpv6 cs = some (a, [])) :
    named? (String.ofList ('[' :: (cs ++ [']']))) = some (.ipv6 a) := by
  rw [named?]
  simp [h, whole, List.getLast?_cons]

theorem named?_dotted {text : String} {a : Ipv4} (h : Dotted text.toList a) :
    named? text = some (.ipv4 a) := by
  have hnot : ∀ {d : Char}, isForbidden d = true → d ∉ text.toList := fun hd hmem =>
    ne_of_isForbidden (allowed_of_dotted h _ hmem) hd rfl
  have hopen : text.toList.head? ≠ some '[' := fun hhead =>
    hnot (by decide) (List.mem_of_head? hhead)
  have hlabel : (text.toList.isEmpty || text.toList.any isForbidden) = false := by
    rw [Bool.or_eq_false_iff, List.any_eq_false]
    exact ⟨by simp [List.ne_nil_of_mem h.dot], fun c hc => by simp [allowed_of_dotted h c hc]⟩
  have hread : readIpv4 text.toList = some (a, []) := by
    have hread := @readIpv4_append _ [] _ h nofun
    rwa [List.append_nil] at hread
  rw [named?]
  simp only [if_neg hopen, if_neg (hnot (by decide : isForbidden ':' = true)),
    lowerAscii_of_dotted h, hlabel, endsInNumber_of_dotted h, hread, Bool.false_eq_true, if_false,
    if_true]
  rfl

theorem named?_name {text : String} (h : IsName text.toList) :
    named? text = some (.name (Text.toLowerAscii text)) := by
  have hopen : text.toList.head? ≠ some '[' := fun hhead =>
    h.ne (by decide) (List.mem_of_head? hhead)
  have hlabel : ((text.toList.map Text.lowerAscii).isEmpty ||
      (text.toList.map Text.lowerAscii).any isForbidden) = false := by
    rw [Bool.or_eq_false_iff, List.any_eq_false]
    exact ⟨by simp [h.nonempty], fun c hc => by simp [h.lower.allowed c hc]⟩
  rw [named?]
  simp only [if_neg hopen, if_neg (h.ne (by decide : isForbidden ':' = true)), hlabel, h.notNumber,
    Bool.false_eq_true, if_false]
  rfl

/-- A host that a text names is named by the text that a URL has for it. -/
theorem named?_text {text : String} {h : Host} (hnamed : named? text = some h) :
    named? h.text = some h := by
  have hsix : ∀ a : Ipv6, named? (Host.ipv6 a).text = some (.ipv6 a) := by
    intro a
    have htext : (Host.ipv6 a).text = String.ofList ('[' :: (a.groupsText.toList ++ [']'])) := by
      rw [← String.toList_inj, Host.text]
      simp [String.toList_append]
    rw [htext]
    exact named?_bracketed (readIpv6_groupsText a)
  rcases named?_cases hnamed with ⟨cs, a, -, -, rfl⟩ | ⟨a, -, rfl⟩ | ⟨a, -, rfl⟩ | ⟨hname, rfl⟩
  · exact hsix a
  · exact hsix a
  · exact named?_dotted (dotted_text a)
  · have htext : (Text.toLowerAscii text).toList = text.toList.map Text.lowerAscii :=
      String.toList_ofList
    have hlower : IsName (Text.toLowerAscii text).toList := htext ▸ hname.lower
    have hsame : Text.toLowerAscii (Text.toLowerAscii text) = Text.toLowerAscii text := by
      rw [Text.toLowerAscii, htext, map_lowerAscii_map_lowerAscii]
      rfl
    rw [Host.text, named?_name hlower, hsame]

end Host

end NetProbe.Url
