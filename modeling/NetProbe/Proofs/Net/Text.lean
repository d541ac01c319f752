import Mathlib.Data.List.Induction
import NetProbe.Net.Text
import NetProbe.Proofs.Http.Line
import NetProbe.Proofs.Json.Tokens
import NetProbe.Proofs.Net.Bytes
set_option autoImplicit false

/-! # Addresses read back from their text

The text of an address of version six is read as that address (`readIpv6_text`), and so is the text
that it has in a URL, where no address of version four stands in it (`readIpv6_groupsText`). What is
read as an address of version four is its four numbers in decimal, and nothing else
(`octets_of_readIpv4`). -/

namespace NetProbe.AddressText

open Http (Spells range_of_digit? spells_decimal spells_hexadecimal)

/-! ## Numbers -/

theorem filterMap_of_spells {base n : Nat} {cs : List Char} (h : Spells base cs n) :
    (cs.filterMap (digit? base)).foldl (fun n d => n * base + d) 0 = n ∧
      (cs.filterMap (digit? base)).length = cs.length := by
  induction h with
  | digit hd => simp [hd]
  | more _ hd ih => simp [List.filterMap_append, hd, ih.1, ih.2]

theorem spells_of_isDigit {base : Nat} {cs : List Char} (hne : cs ≠ [])
    (h : ∀ c ∈ cs, (digit? base c).isSome) :
    Spells base cs ((cs.filterMap (digit? base)).foldl (fun n d => n * base + d) 0) := by
  induction cs using List.reverseRecOn with
  | nil => exact absurd rfl hne
  | append_singleton cs c ih =>
    obtain ⟨d, hd⟩ := Option.isSome_iff_exists.1 (h c (by simp))
    by_cases hcs : cs = []
    · subst hcs
      simpa [hd] using Spells.digit hd
    · have hfront := ih hcs fun c hc => h c (List.mem_append_left _ hc)
      simpa [List.filterMap_append, hd] using hfront.more hd

theorem eq_zero_of_digit? {base : Nat} {c : Char} (h : digit? base c = some 0) : c = '0' := by
  have hvalue : ∀ n, (if n < base then some n else none) = some 0 → n = 0 ∧ n < base := by
    intro n hn
    split at hn
    · next hlt => exact ⟨Option.some.inj hn, hlt⟩
    · cases hn
  -- Of the three ranges of digits only the first has one for zero: letters start at ten.
  refine Char.toNat_inj.1 (Eq.trans ?_ (rfl : 48 = '0'.toNat))
  rw [digit?] at h
  split at h
  · next hc =>
    have hle : 48 ≤ c.toNat := hc.1
    have := (hvalue _ h).1
    omega
  split at h
  · next hc =>
    have hle : 97 ≤ c.toNat := hc.1
    have := (hvalue _ h).1
    omega
  split at h
  · next hc =>
    have hle : 65 ≤ c.toNat := hc.1
    have := (hvalue _ h).1
    omega
  · exact absurd (hvalue _ h).2 (Nat.lt_irrefl base)

theorem digit?_zero {base d : Nat} (h : digit? base '0' = some d) : d = 0 := by
  have hvalue : digit? base '0' = if 0 < base then some 0 else none := rfl
  rw [hvalue] at h
  split at h
  · exact (Option.some.inj h).symm
  · cases h

/-- The digits end where something stands that is none. -/
def Ends (base : Nat) (rest : List Char) : Prop :=
  ∀ c, rest.head? = some c → digit? base c = none

theorem takeWhile_digits {base : Nat} {cs rest : List Char}
    (hcs : ∀ c ∈ cs, (digit? base c).isSome) (hrest : Ends base rest) :
    (cs ++ rest).takeWhile (fun c => (digit? base c).isSome) = cs ∧
      (cs ++ rest).dropWhile (fun c => (digit? base c).isSome) = rest := by
  rw [List.takeWhile_append_of_pos hcs, List.dropWhile_append_of_pos hcs]
  cases rest with
  | nil => simp
  | cons c rest => simp [hrest c rfl]

theorem readNumber_append {base n limit : Nat} {most : Option Nat} {leadingZero : Bool}
    {cs rest : List Char} (h : Spells base cs n) (hrest : Ends base rest)
    (hmost : ∀ m, most = some m → cs.length ≤ m) (hlimit : n ≤ limit)
    (hzero : leadingZero = true ∨ cs.head? ≠ some '0' ∨ cs.length = 1) :
    readNumber base most leadingZero limit (cs ++ rest) = some (n, rest) := by
  obtain ⟨hvalue, hlength⟩ := filterMap_of_spells h
  obtain ⟨htake, hdrop⟩ := takeWhile_digits h.isDigit hrest
  obtain ⟨c, cs, rfl⟩ := List.exists_cons_of_ne_nil h.ne_nil
  obtain ⟨d, hd⟩ := Option.isSome_iff_exists.1 (h.isDigit c List.mem_cons_self)
  -- None of the checks that refuse a number says anything against this one.
  have hdigits : digits base (c :: cs ++ rest) = (c :: cs).filterMap (digit? base) := by
    rw [digits, htake]
  have hempty : ((c :: cs).filterMap (digit? base)).isEmpty = false := by
    simp [hd]
  have hmany : most.any (fun m => decide (m < (c :: cs).length)) = false := by
    cases most with
    | none => rfl
    | some m => simpa using hmost m rfl
  have hlead : (!leadingZero && ((c :: cs).filterMap (digit? base)).head? == some 0 &&
      decide (1 < (c :: cs).length)) = false := by
    rcases hzero with hzero | hzero | hzero
    · simp [hzero]
    · have hne : d ≠ 0 := by
        rintro rfl
        exact hzero (by rw [List.head?_cons, eq_zero_of_digit? hd])
      simp [hd, hne]
    · simp [hzero]
  rw [readNumber]
  simp only [hdigits, hempty, hvalue, hlength, hmany, hlead, Bool.false_eq_true, if_false,
    if_neg (Nat.not_lt.2 hlimit), afterDigits, hdrop]

/-- What is read as a number is digits of it and nothing else. -/
theorem spells_of_readNumber {base n limit : Nat} {most : Option Nat} {leadingZero : Bool}
    {cs rest : List Char} (h : readNumber base most leadingZero limit cs = some (n, rest)) :
    ∃ ds, cs = ds ++ rest ∧ Spells base ds n ∧ n ≤ limit ∧
      (∀ m, most = some m → ds.length ≤ m) ∧
      (leadingZero = false → ds.head? = some '0' → ds.length = 1) := by
  rw [readNumber] at h
  split at h
  · cases h
  next hempty =>
  split at h
  · cases h
  next hmany =>
  split at h
  · cases h
  next hlead =>
  split at h
  · cases h
  next hlimit =>
  obtain ⟨rfl, rfl⟩ := Prod.mk.inj (Option.some.inj h)
  have hall : ∀ c ∈ cs.takeWhile (fun c => (digit? base c).isSome), (digit? base c).isSome :=
    List.all_eq_true.1 List.all_takeWhile
  have hne : cs.takeWhile (fun c => (digit? base c).isSome) ≠ [] := by
    intro hnil
    rw [digits, hnil] at hempty
    exact hempty rfl
  have hspells := spells_of_isDigit hne hall
  have hlength := (filterMap_of_spells hspells).2
  refine ⟨_, List.takeWhile_append_dropWhile.symm, hspells, Nat.le_of_not_lt hlimit, ?_, ?_⟩
  · rintro m rfl
    rw [digits, hlength] at hmany
    simpa using hmany
  intro hzero hhead
  obtain ⟨c, ds, hds⟩ := List.exists_cons_of_ne_nil hne
  have hdigit := hall c (hds ▸ List.mem_cons_self)
  rw [digits, hds] at hlead
  rw [hds] at hhead hlength ⊢
  obtain rfl : c = '0' := Option.some.inj hhead
  obtain ⟨d, hd⟩ := Option.isSome_iff_exists.1 hdigit
  obtain rfl : d = 0 := digit?_zero hd
  rw [hlength] at hlead
  simp [hzero, hd] at hlead
  simp [hlead]

/-! ## Version four -/

/-- The digits of a number of an address of version four. -/
structure Octet (cs : List Char) (n : Nat) : Prop where
  spells : Spells 10 cs n
  small : n ≤ 255
  short : cs.length ≤ 3
  canonical : cs.head? = some '0' → cs.length = 1

theorem octet_toDigits {n : Nat} (hn : n ≤ 255) : Octet (Nat.toDigits 10 n) n where
  spells := spells_decimal n
  small := hn
  short := (Nat.length_toDigits_le_iff (by decide) (by decide)).2 (by omega)
  canonical := by
    intro hhead
    rcases Nat.eq_zero_or_pos n with rfl | hpos
    · rfl
    · obtain ⟨c, cs, hcs, hc⟩ := Json.exists_toDigits_eq_cons hpos
      rw [hcs] at hhead
      exact absurd (Option.some.inj hhead) hc

theorem readNumber_octet {n : Nat} {cs rest : List Char} (h : Octet cs n) (hrest : Ends 10 rest) :
    readNumber 10 (some 3) false 255 (cs ++ rest) = some (n, rest) := by
  refine readNumber_append h.spells hrest ?_ h.small (.inr ?_)
  · rintro m ⟨⟩
    exact h.short
  · by_cases hhead : cs.head? = some '0'
    · exact .inr (h.canonical hhead)
    · exact .inl hhead

theorem octet_of_readNumber {n : Nat} {cs rest : List Char}
    (h : readNumber 10 (some 3) false 255 cs = some (n, rest)) :
    ∃ ds, cs = ds ++ rest ∧ Octet ds n := by
  obtain ⟨ds, hcs, hspells, hsmall, hshort, hcanonical⟩ := spells_of_readNumber h
  exact ⟨ds, hcs, hspells, hsmall, hshort 3 rfl, hcanonical rfl⟩

theorem expect_eq_some_iff {c : Char} {cs rest : List Char} :
    expect c cs = some rest ↔ cs = c :: rest := by
  cases cs with
  | nil => simp [expect]
  | cons d cs =>
    rw [expect]
    split
    · next h =>
      have hc : c = d := by simpa using h
      simp [hc]
    · next h =>
      have hc : ¬ c = d := by simpa using h
      simp [Ne.symm hc]

/-- The characters of an address of version four. -/
inductive Dotted : List Char → Ipv4 → Prop
  | mk {w x y z : List Char} {k l m n : Nat} : Octet w k → Octet x l → Octet y m → Octet z n →
      Dotted (w ++ '.' :: (x ++ '.' :: (y ++ '.' :: z)))
        (Ipv4.ofBytes [UInt8.ofNat k, UInt8.ofNat l, UInt8.ofNat m, UInt8.ofNat n])

theorem Dotted.dot {cs : List Char} {a : Ipv4} (h : Dotted cs a) : '.' ∈ cs := by
  cases h
  simp

theorem readIpv4_append {cs rest : List Char} {a : Ipv4} (h : Dotted cs a)
    (hrest : Ends 10 rest) : readIpv4 (cs ++ rest) = some (a, rest) := by
  obtain ⟨hw, hx, hy, hz⟩ := h
  have hdot : ∀ cs, Ends 10 ('.' :: cs) := by
    rintro cs c ⟨⟩
    decide
  have hexpect : ∀ cs, expect '.' ('.' :: cs) = some cs := fun cs => expect_eq_some_iff.2 rfl
  rw [readIpv4]
  simp only [List.append_assoc, List.cons_append, readNumber_octet hw (hdot _),
    readNumber_octet hx (hdot _), readNumber_octet hy (hdot _), readNumber_octet hz hrest, hexpect,
    Option.bind_eq_bind, Option.bind_some]
  rfl

theorem dotted_of_readIpv4 {cs rest : List Char} {a : Ipv4}
    (h : readIpv4 cs = some (a, rest)) : ∃ ds, cs = ds ++ rest ∧ Dotted ds a := by
  rw [readIpv4] at h
  simp only [Option.bind_eq_bind, Option.bind_eq_some_iff, expect_eq_some_iff, Prod.exists] at h
  obtain ⟨k, _, hk, _, rfl, l, _, hl, _, rfl, m, _, hm, _, rfl, n, _, hn, hresult⟩ := h
  obtain ⟨rfl, rfl⟩ := Prod.mk.inj (Option.some.inj hresult)
  obtain ⟨w, rfl, hw⟩ := octet_of_readNumber hk
  obtain ⟨x, rfl, hx⟩ := octet_of_readNumber hl
  obtain ⟨y, rfl, hy⟩ := octet_of_readNumber hm
  obtain ⟨z, rfl, hz⟩ := octet_of_readNumber hn
  exact ⟨_, by simp, .mk hw hx hy hz⟩

theorem dotted_text (a : Ipv4) : Dotted a.text.toList a := by
  have hlength : a.toBytes.length = 4 := length_bytesOfNumber 4 _
  obtain ⟨w, x, y, z, hbytes⟩ : ∃ w x y z, a.toBytes = [w, x, y, z] := by
    match hbytes : a.toBytes, hlength with
    | [w, x, y, z], _ => exact ⟨w, x, y, z, rfl⟩
  have hoctet : ∀ b : UInt8, Octet (Nat.toDigits 10 b.toNat) b.toNat := fun b =>
    octet_toDigits (Nat.le_of_lt_succ b.toNat_lt)
  have htext : a.text.toList = Nat.toDigits 10 w.toNat ++ '.' :: (Nat.toDigits 10 x.toNat ++
      '.' :: (Nat.toDigits 10 y.toNat ++ '.' :: Nat.toDigits 10 z.toNat)) := by
    rw [Ipv4.text, hbytes, String.toList_intercalate]
    simp [List.intercalate_cons_cons, Nat.toString_eq_repr, Nat.toList_repr]
  have haddress : a = Ipv4.ofBytes [UInt8.ofNat w.toNat, UInt8.ofNat x.toNat,
      UInt8.ofNat y.toNat, UInt8.ofNat z.toNat] := by
    rw [← a.ofBytes_toBytes, hbytes]
    simp
  rw [htext, haddress]
  exact .mk (hoctet w) (hoctet x) (hoctet y) (hoctet z)

/-! ## Version six -/

/-- Reading of groups where no dot stands, so that no address of version four is embedded. -/
theorem readGroups_succ {cs : List Char} (hdot : '.' ∉ cs) (first : Bool) (room : Nat) :
    readGroups first (room + 1) cs =
      match (separator ':' first cs).bind (readNumber 16 (some 4) true 65535) with
      | none => ([], false, cs)
      | some (g, rest) =>
        (g :: (readGroups false room rest).1, (readGroups false room rest).2.1,
          (readGroups false room rest).2.2) := by
  -- An address of version four would have a dot in it.
  have hnone : (separator ':' first cs).bind readIpv4 = none := by
    rw [Option.bind_eq_none_iff]
    intro rest hrest
    have hmem : '.' ∉ rest := by
      cases first with
      | true =>
        obtain rfl := Option.some.inj hrest
        exact hdot
      | false =>
        rw [separator, if_neg Bool.false_ne_true, expect_eq_some_iff] at hrest
        exact fun h => hdot (hrest ▸ List.mem_cons_of_mem _ h)
    cases hread : readIpv4 rest with
    | none => rfl
    | some r =>
      obtain ⟨ds, hds, hdotted⟩ := dotted_of_readIpv4 hread
      exact absurd (hds ▸ List.mem_append_left _ hdotted.dot) hmem
  rw [readGroups, hnone]
  dsimp only
  rewrite [ite_self]
  rfl

/-- Groups as they stand behind others. -/
def furtherGroups (gs : List Nat) : List Char :=
  gs.flatMap fun g => ':' :: Nat.toDigits 16 g

theorem toList_joinGroups (g : Nat) (gs : List Nat) :
    (joinGroups (g :: gs)).toList = Nat.toDigits 16 g ++ furtherGroups gs := by
  rw [joinGroups, String.toList_intercalate]
  induction gs generalizing g with
  | nil => simp [groupText, furtherGroups]
  | cons h gs ih =>
    have hmore := ih h
    simp only [List.map_cons] at hmore ⊢
    rw [List.intercalate_cons_cons, hmore]
    simp [groupText, furtherGroups]

/-- What stands behind groups that a text begins with: nothing, or the double colon. -/
def Stops (rest : List Char) : Prop :=
  rest = [] ∨ ∃ cs, rest = ':' :: ':' :: cs

theorem not_mem_furtherGroups (gs : List Nat) : '.' ∉ furtherGroups gs := by
  intro h
  obtain ⟨g, -, hg⟩ := List.mem_flatMap.1 h
  rcases List.mem_cons.1 hg with hcolon | hdigit
  · exact absurd hcolon (by decide)
  · exact (spells_hexadecimal g).not_mem (by decide) hdigit

theorem ends_furtherGroups (gs : List Nat) {rest : List Char} (hrest : Stops rest) :
    Ends 16 (furtherGroups gs ++ rest) := by
  intro c hc
  have hcolon : c = ':' := by
    cases gs with
    | nil =>
      rcases hrest with rfl | ⟨cs, rfl⟩
      · cases hc
      · exact (Option.some.inj hc).symm
    | cons g gs => exact (Option.some.inj hc).symm
  rw [hcolon]
  decide

theorem readNumber_group {g : Nat} (hg : g < 65536) {rest : List Char} (hrest : Ends 16 rest) :
    readNumber 16 (some 4) true 65535 (Nat.toDigits 16 g ++ rest) = some (g, rest) := by
  refine readNumber_append (spells_hexadecimal g) hrest ?_ (Nat.le_of_lt_succ hg) (.inl rfl)
  rintro m ⟨⟩
  exact (Nat.length_toDigits_le_iff (by decide) (by decide)).2 hg

/-- The induction is on the groups. -/
theorem readGroups_furtherGroups {gs : List Nat} (hgs : ∀ g ∈ gs, g < 65536) {room : Nat}
    (hroom : gs.length ≤ room) {rest : List Char} (hdot : '.' ∉ rest) (hrest : Stops rest) :
    readGroups false room (furtherGroups gs ++ rest) = (gs, false, rest) := by
  induction gs generalizing room with
  | nil =>
    cases room with
    | zero => rfl
    | succ room =>
      rw [furtherGroups, List.flatMap_nil, List.nil_append, readGroups_succ hdot]
      rcases hrest with rfl | ⟨cs, rfl⟩ <;> rfl
  | cons g gs ih =>
    obtain ⟨room, rfl⟩ : ∃ k, room = k + 1 := ⟨room - 1, by simp at hroom; omega⟩
    obtain ⟨hg, hgs⟩ := List.forall_mem_cons.1 hgs
    have hmem : '.' ∉ furtherGroups (g :: gs) ++ rest := by
      rw [List.mem_append, not_or]
      exact ⟨not_mem_furtherGroups _, hdot⟩
    have hseparator : separator ':' false (furtherGroups (g :: gs) ++ rest) =
        some (Nat.toDigits 16 g ++ (furtherGroups gs ++ rest)) := by
      simp [separator, furtherGroups, expect]
    rw [readGroups_succ hmem, hseparator, Option.bind_some,
      readNumber_group hg (ends_furtherGroups gs hrest)]
    dsimp only
    rw [ih hgs (Nat.le_of_succ_le_succ hroom)]

theorem readGroups_joinGroups {gs : List Nat} (hgs : ∀ g ∈ gs, g < 65536) {room : Nat}
    (hroom : gs.length ≤ room) {rest : List Char} (hdot : '.' ∉ rest) (hrest : Stops rest) :
    readGroups true room ((joinGroups gs).toList ++ rest) = (gs, false, rest) := by
  cases gs with
  | nil =>
    cases room with
    | zero => rfl
    | succ room =>
      have hnone : (joinGroups []).toList ++ rest = rest := rfl
      rw [hnone, readGroups_succ hdot]
      rcases hrest with rfl | ⟨cs, rfl⟩ <;> rfl
  | cons g gs =>
    obtain ⟨room, rfl⟩ : ∃ k, room = k + 1 := ⟨room - 1, by simp at hroom; omega⟩
    obtain ⟨hg, hgs⟩ := List.forall_mem_cons.1 hgs
    have hmem : '.' ∉ Nat.toDigits 16 g ++ (furtherGroups gs ++ rest) := by
      simp only [List.mem_append, not_or]
      exact ⟨(spells_hexadecimal g).not_mem (by decide), not_mem_furtherGroups gs, hdot⟩
    rw [toList_joinGroups, List.append_assoc, readGroups_succ hmem, separator, if_pos rfl,
      Option.bind_some, readNumber_group hg (ends_furtherGroups gs hrest)]
    dsimp only
    rw [readGroups_furtherGroups hgs (Nat.le_of_succ_le_succ hroom) hdot hrest]

theorem not_mem_joinGroups (gs : List Nat) : '.' ∉ (joinGroups gs).toList := by
  cases gs with
  | nil => decide
  | cons g gs =>
    rw [toList_joinGroups, List.mem_append, not_or]
    exact ⟨(spells_hexadecimal g).not_mem (by decide), not_mem_furtherGroups gs⟩

/-- The longest run of zeros is one, wherever it is found. -/
theorem longestZeroRun_spec (i : Nat) (gs : List Nat) :
    i ≤ (longestZeroRun i gs).1 ∧
      (longestZeroRun i gs).1 + (longestZeroRun i gs).2 ≤ i + gs.length ∧
      (gs.drop ((longestZeroRun i gs).1 - i)).take (longestZeroRun i gs).2 =
        List.replicate (longestZeroRun i gs).2 0 := by
  induction gs generalizing i with
  | nil => simp [longestZeroRun]
  | cons g gs ih =>
    obtain ⟨hstart, hend, hzeros⟩ := ih (i + 1)
    rw [longestZeroRun]
    split
    -- The run that starts here is at least as long as those behind it.
    · have hprefix : (g :: gs).takeWhile (· == 0) <+: g :: gs := List.takeWhile_prefix _
      have hall : ∀ x ∈ (g :: gs).takeWhile (· == 0), x = 0 := fun x hx =>
        beq_iff_eq.1 (List.all_eq_true.1 List.all_takeWhile x hx)
      refine ⟨Nat.le_refl i, Nat.add_le_add_left hprefix.length_le i, ?_⟩
      rw [Nat.sub_self, List.drop_zero, zeroRun, ← List.prefix_iff_eq_take.1 hprefix]
      exact List.eq_replicate_of_mem hall
    · refine ⟨by omega, by simp only [List.length_cons]; omega, ?_⟩
      have hskip : (longestZeroRun (i + 1) gs).1 - i =
          (longestZeroRun (i + 1) gs).1 - (i + 1) + 1 := by omega
      rw [hskip, List.drop_succ_cons]
      exact hzeros

theorem length_groups (a : Ipv6) : a.groups.length = 8 := rfl

theorem groups_lt (a : Ipv6) : ∀ g ∈ a.groups, g < 65536 := by
  intro g hg
  obtain ⟨i, -, rfl⟩ := List.mem_map.1 hg
  exact Nat.mod_lt _ (by decide)

/-- The induction is on the number of groups, of which the last one is split off. -/
theorem foldl_groups (count v : Nat) :
    ((List.range count).map fun i => v / Nat.pow 65536 (count - 1 - i) % 65536).foldl
      (fun n g => n * 65536 + g) 0 = v % 65536 ^ count := by
  induction count generalizing v with
  | zero => rw [pow_zero, Nat.mod_one]; rfl
  | succ count ih =>
    have hfront : ∀ i ∈ List.range count, v / Nat.pow 65536 (count + 1 - 1 - i) % 65536 =
        v / 65536 / Nat.pow 65536 (count - 1 - i) % 65536 := by
      intro i hi
      have hexponent : count + 1 - 1 - i = count - 1 - i + 1 := by
        have := List.mem_range.1 hi
        omega
      rw [hexponent, Nat.div_div_eq_div_mul, Nat.mul_comm]
      rfl
    have hlast : Nat.pow 65536 (count + 1 - 1 - count) = 1 := by
      rw [Nat.add_sub_cancel, Nat.sub_self]
    rw [List.range_succ, List.map_append, List.foldl_append, List.map_congr_left hfront, ih,
      List.map_singleton, List.foldl_cons, List.foldl_nil, hlast, Nat.div_one, pow_succ',
      Nat.mod_mul]
    ring

theorem ofGroups_groups (a : Ipv6) : Ipv6.ofGroups a.groups = a := by
  have hnumber : a.groups.foldl (fun n g => n * 65536 + g) 0 = a.value.toNat :=
    (foldl_groups 8 a.value.toNat).trans (Nat.mod_eq_of_lt a.value.isLt)
  rw [Ipv6.ofGroups, hnumber, BitVec.ofNat_toNat, BitVec.setWidth_eq]

theorem readIpv6_joinGroups {front back : List Nat} {length : Nat}
    (hfront : ∀ g ∈ front, g < 65536) (hback : ∀ g ∈ back, g < 65536) (hlength : 1 < length)
    (hcount : front.length + length + back.length = 8) :
    readIpv6 ((joinGroups front).toList ++ ':' :: ':' :: (joinGroups back).toList) =
      some (Ipv6.ofGroups (front ++ List.replicate length 0 ++ back), []) := by
  have hcolons : '.' ∉ ':' :: ':' :: (joinGroups back).toList := by
    simp only [List.mem_cons, not_or]
    exact ⟨by decide, by decide, not_mem_joinGroups back⟩
  have hfirst : readGroups true 8 ((joinGroups front).toList ++ ':' :: ':' ::
      (joinGroups back).toList) = (front, false, ':' :: ':' :: (joinGroups back).toList) :=
    readGroups_joinGroups hfront (by omega) hcolons (.inr ⟨_, rfl⟩)
  have hsecond : readGroups true (7 - front.length) (joinGroups back).toList =
      (back, false, []) := by
    have hread := @readGroups_joinGroups back hback (7 - front.length) (by omega) [] (by simp)
      (.inl rfl)
    rwa [List.append_nil] at hread
  have hbetween : 8 - front.length - back.length = length := by omega
  rw [readIpv6, hfirst]
  simp only [if_neg (show ¬ front.length = 8 by omega), expect_eq_some_iff.2 rfl,
    Option.bind_eq_bind, Option.bind_some, hsecond, hbetween]
  rfl

/-- The text of an address in a URL. -/
theorem readIpv6_groupsText (a : Ipv6) : readIpv6 a.groupsText.toList = some (a, []) := by
  obtain ⟨-, hend, hzeros⟩ := longestZeroRun_spec 0 a.groups
  rw [Ipv6.groupsText]
  dsimp only
  generalize longestZeroRun 0 a.groups = run at hend hzeros
  obtain ⟨start, length⟩ := run
  dsimp only at hend hzeros ⊢
  rw [length_groups, Nat.zero_add] at hend
  rw [Nat.sub_zero] at hzeros
  split
  · next hlength =>
    -- What the double colon leaves out is the zeros of the run.
    have hsplit : a.groups.take start ++ List.replicate length 0 ++ a.groups.drop (start + length) =
        a.groups := by
      rw [← hzeros, ← List.drop_drop, List.append_assoc, List.take_append_drop,
        List.take_append_drop]
    have hread := @readIpv6_joinGroups (a.groups.take start) (a.groups.drop (start + length)) length
      (fun g hg => groups_lt a g (List.mem_of_mem_take hg))
      (fun g hg => groups_lt a g (List.mem_of_mem_drop hg)) hlength
      (by rw [List.length_take, List.length_drop, length_groups]; omega)
    rw [hsplit, ofGroups_groups] at hread
    simpa [String.toList_append] using hread
  · have hread := readGroups_joinGroups (groups_lt a) (Nat.le_of_eq (length_groups a)) (by simp)
      (.inl rfl)
    rw [List.append_nil] at hread
    rw [readIpv6, hread]
    simp [length_groups, ofGroups_groups]

/-- The last two groups, as the address of version four that they are. -/
theorem groupsOfIpv4_drop (a : Ipv6) :
    groupsOfIpv4 (Ipv4.ofBytes (a.toBytes.drop 12)) = a.groups.drop 6 := by
  have hnumber : numberOfBytes (a.toBytes.drop 12) = a.value.toNat % 256 ^ 4 :=
    numberOfBytes_bytesOfNumber 4 a.value.toNat
  have hvalue : (Ipv4.ofBytes (a.toBytes.drop 12)).value.toNat = a.value.toNat % 256 ^ 4 := by
    rw [Ipv4.ofBytes, hnumber, BitVec.toNat_ofNat]
    exact Nat.mod_mod_of_dvd _ (Nat.dvd_refl _)
  have hgroups : a.groups.drop 6 =
      [a.value.toNat / 65536 % 65536, a.value.toNat / 1 % 65536] := rfl
  rw [groupsOfIpv4, hvalue, hgroups]
  simp only [List.cons.injEq, and_true]
  omega

theorem readIpv6_mapped {b : Ipv4} :
    readIpv6 ("::ffff:" ++ b.text).toList =
      some (Ipv6.ofGroups ([0, 0, 0, 0, 0, 0xffff] ++ groupsOfIpv4 b), []) := by
  have hread : readIpv4 b.text.toList = some (b, []) := by
    have h := @readIpv4_append _ [] _ (dotted_text b) nofun
    rwa [List.append_nil] at h
  have hlast : readGroups false 6 (':' :: b.text.toList) = (groupsOfIpv4 b, true, []) := by
    rw [readGroups]
    simp [separator, expect, hread]
  have hback : readGroups true 7 ('f' :: 'f' :: 'f' :: 'f' :: ':' :: b.text.toList) =
      (0xffff :: groupsOfIpv4 b, true, []) := by
    have hfour : readIpv4 ('f' :: 'f' :: 'f' :: 'f' :: ':' :: b.text.toList) = none := rfl
    have hgroup : readNumber 16 (some 4) true 65535
        ('f' :: 'f' :: 'f' :: 'f' :: ':' :: b.text.toList) =
          some (0xffff, ':' :: b.text.toList) := rfl
    rw [readGroups]
    simp [separator, hfour, hgroup, hlast]
  have hfront : readGroups true 8 (':' :: ':' :: 'f' :: 'f' :: 'f' :: 'f' :: ':' :: b.text.toList) =
      ([], false, ':' :: ':' :: 'f' :: 'f' :: 'f' :: 'f' :: ':' :: b.text.toList) := rfl
  have htext : ("::ffff:" ++ b.text).toList =
      ':' :: ':' :: 'f' :: 'f' :: 'f' :: 'f' :: ':' :: b.text.toList := by
    rw [String.toList_append]
    rfl
  rw [readIpv6, htext, hfront]
  simp [expect, hback, groupsOfIpv4]

theorem readIpv6_text (a : Ipv6) : readIpv6 a.text.toList = some (a, []) := by
  rw [Ipv6.text]
  split
  · next hmapped =>
    rw [readIpv6_mapped, groupsOfIpv4_drop, ← beq_iff_eq.1 hmapped, List.take_append_drop,
      ofGroups_groups]
  · exact readIpv6_groupsText a

/-! ## Characters -/

/-- Whether a character may stand in an address: a colon, a dot, a digit or a letter. -/
def IsAddressChar (c : Char) : Prop :=
  c = ':' ∨ c = '.' ∨ (48 ≤ c.toNat ∧ c.toNat ≤ 57) ∨ (65 ≤ c.toNat ∧ c.toNat ≤ 90) ∨
    (97 ≤ c.toNat ∧ c.toNat ≤ 122)

/-- What was read of a text up to the rest of it is characters of addresses. -/
def Takes (cs rest : List Char) : Prop :=
  ∃ front, cs = front ++ rest ∧ ∀ c ∈ front, IsAddressChar c

theorem Takes.refl (cs : List Char) : Takes cs cs := ⟨[], rfl, nofun⟩

theorem Takes.trans {cs ds es : List Char} (h : Takes cs ds) (h' : Takes ds es) : Takes cs es := by
  obtain ⟨front, rfl, hfront⟩ := h
  obtain ⟨front', rfl, hfront'⟩ := h'
  exact ⟨front ++ front', by simp, List.forall_mem_append.2 ⟨hfront, hfront'⟩⟩

theorem isAddressChar_of_spells {base n : Nat} {cs : List Char} (h : Spells base cs n) :
    ∀ c ∈ cs, IsAddressChar c :=
  fun c hc => .inr (.inr (range_of_digit? (h.isDigit c hc)))

theorem takes_of_readNumber {base limit : Nat} {most : Option Nat} {leadingZero : Bool}
    {cs : List Char} {r : Nat × List Char}
    (h : readNumber base most leadingZero limit cs = some r) : Takes cs r.2 := by
  obtain ⟨ds, hcs, hspells, -⟩ := @spells_of_readNumber _ r.1 _ _ _ _ r.2 h
  exact ⟨ds, hcs, isAddressChar_of_spells hspells⟩

theorem takes_of_expect {cs rest : List Char} (h : expect ':' cs = some rest) : Takes cs rest :=
  ⟨[':'], expect_eq_some_iff.1 h, by simp [IsAddressChar]⟩

theorem takes_of_separator {first : Bool} {cs rest : List Char}
    (h : separator ':' first cs = some rest) : Takes cs rest := by
  cases first with
  | true =>
    obtain rfl := Option.some.inj h
    exact .refl cs
  | false => exact takes_of_expect h

theorem Dotted.isAddressChar {cs : List Char} {a : Ipv4} (h : Dotted cs a) :
    ∀ c ∈ cs, IsAddressChar c := by
  obtain ⟨hw, hx, hy, hz⟩ := h
  have hdot : IsAddressChar '.' := .inr (.inl rfl)
  simp only [List.forall_mem_append, List.forall_mem_cons]
  exact ⟨isAddressChar_of_spells hw.spells, hdot, isAddressChar_of_spells hx.spells, hdot,
    isAddressChar_of_spells hy.spells, hdot, isAddressChar_of_spells hz.spells⟩

theorem takes_of_readIpv4 {cs : List Char} {r : Ipv4 × List Char} (h : readIpv4 cs = some r) :
    Takes cs r.2 := by
  obtain ⟨ds, hcs, hdotted⟩ := @dotted_of_readIpv4 _ r.2 r.1 h
  exact ⟨ds, hcs, hdotted.isAddressChar⟩

theorem takes_of_readGroups (first : Bool) (room : Nat) (cs : List Char) :
    Takes cs (readGroups first room cs).2.2 := by
  induction room generalizing first cs with
  | zero => exact .refl cs
  | succ room ih =>
    rw [readGroups]
    split
    · next a rest hembedded =>
      split at hembedded
      · cases hembedded
      · obtain ⟨ds, hds, hread⟩ := Option.bind_eq_some_iff.1 hembedded
        exact (takes_of_separator hds).trans (takes_of_readIpv4 hread)
    · split
      · exact .refl cs
      · next g rest hgroup =>
        obtain ⟨ds, hds, hread⟩ := Option.bind_eq_some_iff.1 hgroup
        exact ((takes_of_separator hds).trans (takes_of_readNumber hread)).trans (ih false rest)

theorem takes_of_readIpv6 {cs : List Char} {r : Ipv6 × List Char} (h : readIpv6 cs = some r) :
    Takes cs r.2 := by
  have hfront := takes_of_readGroups true 8 cs
  rw [readIpv6] at h
  generalize readGroups true 8 cs = front at h hfront
  obtain ⟨gs, four, ds⟩ := front
  dsimp only at h hfront
  split at h
  · obtain rfl := Option.some.inj h
    exact hfront
  split at h
  · cases h
  simp only [Option.bind_eq_bind, Option.bind_eq_some_iff] at h
  obtain ⟨es, hes, fs, hfs, hresult⟩ := h
  obtain rfl := Option.some.inj hresult
  exact ((hfront.trans (takes_of_expect hes)).trans (takes_of_expect hfs)).trans
    (takes_of_readGroups true _ fs)

/-! ## Both versions -/

/-- No address of version six starts with one of version four. -/
theorem readIpv4_of_readIpv6 {cs : List Char} {r : Ipv6 × List Char}
    (h : readIpv6 cs = some r) : readIpv4 cs = none := by
  cases hread : readIpv4 cs with
  | none => rfl
  | some four =>
    -- It gives two groups, which are too few, and nothing may follow it.
    have hgroups : readGroups true 8 cs = (groupsOfIpv4 four.1, true, four.2) := by
      rw [readGroups]
      simp [separator, hread]
    rw [readIpv6, hgroups] at h
    simp [groupsOfIpv4] at h

theorem Takes.count_le {cs rest : List Char} (h : Takes cs rest) (c : Char) :
    rest.count c ≤ cs.count c := by
  obtain ⟨front, rfl, -⟩ := h
  rw [List.count_append]
  exact Nat.le_add_left _ _

/-- All groups but the first two have a colon before them. -/
theorem length_readGroups (first : Bool) (room : Nat) (cs : List Char) :
    (readGroups first room cs).1.length ≤ cs.count ':' + (if first then 2 else 1) := by
  have hcolon : ∀ {first : Bool} {cs ds : List Char}, separator ':' first cs = some ds →
      ds.count ':' + (if first then 0 else 1) ≤ cs.count ':' := by
    intro first cs ds h
    cases first with
    | true =>
      obtain rfl := Option.some.inj h
      exact Nat.le_refl _
    | false =>
      obtain rfl := expect_eq_some_iff.1 (h : expect ':' cs = some ds)
      simp
  induction room generalizing first cs with
  | zero => exact Nat.zero_le _
  | succ room ih =>
    rw [readGroups]
    split
    · next a rest hembedded =>
      split at hembedded
      · cases hembedded
      · obtain ⟨ds, hds, -⟩ := Option.bind_eq_some_iff.1 hembedded
        have hcount := hcolon hds
        change 2 ≤ _
        cases first
        all_goals
          simp only [if_true, if_false, Bool.false_eq_true] at hcount ⊢
          omega
    · split
      · exact Nat.zero_le _
      · next g rest hgroup =>
        obtain ⟨ds, hds, hread⟩ := Option.bind_eq_some_iff.1 hgroup
        have hcount := hcolon hds
        have hrest : rest.count ':' ≤ ds.count ':' := (takes_of_readNumber hread).count_le ':'
        have hmore := ih false rest
        change (readGroups false room rest).1.length + 1 ≤ _
        cases first
        all_goals
          simp only [if_true, if_false, Bool.false_eq_true] at hcount hmore ⊢
          omega

theorem two_le_count_of_readIpv6 {cs : List Char} {r : Ipv6 × List Char}
    (h : readIpv6 cs = some r) : 2 ≤ cs.count ':' := by
  have hlength := length_readGroups true 8 cs
  have hfront := (takes_of_readGroups true 8 cs).count_le ':'
  rw [readIpv6] at h
  generalize readGroups true 8 cs = front at h hlength hfront
  obtain ⟨gs, four, ds⟩ := front
  dsimp only at h hlength hfront
  rw [if_pos rfl] at hlength
  split at h
  · omega
  split at h
  · cases h
  simp only [Option.bind_eq_bind, Option.bind_eq_some_iff, expect_eq_some_iff] at h
  obtain ⟨es, rfl, fs, rfl, -⟩ := h
  simp at hfront
  omega

end NetProbe.AddressText
