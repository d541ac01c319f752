import Mathlib.Data.List.TakeWhile
import NetProbe.Text.Utf8
set_option autoImplicit false

/-! # Texts survive being written as bytes

The bytes of a text are read back as the text: `ofBytes?_toBytes`. Each character is written in one
to four bytes, of which the first tells how many there are, and a byte of ASCII is not part of any
character but its own: `mem_toBytes_iff`. -/

namespace NetProbe.Text

/-! ## Bytes of a text -/

theorem toList_loop_eq (bytes : ByteArray) (i : Nat) (r : List UInt8) :
    ByteArray.toList.loop bytes i r = r.reverse ++ bytes.data.toList.drop i := by
  fun_induction ByteArray.toList.loop bytes i r with
  | case1 i r h ih =>
    have hi : i < bytes.data.toList.length := by simpa using h
    have hget : bytes.get! i = bytes.data.toList[i] := by
      cases bytes
      exact getElem!_pos _ i hi
    rw [ih, List.drop_eq_getElem_cons hi, hget]
    simp
  | case2 i r h =>
    rw [List.drop_eq_nil_of_le (by simpa using Nat.le_of_not_lt h), List.append_nil]

theorem toBytes_eq_flatMap (s : String) :
    toBytes s = s.toList.flatMap String.utf8EncodeChar := by
  rw [toBytes, ByteArray.toList, toList_loop_eq]
  have h : s.toUTF8 = s.toList.utf8Encode := String.utf8Encode_toList.symm
  rw [h, List.utf8Encode]
  simp

theorem length_toBytes_le (s : String) : (toBytes s).length ≤ 4 * s.toList.length := by
  rw [toBytes_eq_flatMap]
  induction s.toList with
  | nil => exact Nat.zero_le _
  | cons c cs ih =>
    have hc := c.utf8Size_le_four
    rw [List.flatMap_cons, List.length_append, String.length_utf8EncodeChar, List.length_cons]
    omega

/-- A byte of ASCII stands for itself and nothing else. -/
theorem eq_of_mem_utf8EncodeChar {c : Char} {b : UInt8} (hb : b ∈ String.utf8EncodeChar c)
    (h : b.toNat < 128) : c.toNat = b.toNat := by
  have hv : c.val.toNat = c.toNat := rfl
  simp only [String.utf8EncodeChar, hv] at hb
  split at hb
  · rw [List.mem_singleton] at hb
    subst hb
    simp only [UInt8.toNat_ofNat']
    omega
  -- All bytes of a longer character are large.
  · exfalso
    have hlarge {n : Nat} (hn : 128 ≤ n ∧ n < 256) : b ≠ UInt8.ofNat n := by
      rintro rfl
      rw [UInt8.toNat_ofNat_of_lt' hn.2] at h
      omega
    split at hb
    · simp only [List.mem_cons, List.not_mem_nil, or_false] at hb
      rcases hb with hb | hb <;> exact hlarge (by omega) hb
    split at hb
    · simp only [List.mem_cons, List.not_mem_nil, or_false] at hb
      rcases hb with hb | hb | hb <;> exact hlarge (by omega) hb
    · simp only [List.mem_cons, List.not_mem_nil, or_false] at hb
      rcases hb with hb | hb | hb | hb <;> exact hlarge (by omega) hb

theorem leadByte_ofNat {n : Nat} (hn : n < 256) : leadByte (UInt8.ofNat n) =
    if n < 0x80 then some (1, 0, 0)
    else if n < 0xc2 then none
    else if n < 0xe0 then some (2, 0x80, 0xbf)
    else if n = 0xe0 then some (3, 0xa0, 0xbf)
    else if n = 0xed then some (3, 0x80, 0x9f)
    else if n < 0xf0 then some (3, 0x80, 0xbf)
    else if n = 0xf0 then some (4, 0x90, 0xbf)
    else if n < 0xf4 then some (4, 0x80, 0xbf)
    else if n = 0xf4 then some (4, 0x80, 0x8f)
    else none := by
  have hval : (UInt8.ofNat n).toNat = n := UInt8.toNat_ofNat_of_lt' hn
  simp only [leadByte, UInt8.lt_iff_toNat_lt, ← UInt8.toNat_inj, hval]
  rfl

/-- A character of at least two bytes, of which the second is in its range and the others continue
    it. -/
theorem nextChar_of_leadByte {b d : UInt8} (tail : List UInt8)
    (hlead : ∃ low high, leadByte b = some (tail.length + 2, low, high) ∧
      low.toNat ≤ d.toNat ∧ d.toNat ≤ high.toNat)
    (htail : ∀ e ∈ tail, isContinuation e = true) (rest : List UInt8) :
    nextChar b (d :: tail ++ rest) = (tail.length + 2, some (Char.ofNat
      ((d :: tail).foldl (fun n e => n * 64 + e.toNat % 64) (leadBits (tail.length + 2) b)))) := by
  obtain ⟨low, high, hlead, hlow, hhigh⟩ := hlead
  have hrange : (d < low || high < d) = false := by
    simp only [UInt8.lt_iff_toNat_lt, Bool.or_eq_false_iff, decide_eq_false_iff_not]
    omega
  have htake : ((tail ++ rest).take (tail.length + 2 - 2)).takeWhile isContinuation = tail := by
    rw [Nat.add_sub_cancel, List.take_left', List.takeWhile_eq_self_iff]
    · exact htail
    · rfl
  rw [nextChar, hlead]
  simp only [List.cons_append, hrange, htake]
  rw [if_neg (by decide), if_pos (by omega)]

theorem isContinuation_ofNat (n : Nat) : isContinuation (UInt8.ofNat (n % 64 + 128)) = true := by
  have hval : (UInt8.ofNat (n % 64 + 128)).toNat = n % 64 + 128 :=
    UInt8.toNat_ofNat_of_lt' (by omega : n % 64 + 128 < 256)
  simp only [isContinuation, UInt8.le_iff_toNat_le, hval, Bool.and_eq_true, decide_eq_true_eq]
  exact ⟨Nat.le_add_left _ _, show n % 64 + 128 ≤ 191 by omega⟩

/-! The first of two, three or four bytes tells how many there are, and the second is in the range
that belongs to the first: what would be overlong, a surrogate or too large is not encoded. -/

section

variable {v : Nat}

theorem exists_leadByte_two (h : 128 ≤ v ∧ v < 2048) :
    ∃ low high : UInt8, leadByte (UInt8.ofNat (v / 64 % 32 + 192)) = some (2, low, high) ∧
      low.toNat ≤ v % 64 + 128 ∧ v % 64 + 128 ≤ high.toNat := by
  rw [leadByte_ofNat (by omega), if_neg (by omega), if_neg (by omega), if_pos (by omega)]
  exact ⟨_, _, rfl, show 128 ≤ _ by omega, show _ ≤ 191 by omega⟩

theorem exists_leadByte_three (h : 2048 ≤ v ∧ v < 65536) (hvalid : v < 0xd800 ∨ 0xdfff < v) :
    ∃ low high : UInt8, leadByte (UInt8.ofNat (v / 4096 % 16 + 224)) = some (3, low, high) ∧
      low.toNat ≤ v / 64 % 64 + 128 ∧ v / 64 % 64 + 128 ≤ high.toNat := by
  rw [leadByte_ofNat (by omega), if_neg (by omega), if_neg (by omega), if_neg (by omega)]
  split
  · exact ⟨_, _, rfl, show 160 ≤ _ by omega, show _ ≤ 191 by omega⟩
  split
  · exact ⟨_, _, rfl, show 128 ≤ _ by omega, show _ ≤ 159 by omega⟩
  · rw [if_pos (by omega)]
    exact ⟨_, _, rfl, show 128 ≤ _ by omega, show _ ≤ 191 by omega⟩

theorem exists_leadByte_four (h : 65536 ≤ v ∧ v < 0x110000) :
    ∃ low high : UInt8, leadByte (UInt8.ofNat (v / 262144 % 8 + 240)) = some (4, low, high) ∧
      low.toNat ≤ v / 4096 % 64 + 128 ∧ v / 4096 % 64 + 128 ≤ high.toNat := by
  rw [leadByte_ofNat (by omega), if_neg (by omega), if_neg (by omega), if_neg (by omega),
    if_neg (by omega), if_neg (by omega), if_neg (by omega)]
  split
  · exact ⟨_, _, rfl, show 144 ≤ _ by omega, show _ ≤ 191 by omega⟩
  split
  · exact ⟨_, _, rfl, show 128 ≤ _ by omega, show _ ≤ 191 by omega⟩
  · rw [if_pos (by omega)]
    exact ⟨_, _, rfl, show 128 ≤ _ by omega, show _ ≤ 143 by omega⟩

end

/-- One case for each number of bytes. -/
theorem nextChar_utf8EncodeChar (c : Char) (rest : List UInt8) :
    ∃ b bs, String.utf8EncodeChar c = b :: bs ∧
      nextChar b (bs ++ rest) = (bs.length + 1, some c) := by
  have hchar : Char.ofNat c.toNat = c := Char.ofNat_toNat c
  have hbyte {n : Nat} (hn : n < 256) : (UInt8.ofNat n).toNat = n := UInt8.toNat_ofNat_of_lt' hn
  have hvalid : c.toNat < 0xd800 ∨ 0xdfff < c.toNat ∧ c.toNat < 0x110000 := c.valid
  rw [String.utf8EncodeChar, show c.val.toNat = c.toNat from rfl]
  generalize c.toNat = v at *
  split
  · next h =>
    refine ⟨_, _, rfl, ?_⟩
    rw [nextChar, leadByte_ofNat (by omega), if_pos (by omega)]
    simp only [hbyte (by omega : v < 256), hchar]
    rfl
  split
  · next h =>
    have hvalue : (v / 64 % 32 + 192) % 32 * 64 + (v % 64 + 128) % 64 = v := by omega
    have hlead := exists_leadByte_two (by omega : 128 ≤ v ∧ v < 2048)
    rw [← hbyte (by omega : v % 64 + 128 < 256)] at hlead
    refine ⟨_, _, rfl, (nextChar_of_leadByte [] hlead nofun rest).trans ?_⟩
    change (2, some (Char.ofNat ((UInt8.ofNat (v / 64 % 32 + 192)).toNat % 32 * 64 +
      (UInt8.ofNat (v % 64 + 128)).toNat % 64))) = (2, some c)
    rw [hbyte (by omega), hbyte (by omega), hvalue, hchar]
  split
  · next h =>
    have hvalue : ((v / 4096 % 16 + 224) % 16 * 64 + (v / 64 % 64 + 128) % 64) * 64 +
        (v % 64 + 128) % 64 = v := by omega
    have hlead := exists_leadByte_three (by omega : 2048 ≤ v ∧ v < 65536) (by omega)
    rw [← hbyte (by omega : v / 64 % 64 + 128 < 256)] at hlead
    refine ⟨_, _, rfl, (nextChar_of_leadByte [_] hlead
      (List.forall_mem_cons.2 ⟨isContinuation_ofNat v, nofun⟩) rest).trans ?_⟩
    change (3, some (Char.ofNat (((UInt8.ofNat (v / 4096 % 16 + 224)).toNat % 16 * 64 +
      (UInt8.ofNat (v / 64 % 64 + 128)).toNat % 64) * 64 +
      (UInt8.ofNat (v % 64 + 128)).toNat % 64))) = (3, some c)
    rw [hbyte (by omega), hbyte (by omega), hbyte (by omega), hvalue, hchar]
  · have hvalue : (((v / 262144 % 8 + 240) % 8 * 64 + (v / 4096 % 64 + 128) % 64) * 64 +
        (v / 64 % 64 + 128) % 64) * 64 + (v % 64 + 128) % 64 = v := by omega
    have hlead := exists_leadByte_four (by omega : 65536 ≤ v ∧ v < 0x110000)
    rw [← hbyte (by omega : v / 4096 % 64 + 128 < 256)] at hlead
    refine ⟨_, _, rfl, (nextChar_of_leadByte [_, _] hlead
      (List.forall_mem_cons.2 ⟨isContinuation_ofNat (v / 64),
        List.forall_mem_cons.2 ⟨isContinuation_ofNat v, nofun⟩⟩) rest).trans ?_⟩
    change (4, some (Char.ofNat ((((UInt8.ofNat (v / 262144 % 8 + 240)).toNat % 8 * 64 +
      (UInt8.ofNat (v / 4096 % 64 + 128)).toNat % 64) * 64 +
      (UInt8.ofNat (v / 64 % 64 + 128)).toNat % 64) * 64 +
      (UInt8.ofNat (v % 64 + 128)).toNat % 64))) = (4, some c)
    rw [hbyte (by omega), hbyte (by omega), hbyte (by omega), hbyte (by omega), hvalue, hchar]

theorem decode?_drop (bs rest : List UInt8) : decode? bs.length (bs ++ rest) = decode? 0 rest := by
  induction bs with
  | nil => rfl
  | cons b bs ih => exact ih

theorem decode?_utf8EncodeChar (c : Char) (rest : List UInt8) :
    decode? 0 (String.utf8EncodeChar c ++ rest) = (decode? 0 rest).map (c :: ·) := by
  obtain ⟨b, bs, hbytes, hnext⟩ := nextChar_utf8EncodeChar c rest
  rw [hbytes, List.cons_append, decode?, hnext]
  simp only [Nat.add_sub_cancel, decode?_drop]

theorem ofBytes?_toBytes (s : String) : ofBytes? (toBytes s) = some s := by
  have hdecode (cs : List Char) : decode? 0 (cs.flatMap String.utf8EncodeChar) = some cs := by
    induction cs with
    | nil => rfl
    | cons c cs ih => rw [List.flatMap_cons, decode?_utf8EncodeChar, ih, Option.map_some]
  rw [ofBytes?, toBytes_eq_flatMap, hdecode, Option.map_some, String.ofList_toList]

/-- The last byte of a text, if it is one of ASCII, is its last character. -/
theorem getLast?_of_toBytes {s : String} {b : UInt8} (hb : (toBytes s).getLast? = some b)
    (h : b.toNat < 128) : ∃ c, s.toList.getLast? = some c ∧ c.toNat = b.toNat := by
  rw [toBytes_eq_flatMap] at hb
  rcases List.eq_nil_or_concat s.toList with hnil | ⟨cs, c, hs⟩
  · rw [hnil] at hb
    cases hb
  · obtain ⟨d, ds, hbytes, -⟩ := nextChar_utf8EncodeChar c []
    have hlast : (String.utf8EncodeChar c).getLast? = some b := by
      rw [hs, List.concat_eq_append, List.flatMap_append, List.flatMap_singleton,
        List.getLast?_append, hbytes, List.getLast?_cons, Option.some_or] at hb
      rw [hbytes, List.getLast?_cons, hb]
    exact ⟨c, by rw [hs, List.concat_eq_append, List.getLast?_concat],
      eq_of_mem_utf8EncodeChar (List.mem_of_getLast? hlast) h⟩

theorem count_utf8EncodeChar {c : Char} (hc : c.toNat < 128) (d : Char) :
    (String.utf8EncodeChar d).count (UInt8.ofNat c.toNat) = if d = c then 1 else 0 := by
  have hval : (UInt8.ofNat c.toNat).toNat = c.toNat :=
    UInt8.toNat_ofNat_of_lt' (by omega : c.toNat < 256)
  split
  · next h =>
    subst h
    rw [String.utf8EncodeChar, show d.val.toNat = d.toNat from rfl, if_pos (by omega)]
    exact List.count_singleton_self
  · next h =>
    refine List.count_eq_zero.2 fun hmem => h ?_
    have heq := eq_of_mem_utf8EncodeChar hmem (by rw [hval]; exact hc)
    exact Char.toNat_inj.1 (heq.trans hval)

/-- A character of ASCII is in a text as often as its byte is in the bytes. -/
theorem count_toBytes {c : Char} (hc : c.toNat < 128) (s : String) :
    (toBytes s).count (UInt8.ofNat c.toNat) = s.toList.count c := by
  rw [toBytes_eq_flatMap]
  induction s.toList with
  | nil => rfl
  | cons d cs ih =>
    rw [List.flatMap_cons, List.count_append, ih, count_utf8EncodeChar hc, List.count_cons]
    simp only [beq_iff_eq]
    exact Nat.add_comm _ _

theorem mem_toBytes_iff {c : Char} (hc : c.toNat < 128) (s : String) :
    UInt8.ofNat c.toNat ∈ toBytes s ↔ c ∈ s.toList := by
  rw [← List.count_pos_iff, count_toBytes hc, List.count_pos_iff]

end NetProbe.Text
