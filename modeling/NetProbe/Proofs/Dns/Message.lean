import NetProbe.Dns.Message
set_option autoImplicit false

/-! # Readings of messages

The readers of messages as chains of smaller ones: the equations by which proofs take them apart. -/

namespace NetProbe.Dns

theorem length_of_take {n : Nat} {bytes data rest : Bytes}
    (h : take n bytes = .ok (data, rest)) : data.length = n := by
  rw [take] at h
  split at h
  · next hle =>
    cases h
    exact List.length_take_of_le hle
  · cases h

theorem take_append {n : Nat} {data : Bytes} (h : data.length = n) (rest : Bytes) :
    take n (data ++ rest) = .ok (data, rest) := by
  subst h
  rw [take, if_pos (by rw [List.length_append]; omega), List.take_left, List.drop_left]

theorem takeNumber_eq (n : Nat) (bytes : Bytes) :
    takeNumber n bytes = (do
      let (data, rest) ← take n bytes
      return (numberOfBytes data, rest) : Except MessageError (Nat × Bytes)) := by
  rw [takeNumber]
  cases take n bytes <;> rfl

theorem skipName_zero (bytes : Bytes) : skipName 0 bytes = .error .nameTooLong := by
  cases bytes <;> rfl

theorem skipName_nil (n : Nat) : skipName (n + 1) [] = .error .shortMessage := rfl

theorem skipName_cons (n : Nat) (b : UInt8) (bytes : Bytes) :
    skipName (n + 1) (b :: bytes) =
      if b.toNat = 0 then .ok bytes
      else if 0xc0 ≤ b.toNat then do
        let (_, rest) ← take 1 bytes
        return rest
      else if b.toNat < 0x40 then do
        let (_, rest) ← take b.toNat bytes
        skipName n rest
      else .error .badLabel := by
  simp only [skipName]
  cases take 1 bytes <;> cases take b.toNat bytes <;> rfl

end NetProbe.Dns
