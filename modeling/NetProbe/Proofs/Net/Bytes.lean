import Mathlib.Tactic.Ring
import NetProbe.Net.Ip
set_option autoImplicit false

/-! # Numbers as bytes

A number is read back from its bytes (`numberOfBytes_bytesOfNumber`), and bytes are those of the
number that they spell (`bytesOfNumber_numberOfBytes`). So an address is told by its bytes. -/

namespace NetProbe

theorem length_bytesOfNumber (count n : Nat) : (bytesOfNumber count n).length = count := by
  induction count with
  | zero => rfl
  | succ count ih => rw [bytesOfNumber, List.length_cons, ih]

theorem foldl_bytes (bytes : List UInt8) (start : Nat) :
    bytes.foldl (fun n b => n * 256 + b.toNat) start =
      start * 256 ^ bytes.length + numberOfBytes bytes := by
  induction bytes generalizing start with
  | nil => simp [numberOfBytes]
  | cons b bytes ih =>
    rw [numberOfBytes, List.foldl_cons, List.foldl_cons, ih, ih (0 * 256 + b.toNat),
      List.length_cons, pow_succ]
    ring

theorem numberOfBytes_cons (b : UInt8) (bytes : List UInt8) :
    numberOfBytes (b :: bytes) = b.toNat * 256 ^ bytes.length + numberOfBytes bytes := by
  rw [numberOfBytes, List.foldl_cons, foldl_bytes]
  ring

theorem numberOfBytes_lt (bytes : List UInt8) : numberOfBytes bytes < 256 ^ bytes.length := by
  induction bytes with
  | nil => exact Nat.one_pos
  | cons b bytes ih =>
    have hb : b.toNat + 1 ≤ 256 := b.toNat_lt
    rw [numberOfBytes_cons, List.length_cons, pow_succ]
    calc b.toNat * 256 ^ bytes.length + numberOfBytes bytes
        < (b.toNat + 1) * 256 ^ bytes.length := by
          rw [Nat.add_mul, Nat.one_mul]
          exact Nat.add_lt_add_left ih _
      _ ≤ 256 ^ bytes.length * 256 := by
          rw [Nat.mul_comm]
          exact Nat.mul_le_mul_left _ hb

theorem numberOfBytes_bytesOfNumber (count n : Nat) :
    numberOfBytes (bytesOfNumber count n) = n % 256 ^ count := by
  induction count with
  | zero => rw [pow_zero, Nat.mod_one]; rfl
  | succ count ih =>
    rw [bytesOfNumber, numberOfBytes_cons, length_bytesOfNumber, ih, pow_succ, Nat.mod_mul,
      UInt8.toNat_ofNat']
    change n / 256 ^ count % 256 * _ + _ = _
    ring

/-- Only the lowest bytes count, so a higher part `m` of the number may be there or not. -/
theorem bytesOfNumber_add (m : Nat) (bytes : List UInt8) :
    bytesOfNumber bytes.length (m * 256 ^ bytes.length + numberOfBytes bytes) = bytes := by
  induction bytes generalizing m with
  | nil => rfl
  | cons b bytes ih =>
    have hb := b.toNat_lt
    have hsplit : m * 256 ^ (b :: bytes).length + numberOfBytes (b :: bytes) =
        (m * 256 + b.toNat) * 256 ^ bytes.length + numberOfBytes bytes := by
      rw [numberOfBytes_cons, List.length_cons, pow_succ]
      ring
    have hdiv : ((m * 256 + b.toNat) * 256 ^ bytes.length + numberOfBytes bytes) /
        256 ^ bytes.length = m * 256 + b.toNat := by
      rw [Nat.add_comm, Nat.add_mul_div_right _ _ (Nat.pow_pos (by decide)),
        Nat.div_eq_of_lt (numberOfBytes_lt bytes), Nat.zero_add]
    have hhead : UInt8.ofNat (m * 256 + b.toNat) = b := by
      rw [← UInt8.toNat_inj, UInt8.toNat_ofNat']
      change (m * 256 + b.toNat) % 256 = _
      omega
    rw [List.length_cons, bytesOfNumber, ← List.length_cons, hsplit]
    change UInt8.ofNat (_ / 256 ^ bytes.length) :: _ = _
    rw [hdiv, hhead, ih]

theorem bytesOfNumber_numberOfBytes (bytes : List UInt8) :
    bytesOfNumber bytes.length (numberOfBytes bytes) = bytes := by
  have h := bytesOfNumber_add 0 bytes
  rwa [Nat.zero_mul, Nat.zero_add] at h

/-! ## Addresses -/

theorem Ipv4.toBytes_ofBytes {bytes : List UInt8} (h : bytes.length = 4) :
    (Ipv4.ofBytes bytes).toBytes = bytes := by
  have hlt : numberOfBytes bytes < 2 ^ 32 := by
    have hlt := numberOfBytes_lt bytes
    rwa [h] at hlt
  rw [Ipv4.toBytes, Ipv4.ofBytes, BitVec.toNat_ofNat, Nat.mod_eq_of_lt hlt, ← h]
  exact bytesOfNumber_numberOfBytes bytes

theorem Ipv4.ofBytes_toBytes (a : Ipv4) : Ipv4.ofBytes a.toBytes = a := by
  have hnumber : numberOfBytes a.toBytes = a.value.toNat := by
    rw [Ipv4.toBytes, numberOfBytes_bytesOfNumber]
    exact Nat.mod_eq_of_lt a.value.isLt
  rw [Ipv4.ofBytes, hnumber, BitVec.ofNat_toNat, BitVec.setWidth_eq]

theorem Ipv6.toBytes_ofBytes {bytes : List UInt8} (h : bytes.length = 16) :
    (Ipv6.ofBytes bytes).toBytes = bytes := by
  have hlt : numberOfBytes bytes < 2 ^ 128 := by
    have hlt := numberOfBytes_lt bytes
    rwa [h] at hlt
  rw [Ipv6.toBytes, Ipv6.ofBytes, BitVec.toNat_ofNat, Nat.mod_eq_of_lt hlt, ← h]
  exact bytesOfNumber_numberOfBytes bytes

end NetProbe
