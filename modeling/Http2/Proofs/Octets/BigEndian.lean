/-
Numbers in network order are what they are the octets of.

On numbers that fit the width, decoding undoes encoding
(`decode_encode`), and on every string of octets encoding undoes
decoding (`encode_decode`).
-/
import Mathlib.Algebra.Group.Nat.Defs
import Http2.Octets.BigEndian

namespace Http2.BigEndian

theorem encode_succ (width n : Nat) :
    encode (width + 1) n = UInt8.ofNat (n / 256 ^ width) :: encode width n := by
  rw [encode, Nat.shiftRight_eq_div_pow, Nat.pow_mul]

theorem decode_cons (octet : UInt8) (octets : List UInt8) :
    decode (octet :: octets)
      = octet.toNat * 256 ^ octets.length + decode octets := by
  rw [decode, Nat.shiftLeft_eq, Nat.pow_mul]

/-- What lies above the width is dropped. -/
theorem decode_encode_mod (width n : Nat) :
    decode (encode width n) = n % 256 ^ width := by
  induction width with
  | zero => simp [encode, decode, Nat.mod_one]
  | succ width ih =>
    simp only [encode_succ, decode_cons, length_encode, ih, UInt8.toNat_ofNat']
    rw [Nat.pow_succ 256 width, Nat.mod_mul (x := n), Nat.mul_comm,
      Nat.add_comm]

theorem decode_encode {width n : Nat} (h : n < 256 ^ width) :
    decode (encode width n) = n := by
  rw [decode_encode_mod, Nat.mod_eq_of_lt h]

theorem decode_lt (octets : List UInt8) :
    decode octets < 256 ^ octets.length := by
  induction octets with
  | nil => simp [decode]
  | cons octet octets ih =>
    have hoctet : octet.toNat + 1 ≤ 256 := octet.toNat_lt
    have hmul := Nat.mul_le_mul_right (256 ^ octets.length) hoctet
    rw [Nat.add_mul, Nat.one_mul] at hmul
    simp only [decode_cons, List.length_cons, Nat.pow_succ]
    omega

/-- Only the lowest octets of a number matter. -/
theorem encode_mod (width n : Nat) :
    encode width (n % 256 ^ width) = encode width n := by
  suffices h : ∀ w k, w ≤ k → encode w (n % 256 ^ k) = encode w n from
    h width width (Nat.le_refl width)
  intro w k hk
  induction w with
  | zero => rfl
  | succ w ih =>
    simp only [encode_succ, ih (by omega)]
    congr 1
    apply UInt8.toNat_inj.mp
    obtain ⟨d, rfl⟩ := Nat.exists_eq_add_of_le hk
    have hsplit : 256 ^ (w + 1 + d) = 256 ^ w * (256 * 256 ^ d) := by
      rw [Nat.pow_add, Nat.pow_succ, Nat.mul_assoc]
    simp only [UInt8.toNat_ofNat', hsplit, Nat.mod_mul_right_div_self]
    exact Nat.mod_mul_right_mod (n / 256 ^ w) 256 (256 ^ d)

theorem encode_decode (octets : List UInt8) :
    encode octets.length (decode octets) = octets := by
  induction octets with
  | nil => rfl
  | cons octet octets ih =>
    have hlt := decode_lt octets
    have hpos : 0 < 256 ^ octets.length := Nat.pow_pos (by decide)
    have htail : (octet.toNat * 256 ^ octets.length + decode octets)
        % 256 ^ octets.length = decode octets := by
      rw [Nat.mul_comm, Nat.mul_add_mod, Nat.mod_eq_of_lt hlt]
    simp only [List.length_cons, encode_succ, decode_cons]
    rw [← encode_mod octets.length, htail, ih, Nat.mul_comm,
      Nat.mul_add_div hpos, Nat.div_eq_of_lt hlt, Nat.add_zero,
      UInt8.ofNat_toNat]

theorem encode_decode_of_length {octets : List UInt8} {width : Nat}
    (h : octets.length = width) : encode width (decode octets) = octets := by
  rw [← h, encode_decode]

/-- Four octets are spelled again by the word that they spell. -/
theorem encode_ofNat_decode {octets : List UInt8} (h : octets.length = 4) :
    encode 4 (UInt32.ofNat (decode octets)).toNat = octets := by
  have hlt : decode octets < UInt32.size := by
    have hlt := decode_lt octets
    rw [h] at hlt
    exact hlt
  rw [UInt32.toNat_ofNat_of_lt' hlt, encode_decode_of_length h]

end Http2.BigEndian
