/-
Integers and strings that are written are read again.

What is read at the front of a string does not depend on what follows,
and it takes exactly the octets that were written. The only limit is the
reader's: four octets behind the first one, so 2^28 numbers beyond those
that fit into the first octet.
-/
import Mathlib.Algebra.Group.Nat.Defs
import Http2.Hpack.Representation

namespace Http2.Hpack

namespace Integer

theorem encode_eq (bits high n : Nat) :
    encode bits high n
      = if n < 2 ^ bits - 1 then [.ofNat (high + n)]
        else .ofNat (high + (2 ^ bits - 1))
          :: encodeContinuation (n - (2 ^ bits - 1)) := by
  rw [encode, Nat.one_shiftLeft]

theorem decode_cons (bits : Nat) (first : UInt8) (octets : List UInt8) :
    decode bits (first :: octets)
      = if first.toNat % 2 ^ bits < 2 ^ bits - 1 then
          some (first.toNat % 2 ^ bits, 1)
        else (decodeContinuation maxContinuation octets).map fun (n, taken) =>
          (2 ^ bits - 1 + n, taken + 1) := by
  rw [decode, Nat.one_shiftLeft]

theorem decodeContinuation_of_lt {n : Nat} (h : n < 128) (room : Nat)
    (rest : List UInt8) :
    decodeContinuation (room + 1) (encodeContinuation n ++ rest)
      = some (n, (encodeContinuation n).length) := by
  have hoctet : (UInt8.ofNat n).toNat = n := by
    rw [UInt8.toNat_ofNat']
    omega
  unfold encodeContinuation
  rw [if_pos h, List.singleton_append, decodeContinuation, hoctet, if_pos h]
  rfl

/-- Seven bit octets that are written are read again. -/
theorem decodeContinuation_encode {room n : Nat} (h : n < 128 ^ (room + 1))
    (rest : List UInt8) :
    decodeContinuation (room + 1) (encodeContinuation n ++ rest)
      = some (n, (encodeContinuation n).length) := by
  induction room generalizing n with
  | zero => exact decodeContinuation_of_lt h 0 rest
  | succ room ih =>
      by_cases hlast : n < 128
      case pos => exact decodeContinuation_of_lt hlast _ rest
      case neg =>
        have hoctet : (UInt8.ofNat (n % 128 + 128)).toNat = n % 128 + 128 := by
          rw [UInt8.toNat_ofNat']
          omega
        have hrest : n / 128 < 128 ^ (room + 1) := by
          rw [Nat.div_lt_iff_lt_mul (by decide), ← Nat.pow_succ]
          exact h
        unfold encodeContinuation
        rw [if_neg hlast, List.cons_append, decodeContinuation, hoctet,
          if_neg (by omega), ih hrest]
        show some (_, _) = some (_, _)
        congr 2
        omega

/-- An integer that is written is read again, whatever the high bits of
its first octet. -/
theorem decode_encode {bits high n : Nat} (hhigh : high % 2 ^ bits = 0)
    (hroom : high + 2 ^ bits ≤ 256)
    (hn : n < 2 ^ bits - 1 + 128 ^ maxContinuation) (rest : List UInt8) :
    decode bits (encode bits high n ++ rest)
      = some (n, (encode bits high n).length) := by
  have hpow : 0 < 2 ^ bits := Nat.two_pow_pos bits
  have hlow : ∀ k, k < 2 ^ bits →
      (UInt8.ofNat (high + k)).toNat % 2 ^ bits = k := by
    intro k hk
    have hoctet : (UInt8.ofNat (high + k)).toNat = high + k := by
      rw [UInt8.toNat_ofNat']
      omega
    rw [hoctet, Nat.add_mod, hhigh, Nat.zero_add, Nat.mod_mod,
      Nat.mod_eq_of_lt hk]
  rw [encode_eq]
  split
  case isTrue hfits =>
    rw [List.singleton_append, decode_cons]
    simp only [hlow n (by omega), if_pos hfits]
    rfl
  case isFalse hbeyond =>
    have hrest : n - (2 ^ bits - 1) < 128 ^ (3 + 1) := by
      simp only [maxContinuation] at hn
      omega
    have hcontinued : decodeContinuation maxContinuation
        (encodeContinuation (n - (2 ^ bits - 1)) ++ rest)
        = some (n - (2 ^ bits - 1),
          (encodeContinuation (n - (2 ^ bits - 1))).length) :=
      decodeContinuation_encode hrest rest
    rw [List.cons_append, decode_cons]
    simp only [hlow (2 ^ bits - 1) (by omega), Nat.lt_irrefl, if_false,
      hcontinued, Option.map_some, List.length_cons]
    congr 2
    omega

end Integer

namespace Literal

/-- The longest string that a reader accepts without Huffman coding. -/
def maxLength : Nat := 2 ^ 28 + 126

variable {octets : List UInt8}

theorem decode_length (h : octets.length ≤ maxLength) (rest : List UInt8) :
    Integer.decode 7 (encode octets ++ rest)
      = some (octets.length, (Integer.encode 7 0 octets.length).length) := by
  have hlength : octets.length < 2 ^ 7 - 1 + 128 ^ Integer.maxContinuation := by
    simp only [maxLength, Integer.maxContinuation] at h ⊢
    omega
  rw [encode, List.append_assoc]
  exact Integer.decode_encode (by decide) (by decide) hlength _

/-- A string that is written is not marked as Huffman coded. -/
theorem isHuffman_encode (octets rest : List UInt8) :
    isHuffman (encode octets ++ rest) = false := by
  unfold encode Integer.encode
  split
  case isTrue hshort =>
    have hoctet : (UInt8.ofNat (0 + octets.length)).toNat = octets.length := by
      rw [UInt8.toNat_ofNat']
      omega
    show decide (128 ≤ (UInt8.ofNat (0 + octets.length)).toNat) = false
    rw [hoctet, decide_eq_false_iff_not]
    omega
  case isFalse => rfl

theorem length_encode (octets : List UInt8) :
    (encode octets).length
      = (Integer.encode 7 0 octets.length).length + octets.length := by
  rw [encode, List.length_append]

theorem body_encode (octets rest : List UInt8) :
    (((encode octets ++ rest).drop
      (Integer.encode 7 0 octets.length).length).take octets.length)
      = octets := by
  rw [encode, List.append_assoc, List.drop_left' rfl, List.take_left' rfl]

/-- A string that is written is read again. -/
theorem decode_encode (h : octets.length ≤ maxLength) (rest : List UInt8) :
    decode (encode octets ++ rest) = some (octets, (encode octets).length) := by
  have hraw : raw? (encode octets ++ rest)
      = some (octets, (encode octets).length) := by
    simp only [raw?, decode_length h, Option.bind_eq_bind, Option.bind_some,
      body_encode, if_true, length_encode]
  simp only [decode, hraw, Option.bind_eq_bind, Option.bind_some,
    isHuffman_encode, Bool.false_eq_true, if_false]

/-- Where a string that is written ends can be told. -/
theorem extent_encode (h : octets.length ≤ maxLength) (rest : List UInt8) :
    literalExtent? (encode octets ++ rest) = some (encode octets).length := by
  simp only [literalExtent?, decode_length h, Option.bind_eq_bind,
    Option.bind_some, body_encode, if_true, length_encode]

end Literal

end Http2.Hpack
