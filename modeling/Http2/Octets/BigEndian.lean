/-
Unsigned integers in network order, for any width in octets.

`encode` and `decode` are inverse to each other: on numbers that fit the
width and on every string of octets. The 24 bit length, the 16 and 32 bit
fields and the 64 bit ping payload are all read and written with these
two.
-/
namespace Http2.BigEndian

/-- The lowest `width` octets of a number, most significant first. -/
def encode : (width : Nat) → (n : Nat) → List UInt8
  | 0, _ => []
  | width + 1, n => UInt8.ofNat (n >>> (8 * width)) :: encode width n

/-- The number that a string of octets spells, each octet weighted by
the number of octets behind it. -/
def decode : List UInt8 → Nat
  | [] => 0
  | octet :: octets => octet.toNat <<< (8 * octets.length) + decode octets

@[simp] theorem length_encode (width n : Nat) :
    (encode width n).length = width := by
  induction width with
  | zero => rfl
  | succ width ih => simp [encode, ih]

end Http2.BigEndian
