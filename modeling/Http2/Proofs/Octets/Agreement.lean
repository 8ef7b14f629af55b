/-
Buffers that agree but for some bits.

A mask for every address tells which bits are left out of account
(`AgreeOutside`). An octet, a slice and a number are the same in both
buffers if they can be told without these bits.
-/
import Http2.Bounds
import Http2.Proofs.Octets.BigEndian
import Http2.Proofs.Octets.Pieces

namespace Http2.Buffer

/-- Two buffers of one size hold the same but for the ignored bits. -/
def AgreeOutside (ignored : Nat → UInt8) (a b : Buffer) : Prop :=
  a.size = b.size ∧ ∀ i, (a.octet? i).map (· &&& ~~~ignored i)
    = (b.octet? i).map (· &&& ~~~ignored i)

/-- Behind the end of the buffers there is nothing to compare. -/
instance (ignored : Nat → UInt8) (a b : Buffer) :
    Decidable (AgreeOutside ignored a b) :=
  decidable_of_iff (a.size = b.size ∧ ∀ i < a.size,
      (a.octet? i).map (· &&& ~~~ignored i)
        = (b.octet? i).map (· &&& ~~~ignored i)) <| by
    refine and_congr_right fun hsize => ⟨fun h i => ?_, fun h i _ => h i⟩
    by_cases hi : i < a.size
    case pos => exact h i hi
    case neg =>
      have ha : a.octet? i = none := dif_neg hi
      have hb : b.octet? i = none := dif_neg fun hb => hi (hsize.symm ▸ hb)
      rw [ha, hb]

/-- Octets that agree outside some bits agree in all other bits. -/
theorem and_eq_of_agree {x y ignored kept : UInt8}
    (h : x &&& ~~~ignored = y &&& ~~~ignored) (hkept : kept &&& ignored = 0) :
    x &&& kept = y &&& kept := by
  have hsame : ~~~ignored &&& kept = kept := by
    apply UInt8.toBitVec_inj.mp
    apply BitVec.eq_of_getLsbD_eq
    intro i hi
    have hbit : (kept.toBitVec &&& ignored.toBitVec).getLsbD i = false := by
      rw [← UInt8.toBitVec_and, hkept]
      exact BitVec.getLsbD_zero
    rw [BitVec.getLsbD_and] at hbit
    rw [UInt8.toBitVec_and, UInt8.toBitVec_not, BitVec.getLsbD_and,
      BitVec.getLsbD_not, decide_eq_true hi, Bool.true_and]
    cases hk : kept.toBitVec.getLsbD i with
    | false => exact Bool.and_false _
    | true =>
        rw [hk, Bool.true_and] at hbit
        rw [hbit]
        rfl
  calc x &&& kept = x &&& ~~~ignored &&& kept := by rw [UInt8.and_assoc, hsame]
    _ = y &&& ~~~ignored &&& kept := by rw [h]
    _ = y &&& kept := by rw [UInt8.and_assoc, hsame]

/-- Bits are outside of two masks together if they are outside of both. -/
theorem and_or_eq_zero_iff {kept x y : UInt8} :
    kept &&& (x ||| y) = 0 ↔ kept &&& x = 0 ∧ kept &&& y = 0 := by
  have hdistrib : kept &&& (x ||| y) = kept &&& x ||| kept &&& y :=
    UInt8.toBitVec_inj.mp BitVec.and_or_distrib_left
  rw [hdistrib, UInt8.or_eq_zero_iff]

namespace AgreeOutside

variable {a b : Buffer} {ignored : Nat → UInt8}

/-- An octet of which nothing is ignored is the same. -/
theorem octet?_eq (h : AgreeOutside ignored a b) {i : Nat}
    (hi : ignored i = 0) : a.octet? i = b.octet? i := by
  have hoctet := h.2 i
  have hall : (fun x : UInt8 => x &&& ~~~ignored i) = id := by
    funext x
    rw [hi, UInt8.not_zero, UInt8.and_neg_one, id]
  rw [hall, Option.map_id] at hoctet
  exact hoctet

/-- A slice of which nothing is ignored is the same. -/
theorem slice_eq (h : AgreeOutside ignored a b) {start stop : Nat}
    (hignored : ∀ i, start ≤ i → i < stop → ignored i = 0) :
    a.slice start stop = b.slice start stop :=
  slice_congr fun i hstart hstop => h.octet?_eq (hignored i hstart hstop)

/-- Bits that are not ignored are the same. -/
theorem and_eq (h : AgreeOutside ignored a b) {i : Nat} {kept : UInt8}
    (hkept : kept &&& ignored i = 0) :
    (a.octet? i).getD 0 &&& kept = (b.octet? i).getD 0 &&& kept := by
  have hoctet := h.2 i
  generalize a.octet? i = x at hoctet
  generalize b.octet? i = y at hoctet
  rcases x with _ | x <;> rcases y with _ | y <;>
    first | rfl | cases hoctet | skip
  exact and_eq_of_agree (Option.some.inj hoctet) hkept

/-- A number below a reserved bit is the same, whatever that bit. -/
theorem maskStreamId_eq (h : AgreeOutside ignored a b) {start : Nat}
    (hin : start + 4 ≤ a.size) (hfirst : 0x7f &&& ignored start = 0)
    (hrest : ∀ i, start < i → i < start + 4 → ignored i = 0) :
    maskStreamId (BigEndian.decode (a.slice start (start + 4)))
      = maskStreamId (BigEndian.decode (b.slice start (start + 4))) := by
  have hina : start < a.bytes.size := Nat.lt_of_lt_of_le (by omega) hin
  have hinb : start < b.bytes.size := by
    have hsize : a.bytes.size = b.bytes.size := h.1
    omega
  have ha : a.octet? start = some a.bytes[start] := dif_pos hina
  have hb : b.octet? start = some b.bytes[start] := dif_pos hinb
  have hlow := h.and_eq hfirst
  rw [ha, hb] at hlow
  have hlow : a.bytes[start].toNat % 128 = b.bytes[start].toNat % 128 := by
    have hlow := congrArg UInt8.toNat hlow
    simp only [Option.getD_some, UInt8.toNat_and] at hlow
    rw [← Nat.and_two_pow_sub_one_eq_mod _ 7,
      ← Nat.and_two_pow_sub_one_eq_mod _ 7]
    exact hlow
  have htail : a.slice (start + 1) (start + 4)
      = b.slice (start + 1) (start + 4) :=
    h.slice_eq fun i hi hi' => hrest i hi hi'
  have hlength : (b.slice (start + 1) (start + 4)).length = 3 := by
    have hsize := h.1
    rw [length_slice (by omega)]
    omega
  rw [slice_cons ha (by omega), slice_cons hb (by omega), htail,
    BigEndian.decode_cons, BigEndian.decode_cons, hlength, maskStreamId,
    maskStreamId]
  have hmod : ∀ x y r : Nat, x % 128 = y % 128 →
      (x * 16777216 + r) % 2147483648 = (y * 16777216 + r) % 2147483648 := by
    intro x y r hxy
    omega
  exact congrArg UInt32.ofNat (hmod _ _ _ hlow)

end AgreeOutside

end Http2.Buffer
