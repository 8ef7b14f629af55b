/-
Payloads spelled out.

In front of its padding a payload is spelled by three parts: the pad
length if there is padding, the fields of the type, and a part of free
length. `Draft.ofPayload` puts them together to the draft of the frame
that carries the payload.
-/
import Http2.Proofs.Frame.Draft

namespace Http2

namespace Payload

variable {α : Type}

/-- The padding, for the types that may be padded. -/
def padding? : Payload α → Option UInt8
  | data padding _ | headers padding _ _ | pushPromise padding _ _ => padding
  | _ => none

/-- The octets of the fields. -/
def fields : Payload α → List UInt8
  | headers _ standing _ => (standing.map Priority.encode).getD []
  | priority standing => standing.encode
  | rstStream errorCode => BigEndian.encode 4 errorCode.toNat
  | pushPromise _ promisedStreamId _ =>
    BigEndian.encode 4 promisedStreamId.toNat
  | ping octets => octets
  | goAway lastStreamId errorCode _ =>
    BigEndian.encode 4 lastStreamId.toNat
      ++ BigEndian.encode 4 errorCode.toNat
  | windowUpdate increment => BigEndian.encode 4 increment.toNat
  | data .. | settings .. | continuation .. | unrecognized .. => []

/-- The octets of the part of free length, which for a SETTINGS frame
are its parameters. -/
def content : Payload (List UInt8) → List UInt8
  | data _ part | headers _ _ part | pushPromise _ _ part | goAway _ _ part
  | continuation part | unrecognized part => part
  | settings parameters => parameters.octets
  | priority .. | rstStream .. | ping .. | windowUpdate .. => []

/-- What the octets of a payload can say: numbers keep the reserved bit
free, and parameters are whole and have legal values. -/
def Legal : Payload (List UInt8) → Prop
  | headers _ standing _ =>
    ∀ p, standing = some p → p.streamDependency.toNat < reservedBit
  | priority standing => standing.streamDependency.toNat < reservedBit
  | pushPromise _ id _ | goAway id _ _ | windowUpdate id =>
    id.toNat < reservedBit
  | settings parameters =>
    parameters.octets.length % Parameter.width = 0
      ∧ ∀ p ∈ parameters.toList, p.isLegal
  | _ => True

end Payload

namespace Priority

@[simp] theorem length_encode (p : Priority) : p.encode.length = width := by
  simp [encode, width]

/-- The exclusive mark and the stream identifier take one number. -/
theorem decode_encode {p : Priority}
    (h : p.streamDependency.toNat < reservedBit) : decode p.encode = p := by
  rcases p with ⟨dependency, exclusive, weight⟩
  have hfour : ∀ n, (BigEndian.encode 4 n).length = 4 :=
    BigEndian.length_encode 4
  have hweight : (BigEndian.encode 4 ((if exclusive then reservedBit else 0)
      + dependency.toNat) ++ [weight]).getD 4 0 = weight := by
    rw [List.getD_eq_getElem?_getD,
      List.getElem?_append_right (Nat.le_of_eq (hfour _)), hfour]
    rfl
  have hfits : (if exclusive then reservedBit else 0) + dependency.toNat
      < 256 ^ 4 := by
    simp only [reservedBit] at h ⊢
    split <;> omega
  simp only [decode, encode, List.take_left' (hfour _), hweight,
    BigEndian.decode_encode hfits]
  have h : dependency.toNat < reservedBit := h
  cases exclusive with
  | false =>
      have hmark : ¬ reservedBit ≤ dependency.toNat := Nat.not_le.mpr h
      simp only [Bool.false_eq_true, if_false, Nat.zero_add,
        Header.maskStreamId_toNat h, hmark, decide_false]
  | true =>
      have hmask : maskStreamId (reservedBit + dependency.toNat)
          = dependency := by
        rw [maskStreamId, Nat.add_mod_left, Nat.mod_eq_of_lt h,
          UInt32.ofNat_toNat]
      simp only [if_true, hmask, Nat.le_add_right, decide_true]

/-- Any five octets are spelled again by the fields that they spell. -/
theorem encode_decode {octets : List UInt8} (h : octets.length = width) :
    (decode octets).encode = octets := by
  match octets, h with
  | [w, x, y, z, weight], _ =>
      have hlt := BigEndian.decode_lt [w, x, y, z]
      have hword := BigEndian.encode_decode [w, x, y, z]
      show BigEndian.encode 4
          ((if decide (reservedBit ≤ BigEndian.decode [w, x, y, z]) then
            reservedBit else 0)
            + (maskStreamId (BigEndian.decode [w, x, y, z])).toNat) ++ [weight]
        = [w, x, y, z] ++ [weight]
      generalize BigEndian.decode [w, x, y, z] = n at hlt hword ⊢
      have hsum : (if decide (reservedBit ≤ n) then reservedBit else 0)
          + (maskStreamId n).toNat = n := by
        rw [Header.toNat_maskStreamId]
        simp only [List.length_cons, List.length_nil] at hlt
        have hbit : reservedBit = 2147483648 := rfl
        by_cases hmark : reservedBit ≤ n
        case pos =>
          rw [if_pos (decide_eq_true hmark), hbit]
          rw [hbit] at hmark
          omega
        case neg =>
          rw [if_neg fun h => hmark (of_decide_eq_true h), hbit]
          rw [hbit] at hmark
          omega
      rw [hsum]
      exact congrArg (· ++ [weight]) hword

end Priority

/-- The frame that carries a payload. -/
def Frame.Draft.ofPayload (flags : UInt8) (streamId : UInt32)
    (p : Payload (List UInt8)) : Frame.Draft :=
  { type := p.type, flags, streamId, padding := p.padding?,
    fields := p.fields, content := p.content }

end Http2
