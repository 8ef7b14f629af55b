/-
The code that a malformed payload is reported with.

The payload of a frame that may be padded lacks octets in one of two ways. It
may be too short for its front, the pad length and the fields, whatever the
padding; or the front fits and the padding covers too much. The first is an
illegal length and the second is not, so different codes are due
(`RawFrame.dueCode?`).

The reader reports the due code but for one case (`complaint_readAs`). Once
there is a pad length, it puts all that is missing down to the padding. So a
padded payload in which the pad length fits and the fields do not
(`RawFrame.BlamesPadding`) is reported like one with too much padding, even
if there is no padding at all.
-/
import Http2.Proofs.Frame.Ignored
import Http2.Proofs.Frame.Truncation

namespace Http2

variable {α β : Type}

/-- The code that is reported if reading fails. -/
def complaint (outcome : Except Error α) : Option ErrorCode :=
  match outcome with
  | .ok _ => none
  | .error e => some e.code

/-- What is made of a result has no part in the complaint. -/
theorem complaint_bind_ok (outcome : Except Error α) (g : α → β) :
    complaint (outcome >>= fun a => .ok (g a)) = complaint outcome := by
  cases outcome <;> rfl

namespace RawFrame

variable {f : RawFrame}

-- ============================================================ what is due

/-- How many octets stand in front of the content: the pad length, if the
frame is padded, and the fields. -/
def frontLength (f : RawFrame) : Nat :=
  (if f.has .padded then 1 else 0) + f.fieldsLength

/-- How many octets of padding are declared. -/
def declaredPadding (f : RawFrame) : Nat :=
  if f.has .padded then f.paddingLength else 0

/-- The code that is due for a payload: a frame size error if its front does
not fit, a protocol error if the front fits and the padding behind it does
not. -/
def dueCode? (f : RawFrame) : Option ErrorCode :=
  if f.length < f.frontLength then some .frameSizeError
  else if f.length < f.frontLength + f.declaredPadding then some .protocolError
  else none

/-- A padded payload in which the pad length fits and the fields do not. -/
def BlamesPadding (f : RawFrame) : Prop :=
  f.has .padded = true ∧ 0 < f.length ∧ f.length < f.frontLength

instance (f : RawFrame) : Decidable f.BlamesPadding :=
  inferInstanceAs (Decidable (_ ∧ _ ∧ _))

/-- The front of a payload that blames the padding is too short. -/
theorem BlamesPadding.dueCode?_eq (h : f.BlamesPadding) :
    f.dueCode? = some .frameSizeError :=
  if_pos h.2.2

-- ======================================================== what is reported

/-- A payload that is there in full starts with its pad length, if it has any
octets at all. -/
theorem padLength?_eq (hin : f.limit ≤ f.buffer.size) (hlength : f.length ≠ 0) :
    ∃ padding, f.padLength? = some padding
      ∧ f.paddingLength = padding.toNat := by
  have hfirst : f.payloadStart < f.buffer.size := by
    unfold limit at hin
    omega
  obtain ⟨padding, hoctet⟩ := Buffer.exists_octet? hfirst
  refine ⟨padding, ?_, ?_⟩
  · rw [padLength?, if_neg hlength]
    exact hoctet
  · rw [paddingLength, hoctet]
    rfl

/-- What is reported when the pad length and the padding are taken off. -/
theorem complaint_contentSpan (hin : f.limit ≤ f.buffer.size) :
    complaint (f.contentSpan f.fieldsLength)
      = if f.BlamesPadding then some .protocolError else f.dueCode? := by
  unfold contentSpan BlamesPadding dueCode? frontLength declaredPadding
  by_cases hpadded : f.has .padded
  case neg =>
    simp only [hpadded, Bool.false_eq_true, false_and, if_false, Nat.zero_add,
      Nat.add_zero]
    by_cases hfields : f.fieldsLength ≤ f.length
    · rw [if_pos hfields, if_neg (by omega), if_neg (by omega)]
      rfl
    · rw [if_neg hfields, if_pos (by omega)]
      rfl
  case pos =>
    simp only [hpadded, true_and, if_true]
    by_cases hlength : f.length = 0
    · rw [padLength?, if_pos hlength, if_neg (by omega), if_pos (by omega)]
      rfl
    · obtain ⟨padding, hfirst, hpadding⟩ := padLength?_eq hin hlength
      rw [hfirst, hpadding]
      simp only
      by_cases hfits : 1 + f.fieldsLength + padding.toNat ≤ f.length
      · rw [if_pos hfits, if_neg (by omega), if_neg (by omega),
          if_neg (by omega)]
        rfl
      · rw [if_neg hfits]
        -- nothing but the padding is blamed, whether the front fits or not
        by_cases hfront : f.length < 1 + f.fieldsLength
        · rw [if_pos ⟨by omega, hfront⟩]
          rfl
        · rw [if_neg (by omega), if_neg hfront, if_pos (by omega)]
          rfl

/-- The types that may be padded fail where pad length and padding are taken
off, or not at all. -/
theorem complaint_readPayload
    (hpaddable : f.type.definedFlags.contains .padded) :
    complaint f.readPayload = complaint (f.contentSpan f.fieldsLength) := by
  unfold readPayload fieldsLength
  cases htype : f.type with
  | data => exact complaint_bind_ok _ _
  | headers =>
      show complaint f.readHeaders
        = complaint (f.contentSpan
          (if f.has .priority then Priority.width else 0))
      unfold readHeaders
      split
      case isTrue => exact complaint_bind_ok _ _
      case isFalse => exact complaint_bind_ok _ _
  | pushPromise => exact complaint_bind_ok _ _
  | _ =>
      rw [htype] at hpaddable
      cases hpaddable

/-- The header of a frame that may be padded has one rule to keep: it names a
stream. -/
theorem requireHeader_of_paddable
    (hpaddable : f.type.definedFlags.contains .padded)
    (hstream : f.header.streamId ≠ 0) :
    f.requireScope = .ok () ∧ f.requireLength = .ok () := by
  unfold requireScope requireLength hasLegalLength
  cases htype : f.type with
  | data | headers | pushPromise =>
      simp [FrameType.isConnectionScoped, hstream]
  | _ =>
      rw [htype] at hpaddable
      cases hpaddable

end RawFrame

namespace Frame

open RawFrame

variable {buffer : Buffer} {offset maxLimit : Nat} {type : FrameType}

/-- A complete frame that may be padded and names a stream is read as its
payload is. -/
theorem readAs_eq_readPayload (hsize : buffer.size < 2 ^ 63)
    (hpaddable : type.definedFlags.contains .padded)
    (htype : (unchecked buffer offset).raw.type = type)
    (hstream : (unchecked buffer offset).raw.header.streamId ≠ 0)
    (hend : (unchecked buffer offset).raw.limit ≤ maxLimit)
    (hmax : maxLimit ≤ buffer.size) :
    readAs type buffer offset maxLimit
      = (unchecked buffer offset).raw.readPayload >>= fun payload =>
        .ok ⟨(unchecked buffer offset).raw, payload⟩ := by
  have hholds := add_le_limit buffer offset
  have hroom : requireRoom buffer.size offset maxLimit Header.width
      = .ok () := by
    rw [requireRoom_eq_ok_iff, addressSpace, Header.width]
    omega
  have hheader : (stages buffer offset
      ((unchecked buffer offset).raw.requireType type)).header = .ok () := by
    rw [← htype] at hpaddable
    obtain ⟨hscope, hlength⟩ := requireHeader_of_paddable hpaddable hstream
    simp only [stages, requireType, if_pos htype, hscope, hlength]
    rfl
  have hstop : requireEnd (stages buffer offset
      ((unchecked buffer offset).raw.requireType type)).stop maxLimit
      = .ok () :=
    requireEnd_of_le hend
  rw [readAs_eq_run, Stages.run_of_room hroom, hheader, hstop]
  rfl

-- ============================================================== the result

/-- What a complete frame of a type that may be padded is reported with. It is
the due code unless the fields do not fit behind the pad length. Then the
padding is blamed, and only then the code is another one than that which is
due. -/
theorem complaint_readAs (hsize : buffer.size < 2 ^ 63)
    (hpaddable : type.definedFlags.contains .padded)
    (htype : (unchecked buffer offset).raw.type = type)
    (hstream : (unchecked buffer offset).raw.header.streamId ≠ 0)
    (hend : (unchecked buffer offset).raw.limit ≤ maxLimit)
    (hmax : maxLimit ≤ buffer.size) :
    complaint (readAs type buffer offset maxLimit)
        = (if (unchecked buffer offset).raw.BlamesPadding
          then some .protocolError
          else (unchecked buffer offset).raw.dueCode?)
      ∧ (complaint (readAs type buffer offset maxLimit)
          = (unchecked buffer offset).raw.dueCode?
        ↔ ¬ (unchecked buffer offset).raw.BlamesPadding) := by
  have hcode : complaint (readAs type buffer offset maxLimit)
      = if (unchecked buffer offset).raw.BlamesPadding then some .protocolError
        else (unchecked buffer offset).raw.dueCode? := by
    rw [readAs_eq_readPayload hsize hpaddable htype hstream hend hmax,
      complaint_bind_ok, complaint_readPayload (htype ▸ hpaddable)]
    exact complaint_contentSpan (Nat.le_trans hend hmax)
  refine ⟨hcode, ?_⟩
  rw [hcode]
  by_cases hblames : (unchecked buffer offset).raw.BlamesPadding
  · rw [if_pos hblames, hblames.dueCode?_eq]
    exact ⟨nofun, fun h => absurd hblames h⟩
  · rw [if_neg hblames]
    exact ⟨fun _ => hblames, fun _ => rfl⟩

/-- A padded HEADERS frame with priority fields that fit, but for its one
octet of padding. -/
theorem complaint_readAs_priority :
    complaint (readAs .headers (.ofList [0, 0, 6, 1, 0x28, 0, 0, 0, 3,
        1, 0, 0, 0, 1, 0x10]) 0 15) = some .protocolError
      ∧ (unchecked (.ofList [0, 0, 6, 1, 0x28, 0, 0, 0, 3,
        1, 0, 0, 0, 1, 0x10]) 0).raw.dueCode? = some .protocolError := by
  obtain ⟨-, hiff⟩ := @complaint_readAs (.ofList [0, 0, 6, 1, 0x28, 0, 0, 0, 3,
    1, 0, 0, 0, 1, 0x10]) 0 15 .headers (by decide) (by decide)
    (by decide +kernel) (by decide +kernel) (by decide +kernel) (by decide)
  have hdue : (unchecked (.ofList [0, 0, 6, 1, 0x28, 0, 0, 0, 3,
      1, 0, 0, 0, 1, 0x10]) 0).raw.dueCode? = some .protocolError := by
    decide +kernel
  exact ⟨(hiff.mpr (by decide +kernel)).trans hdue, hdue⟩

/-- A padded PUSH_PROMISE frame without padding, which has no room for the
promised stream behind the pad length. -/
theorem complaint_of_short_promise :
    readAs .pushPromise (.ofList [0, 0, 4, 5, 8, 0, 0, 0, 1, 0, 0, 0, 0]) 0 13
        = .error (.malformedFrame .pushPromise (.invalidPadding 0))
      ∧ complaint (readAs .pushPromise
          (.ofList [0, 0, 4, 5, 8, 0, 0, 0, 1, 0, 0, 0, 0]) 0 13)
        = some .protocolError
      ∧ (unchecked (.ofList [0, 0, 4, 5, 8, 0, 0, 0, 1, 0, 0, 0, 0])
          0).raw.dueCode? = some .frameSizeError := by
  have hread : readAs .pushPromise
      (.ofList [0, 0, 4, 5, 8, 0, 0, 0, 1, 0, 0, 0, 0]) 0 13
      = .error (.malformedFrame .pushPromise (.invalidPadding 0)) := rfl
  refine ⟨hread, ?_, by decide +kernel⟩
  rw [hread]
  rfl

end Frame

end Http2
