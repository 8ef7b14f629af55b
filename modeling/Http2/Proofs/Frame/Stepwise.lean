/-
The calls on a builder, step by step.

A builder checks its bounds before it writes, and then indexes, copies and
subtracts without asking again. `Stepwise` is its calls with each of these
steps written out (`Access`). A builder has no fault on any call as long as
its numbers are in order (`Fits`), and they are, whatever has been called
before and whether it was refused or not (`sound_actAll`). Every frame is
started without a fault (`start_typed`).
-/
import Http2.Proofs.Frame.Soundness
import Http2.Proofs.Octets.Writing

namespace Http2.Frame.Builder

open Access

namespace Stepwise

variable {σ : Type}

/-- A check in front of the steps of a call. -/
def guarded (s : σ) (check : Except Error Unit) (next : Access (Attempt σ)) :
    Access (Attempt σ) :=
  match check with
  | .ok () => next
  | .error e => return .refuse s e

-- =============================================================== accessors

/-- Where the content ends and the padding starts. -/
def contentEnd (b : Builder) : Access Nat := difference b.limit b.padding

/-- The number of octets of the payload. -/
def length (b : Builder) : Access Nat := do
  let length ← difference b.limit b.offset
  difference length Header.width

/-- The octets of the frame as it stands. -/
def octets (b : Builder) : Access (List UInt8) :=
  rangeOf b.buffer.toList b.offset b.limit

/-- The flags octet as it stands. -/
def flags (b : Builder) : Access UInt8 :=
  octetAt b.buffer.toList (b.offset + Header.flagsOffset)

/-- Where the fields of the type start. -/
def fieldsStart (b : Builder) : Access Nat := do
  let flags ← flags b
  return b.payloadStart + if Flag.padded.isSet flags then 1 else 0

-- =================================================================== calls

/-- Writes a header field by field and zeros behind it. -/
def writeBlank (type : FrameType) (fixed : Nat) (buffer : Buffer)
    (offset : Nat) : Access Buffer := do
  let buffer ← buffer.putNumber offset Header.lengthWidth fixed
  let buffer ← buffer.putOctet (offset + Header.typeOffset) type.code
  let buffer ← buffer.putOctet (offset + Header.flagsOffset) 0
  let buffer ← buffer.putNumber (offset + Header.streamIdOffset)
    Header.streamIdWidth 0
  buffer.clear (offset + Header.width) (offset + (Header.width + fixed))

/-- Starts a frame at `offset` with `fixed` octets as its fields. -/
def start (type : FrameType) (fixed : Nat) (buffer : Buffer)
    (offset maxLimit : Nat) : Access (Except Error Builder) :=
  match requireRoom buffer.size offset maxLimit (Header.width + fixed) with
  | .error e => return .error e
  | .ok () => do
    let buffer ← writeBlank type fixed buffer offset
    let limit := offset + (Header.width + fixed)
    return .ok { type, buffer, offset, limit, maxLimit }

/-- Sets a flag. -/
def setFlag (b : Builder) (flag : Flag) : Access Builder := do
  let flags ← flags b
  let buffer ← b.buffer.putOctet (b.offset + Header.flagsOffset)
    (flags ||| flag.mask)
  return { b with buffer }

/-- Sets the stream identifier. -/
def setStreamId (b : Builder) (id : UInt32) : Access (Attempt Builder) :=
  guarded b (requireStreamId id) do
    let buffer ← b.buffer.putNumber (b.offset + Header.streamIdOffset)
      Header.streamIdWidth id.toNat
    return .ok { b with buffer }

/-- Makes the content end at `contentEnd`. -/
def endContentAt (b : Builder) (contentEnd : Nat) :
    Access (Attempt Builder) :=
  let limit := contentEnd + b.padding
  guarded b (requireEnd limit b.maxLimit) do
    let length ← length { b with limit }
    guarded b (requireLength length) do
      let buffer ← b.buffer.clear contentEnd limit
      let buffer ← buffer.putNumber b.offset Header.lengthWidth length
      return .ok { b with buffer, limit }

/-- Adds octets behind the content. -/
def append (b : Builder) (octets : List UInt8) : Access (Attempt Builder) := do
  let start ← contentEnd b
  let stop := start + octets.length
  guarded b (requireEnd (stop + b.padding) b.maxLimit) do
    let buffer ← b.buffer.put start stop octets
    endContentAt { b with buffer } stop

/-- Adds octets at an address, which must not lie behind the content. -/
def insert (b : Builder) (start : Nat) (octets : List UInt8) :
    Access (Attempt Builder) := do
  let contentEnd ← contentEnd b
  let _ ← difference contentEnd start
  let stop := start + octets.length
  guarded b (requireEnd (contentEnd + octets.length + b.padding) b.maxLimit) do
    let buffer ← b.buffer.move start contentEnd stop
    let buffer ← buffer.put start stop octets
    endContentAt { b with buffer } (contentEnd + octets.length)

/-- Changes the number of padding octets of a padded frame. -/
def resizePadding (b : Builder) (padding : UInt8) :
    Access (Attempt Builder) := do
  let contentEnd ← contentEnd b
  guarded b (requireEnd (contentEnd + padding.toNat) b.maxLimit) do
    let buffer ← b.buffer.putOctet b.payloadStart padding
    endContentAt { b with buffer, padding := padding.toNat } contentEnd

/-- Pads the frame, with a pad length first if there is none. -/
def setPadding (b : Builder) (padding : UInt8) : Access (Attempt Builder) := do
  let _ ← contentEnd b
  let flags ← flags b
  if Flag.padded.isSet flags then resizePadding b padding
  else
    match ← insert { b with padding := 0 } b.payloadStart [0] with
    | .error r => return .error r
    | .ok b =>
      let b ← setFlag b .padded
      resizePadding b padding

/-- Lends the octets behind the content to a writer. -/
def lend (b : Builder) (w : Writer) : Access (Attempt Builder) := do
  let start ← contentEnd b
  let bound ← difference b.maxLimit b.padding
  match w.write b.buffer start bound with
  | .error r => return .error ⟨r.error, { b with buffer := r.left }⟩
  | .ok (buffer, stop) => endContentAt { b with buffer } stop

/-- Makes a call. -/
def act (b : Builder) : Action → Access (Attempt Builder)
  | .setFlag flag _ => do
    let b ← setFlag b flag
    return .ok b
  | .setStreamId id => setStreamId b id
  | .append octets => append b octets
  | .insert octets => do
    let start ← fieldsStart b
    insert b start octets
  | .setPadding padding => setPadding b padding
  | .lend writer => lend b writer

/-- The steps behind a check that passes have no fault. -/
theorem guarded_eq {s : σ} {check : Except Error Unit}
    {next : Access (Attempt σ)} {outcome : Attempt σ}
    (h : check = .ok () → next = .ok outcome) :
    guarded s check next = .ok (.guarded s check outcome) := by
  cases check with
  | error e => rfl
  | ok u => exact h rfl

end Stepwise

-- ================================================================== bounds

variable {b b' : Builder} {d : Draft} {front back octets : List UInt8}
variable {fixed : Nat}

/-- The header lies in front of the padding, the padding inside of the frame,
the frame below its bound, and the bound in the buffer. -/
structure Fits (b : Builder) : Prop where
  header_le : b.offset + Header.width + b.padding ≤ b.limit
  limit_le : b.limit ≤ b.maxLimit
  maxLimit_le : b.maxLimit ≤ b.buffer.size

theorem LaysDown.fits (h : b.LaysDown d front back) : b.Fits where
  header_le := by
    have hpadding := h.contentEnd_add_padding
    have hend := h.contentEnd_eq
    rw [h.offset_eq, Header.width]
    omega
  limit_le := by
    obtain ⟨room, hroom, -⟩ := h.buffer_eq
    omega
  maxLimit_le := h.maxLimit_le_size

namespace Fits

theorem contentEnd_eq (h : b.Fits) :
    Stepwise.contentEnd b = .ok b.contentEnd :=
  difference_of_le (Nat.le_trans (Nat.le_add_left _ _) h.header_le)

theorem length_eq (h : b.Fits) : Stepwise.length b = .ok b.length := by
  have hle := h.header_le
  rw [Stepwise.length, difference_of_le (by omega), ok_bind,
    difference_of_le (by omega), length, payloadStart, Nat.sub_sub]

theorem octets_eq (h : b.Fits) : Stepwise.octets b = .ok b.octets := by
  have hle := h.header_le
  have hlimit := h.limit_le
  have hmax := h.maxLimit_le
  rw [Stepwise.octets, rangeOf_of_le (by omega)
    (by rw [Buffer.length_toList]; omega), Builder.octets, Buffer.slice_eq]

theorem flags_eq (h : b.Fits) : Stepwise.flags b = .ok b.flags := by
  have hle := h.header_le
  have hlimit := h.limit_le
  have hmax := h.maxLimit_le
  have hwidth : Header.width = 9 := rfl
  have hin : b.offset + Header.flagsOffset < b.buffer.size := by
    rw [Header.flagsOffset]
    omega
  obtain ⟨octet, hoctet⟩ := Buffer.exists_octet? hin
  rw [Stepwise.flags, octetAt_eq_ok_iff.mpr
    ((Buffer.getElem?_toList _ _).trans hoctet), flags, Header.flagsAt?, hoctet]
  rfl

theorem fieldsStart_eq (h : b.Fits) :
    Stepwise.fieldsStart b = .ok b.fieldsStart := by
  rw [Stepwise.fieldsStart, h.flags_eq]
  rfl

-- ============================================================== the header

/-- The header is in the buffer. -/
theorem header_le_size (h : b.Fits) :
    b.offset + Header.width ≤ b.buffer.size := by
  have hle := h.header_le
  have hlimit := h.limit_le
  have hmax := h.maxLimit_le
  omega

theorem setFlag_eq (h : b.Fits) (flag : Flag) :
    Stepwise.setFlag b flag = .ok (b.setFlag flag) := by
  have hin := h.header_le_size
  have hflags : b.offset + Header.flagsOffset < b.buffer.size :=
    Nat.lt_of_lt_of_le (Nat.add_lt_add_left (by decide) _) hin
  rw [Stepwise.setFlag, h.flags_eq, ok_bind, Buffer.putOctet_of_lt hflags]
  rfl

theorem setStreamId_eq (h : b.Fits) (id : UInt32) :
    Stepwise.setStreamId b id = .ok (b.setStreamId id) := by
  have hin := h.header_le_size
  have hstream : b.offset + Header.streamIdOffset + Header.streamIdWidth
      ≤ b.buffer.size := hin
  refine Stepwise.guarded_eq fun hcheck => ?_
  rw [Buffer.putNumber_of_lt id.toNat_lt hstream]
  rfl

-- ============================================================= the content

/-- Ending the content writes padding behind it and the length in front. The
length is checked before, so it fits its field. -/
theorem endContentAt_eq {contentEnd : Nat}
    (hstart : b.offset + Header.width ≤ contentEnd)
    (hmax : b.maxLimit ≤ b.buffer.size) :
    Stepwise.endContentAt b contentEnd = .ok (b.endContentAt contentEnd) := by
  have hlength : Stepwise.length { b with limit := contentEnd + b.padding }
      = .ok (contentEnd + b.padding - b.payloadStart) := by
    rw [Stepwise.length, difference_of_le
      (show b.offset ≤ contentEnd + b.padding by omega), ok_bind,
      difference_of_le (show Header.width
        ≤ contentEnd + b.padding - b.offset by omega), payloadStart,
      Nat.sub_sub]
  refine Stepwise.guarded_eq fun hend => ?_
  have hlimit := requireEnd_eq_ok_iff.mp hend
  rw [hlength, ok_bind]
  refine Stepwise.guarded_eq fun hcheck => ?_
  have hfits : contentEnd + b.padding - b.payloadStart
      < 256 ^ Header.lengthWidth :=
    Nat.lt_of_le_of_lt (requireLength_eq_ok_iff.mp hcheck) (by decide)
  have hzeros : contentEnd + (List.replicate b.padding (0 : UInt8)).length
      ≤ b.buffer.size := by
    rw [List.length_replicate]
    omega
  have hfield : b.offset + Header.lengthWidth
      ≤ (b.buffer.write contentEnd (List.replicate b.padding 0)).size := by
    have hwidth : Header.lengthWidth ≤ Header.width := by decide
    rw [Buffer.size_write hzeros]
    omega
  rw [Buffer.clear_of_le (Nat.le_add_right _ _) (by omega), ok_bind,
    Nat.add_sub_cancel_left, Buffer.putNumber_of_lt hfits hfield]
  rfl

/-- What is written below the bound is content when it ends there. -/
theorem endContentAt_write_eq (h : b.Fits) {start contentEnd : Nat}
    {octets : List UInt8} {padding : Nat}
    (hstart : b.offset + Header.width ≤ contentEnd)
    (hend : start + octets.length ≤ b.maxLimit) :
    Stepwise.endContentAt { b with
        buffer := b.buffer.write start octets, padding } contentEnd
      = .ok (endContentAt { b with
        buffer := b.buffer.write start octets, padding } contentEnd) := by
  have hmax := h.maxLimit_le
  refine endContentAt_eq hstart ?_
  show b.maxLimit ≤ (b.buffer.write start octets).size
  rw [Buffer.size_write (by omega)]
  exact hmax

theorem append_eq (h : b.Fits) (octets : List UInt8) :
    Stepwise.append b octets = .ok (b.append octets) := by
  have hheader := h.header_le
  have hmax := h.maxLimit_le
  rw [Stepwise.append, h.contentEnd_eq, ok_bind]
  refine Stepwise.guarded_eq fun hcheck => ?_
  have hend := requireEnd_eq_ok_iff.mp hcheck
  rw [Buffer.put_of_le rfl (by omega), ok_bind]
  refine h.endContentAt_write_eq ?_ (by omega)
  rw [contentEnd]
  omega

theorem insert_eq (h : b.Fits) {start : Nat}
    (hstart : b.offset + Header.width ≤ start) (hle : start ≤ b.contentEnd)
    (octets : List UInt8) :
    Stepwise.insert b start octets = .ok (b.insert start octets) := by
  have hheader := h.header_le
  have hlimit := h.limit_le
  have hmax := h.maxLimit_le
  have hbehind : (b.buffer.slice start b.contentEnd).length
      = b.contentEnd - start := by
    refine Buffer.length_slice ?_
    rw [contentEnd]
    omega
  rw [Stepwise.insert, h.contentEnd_eq, ok_bind, difference_of_le hle, ok_bind]
  refine Stepwise.guarded_eq fun hcheck => ?_
  have hend := requireEnd_eq_ok_iff.mp hcheck
  have htogether : start + (octets ++ b.buffer.slice start b.contentEnd).length
      ≤ b.maxLimit := by
    rw [List.length_append, hbehind]
    omega
  have hmoved : start + octets.length
      + (b.buffer.slice start b.contentEnd).length ≤ b.buffer.size := by
    rw [hbehind]
    omega
  rw [Buffer.move_of_le hle (by omega) (by omega), ok_bind,
    Buffer.put_of_le rfl (by rw [Buffer.size_write hmoved]; omega), ok_bind,
    Buffer.write_write_front (Nat.le_trans htogether hmax)]
  exact h.endContentAt_write_eq (by omega) htogether

-- ================================================================ padding

theorem resizePadding_eq (h : b.Fits) (hlength : b.payloadStart < b.limit)
    (padding : UInt8) :
    Stepwise.resizePadding b padding = .ok (b.resizePadding padding) := by
  have hheader := h.header_le
  have hlimit := h.limit_le
  have hmax := h.maxLimit_le
  rw [Stepwise.resizePadding, h.contentEnd_eq, ok_bind]
  refine Stepwise.guarded_eq fun hcheck => ?_
  rw [Buffer.putOctet_of_lt (by omega), ok_bind]
  refine h.endContentAt_write_eq ?_ ?_
  · rw [contentEnd]
    omega
  · rw [List.length_singleton]
    omega

-- ================================================================= writers

/-- A writer leaves the size of the buffer as it is and stops in front of its
bound. -/
theorem lend_eq (h : b.Fits) (w : Writer) :
    Stepwise.lend b w = .ok (b.lend w) := by
  have hheader := h.header_le
  have hlimit := h.limit_le
  have hmax := h.maxLimit_le
  have hend : b.offset + Header.width ≤ b.contentEnd := by
    rw [contentEnd]
    omega
  have hbound : b.contentEnd ≤ b.maxLimit - b.padding :=
    Nat.sub_le_sub_right hlimit _
  rw [Stepwise.lend, h.contentEnd_eq, ok_bind,
    difference_of_le (by omega), ok_bind, Builder.lend]
  cases hwrite : w.write b.buffer b.contentEnd (b.maxLimit - b.padding) with
  | error r => rfl
  | ok written =>
      obtain ⟨buffer, stop⟩ := written
      obtain ⟨content, room, hstop, hroom, hwritten⟩ :=
        w.written hbound (by omega) hwrite
      have hsize : buffer.size = b.buffer.size := by
        have hlength := congrArg List.length hwritten
        simp only [Buffer.length_toList, List.length_append, List.length_take,
          List.length_drop] at hlength
        omega
      have hstart : b.offset + Header.width ≤ stop := by omega
      exact @endContentAt_eq { b with buffer } stop hstart (hsize ▸ hmax)

end Fits

-- ============================================================= any one call

/-- Behind a pad length there is a payload. -/
theorem LaysDown.payloadStart_lt (h : b.LaysDown d front back) {old : UInt8}
    (hsome : d.padding = some old) : b.payloadStart < b.limit := by
  have hpadding := h.contentEnd_add_padding
  have hend := h.contentEnd_eq
  rw [Draft.body, hsome, List.length_append, List.length_append,
    Option.toList_some, List.length_singleton] at hend
  rw [h.payloadStart_eq]
  omega

theorem LaysDown.resizePadding_stepwise (h : b.LaysDown d front back)
    {old : UInt8} (hsome : d.padding = some old) (padding : UInt8) :
    Stepwise.resizePadding b padding = .ok (b.resizePadding padding) :=
  h.fits.resizePadding_eq (h.payloadStart_lt hsome) padding

/-- The pad length and the flag come first, if they are not there yet. -/
theorem LaysDown.setPadding_stepwise (h : b.LaysDown d front back)
    (hpadded : Flag.padded.isSet d.flags = d.padding.isSome)
    (padding : UInt8) :
    Stepwise.setPadding b padding = .ok (b.setPadding padding) := by
  have hhas : Flag.padded.isSet b.flags = d.padding.isSome :=
    h.flags_eq ▸ hpadded
  rw [Stepwise.setPadding, h.fits.contentEnd_eq, ok_bind, h.fits.flags_eq,
    ok_bind, Builder.setPadding, has, hhas]
  cases hpadding : d.padding with
  | some old => exact h.resizePadding_stepwise hpadding padding
  | none =>
      have hsame : { b with padding := 0 } = b := by
        rw [← h.padding_eq_zero hpadding]
      have hinsert := h.fits.insert_eq (Nat.le_refl b.payloadStart)
        h.payloadStart_le_contentEnd [0]
      simp only [Option.isSome_none, Bool.false_eq_true, if_false]
      rw [hsame, hinsert, ok_bind, h.addPadLength_eq hpadding]
      cases hfirst : b.insert b.payloadStart [0] with
      | error r => rfl
      | ok b₁ =>
          obtain ⟨hlays₁, -⟩ := h.insert_padLength hpadding hfirst
          dsimp only
          rw [hlays₁.fits.setFlag_eq, ok_bind]
          exact (hlays₁.setFlag .padded).resizePadding_stepwise rfl padding

/-- The fields lie in front of the end of the content. -/
theorem LaysDown.fieldsStart_le (h : b.LaysDown d front back)
    (hpadded : Flag.padded.isSet d.flags = d.padding.isSome) :
    b.payloadStart ≤ b.fieldsStart ∧ b.fieldsStart ≤ b.contentEnd := by
  rw [h.fieldsStart_of_padded hpadded, h.payloadStart_eq, h.contentEnd_eq,
    Draft.body, List.length_append, List.length_append]
  omega

/-- No call has a fault. -/
theorem Regular.act_eq (h : b.Regular fixed) (a : Action) :
    Stepwise.act b a = .ok (b.act a) := by
  obtain ⟨d, front, back, hlays, hd⟩ := h
  have hfits := hlays.fits
  cases a with
  | setFlag flag hflag =>
      rw [Stepwise.act, hfits.setFlag_eq]
      rfl
  | setStreamId id => exact hfits.setStreamId_eq id
  | append octets => exact hfits.append_eq octets
  | insert octets =>
      obtain ⟨hstart, hend⟩ := hlays.fieldsStart_le hd.padded
      rw [Stepwise.act, hfits.fieldsStart_eq, ok_bind]
      exact hfits.insert_eq hstart hend octets
  | setPadding padding => exact hlays.setPadding_stepwise hd.padded padding
  | lend writer => exact hfits.lend_eq writer

-- ================================================================ the start

section Start

variable {type : FrameType} {buffer : Buffer} {offset maxLimit : Nat}

/-- The octets of the frame that a builder starts with, as they are written
one after the other. -/
theorem blankOf_eq (type : FrameType) (fixed : Nat) :
    blankOf type fixed
      = BigEndian.encode Header.lengthWidth fixed ++ [type.code] ++ [0]
        ++ BigEndian.encode Header.streamIdWidth 0
        ++ List.replicate fixed 0 := by
  rw [blankOf, Header.encode_eq]
  simp only [List.append_assoc, List.cons_append, List.nil_append]
  rfl

/-- Each store continues where the one before has stopped. -/
theorem writeBlank_eq (hfixed : fixed ≤ Header.maxLength)
    (hroom : offset + (Header.width + fixed) ≤ buffer.size) :
    Stepwise.writeBlank type fixed buffer offset
      = .ok (buffer.write offset (blankOf type fixed)) := by
  have hlt : fixed < 256 ^ Header.lengthWidth :=
    Nat.lt_of_le_of_lt hfixed (by decide)
  have hin (place : Nat) (h : place ≤ Header.width) :
      offset + place ≤ buffer.size := by omega
  have hzeros : offset + (Header.width + fixed) - (offset + Header.width)
      = fixed := by omega
  have hlength := Buffer.putNumber_of_lt hlt (hin _ (by decide))
  have htype : (buffer.write offset
        (BigEndian.encode Header.lengthWidth fixed)).putOctet
      (offset + Header.typeOffset) type.code = _ :=
    Buffer.putOctet_behind (by simp [Header.lengthWidth])
      (hin (Header.typeOffset + 1) (by decide)) _
  have hflags : (buffer.write offset
        (BigEndian.encode Header.lengthWidth fixed ++ [type.code])).putOctet
      (offset + Header.flagsOffset) 0 = _ :=
    Buffer.putOctet_behind (by simp [Header.lengthWidth])
      (hin (Header.flagsOffset + 1) (by decide)) _
  have hstream : (buffer.write offset (BigEndian.encode Header.lengthWidth
        fixed ++ [type.code] ++ [0])).putNumber
      (offset + Header.streamIdOffset) Header.streamIdWidth 0 = _ :=
    Buffer.putNumber_behind
      (by simp [Header.streamIdOffset, Header.lengthWidth]) (by decide)
      (hin (Header.streamIdOffset + Header.streamIdWidth) (by decide))
  have hfields : (buffer.write offset (BigEndian.encode Header.lengthWidth
        fixed ++ [type.code] ++ [0]
        ++ BigEndian.encode Header.streamIdWidth 0)).clear
      (offset + Header.width) (offset + (Header.width + fixed)) = _ :=
    Buffer.clear_behind (by simp [Header.width, Header.lengthWidth,
      Header.streamIdWidth]) (by omega) hroom
  rw [Stepwise.writeBlank, hlength, ok_bind, htype, ok_bind, hflags, ok_bind,
    hstream, ok_bind, hfields, hzeros, ← blankOf_eq]

/-- A length that does not fit its field is not written. -/
theorem le_of_writeBlank {written : Buffer}
    (hok : Stepwise.writeBlank type fixed buffer offset = .ok written) :
    fixed ≤ Header.maxLength := by
  have hmax : 256 ^ Header.lengthWidth = Header.maxLength + 1 := by decide
  by_cases hlt : fixed < 256 ^ Header.lengthWidth
  case pos => omega
  case neg =>
    rw [Stepwise.writeBlank, Buffer.putNumber, if_neg hlt] at hok
    cases hok

/-- If the fields fit the length field, starting a frame has no fault. -/
theorem start_eq (hfixed : fixed ≤ Header.maxLength) :
    Stepwise.start type fixed buffer offset maxLimit
      = .ok (startWith type fixed buffer offset maxLimit) := by
  cases hcheck : requireRoom buffer.size offset maxLimit (Header.width + fixed)
    with
  | error e =>
      rw [Stepwise.start, startWith, hcheck]
      rfl
  | ok u =>
      obtain ⟨hmax, -, hroom⟩ := requireRoom_eq_ok_iff.mp hcheck
      rw [startWith_eq_ok_iff.mpr ⟨hcheck, rfl⟩, Stepwise.start, hcheck]
      dsimp only
      rw [writeBlank_eq hfixed (Nat.le_trans hroom hmax)]
      rfl

/-- The fields that every frame of a type has fit it. -/
theorem start_typed (type : FrameType) :
    Stepwise.start type type.fixedLength buffer offset maxLimit
      = .ok (start type buffer offset maxLimit) := by
  have hfixed : type.fixedLength ≤ Header.maxLength := by
    cases type <;> decide
  rw [start_eq_startWith, start_eq hfixed]

/-- A frame that has been started has fields that fit the length field. -/
theorem start_eq_ok
    (hok : Stepwise.start type fixed buffer offset maxLimit = .ok (.ok b)) :
    fixed ≤ Header.maxLength
      ∧ startWith type fixed buffer offset maxLimit = .ok b := by
  have hfixed : fixed ≤ Header.maxLength := by
    unfold Stepwise.start at hok
    split at hok
    case h_1 e hcheck => cases hok
    case h_2 hcheck =>
      cases hwrite : Stepwise.writeBlank type fixed buffer offset with
      | error fault =>
          rw [hwrite] at hok
          cases hok
      | ok written => exact le_of_writeBlank hwrite
  rw [start_eq hfixed] at hok
  exact ⟨hfixed, Except.ok.inj hok⟩

-- ============================================================== any calls

/-- What is asked of a builder is answered without a fault, and so is any
further call. -/
structure Faultless (b : Builder) : Prop where
  contentEnd : Stepwise.contentEnd b = .ok b.contentEnd
  length : Stepwise.length b = .ok b.length
  octets : Stepwise.octets b = .ok b.octets
  flags : Stepwise.flags b = .ok b.flags
  fieldsStart : Stepwise.fieldsStart b = .ok b.fieldsStart
  act : ∀ a, Stepwise.act b a = .ok (b.act a)

theorem Regular.faultless (h : b.Regular fixed) : b.Faultless := by
  obtain ⟨d, front, back, hlays, hd⟩ := h
  have hfits := hlays.fits
  exact ⟨hfits.contentEnd_eq, hfits.length_eq, hfits.octets_eq, hfits.flags_eq,
    hfits.fieldsStart_eq, Regular.act_eq ⟨d, front, back, hlays, hd⟩⟩

/-- Whatever is called on a builder that has been started, each call being
done or refused for want of room or for a reserved bit, what tells of its
padding and of its length agrees, and no step has a fault. -/
theorem sound_actAll {as : List Action}
    (hstart : Stepwise.start type fixed buffer offset maxLimit = .ok (.ok b))
    (hrec : ∀ e ∈ b.refusals as, Recoverable e) :
    startWith type fixed buffer offset maxLimit = .ok b
      ∧ (b.actAll as).Sound fixed ∧ (b.actAll as).Faultless := by
  obtain ⟨hfixed, hstarted⟩ := start_eq_ok hstart
  have hregular := (startWith_regular hfixed hstarted).actAll hrec
  exact ⟨hstarted, hregular.sound, hregular.faultless⟩

/-- A HEADERS frame in a window that has room for a pad length and not for all
of the padding. The calls after that, a field among them, find a padded
frame. -/
theorem sound_actAll_overrun :
    ∃ b as, Stepwise.start .headers 0 (.ofList (List.replicate 16 9)) 1 15
        = .ok (.ok b)
      ∧ as = [.append [1, 2], .setPadding 4, .setStreamId 0x80000001,
        .lend (.field {} (.ofText ":method" "GET")), .setPadding 1]
      ∧ b.refusals as
        = [.bufferOverrun 17 15, .invalidArgument .reservedStreamBit]
      ∧ (b.actAll as).octets = [0, 0, 5, 1, 8, 0, 0, 0, 0, 1, 1, 2, 0x82, 0]
      ∧ (b.actAll as).Sound 0 ∧ (b.actAll as).Faultless := by
  have hstart : Stepwise.start .headers 0 (.ofList (List.replicate 16 9)) 1 15
      = .ok (.ok ⟨.headers, .ofList [9, 0, 0, 0, 1, 0, 0, 0, 0, 0, 9, 9, 9, 9,
        9, 9], 1, 10, 15, 0⟩) := rfl
  have hrefusals : refusals ⟨.headers, .ofList [9, 0, 0, 0, 1, 0, 0, 0, 0, 0,
      9, 9, 9, 9, 9, 9], 1, 10, 15, 0⟩ [.append [1, 2], .setPadding 4,
        .setStreamId 0x80000001, .lend (.field {} (.ofText ":method" "GET")),
        .setPadding 1]
      = [.bufferOverrun 17 15, .invalidArgument .reservedStreamBit] := by
    decide +kernel
  have hrec : ∀ e ∈ [Error.bufferOverrun 17 15,
      .invalidArgument .reservedStreamBit], Recoverable e :=
    List.forall_mem_cons.mpr
      ⟨.overrun 17 15, List.forall_mem_singleton.mpr .reservedBit⟩
  rw [← hrefusals] at hrec
  obtain ⟨-, hsound, hfaultless⟩ := sound_actAll hstart hrec
  exact ⟨_, _, hstart, rfl, hrefusals, by decide +kernel, hsound, hfaultless⟩

end Start

end Http2.Frame.Builder
