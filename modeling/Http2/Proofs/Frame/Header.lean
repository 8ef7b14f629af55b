/-
Frame headers, field by field and as a whole.

The nine octets of a header can be taken out of a buffer at once or one
field at a time. Both ways lead to the same header (`decode_slice`), and
a header that is written can be read again (`decode_encode`).
-/
import Http2.Frame.Header
import Http2.Proofs.Octets.BigEndian
import Http2.Proofs.Octets.Pieces

namespace Http2.Header

-- ======================================================= field by field

/-- The header whose fields are read one by one at an address. Fields
outside the buffer are zero. -/
def readAt (buffer : Buffer) (offset : Nat) : Header where
  length := (lengthAt? buffer offset).getD 0
  typeCode := (typeCodeAt? buffer offset).getD 0
  flags := (flagsAt? buffer offset).getD 0
  streamId := (streamIdAt? buffer offset).getD 0

/-- An octet of a header in a buffer, by its place in the header. -/
private theorem getD_slice (buffer : Buffer) (offset : Nat) {i : Nat}
    (hi : i < width) :
    (buffer.slice offset (offset + width)).getD i 0
      = (buffer.octet? (offset + i)).getD 0 := by
  rw [List.getD_eq_getElem?_getD, Buffer.getElem?_slice buffer (by omega)]

/-- Nine octets taken at once spell the header whose fields are read one
by one. -/
theorem decode_slice {buffer : Buffer} {offset : Nat}
    (h : offset + width ≤ buffer.size) :
    decode (buffer.slice offset (offset + width)) = readAt buffer offset := by
  simp only [width] at h
  have hlength := buffer.take_slice offset (show lengthWidth ≤ width by decide)
  have hstream : ((buffer.slice offset (offset + width)).drop
      streamIdOffset).take streamIdWidth
      = buffer.slice (offset + streamIdOffset)
        (offset + streamIdOffset + streamIdWidth) := by
    have hend : offset + width = offset + streamIdOffset + streamIdWidth := by
      simp only [width, streamIdOffset, streamIdWidth]
    rw [Buffer.drop_slice, hend, buffer.take_slice _ (Nat.le_refl _)]
  have hlengthAt : lengthAt? buffer offset
      = some
        (BigEndian.decode (buffer.slice offset (offset + lengthWidth))) := by
    rw [lengthAt?, Buffer.number?, if_pos (by simp only [lengthWidth]; omega)]
  have hstreamAt : streamIdAt? buffer offset
      = some (maskStreamId (BigEndian.decode
        (buffer.slice (offset + streamIdOffset)
          (offset + streamIdOffset + streamIdWidth)))) := by
    rw [streamIdAt?, Buffer.number?,
      if_pos (by simp only [streamIdOffset, streamIdWidth]; omega)]
    rfl
  rw [decode, readAt, hlength, hstream, hlengthAt, hstreamAt,
    getD_slice buffer offset (by decide), getD_slice buffer offset (by decide)]
  rfl

/-- The length that is read fits its field. -/
theorem length_readAt_le (buffer : Buffer) (offset : Nat) :
    (readAt buffer offset).length ≤ maxLength := by
  show (lengthAt? buffer offset).getD 0 ≤ maxLength
  rw [lengthAt?, Buffer.number?]
  split
  case isFalse => exact Nat.zero_le _
  case isTrue hin =>
    have hlt := BigEndian.decode_lt (buffer.slice offset (offset + lengthWidth))
    rw [Buffer.length_slice hin, Nat.add_sub_cancel_left] at hlt
    exact Nat.le_pred_of_lt hlt

-- ============================================================ as a whole

@[simp] theorem length_encode (h : Header) : h.encode.length = width := by
  simp [encode, width, lengthWidth, streamIdWidth]

/-- The octets of a header, with the fields of one octet apart. -/
theorem encode_eq (h : Header) :
    h.encode = BigEndian.encode lengthWidth h.length
      ++ h.typeCode :: h.flags
      :: BigEndian.encode streamIdWidth h.streamId.toNat := by
  rw [encode, List.append_assoc]
  rfl

theorem toNat_maskStreamId (field : Nat) :
    (maskStreamId field).toNat = field % reservedBit := by
  rw [maskStreamId, UInt32.toNat_ofNat_of_lt']
  exact Nat.lt_trans (Nat.mod_lt field (by decide)) (by decide)

/-- A masked number is a stream identifier. -/
theorem toNat_maskStreamId_lt (field : Nat) :
    (maskStreamId field).toNat < reservedBit := by
  rw [toNat_maskStreamId]
  exact Nat.mod_lt field (by decide)

/-- Masking leaves a stream identifier without its reserved bit alone. -/
theorem maskStreamId_toNat {id : UInt32} (h : id.toNat < reservedBit) :
    maskStreamId id.toNat = id := by
  rw [maskStreamId, Nat.mod_eq_of_lt h, UInt32.ofNat_toNat]

/-- A header that is written is read again, if its fields fit. -/
theorem decode_encode {h : Header} (hlength : h.length ≤ maxLength)
    (hstream : h.streamId.toNat < reservedBit) : decode h.encode = h := by
  have hlen3 : (BigEndian.encode lengthWidth h.length).length = 3 :=
    BigEndian.length_encode lengthWidth h.length
  have hid : h.streamId.toNat < 256 ^ streamIdWidth := by
    simp only [reservedBit, streamIdWidth] at hstream ⊢
    omega
  have hdrop : h.encode.drop streamIdOffset
      = BigEndian.encode streamIdWidth h.streamId.toNat := by
    rw [encode]
    exact List.drop_left' (by simp [hlen3, streamIdOffset])
  have htype : h.encode.getD typeOffset 0 = h.typeCode := by
    rw [encode_eq, List.getD_eq_getElem?_getD,
      List.getElem?_append_right (by simp [hlen3, typeOffset])]
    simp [hlen3, typeOffset]
  have hflags : h.encode.getD flagsOffset 0 = h.flags := by
    rw [encode_eq, List.getD_eq_getElem?_getD,
      List.getElem?_append_right (by simp [hlen3, flagsOffset])]
    simp [hlen3, flagsOffset]
  have htake : h.encode.take lengthWidth
      = BigEndian.encode lengthWidth h.length := by
    rw [encode_eq]
    exact List.take_left' hlen3
  have hlen : h.length < 256 ^ lengthWidth := by
    simp only [maxLength, lengthWidth] at hlength ⊢
    omega
  rw [decode, htake, hdrop, htype, hflags, BigEndian.decode_encode hlen,
    List.take_of_length_le (by simp), BigEndian.decode_encode hid,
    maskStreamId_toNat hstream]

/-- The stream identifier that is read has no reserved bit. -/
theorem streamId_readAt_lt (buffer : Buffer) (offset : Nat) :
    (readAt buffer offset).streamId.toNat < reservedBit := by
  show ((streamIdAt? buffer offset).getD 0).toNat < reservedBit
  rw [streamIdAt?]
  cases buffer.number? (offset + streamIdOffset) streamIdWidth with
  | none => decide
  | some field => exact toNat_maskStreamId_lt field

/-- Without a reserved bit the octets of a stream identifier are spelled
again. -/
theorem encode_maskStreamId {octets : List UInt8} (hlength : octets.length = 4)
    (hclear : BigEndian.decode octets < reservedBit) :
    BigEndian.encode 4 (maskStreamId (BigEndian.decode octets)).toNat
      = octets := by
  rw [maskStreamId, Nat.mod_eq_of_lt hclear,
    BigEndian.encode_ofNat_decode hlength]

/-- Without a reserved bit the octets of a header are spelled again. -/
theorem encode_decode {octets : List UInt8} (hlength : octets.length = width)
    (hclear : BigEndian.decode ((octets.drop streamIdOffset).take streamIdWidth)
      < reservedBit) :
    (decode octets).encode = octets := by
  match octets, hlength with
  | [a, b, c, type, flags, w, x, y, z], _ =>
      have hlengthField := BigEndian.encode_decode [a, b, c]
      have hstream : BigEndian.encode 4
          (maskStreamId (BigEndian.decode [w, x, y, z])).toNat = [w, x, y, z] :=
        encode_maskStreamId rfl hclear
      rw [encode_eq]
      show BigEndian.encode 3 (BigEndian.decode [a, b, c]) ++ type :: flags
        :: BigEndian.encode 4
          (maskStreamId (BigEndian.decode [w, x, y, z])).toNat
        = _
      rw [hstream]
      exact congrArg (· ++ [type, flags, w, x, y, z]) hlengthField

end Http2.Header
