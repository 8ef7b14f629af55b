/-
What builders write is what is meant.

`LaysDown` relates a builder to a draft: the draft is spelled out in the
builder's window, with what was in front of the window and behind it left
as it was. Every edit keeps the relation, with the draft edited in the
same way (`LaysDown.edit`). So whatever is built can be told from the
draft, and nothing outside the window ever changes.

All edits that change the length of the content end in `endContentAt`,
which writes padding and length field anew; the other edits exchange a
piece of the frame for another one of the same length.
-/
import Http2.Proofs.Frame.Draft

namespace Http2.Frame.Builder

/-- The frame that the builder has written is the draft. In front of it
stands `front`, and behind the bound stands `back`. -/
structure LaysDown (b : Builder) (d : Draft) (front back : List UInt8) :
    Prop where
  type_eq : b.type = d.type
  offset_eq : b.offset = front.length
  limit_eq : b.limit = front.length + d.encode.length
  padding_eq : b.padding = d.padLength
  buffer_eq : ∃ room, b.maxLimit = b.limit + room.length
    ∧ b.buffer.toList = front ++ d.encode ++ room ++ back

variable {b b' : Builder} {d : Draft} {front back : List UInt8}

-- =========================================================== what is there

theorem LaysDown.contentEnd_eq (h : b.LaysDown d front back) :
    b.contentEnd = front.length + 9 + d.body.length := by
  rw [contentEnd, h.limit_eq, h.padding_eq, Draft.length_encode,
    Draft.length_payload]
  omega

theorem LaysDown.payloadStart_eq (h : b.LaysDown d front back) :
    b.payloadStart = front.length + 9 := by
  rw [payloadStart, h.offset_eq]
  rfl

theorem LaysDown.payloadStart_le_contentEnd (h : b.LaysDown d front back) :
    b.payloadStart ≤ b.contentEnd := by
  rw [h.payloadStart_eq, h.contentEnd_eq]
  exact Nat.le_add_right _ _

theorem LaysDown.contentEnd_add_padding (h : b.LaysDown d front back) :
    b.contentEnd + b.padding = b.limit := by
  have hlimit := h.limit_eq
  rw [Draft.length_encode, Draft.length_payload] at hlimit
  rw [contentEnd, h.padding_eq]
  omega

/-- The padding of a frame that is not padded takes no octets. -/
theorem LaysDown.padding_eq_zero (h : b.LaysDown d front back)
    (hnone : d.padding = none) : b.padding = 0 := by
  rw [h.padding_eq, Draft.padLength, hnone]
  rfl

theorem LaysDown.flags_eq (h : b.LaysDown d front back) :
    b.flags = d.flags := by
  obtain ⟨room, -, hbuffer⟩ := h.buffer_eq
  have hsplit : b.buffer.toList
      = (front ++ BigEndian.encode Header.lengthWidth d.payload.length
          ++ [d.type.code])
        ++ d.flags :: (BigEndian.encode Header.streamIdWidth d.streamId.toNat
          ++ d.payload ++ room ++ back) := by
    rw [hbuffer, Draft.encode_eq, Draft.tag]
    simp only [List.append_assoc, List.cons_append, List.nil_append]
  have hplace : (front ++ BigEndian.encode Header.lengthWidth d.payload.length
      ++ [d.type.code]).length = b.offset + Header.flagsOffset := by
    simp [h.offset_eq, Header.lengthWidth, Header.flagsOffset]
  rw [flags, Header.flagsAt?, Buffer.octet?_of_append hsplit hplace]
  rfl

theorem LaysDown.has_eq (h : b.LaysDown d front back) (flag : Flag) :
    b.has flag = flag.isSet d.flags := by
  rw [has, h.flags_eq]

theorem LaysDown.has_padded (h : b.LaysDown d front back)
    (hd : d.WellFormed) : b.has .padded = d.padding.isSome := by
  rw [h.has_eq, hd.padded]

theorem LaysDown.fieldsStart_eq (h : b.LaysDown d front back)
    (hd : d.WellFormed) :
    b.fieldsStart = front.length + 9 + d.padding.toList.length := by
  rw [fieldsStart, h.has_padded hd, h.payloadStart_eq]
  cases d.padding <;> rfl

-- ========================================================= exchanging octets

/-- A piece of the frame is exchanged for another one of the same
length. -/
theorem LaysDown.overwrite (h : b.LaysDown d front back) {d' : Draft}
    {before old new behind : List UInt8} {start : Nat}
    (hold : d.encode = before ++ old ++ behind)
    (hnew : d'.encode = before ++ new ++ behind)
    (hlength : old.length = new.length)
    (hstart : start = front.length + before.length)
    (htype : d'.type = d.type) (hpadding : d'.padLength = d.padLength) :
    (b.overwrite start new).LaysDown d' front back where
  type_eq := h.type_eq.trans htype.symm
  offset_eq := h.offset_eq
  limit_eq := by
    show b.limit = _
    rw [h.limit_eq, hold, hnew]
    simp [hlength]
  padding_eq := h.padding_eq.trans hpadding.symm
  buffer_eq := by
    obtain ⟨room, hroom, hbuffer⟩ := h.buffer_eq
    have hsplit : b.buffer.toList
        = (front ++ before) ++ old ++ (behind ++ room ++ back) := by
      rw [hbuffer, hold]
      simp only [List.append_assoc]
    have hwrite := Buffer.toList_write_of_append hsplit
      (hstart ▸ List.length_append) hlength
    refine ⟨room, hroom, ?_⟩
    show (b.buffer.write start new).toList = _
    rw [hwrite, hnew]
    simp only [List.append_assoc]

/-- A piece of the header behind the length field is exchanged. -/
theorem LaysDown.overwriteTag (h : b.LaysDown d front back) {d' : Draft}
    {before old new behind : List UInt8} {start : Nat}
    (hold : d.tag = before ++ old ++ behind)
    (hnew : d'.tag = before ++ new ++ behind)
    (hlength : old.length = new.length)
    (hstart : start = b.offset + Header.lengthWidth + before.length)
    (htype : d'.type = d.type) (hpadding : d'.padLength = d.padLength)
    (hpayload : d'.payload = d.payload) :
    (b.overwrite start new).LaysDown d' front back := by
  have hold' : d.encode
      = (BigEndian.encode Header.lengthWidth d.payload.length ++ before) ++ old
        ++ (behind ++ d.payload) := by
    rw [Draft.encode_eq, hold]
    simp only [List.append_assoc]
  have hnew' : d'.encode
      = (BigEndian.encode Header.lengthWidth d.payload.length ++ before) ++ new
        ++ (behind ++ d.payload) := by
    rw [Draft.encode_eq, hnew, hpayload]
    simp only [List.append_assoc]
  refine h.overwrite hold' hnew' hlength ?_ htype hpadding
  rw [hstart, h.offset_eq, List.length_append, BigEndian.length_encode,
    Nat.add_assoc]

theorem LaysDown.setFlag (h : b.LaysDown d front back) (flag : Flag) :
    (b.setFlag flag).LaysDown (d.setFlag flag) front back := by
  have hold : d.tag = [d.type.code] ++ [d.flags]
      ++ BigEndian.encode Header.streamIdWidth d.streamId.toNat := rfl
  have hnew : (d.setFlag flag).tag = [d.type.code] ++ [d.flags ||| flag.mask]
      ++ BigEndian.encode Header.streamIdWidth d.streamId.toNat := rfl
  rw [Builder.setFlag, h.flags_eq]
  exact h.overwriteTag hold hnew rfl rfl rfl rfl rfl

theorem LaysDown.setStreamId (h : b.LaysDown d front back) (id : UInt32) :
    (b.overwrite (b.offset + Header.streamIdOffset)
      (BigEndian.encode Header.streamIdWidth id.toNat)).LaysDown
      { d with streamId := id } front back := by
  have hold : d.tag = [d.type.code, d.flags]
      ++ BigEndian.encode Header.streamIdWidth d.streamId.toNat ++ [] :=
    (List.append_nil d.tag).symm
  have hnew : ({ d with streamId := id } : Draft).tag
      = [d.type.code, d.flags]
        ++ BigEndian.encode Header.streamIdWidth id.toNat ++ [] :=
    (List.append_nil _).symm
  have hwidth : (BigEndian.encode Header.streamIdWidth d.streamId.toNat).length
      = (BigEndian.encode Header.streamIdWidth id.toNat).length := by
    rw [BigEndian.length_encode, BigEndian.length_encode]
  exact h.overwriteTag hold hnew hwidth rfl rfl rfl rfl

/-- A part of the fields is exchanged. -/
theorem LaysDown.setField (h : b.LaysDown d front back) (hd : d.WellFormed)
    {start : Nat} {octets : List UInt8}
    (hin : start + octets.length ≤ d.fields.length) :
    (b.overwrite (b.fieldsStart + start) octets).LaysDown
      (d.setField start octets) front back := by
  have hfields : d.fields
      = d.fields.take start ++ (d.fields.drop start).take octets.length
        ++ d.fields.drop (start + octets.length) := by
    rw [List.append_assoc, ← List.drop_drop, List.take_append_drop,
      List.take_append_drop]
  have hlength : ((d.fields.drop start).take octets.length).length
      = octets.length := by
    rw [List.length_take, List.length_drop]
    omega
  have hpayload : d.payload
      = (d.padding.toList ++ d.fields.take start)
        ++ (d.fields.drop start).take octets.length
        ++ (d.fields.drop (start + octets.length) ++ d.content
          ++ List.replicate d.padLength 0) := by
    refine (congrArg (fun fields => d.padding.toList ++ fields ++ d.content
      ++ List.replicate d.padLength 0) hfields).trans ?_
    simp only [List.append_assoc]
  have hpayload' : (d.setField start octets).payload
      = (d.padding.toList ++ d.fields.take start) ++ octets
        ++ (d.fields.drop (start + octets.length) ++ d.content
          ++ List.replicate d.padLength 0) := by
    simp only [Draft.payload, Draft.body, Draft.setField, List.append_assoc]
    rfl
  have hheader : (d.setField start octets).header = d.header := by
    have hsame : (d.setField start octets).payload.length
        = d.payload.length := by
      rw [hpayload, hpayload']
      simp only [List.length_append, hlength]
    rw [Draft.header, hsame]
    rfl
  have hold : d.encode
      = (d.header.encode ++ (d.padding.toList ++ d.fields.take start))
        ++ (d.fields.drop start).take octets.length
        ++ (d.fields.drop (start + octets.length) ++ d.content
          ++ List.replicate d.padLength 0) := by
    rw [Draft.encode, hpayload]
    simp only [List.append_assoc]
  have hnew : (d.setField start octets).encode
      = (d.header.encode ++ (d.padding.toList ++ d.fields.take start))
        ++ octets
        ++ (d.fields.drop (start + octets.length) ++ d.content
          ++ List.replicate d.padLength 0) := by
    rw [Draft.encode, hheader, hpayload']
    simp only [List.append_assoc]
  refine h.overwrite hold hnew hlength ?_ rfl rfl
  rw [h.fieldsStart_eq hd]
  simp only [List.length_append, Header.length_encode, List.length_take,
    Header.width]
  omega

-- ========================================================= moving the end

/-- All of the draft is in place but for the length field and the
padding. -/
structure Holds (b : Builder) (d : Draft) (front back : List UInt8) :
    Prop where
  type_eq : b.type = d.type
  offset_eq : b.offset = front.length
  padding_eq : b.padding = d.padLength
  buffer_eq : ∃ length rest, length.length = Header.lengthWidth
    ∧ b.maxLimit = front.length + 9 + d.body.length + rest.length
    ∧ b.buffer.toList = front ++ length ++ d.tag ++ d.body ++ rest ++ back

theorem length_tag_append {length : List UInt8}
    (h : length.length = Header.lengthWidth) (front : List UInt8) (d : Draft) :
    (front ++ length ++ d.tag ++ d.body).length
      = front.length + 9 + d.body.length := by
  simp only [List.length_append, Draft.length_tag, h, Header.lengthWidth]

theorem requireLength_eq_ok_iff {length : Nat} :
    requireLength length = .ok () ↔ length ≤ Header.maxLength := by
  unfold requireLength
  split <;> simp_all

/-- Ending the content completes the frame. -/
theorem Holds.endContentAt (h : b.Holds d front back)
    (hok : b.endContentAt (front.length + 9 + d.body.length) = .ok b') :
    b'.LaysDown d front back ∧ d.payload.length ≤ Header.maxLength := by
  obtain ⟨length, rest, hlength, hmax, hbuffer⟩ := h.buffer_eq
  rw [Builder.endContentAt, Attempt.guarded_eq_ok_iff,
    Attempt.guarded_eq_ok_iff, requireEnd_eq_ok_iff] at hok
  obtain ⟨hend, hfits, hok⟩ := hok
  have hpayload : front.length + 9 + d.body.length + b.padding - b.payloadStart
      = d.payload.length := by
    rw [payloadStart, h.offset_eq, h.padding_eq, Draft.length_payload,
      Header.width]
    omega
  rw [hpayload] at hfits hok
  have hroom : b.padding ≤ rest.length := by omega
  -- the padding goes behind the content, then the length in front
  have hsplit : b.buffer.toList
      = (front ++ length ++ d.tag ++ d.body) ++ rest.take b.padding
        ++ (rest.drop b.padding ++ back) := by
    rw [hbuffer, List.append_assoc _ (rest.take b.padding),
      ← List.append_assoc (rest.take b.padding), List.take_append_drop,
      List.append_assoc]
  have hpadded := Buffer.toList_write_of_append hsplit
    (length_tag_append hlength front d)
    (show (rest.take b.padding).length
      = (List.replicate b.padding (0 : UInt8)).length by simp [hroom])
  have hsplit' : (b.buffer.write (front.length + 9 + d.body.length)
      (List.replicate b.padding 0)).toList
      = front ++ length ++ (d.tag ++ d.payload ++ rest.drop b.padding
        ++ back) := by
    rw [hpadded, Draft.payload, h.padding_eq]
    simp only [List.append_assoc]
  have hwritten := Buffer.toList_write_of_append hsplit' h.offset_eq.symm
    (show length.length
      = (BigEndian.encode Header.lengthWidth d.payload.length).length by
        rw [hlength, BigEndian.length_encode])
  cases hok
  show LaysDown ⟨b.type, (b.buffer.write _ _).write _ _, b.offset,
    front.length + 9 + d.body.length + b.padding, b.maxLimit, b.padding⟩ d front
    back ∧ _
  refine ⟨⟨h.type_eq, h.offset_eq, ?_, h.padding_eq,
    rest.drop b.padding, ?_, ?_⟩, ?_⟩
  · show front.length + 9 + d.body.length + b.padding = _
    rw [Draft.length_encode, Draft.length_payload, h.padding_eq]
    omega
  · show b.maxLimit
      = front.length + 9 + d.body.length + b.padding + (rest.drop _).length
    rw [List.length_drop]
    omega
  · show ((b.buffer.write _ _).write b.offset _).toList = _
    rw [hwritten, Draft.encode_eq]
    simp only [List.append_assoc]
  · exact requireLength_eq_ok_iff.mp hfits

/-- Octets are put into the content, and what is behind them moves. -/
theorem LaysDown.insert (h : b.LaysDown d front back) {d' : Draft}
    {before octets behind : List UInt8} {start : Nat}
    (hbody : d.body = before ++ behind)
    (hbody' : d'.body = before ++ octets ++ behind)
    (htype : d'.type = d.type) (htag : d'.tag = d.tag)
    (hpadding : d'.padLength = d.padLength)
    (hstart : start = front.length + 9 + before.length)
    (hok : b.insert start octets = .ok b') :
    b'.LaysDown d' front back ∧ d'.payload.length ≤ Header.maxLength := by
  obtain ⟨room, hroom, hbuffer⟩ := h.buffer_eq
  have hend := h.contentEnd_eq
  have hlimit := h.limit_eq
  rw [Builder.insert, Attempt.guarded_eq_ok_iff, requireEnd_eq_ok_iff] at hok
  obtain ⟨hfits, hok⟩ := hok
  rw [Draft.length_encode, Draft.length_payload] at hlimit
  rw [hbody, List.length_append] at hend hlimit
  have hpadded := h.padding_eq
  -- the octets that are written over: the rest of the content, and as much
  -- of what is behind it as is needed
  have hsplit : b.buffer.toList
      = (front ++ BigEndian.encode Header.lengthWidth d.payload.length ++ d.tag
          ++ before) ++ behind
        ++ (List.replicate d.padLength 0 ++ room ++ back) := by
    rw [hbuffer, Draft.encode_eq, Draft.payload, hbody]
    simp only [List.append_assoc]
  have hplace : (front ++ BigEndian.encode Header.lengthWidth d.payload.length
      ++ d.tag ++ before).length = start := by
    rw [hstart]
    simp only [List.length_append, BigEndian.length_encode, Draft.length_tag,
      Header.lengthWidth]
  have hbehind : b.buffer.slice start b.contentEnd = behind :=
    Buffer.slice_of_append hsplit hplace (by omega)
  have hfree : octets.length
      ≤ (List.replicate d.padLength (0 : UInt8) ++ room).length := by
    rw [List.length_append, List.length_replicate]
    omega
  generalize hrest : List.replicate d.padLength (0 : UInt8) ++ room = rest
    at hsplit hfree
  have hover : b.buffer.toList
      = (front ++ BigEndian.encode Header.lengthWidth d.payload.length ++ d.tag
          ++ before) ++ (behind ++ rest.take octets.length)
        ++ (rest.drop octets.length ++ back) := by
    rw [hsplit, List.append_assoc _ (behind ++ _), List.append_assoc behind,
      ← List.append_assoc (rest.take _), List.take_append_drop,
      List.append_assoc _ behind]
  have hwrite := Buffer.toList_write_of_append hover hplace
    (show (behind ++ rest.take octets.length).length
      = (octets ++ behind).length by
        rw [List.length_append, List.length_append, List.length_take]
        omega)
  have hholds : (b.overwrite start (octets ++ behind)).Holds d' front back := by
    refine ⟨h.type_eq.trans htype.symm, h.offset_eq,
      hpadded.trans hpadding.symm,
      BigEndian.encode Header.lengthWidth d.payload.length,
      rest.drop octets.length, BigEndian.length_encode _ _, ?_, ?_⟩
    · have hcount := congrArg List.length hrest
      simp only [List.length_append, List.length_replicate] at hcount
      show b.maxLimit = _
      rw [hbody', List.length_drop]
      simp only [List.length_append]
      omega
    · show (b.buffer.write start (octets ++ behind)).toList = _
      rw [hwrite, hbody', htag]
      simp only [List.append_assoc]
  have hnew : b.contentEnd + octets.length
      = front.length + 9 + d'.body.length := by
    rw [hend, hbody']
    simp only [List.length_append]
    omega
  rw [hbehind, hnew] at hok
  exact hholds.endContentAt hok

theorem append_eq_insert (b : Builder) (octets : List UInt8) :
    b.append octets = b.insert b.contentEnd octets := by
  rw [append, insert, Buffer.slice_self, List.append_nil]

theorem LaysDown.append (h : b.LaysDown d front back) {octets : List UInt8}
    (hok : b.append octets = .ok b') :
    b'.LaysDown (d.append octets) front back
      ∧ (d.append octets).payload.length ≤ Header.maxLength := by
  rw [append_eq_insert] at hok
  refine h.insert (List.append_nil d.body).symm ?_ rfl rfl rfl
    h.contentEnd_eq hok
  simp only [Draft.body, Draft.append, List.append_assoc, List.append_nil]

-- ================================================================ padding

/-- The pad length is inserted where the payload starts. -/
theorem LaysDown.addPadLength_eq (h : b.LaysDown d front back)
    (hnone : d.padding = none) :
    b.addPadLength = (b.insert b.payloadStart [0]).andThen fun b =>
      .ok (b.setFlag .padded) := by
  have hsame : { b with padding := 0 } = b := by
    rw [← h.padding_eq_zero hnone]
  rw [Builder.addPadLength, hsame]

/-- Without padding the payload starts with the fields, so that is where the
pad length goes. -/
theorem LaysDown.insert_padLength (h : b.LaysDown d front back)
    (hnone : d.padding = none) (hok : b.insert b.payloadStart [0] = .ok b') :
    b'.LaysDown { d with padding := some 0 } front back
      ∧ ({ d with padding := some 0 } : Draft).payload.length
        ≤ Header.maxLength := by
  have hbody : d.body = [] ++ (d.fields ++ d.content) := by
    rw [Draft.body, hnone]
    rfl
  have hbody' : ({ d with padding := some 0 } : Draft).body
      = [] ++ [0] ++ (d.fields ++ d.content) := rfl
  have hpadLength : ({ d with padding := some 0 } : Draft).padLength
      = d.padLength := by
    rw [Draft.padLength, Draft.padLength, hnone]
    rfl
  exact h.insert hbody hbody' rfl rfl hpadLength h.payloadStart_eq hok

/-- The first padding brings the pad length. -/
theorem LaysDown.addPadLength (h : b.LaysDown d front back)
    (hnone : d.padding = none) (hok : b.addPadLength = .ok b') :
    b'.LaysDown (d.setPadding 0) front back
      ∧ (d.setPadding 0).payload.length ≤ Header.maxLength := by
  rw [h.addPadLength_eq hnone] at hok
  obtain ⟨b₁, hinsert, hflag⟩ := Attempt.andThen_eq_ok_iff.mp hok
  obtain ⟨hlays, hfits⟩ := h.insert_padLength hnone hinsert
  cases hflag
  exact ⟨hlays.setFlag .padded, hfits⟩

/-- The padding of a padded frame is exchanged. -/
theorem LaysDown.resizePadding (h : b.LaysDown d front back) {old new : UInt8}
    (hsome : d.padding = some old) (hok : b.resizePadding new = .ok b') :
    b'.LaysDown { d with padding := some new } front back
      ∧ ({ d with padding := some new } : Draft).payload.length
        ≤ Header.maxLength := by
  obtain ⟨room, hroom, hbuffer⟩ := h.buffer_eq
  have hend := h.contentEnd_eq
  have hlimit := h.limit_eq
  rw [Builder.resizePadding, Attempt.guarded_eq_ok_iff,
    requireEnd_eq_ok_iff] at hok
  obtain ⟨-, hok⟩ := hok
  have hbody : d.body = [old] ++ (d.fields ++ d.content) := by
    rw [Draft.body, hsome]
    rfl
  have hsplit : b.buffer.toList
      = (front ++ BigEndian.encode Header.lengthWidth d.payload.length
          ++ d.tag) ++ [old]
        ++ (d.fields ++ d.content ++ List.replicate d.padLength 0 ++ room
          ++ back) := by
    rw [hbuffer, Draft.encode_eq, Draft.payload, hbody]
    simp only [List.append_assoc]
  have hplace : (front ++ BigEndian.encode Header.lengthWidth d.payload.length
      ++ d.tag).length = b.payloadStart := by
    rw [payloadStart, h.offset_eq]
    simp only [List.length_append, BigEndian.length_encode, Draft.length_tag,
      Header.lengthWidth, Header.width]
  have hwrite := Buffer.toList_write_of_append hsplit hplace
    (show [old].length = [new].length from rfl)
  have hholds : Holds { b.overwrite b.payloadStart [new] with
      padding := new.toNat } { d with padding := some new } front back := by
    refine ⟨h.type_eq, h.offset_eq, rfl,
      BigEndian.encode Header.lengthWidth d.payload.length,
      List.replicate d.padLength 0 ++ room, BigEndian.length_encode _ _, ?_, ?_⟩
    · have hsame : ({ d with padding := some new } : Draft).body.length
          = d.body.length := by
        rw [hbody]
        rfl
      rw [Draft.length_encode, Draft.length_payload] at hlimit
      show b.maxLimit = _
      rw [hsame, List.length_append, List.length_replicate]
      omega
    · show (b.buffer.write b.payloadStart [new]).toList = _
      rw [hwrite]
      simp only [Draft.body, Option.toList_some, List.append_assoc]
      rfl
  have hnew : b.contentEnd = front.length + 9
      + ({ d with padding := some new } : Draft).body.length := by
    rw [hend, hbody]
    rfl
  rw [hnew] at hok
  exact hholds.endContentAt hok

theorem LaysDown.setPadding (h : b.LaysDown d front back) (hd : d.WellFormed)
    {padding : UInt8} (hok : b.setPadding padding = .ok b') :
    b'.LaysDown (d.setPadding padding) front back
      ∧ (d.setPadding padding).payload.length ≤ Header.maxLength := by
  obtain ⟨b₁, hfirst, hresize⟩ := Attempt.andThen_eq_ok_iff.mp hok
  rw [h.has_padded hd] at hfirst
  cases hpadding : d.padding with
  | none =>
      rw [hpadding] at hfirst
      obtain ⟨hadded, -⟩ := h.addPadLength hpadding hfirst
      exact hadded.resizePadding rfl hresize
  | some old =>
      rw [hpadding] at hfirst
      cases hfirst
      -- the flag is set already, so setting it changes nothing
      have hflag : d.flags ||| Flag.padded.mask = d.flags :=
        Flag.or_mask_of_isSet (by rw [hd.padded, hpadding]; rfl)
      have hsame : d.setPadding padding
          = { d with padding := some padding } := by
        rw [Draft.setPadding, Draft.setFlag, hflag]
      rw [hsame]
      exact h.resizePadding hpadding hresize

end Http2.Frame.Builder
