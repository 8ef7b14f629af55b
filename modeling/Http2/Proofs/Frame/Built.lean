/-
What is read where a builder has written.

A builder hands out its frame by reading it. What is read is the header
of the draft, so the frame ends where the builder's window ends, and the
header block of a frame that carries one is the content of the draft.
-/
import Http2.Proofs.Frame.Building
import Http2.Proofs.Frame.Relocation

namespace Http2.Frame

-- ================================================================ reading

/-- Reading a frame of an expected type is reading a frame and finding
the type. -/
theorem read_of_readAs {type : FrameType} {buffer : Buffer}
    {offset maxLimit : Nat} {f : Frame}
    (h : readAs type buffer offset maxLimit = .ok f) :
    read buffer offset maxLimit = .ok f ∧ f.payload.type = type := by
  obtain ⟨raw, hraw, h⟩ := bind_eq_ok_iff.mp h
  obtain ⟨_, htype, h⟩ := bind_eq_ok_iff.mp h
  have hread : read buffer offset maxLimit = .ok f :=
    bind_eq_ok_iff.mpr ⟨raw, hraw, h⟩
  refine ⟨hread, ?_⟩
  rw [locate_eq_runAll, check_eq_ok_iff] at hraw
  obtain ⟨-, rfl⟩ := hraw
  obtain ⟨-, rfl⟩ := read_eq_ok_iff.mp hread
  unfold RawFrame.requireType at htype
  split at htype
  case isFalse => cases htype
  case isTrue hsame =>
    rw [← hsame]
    exact RawFrame.type_interpret _

/-- A frame that can be read is the one that stands there. -/
theorem readAs_eq_of_isOk {type : FrameType} {buffer : Buffer}
    {offset maxLimit : Nat} (h : (readAs type buffer offset maxLimit).isOk) :
    readAs type buffer offset maxLimit = .ok (unchecked buffer offset) := by
  obtain ⟨f, hf⟩ := exists_eq_ok_of_isOk h
  rw [hf, (read_eq_ok_iff.mp (read_of_readAs hf).1).2]

namespace Builder

variable {b : Builder} {d : Draft} {front back : List UInt8} {f : Frame}

-- ================================================================ header

/-- The header that is read is the one that is meant. -/
theorem LaysDown.readAt_eq (h : b.LaysDown d front back) (hd : d.WellFormed) :
    Header.readAt b.buffer b.offset = d.header := by
  obtain ⟨room, -, hbuffer⟩ := h.buffer_eq
  have hsplit : b.buffer.toList
      = front ++ d.header.encode ++ (d.payload ++ room ++ back) := by
    rw [hbuffer, Draft.encode]
    simp only [List.append_assoc]
  have hsize := congrArg List.length hsplit
  simp only [List.length_append, Header.length_encode,
    Buffer.length_toList] at hsize
  have hslice : b.buffer.slice b.offset (b.offset + Header.width)
      = d.header.encode :=
    Buffer.slice_of_append hsplit h.offset_eq.symm (by
      rw [Header.length_encode])
  have hin : b.offset + Header.width ≤ b.buffer.size := by
    rw [h.offset_eq]
    omega
  rw [← Header.decode_slice hin, hslice,
    Header.decode_encode hd.length_le hd.stream_lt]

/-- A frame that is built has the header that is meant, and ends where
the builder's window ends. -/
theorem LaysDown.build (h : b.LaysDown d front back) (hd : d.WellFormed)
    (hok : b.build = .ok f) :
    read b.buffer b.offset b.limit = .ok f ∧ f = unchecked b.buffer b.offset
      ∧ f.raw.header = d.header ∧ f.raw.limit = b.limit
      ∧ f.payload.type = d.type := by
  obtain ⟨hread, htype⟩ := read_of_readAs hok
  obtain ⟨-, hframe⟩ := read_eq_ok_iff.mp hread
  have hheader : f.raw.header = d.header := by
    rw [hframe]
    exact h.readAt_eq hd
  refine ⟨hread, hframe, hheader, ?_, htype.trans h.type_eq⟩
  have hoffset : f.raw.offset = b.offset := by
    rw [hframe]
    rfl
  rw [RawFrame.limit, RawFrame.payloadStart, RawFrame.length, hheader, hoffset,
    h.limit_eq, h.offset_eq, Draft.length_encode, Header.width, Nat.add_assoc]
  rfl

-- ============================================================ header block

/-- The frame that is read where the builder has laid the draft down. -/
def rawFrame (b : Builder) (d : Draft) : RawFrame :=
  ⟨b.buffer, b.offset, d.header⟩

@[simp] theorem type_rawFrame (b : Builder) (d : Draft) :
    (b.rawFrame d).type = d.type := FrameType.ofCode_code d.type

theorem LaysDown.payloadStart_rawFrame (h : b.LaysDown d front back) :
    (b.rawFrame d).payloadStart = front.length + 9 := by
  show b.offset + 9 = _
  rw [h.offset_eq]

theorem LaysDown.limit_rawFrame (h : b.LaysDown d front back) :
    (b.rawFrame d).limit = front.length + 9 + d.body.length + d.padLength := by
  show (b.rawFrame d).payloadStart + d.payload.length = _
  rw [h.payloadStart_rawFrame, Draft.length_payload, ← Nat.add_assoc]

/-- The first octet of a padded payload is the pad length. -/
theorem LaysDown.octet?_payloadStart (h : b.LaysDown d front back)
    {padding : UInt8} (hsome : d.padding = some padding) :
    b.buffer.octet? (b.rawFrame d).payloadStart = some padding := by
  obtain ⟨room, -, hbuffer⟩ := h.buffer_eq
  have hsplit : b.buffer.toList
      = (front ++ d.header.encode) ++ padding :: (d.fields ++ d.content
        ++ List.replicate d.padLength 0 ++ room ++ back) := by
    rw [hbuffer, Draft.encode, Draft.payload, Draft.body, hsome]
    simp only [Option.toList_some, List.append_assoc, List.cons_append,
      List.nil_append]
  refine Buffer.octet?_of_append hsplit ?_
  rw [h.payloadStart_rawFrame, List.length_append, Header.length_encode]
  rfl

/-- Between pad length and padding stand the fields and the content. -/
theorem LaysDown.content_rawFrame (h : b.LaysDown d front back)
    (hd : d.WellFormed) :
    (b.rawFrame d).content = ⟨front.length + 9 + d.padding.toList.length,
      front.length + 9 + d.body.length⟩ := by
  have hhas : (b.rawFrame d).has .padded = d.padding.isSome := hd.padded
  rw [RawFrame.content, hhas]
  cases hpadding : d.padding with
  | none =>
      have hnone : d.padLength = 0 := by
        rw [Draft.padLength, hpadding]
        rfl
      show (⟨(b.rawFrame d).payloadStart, (b.rawFrame d).limit⟩ : Span) = _
      rw [h.payloadStart_rawFrame, h.limit_rawFrame, hnone]
      rfl
  | some padding =>
      have hlength : (b.rawFrame d).paddingLength = d.padLength := by
        show ((b.buffer.octet? (b.rawFrame d).payloadStart).getD 0).toNat = _
        rw [h.octet?_payloadStart hpadding, Draft.padLength, hpadding,
          Option.getD_some]
      show (⟨(b.rawFrame d).payloadStart + 1,
        (b.rawFrame d).limit - (b.rawFrame d).paddingLength⟩ : Span) = _
      rw [hlength, h.payloadStart_rawFrame, h.limit_rawFrame,
        Nat.add_sub_cancel]
      rfl

/-- The types that carry a header block. -/
def carriesBlock (type : FrameType) : Bool :=
  [.headers, .pushPromise, .continuation].contains type

/-- Behind the fields the header block reaches up to the padding. -/
theorem LaysDown.block?_rawFrame (h : b.LaysDown d front back)
    (hd : d.WellFormed) (hcarries : carriesBlock d.type) :
    (b.rawFrame d).interpret.block?
      = some ⟨front.length + 9 + d.padding.toList.length + d.fields.length,
          front.length + 9 + d.body.length⟩ := by
  have hcontent := h.content_rawFrame hd
  have hfields := hd.fields
  unfold RawFrame.interpret
  cases htype : d.type with
  | headers =>
      rw [Draft.fieldsLength, if_pos htype] at hfields
      have hhas : (b.rawFrame d).has .priority = Flag.priority.isSet d.flags :=
        rfl
      simp only [type_rawFrame, htype, hhas]
      cases hset : Flag.priority.isSet d.flags with
      | true =>
          rw [hset, if_pos rfl, Priority.width] at hfields
          simp only [if_true, Payload.block?, RawFrame.contentFrom, hcontent,
            hfields]
      | false =>
          rw [hset, if_neg Bool.false_ne_true] at hfields
          simp only [Bool.false_eq_true, if_false, Payload.block?, hcontent,
            hfields, Nat.add_zero]
  | pushPromise =>
      rw [Draft.fieldsLength, htype] at hfields
      have hfields : d.fields.length = 4 := hfields
      simp only [type_rawFrame, htype, Payload.block?, RawFrame.contentFrom,
        hcontent, hfields]
  | continuation =>
      have hnone : d.padding = none := by
        cases hpadding : d.padding with
        | none => rfl
        | some padding =>
            have hpaddable := hd.paddable (by rw [hpadding]; rfl)
            rw [htype] at hpaddable
            cases hpaddable
      rw [Draft.fieldsLength, htype] at hfields
      have hfields : d.fields.length = 0 := hfields
      have hpad : d.padLength = 0 := by
        rw [Draft.padLength, hnone]
        rfl
      simp only [type_rawFrame, htype, Payload.block?, RawFrame.payloadSpan,
        h.payloadStart_rawFrame, h.limit_rawFrame, hpad, hnone, hfields]
      rfl
  | _ =>
      rw [htype] at hcarries
      cases hcarries

/-- How many octets the fields of the type take in the frame as it
stands. -/
def fieldsLength (b : Builder) : Nat :=
  if b.type = .headers then if b.has .priority then Priority.width else 0
  else b.type.fixedLength

/-- The header block of the frame as it stands, for the types that carry
one: what is behind the fields and in front of the padding. -/
def block (b : Builder) : HeaderBlock :=
  ⟨b.buffer, b.fieldsStart + b.fieldsLength, b.contentEnd⟩

theorem LaysDown.fieldsLength_eq (h : b.LaysDown d front back)
    (hd : d.WellFormed) : b.fieldsLength = d.fields.length := by
  rw [fieldsLength, h.type_eq, h.has_eq, hd.fields, Draft.fieldsLength]

theorem LaysDown.block_eq (h : b.LaysDown d front back) (hd : d.WellFormed) :
    b.block = ⟨b.buffer,
      front.length + 9 + d.padding.toList.length + d.fields.length,
      front.length + 9 + d.body.length⟩ := by
  rw [block, h.fieldsStart_eq hd, h.fieldsLength_eq hd, h.contentEnd_eq]

/-- The block that stands in the frame is the content of the draft. -/
theorem LaysDown.octets_block (h : b.LaysDown d front back)
    (hd : d.WellFormed) : b.block.octets = d.content := by
  obtain ⟨room, -, hbuffer⟩ := h.buffer_eq
  have hsplit : b.buffer.toList
      = (front ++ d.header.encode ++ d.padding.toList ++ d.fields)
        ++ d.content ++ (List.replicate d.padLength 0 ++ room ++ back) := by
    rw [hbuffer, Draft.encode, Draft.payload, Draft.body]
    simp only [List.append_assoc]
  rw [h.block_eq hd]
  refine Buffer.slice_of_append hsplit ?_ ?_
  · simp only [List.length_append, Header.length_encode, Header.width]
  · simp only [Draft.body, List.length_append]
    omega

/-- A built frame that carries a header block carries the one that stands
there. -/
theorem LaysDown.block?_build (h : b.LaysDown d front back) (hd : d.WellFormed)
    (hcarries : carriesBlock d.type) (hok : b.build = .ok f) :
    f.block? = some b.block := by
  obtain ⟨-, hframe, -, -, -⟩ := h.build hd hok
  have hraw : (unchecked b.buffer b.offset).raw = b.rawFrame d := by
    rw [unchecked, h.readAt_eq hd]
    rfl
  have hblock : (unchecked b.buffer b.offset).payload.block? = _ :=
    (congrArg (·.interpret.block?) hraw).trans (h.block?_rawFrame hd hcarries)
  rw [hframe, block?, hblock, h.block_eq hd]
  rfl

/-- A built frame that carries a header block carries the content of the
draft. -/
theorem LaysDown.block_build (h : b.LaysDown d front back) (hd : d.WellFormed)
    (hcarries : carriesBlock d.type) (hok : b.build = .ok f) :
    ∃ block, f.block? = some block ∧ block.octets = d.content :=
  ⟨b.block, h.block?_build hd hcarries hok, h.octets_block hd⟩

end Builder

end Http2.Frame
