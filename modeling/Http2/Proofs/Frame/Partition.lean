/-
The parts of a payload.

A payload falls into four parts that follow each other without a gap: the
pad length, the fields of the type, a part of free length, and the
padding. Some of them may be empty. Where they stand is told by the flags,
the type and the pad length alone (`Frame.parts`), and what they are is all
that a payload says (`Parts.spell`).

`parts_of_readAs` puts this together with the accessors: whatever is
accepted as a frame of a type, at any place of any buffer, its accessors
look up without a fault, its parts make up its payload, and each of them
lies between header and limit.
-/
import Http2.Proofs.Frame.Accessors
import Http2.Proofs.Frame.Replay
import Http2.Proofs.Frame.Tiling

namespace Http2

/-- The parts of a payload, in the order in which they stand. -/
structure Parts (α : Type) where
  padLength : α
  fields : α
  content : α
  padding : α

namespace Parts

variable {α β : Type}

/-- The parts one after the other. -/
def toList (p : Parts α) : List α :=
  [p.padLength, p.fields, p.content, p.padding]

/-- Changes how the parts are given. -/
def map (g : α → β) (p : Parts α) : Parts β :=
  ⟨g p.padLength, g p.fields, g p.content, g p.padding⟩

/-- What a payload of a type says that is made up of given parts. The
padding says nothing. -/
def spell (p : Parts (List UInt8)) : FrameType → Payload (List UInt8)
  | .data => .data p.padLength.head? p.content
  | .headers =>
    .headers p.padLength.head?
      (if p.fields = [] then none else some (.decode p.fields)) p.content
  | .priority => .priority (.decode p.fields)
  | .rstStream => .rstStream (.ofNat (BigEndian.decode p.fields))
  | .settings => .settings ⟨p.content⟩
  | .pushPromise =>
    .pushPromise p.padLength.head? (maskStreamId (BigEndian.decode p.fields))
      p.content
  | .ping => .ping p.fields
  | .goAway =>
    .goAway (maskStreamId (BigEndian.decode (p.fields.take 4)))
      (.ofNat (BigEndian.decode (p.fields.drop 4))) p.content
  | .windowUpdate => .windowUpdate (maskStreamId (BigEndian.decode p.fields))
  | .continuation => .continuation p.content
  | .unrecognized => .unrecognized p.content

end Parts

namespace Frame

/-- Where the parts of the payload stand. -/
def parts (f : Frame) : Parts Span :=
  let content := f.inner.start + f.raw.fieldsLength
  { padLength := ⟨f.raw.payloadStart, f.inner.start⟩
    fields := ⟨f.inner.start, content⟩
    content := ⟨content, f.inner.stop⟩
    padding := ⟨f.inner.stop, f.raw.limit⟩ }

/-- The octets of the parts of the payload. -/
def partOctets (f : Frame) : Parts (List UInt8) := f.parts.map f.raw.buffer.part

theorem partOctets_padLength (f : Frame) :
    f.partOctets.padLength
      = f.raw.buffer.slice f.raw.payloadStart f.inner.start := by
  simp only [partOctets, Parts.map, parts, Buffer.part]

theorem partOctets_fields (f : Frame) :
    f.partOctets.fields = f.raw.buffer.slice f.inner.start
      (f.inner.start + f.raw.fieldsLength) := by
  simp only [partOctets, Parts.map, parts, Buffer.part]

theorem partOctets_content (f : Frame) :
    f.partOctets.content = f.raw.buffer.slice
      (f.inner.start + f.raw.fieldsLength) f.inner.stop := by
  simp only [partOctets, Parts.map, parts, Buffer.part]

theorem partOctets_padding (f : Frame) :
    f.partOctets.padding = f.raw.buffer.slice f.inner.stop f.raw.limit := by
  simp only [partOctets, Parts.map, parts, Buffer.part]

/-- The payload is nothing but its parts. A pad length is there exactly if
the frame is of a type that may be padded and its flag is set; the fields
have the width that type and flags tell; there are as many octets of
padding as the pad length says; and the payload says what its parts
spell. So a GOAWAY frame is eight octets and its debug data, and a
CONTINUATION frame is nothing but its header block. -/
structure Partitioned (f : Frame) : Prop where
  payload : f.raw.payload = f.partOctets.toList.flatten
  length : f.partOctets.padLength.length + f.partOctets.fields.length
    + f.partOctets.content.length + f.partOctets.padding.length = f.raw.length
  padLength : f.partOctets.padLength = f.payload.padding?.toList
  padded : f.payload.padding?.isSome
    = (f.raw.type.definedFlags.contains .padded && f.raw.has .padded)
  fields : f.partOctets.fields.length = f.raw.fieldsLength
  padding : f.partOctets.padding.length = (f.payload.padding?.getD 0).toNat
  content : ∀ s, f.payload.part? = some s → s = f.parts.content
  contents : f.contents = f.partOctets.spell f.raw.type
  goAway : f.raw.type = .goAway →
    f.raw.payload = f.partOctets.fields ++ f.partOctets.content
      ∧ f.partOctets.fields.length = 8
  continuation : f.raw.type = .continuation →
    f.contents = .continuation f.raw.payload

/-- Every part lies between header and limit. -/
def PartsInside (f : Frame) : Prop :=
  ∀ s ∈ f.parts.toList, f.raw.offset + 9 ≤ s.start ∧ s.start ≤ s.stop
    ∧ s.stop ≤ f.raw.limit

end Frame

namespace RawFrame

open Http2.Frame

theorem raw_whole (f : RawFrame) : f.whole.raw = f := rfl

variable {f : RawFrame} (hf : f.Accepted)

include hf

theorem Accepted.partsInside : f.whole.PartsInside := by
  obtain ⟨hstart, hle, hstop⟩ := hf.inner_bounds
  have hwidth : f.whole.raw.offset + 9 = f.payloadStart := rfl
  have hlimit : f.whole.raw.limit = f.limit := rfl
  intro s hs
  simp only [Parts.toList, parts, List.mem_cons, List.not_mem_nil,
    or_false] at hs
  have hfields : f.whole.raw.fieldsLength = f.fieldsLength := rfl
  have hpayload : f.whole.raw.payloadStart = f.payloadStart := rfl
  rcases hs with rfl | rfl | rfl | rfl <;> dsimp only <;> omega

/-- The parts make up the payload. -/
theorem Accepted.payload_eq_flatten :
    f.payload = f.whole.partOctets.toList.flatten := by
  rw [hf.payload_split]
  simp only [Parts.toList, List.flatten_cons, List.flatten_nil,
    List.append_nil, List.append_assoc, partOctets_padLength, partOctets_fields,
    partOctets_content, partOctets_padding, raw_whole]

/-- The fields of a type that may be padded stand in front of the
content. -/
theorem Accepted.fields_of_paddable
    (hpaddable : f.type.definedFlags.contains .padded) :
    f.whole.partOctets.fields = f.contentFront f.fieldsLength := by
  rw [partOctets_fields, raw_whole, hf.inner_eq_content hpaddable]
  rfl

omit hf in
/-- The fields of any other type start the payload. -/
theorem fields_of_unpaddable
    (hpaddable : f.type.definedFlags.contains .padded = false) :
    f.whole.partOctets.fields
      = f.buffer.slice f.payloadStart
        (f.payloadStart + f.type.fixedLength) := by
  rw [partOctets_fields, raw_whole, inner_eq_payloadSpan hpaddable,
    fieldsLength_of_unpaddable hpaddable]
  rfl

theorem Accepted.head?_padLength :
    f.whole.partOctets.padLength.head? = f.interpret.padding? := by
  rw [partOctets_padLength, raw_whole, hf.slice_padLength, Option.head?_toList]

/-- The parts of a frame that may be padded spell what it says. -/
theorem Accepted.spell_of_paddable
    (hpaddable : f.type.definedFlags.contains .padded) :
    f.whole.partOctets.spell f.type = f.whole.contents := by
  have hfields := hf.fields_of_paddable hpaddable
  have hlength := hf.length_contentFront hpaddable
  have hhead := hf.head?_padLength
  rw [padding?_interpret, if_pos hpaddable] at hhead
  have hcontent : f.whole.partOctets.content
      = f.buffer.part (f.contentFrom f.fieldsLength) := by
    rw [partOctets_content, raw_whole, hf.inner_eq_content hpaddable]
    rfl
  show _ = f.interpret.map f.buffer.part
  unfold interpret
  unfold fieldsLength at hfields hlength hcontent
  cases ht : f.type <;> rw [ht] at hpaddable hfields hlength hcontent
  case data =>
    simp only [Parts.spell, hhead, hcontent]
    rfl
  case headers =>
    simp only [if_true] at hfields hlength hcontent
    by_cases hpriority : f.has .priority
    case pos =>
      rw [if_pos hpriority] at hfields hlength hcontent
      have hnonempty : f.contentFront Priority.width ≠ [] := by
        intro hnil
        rw [hnil] at hlength
        cases hlength
      simp only [Parts.spell, hhead, hcontent, hfields, if_neg hnonempty,
        if_pos hpriority]
      rfl
    case neg =>
      rw [if_neg hpriority] at hfields hlength hcontent
      have hnil : f.contentFront 0 = [] := List.eq_nil_of_length_eq_zero hlength
      simp only [Parts.spell, hhead, hcontent, hfields, hnil, if_true,
        if_neg hpriority]
      rfl
  case pushPromise =>
    simp only [Parts.spell, hhead, hcontent, hfields]
    rfl
  all_goals cases hpaddable

/-- The parts of any other frame spell what it says. -/
theorem Accepted.spell_of_unpaddable
    (hpaddable : f.type.definedFlags.contains .padded = false) :
    f.whole.partOctets.spell f.type = f.whole.contents := by
  have hfields := fields_of_unpaddable hpaddable
  have hexact := hf.length_eq
  have hcontent : f.whole.partOctets.content
      = f.buffer.slice (f.payloadStart + f.type.fixedLength) f.limit := by
    rw [partOctets_content, raw_whole, inner_eq_payloadSpan hpaddable,
      fieldsLength_of_unpaddable hpaddable]
    rfl
  show _ = f.interpret.map f.buffer.part
  unfold interpret
  cases ht : f.type <;> rw [ht] at hpaddable hfields hexact hcontent
  case data | headers | pushPromise => cases hpaddable
  case priority | ping =>
    have hpayload := f.payload_eq_slice
    rw [hexact (by decide), ← hfields] at hpayload
    simp only [Parts.spell, ← hpayload]
    rfl
  case rstStream | windowUpdate =>
    simp only [Parts.spell, hfields]
    rfl
  case goAway =>
    have hlast : f.whole.partOctets.fields.take 4
        = f.buffer.slice f.payloadStart (f.payloadStart + 4) := by
      rw [hfields]
      exact f.buffer.take_slice _ (by decide)
    have hcode : f.whole.partOctets.fields.drop 4
        = f.buffer.slice (f.payloadStart + 4) (f.payloadStart + 8) := by
      rw [hfields, Buffer.drop_slice]
      rfl
    simp only [Parts.spell, hcontent, hlast, hcode]
    rfl
  case settings | continuation | unrecognized =>
    simp only [Parts.spell, hcontent]
    rfl

/-- A pad length is there exactly if the frame is padded. -/
theorem Accepted.isSome_padding? :
    f.interpret.padding?.isSome
      = (f.type.definedFlags.contains .padded && f.has .padded) := by
  cases hpaddable : f.type.definedFlags.contains .padded with
  | false =>
      rw [padding?_interpret, hpaddable]
      rfl
  | true =>
      have hpadding : f.whole.contents.padding? = f.interpret.padding? :=
        Payload.padding?_map _ _
      rw [Bool.true_and, hf.has_padded hpaddable, hpadding]

/-- The payload of a type that is not padded is its fields and its
content. -/
theorem Accepted.payload_of_unpaddable
    (hpaddable : f.type.definedFlags.contains .padded = false) :
    f.payload = f.whole.partOctets.fields ++ f.whole.partOctets.content := by
  have hpadding : f.interpret.padding? = none := by
    rw [padding?_interpret, hpaddable]
    rfl
  have hstop := f.buffer.slice_self f.limit
  have hsplit := hf.payload_split
  rw [hf.slice_padLength, hpadding, inner_eq_payloadSpan hpaddable] at hsplit
  rw [partOctets_fields, partOctets_content, raw_whole,
    inner_eq_payloadSpan hpaddable, hsplit]
  show [] ++ _ ++ _ ++ f.buffer.slice f.limit f.limit = _
  rw [hstop, List.nil_append, List.append_nil]

theorem Accepted.partitioned : f.whole.Partitioned where
  payload := hf.payload_eq_flatten
  length := by
    have hlength := congrArg List.length hf.payload_eq_flatten
    simp only [Parts.toList, List.flatten_cons, List.flatten_nil,
      List.append_nil, List.length_append, ← Nat.add_assoc] at hlength
    rw [← hlength]
    exact length_payload hf.inside
  padLength := by
    rw [partOctets_padLength, raw_whole, hf.slice_padLength]
    rfl
  padded := hf.isSome_padding?
  fields := by
    rw [partOctets_fields, raw_whole, hf.length_slice_fields (Nat.le_refl _)]
  padding := by
    rw [partOctets_padding, raw_whole, Buffer.length_slice hf.inside,
      hf.length_padding]
    rfl
  content := fun s => hf.part_eq
  contents := by
    cases hpaddable : f.type.definedFlags.contains .padded with
    | true => exact (hf.spell_of_paddable hpaddable).symm
    | false => exact (hf.spell_of_unpaddable hpaddable).symm
  goAway := by
    intro ht
    have ht : f.type = .goAway := ht
    have hpaddable : f.type.definedFlags.contains .padded = false := by
      rw [ht]
      rfl
    have hwidth : f.fieldsLength = 8 := by
      rw [fieldsLength_of_unpaddable hpaddable, ht]
      rfl
    refine ⟨hf.payload_of_unpaddable hpaddable, ?_⟩
    rw [partOctets_fields, raw_whole, hf.length_slice_fields (Nat.le_refl _),
      hwidth]
  continuation := by
    intro ht
    have ht : f.type = .continuation := ht
    show f.interpret.map f.buffer.part = _
    unfold interpret
    rw [ht]
    rfl

end RawFrame

-- =============================================================== the result

namespace Frame

/-- Frames that are accepted as one of a type, at any place of any buffer,
have safe accessors and a payload that falls into its parts. No accessor
looks for an octet that is not there or not the frame's, copies octets
into a place of another length or goes below zero, and each yields what
the frame was read as. The payload is its pad length, its fields, its
content and its padding, and says what these spell. Each of them lies
between the header and the limit of the frame, which lies below the bound
that was read up to. -/
theorem parts_of_readAs {type : FrameType} {buffer : Buffer}
    {offset maxLimit : Nat} {f : Frame}
    (h : readAs type buffer offset maxLimit = .ok f) :
    f.Faultless ∧ f.Partitioned ∧ f.PartsInside
      ∧ f.raw.buffer = buffer ∧ f.raw.offset = offset ∧ f.raw.type = type
      ∧ f.raw.limit ≤ maxLimit ∧ maxLimit ≤ buffer.size := by
  obtain ⟨hread, htype⟩ := read_of_readAs h
  obtain ⟨hbuffer, hoffset, -, -⟩ := place_of_read hread
  obtain ⟨hlimit, hmax⟩ := limit_le_of_read hread
  obtain ⟨raw, rfl, hf, hheader⟩ := exists_accepted_of_read hread
  exact ⟨hf.faultless hheader, hf.partitioned, hf.partsInside, hbuffer, hoffset,
    raw.type_interpret.symm.trans htype, hlimit, hmax⟩

/-- A HEADERS frame with all of its parts, away from both ends of its
buffer. -/
theorem parts_of_readAs_padded_headers :
    ∃ f, readAs .headers (.ofList [0xaa, 0xaa, 0, 0, 10, 1, 0x2c, 0, 0, 0, 1,
        2, 0x80, 0, 0, 3, 15, 0x82, 0x84, 0, 0, 0xbb]) 2 21 = .ok f
      ∧ f.raw.payload.length = 10
      ∧ f.partOctets.toList
        = [[2], [0x80, 0, 0, 3, 15], [0x82, 0x84], [0, 0]]
      ∧ f.raw.region.contents f.raw.type
        = .ok (.headers (some 2) (some ⟨3, true, 15⟩) [0x82, 0x84])
      ∧ ∀ s ∈ f.parts.toList, 11 ≤ s.start ∧ s.stop ≤ 21 := by
  have hread := readAs_eq_of_isOk (show (readAs .headers (.ofList [0xaa, 0xaa,
    0, 0, 10, 1, 0x2c, 0, 0, 0, 1, 2, 0x80, 0, 0, 3, 15, 0x82, 0x84, 0, 0,
    0xbb]) 2 21).isOk by decide +kernel)
  obtain ⟨hfaultless, hpartitioned, hinside, -, hoffset, -, hlimit, -⟩ :=
    parts_of_readAs hread
  refine ⟨_, hread, ?_, ?_, ?_, ?_⟩
  · rw [hpartitioned.payload]
    decide +kernel
  · decide +kernel
  · rw [hfaultless.contents]
    decide +kernel
  · intro s hs
    obtain ⟨hstart, -, hstop⟩ := hinside s hs
    rw [hoffset] at hstart
    exact ⟨hstart, Nat.le_trans hstop hlimit⟩

end Frame

end Http2
