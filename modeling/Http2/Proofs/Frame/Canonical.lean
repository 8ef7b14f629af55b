/-
Frames in canonical form.

Many strings of octets are read as the same frame, since senders may set
bits that are to be ignored. A frame is canonical if it has none of these
bits set and all of its identifiers and codes are known ones. It is then
spelled by what its accessors tell: header, pad length, fields, content
and padding follow each other without a gap, and writing each of them
gives the octets that it was read from (`octets_eq_encode`).
-/
import Http2.Proofs.Frame.Ignored
import Http2.Proofs.Octets.Agreement

namespace Http2

/-- All identifiers of settings and all error codes are known. -/
def Payload.Known {α : Type} : Payload α → Prop
  | rstStream code | goAway _ code _ => code.toNat ≤ 13
  | settings parameters =>
    ∀ p ∈ parameters.toList, 1 ≤ p.ident.toNat ∧ p.ident.toNat ≤ 6
  | _ => True

/-- A frame of a known type with nothing in it that is to be ignored. -/
structure Frame.Canonical (f : Frame) : Prop where
  type : f.raw.type ≠ .unrecognized
  clear : ∀ i < f.raw.limit, f.raw.offset ≤ i →
    (f.raw.buffer.octet? i).getD 0 &&& f.ignored i = 0
  known : f.payload.Known

-- ================================================================= codes

/-- A type that is known has the number that it was read from. -/
theorem FrameType.code_ofCode {n : UInt8} (h : ofCode n ≠ unrecognized) :
    (ofCode n).code = n := by
  have hall : ∀ n : Fin 256, ofCode (.ofFin n) ≠ unrecognized →
      (ofCode (.ofFin n)).code = .ofFin n := by
    decide +kernel
  exact hall n.toFin h

/-- A number is below its reserved bit if that bit is not set. -/
theorem Buffer.decode_slice_lt {b : Buffer} {start : Nat}
    (hin : start + 4 ≤ b.size)
    (hclear : (b.octet? start).getD 0 &&& reservedMask = 0) :
    BigEndian.decode (b.slice start (start + 4)) < reservedBit := by
  obtain ⟨first, hfirst⟩ := exists_octet? (show start < b.size by omega)
  have hsmall : ∀ n : Fin 256, UInt8.ofFin n &&& reservedMask = 0 →
      n.val < 128 := by
    decide +kernel
  rw [hfirst] at hclear
  have hlt : first.toNat < 128 := hsmall first.toFin hclear
  have hrest := BigEndian.decode_lt (b.slice (start + 1) (start + 4))
  have hlength : (b.slice (start + 1) (start + 4)).length = 3 := by
    rw [length_slice hin]
    omega
  rw [hlength] at hrest
  rw [slice_cons hfirst (by omega), BigEndian.decode_cons, hlength]
  have hbit : reservedBit = 128 * 256 ^ 3 := rfl
  omega

-- ================================================================ the parts

namespace Payload

variable {α β : Type}

theorem padding?_map (g : α → β) (p : Payload α) :
    (p.map g).padding? = p.padding? := by
  cases p <;> rfl

theorem fields_map (g : α → β) (p : Payload α) :
    (p.map g).fields = p.fields := by
  cases p <;> rfl

theorem known_map {p : Payload α} (g : α → β) (h : p.Known) :
    (p.map g).Known := by
  cases p <;> exact h

theorem content_map_of_part? {p : Payload α} {part : α}
    (h : p.part? = some part) (g : α → List UInt8) :
    (p.map g).content = g part := by
  cases p <;> cases h <;> rfl

end Payload

namespace RawFrame

open Check Http2.Frame

variable {f : RawFrame}

theorem type_contents (f : RawFrame) : f.whole.contents.type = f.type :=
  (Payload.type_map _ _).trans f.type_interpret

theorem payload_eq_slice (f : RawFrame) :
    f.payload = f.buffer.slice f.payloadStart (f.payloadStart + f.length) :=
  rfl

theorem contents_settings (h : f.type = .settings) :
    f.whole.contents = .settings ⟨f.payload⟩ := by
  show f.interpret.map f.buffer.part = _
  simp only [interpret, h, Payload.map]

theorem contents_ping (h : f.type = .ping) :
    f.whole.contents = .ping f.payload := by
  show f.interpret.map f.buffer.part = _
  simp only [interpret, h, Payload.map]

/-- Types without a part of free length have a payload of one length. -/
theorem Accepted.length_eq (hf : f.Accepted)
    (htype : f.type = .priority ∨ f.type = .rstStream ∨ f.type = .ping
      ∨ f.type = .windowUpdate) : f.length = f.type.fixedLength := by
  have hheader := passes_of_runAll hf.header
  have hsame : f.header.type = f.type := rfl
  rcases htype with ht | ht | ht | ht <;>
    simp only [headerChecks, hsame, ht, streamCheck, noStreamCheck, lengthCheck,
      List.mem_cons, List.not_mem_nil, or_false, forall_eq_or_imp, forall_eq,
      beq_iff_eq, bne_iff_ne] at hheader
  all_goals
    rw [ht]
    first | exact hheader.2 | exact hheader

/-- The pad length stands in front of everything else. -/
theorem Accepted.slice_padLength (hf : f.Accepted) :
    f.buffer.slice f.payloadStart f.whole.inner.start
      = f.interpret.padding?.toList := by
  rw [inner_whole, padding?_interpret]
  split
  case isFalse => exact f.buffer.slice_self f.payloadStart
  case isTrue hpaddable =>
    cases hpadded : f.has .padded with
    | false =>
        rw [padding, hpadded]
        exact f.buffer.slice_self f.payloadStart
    | true =>
        obtain ⟨octet, hoctet, hpadding, -⟩ := hf.padding_eq hpaddable hpadded
        rw [hpadding]
        show f.buffer.slice f.payloadStart (f.payloadStart + 1) = [octet]
        rw [Buffer.slice_cons hoctet (Nat.lt_succ_self _), Buffer.slice_self]

/-- What a payload without a part of free length holds besides its
fields: the parameters of a SETTINGS frame. -/
theorem Accepted.slice_content_of_none (hf : f.Accepted)
    (hnone : f.interpret.part? = none) :
    f.buffer.slice (f.whole.inner.start + f.fieldsLength) f.whole.inner.stop
      = f.whole.contents.content := by
  have hlength := hf.length_eq
  have hpaddable : f.type.definedFlags.contains .padded = false := by
    rw [← f.type_interpret]
    cases hp : f.interpret <;> rw [hp] at hnone <;> first | rfl | cases hnone
  have hinner := inner_eq_payloadSpan hpaddable
  show _ = (f.interpret.map f.buffer.part).content
  rw [hinner, fieldsLength]
  unfold interpret at hnone ⊢
  cases ht : f.type <;> rw [ht] at hnone hpaddable hlength <;>
    dsimp only at hnone ⊢
  case settings =>
    rw [if_neg (by decide), FrameType.fixedLength, Nat.add_zero]
    rfl
  case priority | rstStream | ping | windowUpdate =>
    have hlimit : f.limit = f.payloadStart + f.length := rfl
    rw [if_neg (by decide), payloadSpan, hlimit, hlength (by decide)]
    exact f.buffer.slice_self _
  case data | headers | pushPromise => cases hpaddable
  case goAway | continuation | unrecognized => cases hnone

/-- The part of free length stands behind the fields. -/
theorem Accepted.slice_content (hf : f.Accepted) :
    f.buffer.slice (f.whole.inner.start + f.fieldsLength) f.whole.inner.stop
      = f.whole.contents.content := by
  cases hpart : f.interpret.part? with
  | none => exact hf.slice_content_of_none hpart
  | some s =>
      have hcontent : f.whole.contents.content = f.buffer.part s :=
        Payload.content_map_of_part? hpart f.buffer.part
      rw [hcontent, hf.part_eq hpart, Buffer.part]

/-- There are as many octets as the fields take. -/
theorem Accepted.length_slice_fields (hf : f.Accepted) {count : Nat}
    (hcount : count ≤ f.fieldsLength) :
    (f.buffer.slice f.whole.inner.start (f.whole.inner.start + count)).length
      = count := by
  obtain ⟨-, hfields, hstop⟩ := hf.inner_bounds
  have hinside := hf.inside
  rw [Buffer.length_slice (by omega), Nat.add_sub_cancel_left]

/-- The number that the fields start with is below its reserved bit. -/
theorem Accepted.decode_fields_lt (hf : f.Accepted)
    (hreserved : f.type.startsReserved)
    (hclear : (f.buffer.octet? f.whole.inner.start).getD 0 &&& reservedMask
      = 0) :
    BigEndian.decode (f.buffer.slice f.whole.inner.start
      (f.whole.inner.start + 4)) < reservedBit := by
  obtain ⟨-, hfields, hstop⟩ := hf.inner_bounds
  have hinside := hf.inside
  have hwide := four_le_fieldsLength hreserved
  exact Buffer.decode_slice_lt (by omega) hclear

/-- Two numbers follow each other, the first one below a reserved bit. -/
theorem payload_goAway
    (hlength : (f.buffer.slice f.payloadStart (f.payloadStart + 8)).length = 8)
    (hlast : BigEndian.decode (f.buffer.slice f.payloadStart
      (f.payloadStart + 4)) < reservedBit) :
    f.buffer.slice f.payloadStart (f.payloadStart + 8)
      = BigEndian.encode 4 (maskStreamId (f.number 0 4)).toNat
        ++ BigEndian.encode 4 (UInt32.ofNat (f.number 4 4)).toNat := by
  have hsplit := f.buffer.slice_append (Nat.le_add_right f.payloadStart 4)
    (show f.payloadStart + 4 ≤ f.payloadStart + 8 by omega)
  have hfirst : (f.buffer.slice f.payloadStart (f.payloadStart + 4)).length
      = 4 := by
    rw [← f.buffer.take_slice f.payloadStart (show 4 ≤ 8 by decide),
      List.length_take, hlength]
    rfl
  have hsecond : (f.buffer.slice (f.payloadStart + 4)
      (f.payloadStart + 8)).length = 4 := by
    rw [← f.buffer.drop_slice, List.length_drop, hlength]
  rw [← hsplit]
  exact congrArg₂ (· ++ ·) (Header.encode_maskStreamId hfirst hlast).symm
    (BigEndian.encode_ofNat_decode hsecond).symm

/-- The fields stand between pad length and content. -/
theorem Accepted.slice_fields (hf : f.Accepted)
    (hclear : f.type.startsReserved →
      (f.buffer.octet? f.whole.inner.start).getD 0 &&& reservedMask = 0) :
    f.buffer.slice f.whole.inner.start (f.whole.inner.start + f.fieldsLength)
      = f.whole.contents.fields := by
  have hcontents : f.whole.contents.fields = f.interpret.fields :=
    Payload.fields_map _ _
  have hfixed := hf.length_eq
  have hnumber := fun hreserved =>
    hf.decode_fields_lt hreserved (hclear hreserved)
  have hwidth := fun count (hcount : count ≤ f.fieldsLength) =>
    hf.length_slice_fields hcount
  have hcontent := fun hpaddable => hf.inner_eq_content hpaddable
  have hspan := @inner_eq_payloadSpan f
  rw [hcontents]
  unfold fieldsLength at hwidth ⊢
  unfold interpret
  generalize f.whole.inner = inner at *
  cases ht : f.type <;> rw [ht] at hcontent hspan hnumber hfixed hwidth <;>
    dsimp only
  case data | settings | continuation | unrecognized =>
    exact f.buffer.slice_self inner.start
  case headers =>
    rw [if_pos rfl] at hwidth ⊢
    by_cases hpriority : f.has .priority
    case neg =>
      rw [if_neg hpriority, if_neg hpriority]
      exact f.buffer.slice_self inner.start
    case pos =>
      rw [if_pos hpriority] at hwidth
      rw [hcontent rfl] at hwidth ⊢
      rw [if_pos hpriority, if_pos hpriority]
      exact (Priority.encode_decode (hwidth 5 (Nat.le_refl _))).symm
  case pushPromise =>
    rw [hcontent rfl] at hwidth hnumber ⊢
    exact (Header.encode_maskStreamId (hwidth 4 (Nat.le_refl _))
      (hnumber rfl)).symm
  all_goals rw [hspan rfl] at hwidth hnumber ⊢
  case priority =>
    rw [payload_eq_slice, hfixed (by decide)]
    exact (Priority.encode_decode (hwidth 5 (Nat.le_refl _))).symm
  case ping =>
    rw [payload_eq_slice, hfixed (by decide)]
    rfl
  case rstStream =>
    exact (BigEndian.encode_ofNat_decode (hwidth 4 (Nat.le_refl _))).symm
  case windowUpdate =>
    exact (Header.encode_maskStreamId (hwidth 4 (Nat.le_refl _))
      (hnumber rfl)).symm
  case goAway =>
    exact payload_goAway (hwidth 8 (Nat.le_refl _)) (hnumber rfl)

-- =============================================================== the whole

/-- No bit that is to be ignored is set in a canonical frame, neither one
of the header's nor one of the payload's. -/
theorem clear_of_canonical (hc : f.whole.Canonical) {i : Nat}
    (hstart : f.offset ≤ i) (hstop : i < f.limit) :
    (f.buffer.octet? i).getD 0 &&& f.ignored i = 0
      ∧ (f.buffer.octet? i).getD 0 &&& f.whole.ignoredInPayload i = 0 :=
  Buffer.and_or_eq_zero_iff.mp (hc.clear i hstop hstart)

/-- In a canonical frame the reserved bit in front of the fields is not
set. -/
theorem Accepted.clear_reserved (hf : f.Accepted) (hc : f.whole.Canonical)
    (hreserved : f.type.startsReserved) :
    (f.buffer.octet? f.whole.inner.start).getD 0 &&& reservedMask = 0 := by
  obtain ⟨hstart, hfields, hstop⟩ := hf.inner_bounds
  have hwide := four_le_fieldsLength hreserved
  have hwidth : f.payloadStart = f.offset + 9 := rfl
  obtain ⟨-, hpayload⟩ := clear_of_canonical hc
    (show f.offset ≤ f.whole.inner.start by omega) (by omega)
  rw [ignoredInPayload, if_pos ⟨hreserved, rfl⟩] at hpayload
  exact hpayload

/-- There are as many octets behind the content as the pad length
tells. -/
theorem Accepted.length_padding (hf : f.Accepted) :
    f.limit - f.whole.inner.stop = (f.interpret.padding?.getD 0).toNat := by
  obtain ⟨hstart, hfields, hstop⟩ := hf.inner_bounds
  have hwidth : f.payloadStart = f.offset + 9 := rfl
  have hinner : f.whole.inner.stop
      = f.limit - (f.interpret.padding?.getD 0).toNat := rfl
  have hfits : (f.interpret.padding?.getD 0).toNat ≤ f.limit := by
    omega
  omega

/-- In a canonical frame the padding is zero. -/
theorem Accepted.slice_padding (hf : f.Accepted) (hc : f.whole.Canonical) :
    f.buffer.slice f.whole.inner.stop f.limit
      = List.replicate (f.interpret.padding?.getD 0).toNat 0 := by
  obtain ⟨hstart, hfields, hstop⟩ := hf.inner_bounds
  have hwidth : f.payloadStart = f.offset + 9 := rfl
  rw [← hf.length_padding]
  refine Buffer.slice_eq_replicate hf.inside ?_
  intro i hi hlimit
  have hinside := hf.inside
  obtain ⟨octet, hoctet⟩ :=
    Buffer.exists_octet? (show i < f.buffer.size by omega)
  obtain ⟨-, hpayload⟩ :=
    clear_of_canonical hc (show f.offset ≤ i by omega) hlimit
  have hfree : ¬ (f.type.startsReserved ∧ i = f.whole.inner.start) := by
    rintro ⟨hreserved, rfl⟩
    have hwide := four_le_fieldsLength hreserved
    omega
  have hmask : f.whole.ignoredInPayload i = 0xff :=
    (if_neg hfree).trans (if_pos ⟨hi, hlimit⟩)
  rw [hmask, hoctet] at hpayload
  have hall : octet &&& 0xff = octet := UInt8.and_neg_one
  rw [hoctet, ← hall]
  exact congrArg some hpayload

/-- The octets of the header are spelled again if no reserved bit is
set. -/
theorem Accepted.slice_header (hf : f.Accepted) (hc : f.whole.Canonical)
    (hread : f.header = .readAt f.buffer f.offset) :
    f.buffer.slice f.offset f.payloadStart = f.header.encode := by
  have hinside := hf.inside
  have hlimit : f.limit = f.offset + 9 + f.length := rfl
  have hheader := Header.decode_slice
    (show f.offset + Header.width ≤ f.buffer.size by
      simp only [Header.width]; omega)
  obtain ⟨hstream, -⟩ := clear_of_canonical hc
    (show f.offset ≤ f.offset + 5 by omega) (by omega)
  have hmask : f.ignored (f.offset + 5) = reservedMask := by
    have hflags : f.offset + 5 ≠ f.offset + Header.flagsOffset := by
      simp only [Header.flagsOffset]
      omega
    exact (if_neg hflags).trans (if_pos rfl)
  rw [hmask] at hstream
  rw [hread, ← hheader, Header.encode_decode]
  · rfl
  · rw [Buffer.length_slice (by simp only [Header.width]; omega),
      Nat.add_sub_cancel_left]
  · rw [Buffer.drop_slice]
    have hend : f.offset + Header.width
        = f.offset + Header.streamIdOffset + Header.streamIdWidth := rfl
    rw [hend, Buffer.take_slice _ _ (Nat.le_refl _)]
    exact Buffer.decode_slice_lt (by
      simp only [Header.streamIdOffset]
      omega) hstream

/-- Pad length, fields, content and padding follow each other without a
gap. -/
theorem Accepted.payload_split (hf : f.Accepted) :
    f.payload
      = f.buffer.slice f.payloadStart f.whole.inner.start
        ++ f.buffer.slice f.whole.inner.start
          (f.whole.inner.start + f.fieldsLength)
        ++ f.buffer.slice (f.whole.inner.start + f.fieldsLength)
          f.whole.inner.stop
        ++ f.buffer.slice f.whole.inner.stop f.limit := by
  obtain ⟨hstart, hfields, hstop⟩ := hf.inner_bounds
  rw [f.buffer.slice_append hstart (Nat.le_add_right _ _),
    f.buffer.slice_append (by omega) hfields,
    f.buffer.slice_append (by omega) hstop]
  rfl

/-- The payload of a canonical frame is spelled by what it says. -/
theorem Accepted.payload_eq (hf : f.Accepted) (hc : f.whole.Canonical)
    (flags : UInt8) (id : UInt32) :
    f.payload = (Draft.ofPayload flags id f.whole.contents).payload := by
  have hpadding : f.whole.contents.padding? = f.interpret.padding? :=
    Payload.padding?_map _ _
  rw [hf.payload_split, hf.slice_padLength,
    hf.slice_fields (hf.clear_reserved hc), hf.slice_content,
    hf.slice_padding hc, ← hpadding]
  rfl

/-- A canonical frame is spelled by what its accessors tell. -/
theorem Accepted.octets_eq_encode (hf : f.Accepted) (hc : f.whole.Canonical)
    (hread : f.header = .readAt f.buffer f.offset) :
    f.octets = (Draft.ofPayload f.header.flags f.header.streamId
      f.whole.contents).encode := by
  have hpayload := hf.payload_eq hc f.header.flags f.header.streamId
  have hlength := length_payload hf.inside
  have hcode : f.type.code = f.header.typeCode := FrameType.code_ofCode hc.type
  have hheader : (Draft.ofPayload f.header.flags f.header.streamId
      f.whole.contents).header = f.header := by
    rw [Draft.header, ← hpayload, hlength]
    show (⟨_, f.whole.contents.type.code, _, _⟩ : Header) = f.header
    rw [f.type_contents, hcode]
    rfl
  have hsplit : f.octets
      = f.buffer.slice f.offset f.payloadStart ++ f.payload :=
    (f.buffer.slice_append (Nat.le_add_right _ _)
      (Nat.le_add_right f.payloadStart _)).symm
  rw [hsplit, hf.slice_header hc hread, Draft.encode, hheader, ← hpayload]

end RawFrame

end Http2
