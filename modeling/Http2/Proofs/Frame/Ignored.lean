/-
The bits that are to be ignored.

Senders may leave anything in the flags that mean nothing to a type, in
the reserved bit of a number of 31 bits, and in the padding. `ignoredAt`
masks these bits, address by address: those of the header, whatever
follows it, and those of the payload if the frame is accepted.

Between pad length and padding of an accepted frame (`Frame.inner`) there
is no such bit but the reserved one that some types start with
(`ignored_inner`).
-/
import Http2.Proofs.Frame.Relocation
import Http2.Proofs.Frame.Spelling

namespace Http2

/-- Whether the fields of a type start with a number below a reserved
bit. -/
def FrameType.startsReserved : FrameType → Bool
  | pushPromise | goAway | windowUpdate => true
  | _ => false

/-- The octet in which only the reserved bit is set. -/
def reservedMask : UInt8 := 0x80

/-- The bits of the header that are to be ignored. -/
def RawFrame.ignored (f : RawFrame) (i : Nat) : UInt8 :=
  if i = f.offset + Header.flagsOffset then ~~~Flag.union f.type.definedFlags
  else if i = f.offset + Header.streamIdOffset then reservedMask
  else 0

/-- Only in the flags and in the stream identifier of a header there are
bits to be ignored. -/
theorem RawFrame.ignored_eq_zero {f : RawFrame} {i : Nat}
    (hflags : i ≠ f.offset + 4) (hstream : i ≠ f.offset + 5) :
    f.ignored i = 0 := by
  have hflags : i ≠ f.offset + Header.flagsOffset := hflags
  have hstream : i ≠ f.offset + Header.streamIdOffset := hstream
  rw [ignored, if_neg hflags, if_neg hstream]

namespace Frame

/-- Where the fields and the content stand: behind the pad length and in
front of the padding. -/
def inner (f : Frame) : Span :=
  ⟨f.raw.payloadStart + f.payload.padding?.toList.length,
    f.raw.limit - (f.payload.padding?.getD 0).toNat⟩

/-- The bits of the payload that are to be ignored. -/
def ignoredInPayload (f : Frame) (i : Nat) : UInt8 :=
  if f.raw.type.startsReserved ∧ i = f.inner.start then reservedMask
  else if f.inner.stop ≤ i ∧ i < f.raw.limit then 0xff
  else 0

/-- The bits of an accepted frame that are to be ignored. -/
def ignored (f : Frame) (i : Nat) : UInt8 :=
  f.raw.ignored i ||| f.ignoredInPayload i

/-- The bits of a buffer that a reader of the frame at an offset is to
ignore. -/
def ignoredAt (buffer : Buffer) (offset maxLimit i : Nat) : UInt8 :=
  match read buffer offset maxLimit with
  | .ok f => f.ignored i
  | .error _ => (unchecked buffer offset).raw.ignored i

end Frame

-- ============================================================= the inside

namespace RawFrame

open Check Http2.Frame

variable {f : RawFrame}

/-- The frame with its payload, taken for granted. -/
def whole (f : RawFrame) : Frame := ⟨f, f.interpret⟩

/-- How many octets the fields take. -/
def fieldsLength (f : RawFrame) : Nat :=
  if f.type = .headers then if f.has .priority then Priority.width else 0
  else f.type.fixedLength

/-- Only HEADERS frames have fields that may be missing, and they may be
padded. -/
theorem fieldsLength_of_unpaddable
    (hpaddable : f.type.definedFlags.contains .padded = false) :
    f.fieldsLength = f.type.fixedLength := by
  rw [fieldsLength, if_neg]
  intro htype
  rw [htype] at hpaddable
  cases hpaddable

/-- The number behind a reserved bit is the first of the fields. -/
theorem four_le_fieldsLength (h : f.type.startsReserved) :
    4 ≤ f.fieldsLength := by
  rw [fieldsLength, if_neg]
  · cases ht : f.type <;> rw [ht] at h <;> first | (cases h; done) | decide
  · intro htype
    rw [htype] at h
    cases h

/-- The padding of an accepted frame leaves room for the fields. -/
theorem Accepted.paddingChecks (hf : f.Accepted)
    (hpaddable : f.type.definedFlags.contains .padded) :
    runAll (paddingChecks f.buffer f.offset f.header f.fieldsLength)
      = .ok () := by
  have hpayload := hf.payload
  have htype : f.header.type = f.type := rfl
  unfold payloadChecks at hpayload
  unfold fieldsLength
  rw [htype] at hpayload
  cases ht : f.type <;> rw [ht] at hpayload hpaddable <;>
    first | exact hpayload | cases hpaddable

/-- The padding of an accepted padded frame is what its first octet
says. -/
theorem Accepted.padding_eq (hf : f.Accepted)
    (hpaddable : f.type.definedFlags.contains .padded)
    (hpadded : f.has .padded = true) :
    ∃ padding, f.buffer.octet? f.payloadStart = some padding
      ∧ f.padding = some padding ∧ f.paddingLength = padding.toNat := by
  have hpass := passes_of_runAll (hf.paddingChecks hpaddable)
  have hflag : Flag.padded.isSet f.header.flags = true := hpadded
  simp only [Http2.Frame.paddingChecks, hflag, if_true, List.mem_cons,
    List.not_mem_nil, or_false, forall_eq_or_imp, forall_eq,
    decide_eq_true_eq] at hpass
  have hlength : f.length ≠ 0 := Nat.ne_of_gt hpass.1
  have hin : f.payloadStart < f.buffer.bytes.size := by
    have hinside : f.payloadStart + f.length ≤ f.buffer.bytes.size := hf.inside
    omega
  have hoctet : f.buffer.octet? f.payloadStart
      = some (f.buffer.bytes[f.payloadStart]) := dif_pos hin
  refine ⟨_, hoctet, ?_, ?_⟩
  · rw [padding, hpadded, if_pos rfl, padLength?, if_neg hlength, hoctet]
  · rw [paddingLength, hoctet]
    rfl

/-- Only the types that may be padded have padding. -/
theorem padding?_interpret (f : RawFrame) :
    f.interpret.padding?
      = if f.type.definedFlags.contains .padded then f.padding else none := by
  unfold interpret
  cases f.type with
  | headers =>
      show Payload.padding? (if f.has .priority then _ else _) = f.padding
      split <;> rfl
  | _ => rfl

theorem inner_whole (f : RawFrame) :
    f.whole.inner
      = ⟨f.payloadStart + f.interpret.padding?.toList.length,
        f.limit - (f.interpret.padding?.getD 0).toNat⟩ :=
  rfl

/-- The types that may be padded find their content inside. -/
theorem Accepted.inner_eq_content (hf : f.Accepted)
    (hpaddable : f.type.definedFlags.contains .padded) :
    f.whole.inner = f.content := by
  rw [inner_whole, padding?_interpret, if_pos hpaddable, content]
  cases hpadded : f.has .padded with
  | false =>
      rw [padding, hpadded]
      rfl
  | true =>
      obtain ⟨padding, -, hpadding, hlength⟩ := hf.padding_eq hpaddable hpadded
      rw [hpadding, hlength]
      rfl

/-- All other types have nothing but fields and content. -/
theorem inner_eq_payloadSpan
    (hpaddable : f.type.definedFlags.contains .padded = false) :
    f.whole.inner = f.payloadSpan := by
  rw [inner_whole, padding?_interpret, hpaddable]
  rfl

/-- The fields and the content of an accepted frame lie in its
payload. -/
theorem Accepted.inner_bounds (hf : f.Accepted) :
    f.payloadStart ≤ f.whole.inner.start
      ∧ f.whole.inner.start + f.fieldsLength ≤ f.whole.inner.stop
      ∧ f.whole.inner.stop ≤ f.limit := by
  cases hpaddable : f.type.definedFlags.contains .padded with
  | true =>
      rw [hf.inner_eq_content hpaddable]
      exact content_bounds (hf.paddingChecks hpaddable)
  | false =>
      have hfixed := hf.fixedLength_le
      rw [inner_eq_payloadSpan hpaddable, fieldsLength_of_unpaddable hpaddable]
      exact ⟨Nat.le_refl _, Nat.add_le_add_left hfixed _, Nat.le_refl _⟩

/-- Nothing in the payload is ignored in front of the padding, but for a
reserved bit. -/
theorem ignored_inner {i : Nat}
    (hstart : f.payloadStart ≤ i) (hstop : i < f.whole.inner.stop)
    (hreserved : f.type.startsReserved → i ≠ f.whole.inner.start) :
    f.whole.ignored i = 0 := by
  have hwidth : f.payloadStart = f.offset + 9 := rfl
  have hheader : f.ignored i = 0 := ignored_eq_zero (by omega) (by omega)
  have hpayload : f.whole.ignoredInPayload i = 0 := by
    rw [ignoredInPayload, if_neg, if_neg]
    · omega
    · exact fun h => hreserved h.1 h.2
  rw [Frame.ignored, hpayload, UInt8.or_zero]
  exact hheader

/-- The part of free length reaches from the fields up to the padding. -/
theorem Accepted.part_eq (hf : f.Accepted) {s : Span}
    (h : f.interpret.part? = some s) :
    s = ⟨f.whole.inner.start + f.fieldsLength, f.whole.inner.stop⟩ := by
  have hcontent := fun hpaddable => hf.inner_eq_content hpaddable
  have hspan := @inner_eq_payloadSpan f
  unfold interpret at h
  unfold fieldsLength
  generalize f.whole.inner = inner at hcontent hspan
  cases ht : f.type <;> rw [ht] at h hcontent hspan
  case headers =>
    rw [hcontent rfl]
    simp only at h
    split at h
    case isTrue hpriority =>
      cases h
      rw [if_pos rfl, if_pos hpriority]
      rfl
    case isFalse hpriority =>
      cases h
      rw [if_pos rfl, if_neg hpriority]
      rfl
  case data | pushPromise =>
    cases h
    rw [hcontent rfl]
    rfl
  case goAway | continuation | unrecognized =>
    cases h
    rw [hspan rfl]
    rfl
  all_goals cases h

end RawFrame

namespace Frame

open Check RawFrame

variable {buffer : Buffer} {offset maxLimit i : Nat}

/-- A frame that is read is accepted. -/
theorem accepted_of_read {f : Frame}
    (h : read buffer offset maxLimit = .ok f) :
    f = unchecked buffer offset ∧ f.raw.Accepted := by
  obtain ⟨hrun, rfl⟩ := read_eq_ok_iff.mp h
  obtain ⟨hlimit, hmax, -, -⟩ := bounds_of_runAll hrun
  refine ⟨rfl, ?_, Nat.le_trans hlimit hmax, ?_⟩
  all_goals
    apply runAll_of_passes
    intro c hc
    refine passes_of_runAll hrun c ?_
    simp only [checks, List.mem_append]
  · exact .inl (.inl (.inr hc))
  · exact .inr hc

/-- In the header the same is ignored whatever follows it. -/
theorem ignoredAt_header (hi : i < offset + 9) :
    ignoredAt buffer offset maxLimit i
      = (unchecked buffer offset).raw.ignored i := by
  unfold ignoredAt
  split
  case h_2 => rfl
  case h_1 f hread =>
    obtain ⟨rfl, hf⟩ := accepted_of_read hread
    obtain ⟨hstart, hinner, -⟩ := hf.inner_bounds
    have hwidth : (unchecked buffer offset).raw.payloadStart = offset + 9 := rfl
    have hpayload : (unchecked buffer offset).ignoredInPayload i = 0 := by
      have hstart : offset + 9 ≤ (unchecked buffer offset).inner.start := hstart
      have hstop : offset + 9 ≤ (unchecked buffer offset).inner.stop :=
        Nat.le_trans hstart (Nat.le_of_add_right_le hinner)
      rw [ignoredInPayload, if_neg, if_neg] <;> omega
    rw [Frame.ignored, hpayload, UInt8.or_zero]

/-- In the payload nothing is ignored in front of the padding, but for a
reserved bit. -/
theorem ignoredAt_inner (hstart : offset + 9 ≤ i)
    (hinner : (unchecked buffer offset).raw.Accepted →
      i < (unchecked buffer offset).inner.stop
        ∧ ((unchecked buffer offset).raw.type.startsReserved →
          i ≠ (unchecked buffer offset).inner.start)) :
    ignoredAt buffer offset maxLimit i = 0 := by
  unfold ignoredAt
  split
  case h_2 =>
    have hoffset : (unchecked buffer offset).raw.offset = offset := rfl
    exact ignored_eq_zero (by omega) (by omega)
  case h_1 f hread =>
    obtain ⟨rfl, hf⟩ := accepted_of_read hread
    obtain ⟨hstop, hreserved⟩ := hinner hf
    exact @ignored_inner (unchecked buffer offset).raw i hstart hstop hreserved

end Frame

end Http2
