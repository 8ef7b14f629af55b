/-
Frames that are read alike.

What is made of a frame does not depend on all of its bits. Two headers
that agree in length, type, stream and the flags that mean something to
the type (`Header.Alike`) are checked alike, and two accepted frames that
moreover hold the same between pad length and padding (`RawFrame.Alike`)
say the same.
-/
import Http2.Proofs.Frame.Ignored

namespace Http2

/-- Headers that say the same, up to flags without a meaning. -/
structure Header.Alike (h k : Header) : Prop where
  length : h.length = k.length
  typeCode : h.typeCode = k.typeCode
  streamId : h.streamId = k.streamId
  flags : ∀ flag ∈ h.type.definedFlags, flag.isSet h.flags = flag.isSet k.flags

namespace Header.Alike

variable {h k : Header} {a b : Buffer} {offset : Nat}

open Check Http2.Frame

theorem type_eq (halike : h.Alike k) : h.type = k.type :=
  congrArg FrameType.ofCode halike.typeCode

theorem headerChecks_eq (halike : h.Alike k) :
    headerChecks h = headerChecks k := by
  have htype := halike.type_eq
  have hack : h.type = .settings →
      Flag.ack.isSet h.flags = Flag.ack.isSet k.flags := by
    intro hsettings
    refine halike.flags .ack ?_
    rw [hsettings]
    exact List.mem_singleton.mpr rfl
  simp only [headerChecks, streamCheck, noStreamCheck, lengthCheck,
    emptyAckCheck, halike.length, halike.streamId]
  rw [htype] at hack ⊢
  cases ht : k.type with
  | settings => rw [hack ht]
  | _ => rfl

theorem paddingChecks_eq (halike : h.Alike k)
    (hpaddable : h.type.definedFlags.contains .padded)
    (hpadding : Flag.padded.isSet h.flags →
      a.octet? (offset + 9) = b.octet? (offset + 9)) (least : Nat) :
    paddingChecks a offset h least = paddingChecks b offset k least := by
  have htype := halike.type_eq
  have hpadded : Flag.padded.isSet h.flags = Flag.padded.isSet k.flags :=
    halike.flags .padded (List.contains_iff_mem.mp hpaddable)
  simp only [paddingChecks, lengthCheck, halike.length, htype, ← hpadded]
  cases hset : Flag.padded.isSet h.flags with
  | false => rfl
  | true => rw [hpadding hset]

theorem payloadChecks_eq (halike : h.Alike k)
    (hpadding : h.type.definedFlags.contains .padded →
      Flag.padded.isSet h.flags → a.octet? (offset + 9) = b.octet? (offset + 9))
    (hparameters : h.type = .settings → ∀ i, i < h.length / 6 →
      parameterAt a offset i = parameterAt b offset i) :
    payloadChecks a offset h = payloadChecks b offset k := by
  have htype := halike.type_eq
  unfold payloadChecks
  rw [← htype]
  cases ht : h.type with
  | data | pushPromise =>
      exact paddingChecks_eq halike (by rw [ht]; rfl)
        (hpadding (by rw [ht]; rfl)) _
  | headers =>
      have hpriority : Flag.priority.isSet h.flags
          = Flag.priority.isSet k.flags :=
        halike.flags .priority (by rw [ht]; decide)
      rw [hpriority]
      exact paddingChecks_eq halike (by rw [ht]; rfl)
        (hpadding (by rw [ht]; rfl)) _
  | settings =>
      have hcheck : parameterCheck h = parameterCheck k := by
        funext p
        rw [parameterCheck, parameterCheck, htype]
      rw [← halike.length, hcheck]
      apply List.map_congr_left
      intro i hi
      rw [hparameters ht i (List.mem_range.mp hi)]
  | _ => rfl

end Header.Alike

-- ======================================================== payloads alike

/-- Frames whose parts stand at the same places. -/
structure RawFrame.Aligned (f g : RawFrame) : Prop where
  offset : f.offset = g.offset
  header : f.header.Alike g.header
  padLength : f.type.definedFlags.contains .padded → f.has .padded →
    f.buffer.octet? f.payloadStart = g.buffer.octet? f.payloadStart

/-- Frames with the same parts, but for what is to be ignored in them. -/
structure RawFrame.Alike (f g : RawFrame) : Prop extends f.Aligned g where
  inner : ∀ {start stop}, f.whole.inner.start ≤ start →
    stop ≤ f.whole.inner.stop →
    (f.type.startsReserved → f.whole.inner.start < start) →
    f.buffer.slice start stop = g.buffer.slice start stop
  reserved : f.type.startsReserved →
    maskStreamId (BigEndian.decode (f.buffer.slice f.whole.inner.start
        (f.whole.inner.start + 4)))
      = maskStreamId (BigEndian.decode (g.buffer.slice f.whole.inner.start
        (f.whole.inner.start + 4)))

namespace RawFrame.Aligned

variable {f g : RawFrame} (h : f.Aligned g)

include h

theorem type_eq : f.type = g.type := h.header.type_eq

theorem payloadStart_eq : f.payloadStart = g.payloadStart :=
  congrArg (· + 9) h.offset

theorem limit_eq : f.limit = g.limit := by
  rw [limit, limit, h.payloadStart_eq]
  exact congrArg (g.payloadStart + ·) h.header.length

theorem payloadSpan_eq : f.payloadSpan = g.payloadSpan := by
  rw [payloadSpan, payloadSpan, h.payloadStart_eq, h.limit_eq]

/-- Padding and content are found in the same way. -/
theorem padding_eq (hpaddable : f.type.definedFlags.contains .padded) :
    f.padding = g.padding ∧ f.content = g.content := by
  have hpadded : f.has .padded = g.has .padded :=
    h.header.flags .padded (List.contains_iff_mem.mp hpaddable)
  have hlength : f.length = g.length := h.header.length
  rw [padding, padding, content, content, h.payloadSpan_eq, ← hpadded]
  cases hset : f.has .padded with
  | false => exact ⟨rfl, rfl⟩
  | true =>
      have hoctet := h.padLength hpaddable hset
      rw [padLength?, padLength?, paddingLength, paddingLength, hoctet, hlength,
        h.payloadStart_eq, h.limit_eq]
      exact ⟨rfl, rfl⟩

theorem inner_eq (hf : f.Accepted) (hg : g.Accepted) :
    f.whole.inner = g.whole.inner := by
  have htype := h.type_eq
  cases hpaddable : f.type.definedFlags.contains .padded with
  | true =>
      rw [hf.inner_eq_content hpaddable,
        hg.inner_eq_content (htype ▸ hpaddable), (h.padding_eq hpaddable).2]
  | false =>
      rw [inner_eq_payloadSpan hpaddable,
        inner_eq_payloadSpan (htype ▸ hpaddable), h.payloadSpan_eq]

theorem contentFrom_eq (hpaddable : f.type.definedFlags.contains .padded)
    (count : Nat) : f.contentFrom count = g.contentFrom count := by
  rw [contentFrom, contentFrom, (h.padding_eq hpaddable).2]

end RawFrame.Aligned

namespace RawFrame.Alike

variable {f g : RawFrame} (h : f.Alike g)

include h

/-- A type without padding says the same with the same payload. -/
theorem payload_eq (hpaddable : f.type.definedFlags.contains .padded = false)
    (hreserved : f.type.startsReserved = false) : f.payload = g.payload := by
  have hinner := @inner_eq_payloadSpan f hpaddable
  rw [payload, payload, ← h.payloadSpan_eq, ← hinner]
  exact h.inner (Nat.le_refl _) (Nat.le_refl _) fun hstarts =>
    absurd hstarts (Bool.eq_false_iff.mp hreserved)

/-- The first octets of the content are the same. -/
theorem contentFront_eq (hf : f.Accepted)
    (hpaddable : f.type.definedFlags.contains .padded)
    (hreserved : f.type.startsReserved = false) {count : Nat}
    (hcount : count ≤ f.fieldsLength) :
    f.contentFront count = g.contentFront count := by
  obtain ⟨-, hfields, -⟩ := hf.inner_bounds
  rw [contentFront, contentFront, ← (h.padding_eq hpaddable).2,
    ← hf.inner_eq_content hpaddable]
  exact h.inner (Nat.le_refl _) (by omega) fun hstarts =>
    absurd hstarts (Bool.eq_false_iff.mp hreserved)

/-- A number at the start of the payload is the same. -/
theorem number_eq (hf : f.Accepted)
    (hpaddable : f.type.definedFlags.contains .padded = false)
    {start : Nat} (hin : start + 4 ≤ f.fieldsLength)
    (hreserved : f.type.startsReserved → 0 < start) :
    f.number start 4 = g.number start 4 := by
  obtain ⟨-, hfields, -⟩ := hf.inner_bounds
  have hstart : f.whole.inner.start = f.payloadStart := by
    rw [inner_eq_payloadSpan hpaddable, payloadSpan]
  have hslice : f.buffer.slice (f.payloadStart + start)
      (f.payloadStart + start + 4)
      = g.buffer.slice (f.payloadStart + start)
        (f.payloadStart + start + 4) := by
    refine h.inner (by omega) (by omega) ?_
    intro hstarts
    have := hreserved hstarts
    omega
  rw [number, number, hslice, h.payloadStart_eq]

/-- The number below the reserved bit is the same. -/
theorem maskStreamId_number (hpaddable : f.type.definedFlags.contains .padded
      = false) (hreserved : f.type.startsReserved) :
    maskStreamId (f.number 0 4) = maskStreamId (g.number 0 4) := by
  have hmask := h.reserved hreserved
  rw [inner_eq_payloadSpan hpaddable, payloadSpan] at hmask
  rw [number, number, ← h.payloadStart_eq, Nat.add_zero]
  exact hmask

/-- The optional priority is found in both or in none. -/
theorem interpret_headers (hf : f.Accepted) (ht : f.type = .headers) :
    (if f.has .priority then
        Payload.headers f.padding (some (.decode (f.contentFront 5)))
          (f.contentFrom 5)
      else .headers f.padding none f.content)
    = if g.has .priority then
        .headers g.padding (some (.decode (g.contentFront 5)))
          (g.contentFrom 5)
      else .headers g.padding none g.content := by
  have hpaddable : f.type.definedFlags.contains .padded := by rw [ht]; rfl
  have hpriority : f.has .priority = g.has .priority := by
    refine h.header.flags .priority ?_
    show _ ∈ f.type.definedFlags
    rw [ht]
    decide
  obtain ⟨hpadding, hcontent⟩ := h.padding_eq hpaddable
  rw [← hpriority, h.contentFrom_eq hpaddable 5, hpadding, hcontent]
  by_cases hset : f.has .priority
  case neg => rw [if_neg hset, if_neg hset]
  case pos =>
    have hfields : f.fieldsLength = 5 := by
      rw [fieldsLength, if_pos ht, if_pos hset]
      rfl
    have hfront := h.contentFront_eq hf hpaddable (by rw [ht]; rfl)
      (Nat.le_of_eq hfields.symm)
    rw [if_pos hset, if_pos hset, hfront]

/-- Accepted frames that are alike tell the same about their payload. -/
theorem interpret_eq (hf : f.Accepted) : f.interpret = g.interpret := by
  rw [interpret, interpret, ← h.type_eq]
  cases ht : f.type with
  | data =>
      obtain ⟨hpadding, hcontent⟩ := h.padding_eq (by rw [ht]; rfl)
      rw [hpadding, hcontent]
  | headers => exact h.interpret_headers hf ht
  | pushPromise =>
      have hpaddable : f.type.definedFlags.contains .padded := by rw [ht]; rfl
      obtain ⟨hpadding, hcontent⟩ := h.padding_eq hpaddable
      have hmask := h.reserved (by rw [ht]; rfl)
      rw [hf.inner_eq_content hpaddable, hcontent] at hmask
      have hmask : maskStreamId (BigEndian.decode (f.contentFront 4))
          = maskStreamId (BigEndian.decode (g.contentFront 4)) := by
        rw [contentFront, hcontent]
        exact hmask
      rw [hmask, h.contentFrom_eq hpaddable 4, hpadding]
  | rstStream =>
      have hfields : f.fieldsLength = 4 := by
        rw [fieldsLength, ht]
        rfl
      rw [h.number_eq hf (by rw [ht]; rfl) (Nat.le_of_eq hfields.symm)
        (by rw [ht]; decide)]
  | goAway =>
      have hfields : f.fieldsLength = 4 + 4 := by
        rw [fieldsLength, ht]
        rfl
      have hcode := h.number_eq hf (by rw [ht]; rfl)
        (Nat.le_of_eq hfields.symm) (fun _ => by decide)
      rw [h.maskStreamId_number (by rw [ht]; rfl) (by rw [ht]; rfl), hcode,
        spanFrom, spanFrom, h.payloadStart_eq, h.limit_eq]
  | windowUpdate =>
      rw [h.maskStreamId_number (by rw [ht]; rfl) (by rw [ht]; rfl)]
  | priority | settings | ping =>
      rw [h.payload_eq (by rw [ht]; rfl) (by rw [ht]; rfl)]
  | continuation | unrecognized => rw [h.payloadSpan_eq]

/-- Nothing of the part of free length is ignored. -/
theorem contents_eq (hf : f.Accepted) :
    f.whole.contents = g.whole.contents := by
  show f.interpret.map f.buffer.part = g.interpret.map g.buffer.part
  rw [← h.interpret_eq hf]
  apply Payload.map_congr
  intro s hs
  rw [hf.part_eq hs]
  refine h.inner (Nat.le_add_right _ _) (Nat.le_refl _) ?_
  intro hreserved
  have hfields := four_le_fieldsLength hreserved
  exact Nat.lt_add_of_pos_right (by omega)

end RawFrame.Alike

end Http2
