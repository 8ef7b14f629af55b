/-
Bits that are to be ignored are ignored.

Two buffers that only differ in bits that are to be ignored in one of
them (`Buffer.AgreeOutside`) are read alike (`read_of_agree`). All that
is checked is looked up outside these bits, so the same check is the
first that fails (`checks_of_agree`); and if the frames are accepted, all
that they say stands outside these bits as well.
-/
import Http2.Proofs.Frame.Alike
import Http2.Proofs.Octets.Agreement

namespace Http2.Frame

open Check RawFrame

variable {a b : Buffer} {offset maxLimit : Nat}

/-- The meaning of a flag is not ignored. -/
theorem mask_and_ignored {type : FrameType} {flag : Flag}
    (h : flag ∈ type.definedFlags) :
    flag.mask &&& ~~~Flag.union type.definedFlags = 0 := by
  have hall : ∀ flag ∈ type.definedFlags,
      flag.mask &&& ~~~Flag.union type.definedFlags = 0 := by
    cases type <;> decide
  exact hall flag h

/-- Headers that differ in bits to be ignored are alike. -/
theorem readAt_alike {ignored : Nat → UInt8}
    (h : Buffer.AgreeOutside ignored a b)
    (hignored : ∀ i, i < offset + 9 → ignored i
      = (unchecked a offset).raw.ignored i
        ||| (unchecked b offset).raw.ignored i) :
    (Header.readAt a offset).Alike (Header.readAt b offset) := by
  have hzero : ∀ i, i < offset + 9 → i ≠ offset + 4 → i ≠ offset + 5 →
      ignored i = 0 := by
    intro i hi hflags hstream
    rw [hignored i hi, ignored_eq_zero hflags hstream,
      ignored_eq_zero hflags hstream]
    rfl
  have hcode : (Header.readAt a offset).typeCode
      = (Header.readAt b offset).typeCode :=
    congrArg (·.getD 0) (h.octet?_eq
      (hzero (offset + 3) (by omega) (by omega) (by omega)))
  have htype : (Header.readAt a offset).type = (Header.readAt b offset).type :=
    congrArg FrameType.ofCode hcode
  refine ⟨?_, hcode, ?_, ?_⟩
  · have hslice : a.slice offset (offset + 3) = b.slice offset (offset + 3) :=
      h.slice_eq fun i hstart hstop =>
        hzero i (by omega) (by omega) (by omega)
    show (Header.lengthAt? a offset).getD 0 = (Header.lengthAt? b offset).getD 0
    rw [Header.lengthAt?, Header.lengthAt?, Buffer.number?, Buffer.number?,
      Header.lengthWidth, hslice, h.1]
  · show (Header.streamIdAt? a offset).getD 0
      = (Header.streamIdAt? b offset).getD 0
    rw [Header.streamIdAt?, Header.streamIdAt?, Buffer.number?, Buffer.number?,
      Header.streamIdWidth, Header.streamIdOffset, ← h.1]
    by_cases hin : offset + 5 + 4 ≤ a.size
    case neg => rw [if_neg hin, if_neg hin]
    case pos =>
      have hfirst : 0x7f &&& ignored (offset + 5) = 0 := by
        have hraw : ∀ c : Buffer, (unchecked c offset).raw.ignored (offset + 5)
            = reservedMask := by
          intro c
          have hflags : offset + 5 ≠ offset + Header.flagsOffset := by
            simp only [Header.flagsOffset]
            omega
          rw [RawFrame.ignored]
          exact (if_neg hflags).trans (if_pos rfl)
        rw [hignored _ (by omega), hraw, hraw]
        rfl
      have hmask := h.maskStreamId_eq hin hfirst fun i hstart hstop =>
        hzero i (by omega) (by omega) (by omega)
      rw [if_pos hin, if_pos hin]
      exact congrArg (fun id => (some id).getD 0) hmask
  · intro flag hflag
    have hraw : ∀ c : Buffer, (unchecked c offset).raw.ignored (offset + 4)
        = ~~~Flag.union (Header.readAt c offset).type.definedFlags :=
      fun _ => if_pos rfl
    have hkept : flag.mask &&& ignored (offset + 4) = 0 := by
      rw [hignored _ (by omega), hraw, hraw, ← htype, UInt8.or_self]
      exact mask_and_ignored hflag
    exact congrArg (· != 0) (h.and_eq hkept)

/-- The pad length is not ignored. -/
theorem ignoredAt_padLength {c : Buffer}
    (hpaddable : (Header.readAt c offset).type.definedFlags.contains .padded)
    (hpadded : Flag.padded.isSet (Header.readAt c offset).flags) :
    ignoredAt c offset maxLimit (offset + 9) = 0 := by
  refine ignoredAt_inner (Nat.le_refl _) ?_
  intro hf
  obtain ⟨-, hfields, -⟩ := hf.inner_bounds
  have hinner : (unchecked c offset).inner.start = offset + 9 + 1 := by
    have hcontent := hf.inner_eq_content hpaddable
    exact congrArg Span.start (hcontent.trans (if_pos hpadded))
  have hfields : (unchecked c offset).inner.start + _
      ≤ (unchecked c offset).inner.stop := hfields
  constructor <;> omega

/-- In a SETTINGS frame nothing of the payload is ignored. -/
theorem ignoredAt_settings {c : Buffer}
    (hsettings : (Header.readAt c offset).type = .settings) {i : Nat}
    (hstart : offset + 9 ≤ i)
    (hstop : i < offset + 9 + (Header.readAt c offset).length) :
    ignoredAt c offset maxLimit i = 0 := by
  have htype : (unchecked c offset).raw.type = .settings := hsettings
  refine ignoredAt_inner hstart ?_
  intro _
  have hinner : (unchecked c offset).raw.whole.inner
      = (unchecked c offset).raw.payloadSpan :=
    inner_eq_payloadSpan (by rw [htype]; rfl)
  refine ⟨?_, by rw [htype]; nofun⟩
  show i < (unchecked c offset).raw.whole.inner.stop
  rw [hinner]
  exact hstop

/-- Of the octet with a reserved bit the other bits are not ignored. -/
theorem ignoredAt_reserved {c : Buffer} (hf : (unchecked c offset).raw.Accepted)
    (hreserved : (unchecked c offset).raw.type.startsReserved) :
    0x7f &&& ignoredAt c offset maxLimit (unchecked c offset).inner.start
      = 0 := by
  have hpayload : offset + 9 ≤ (unchecked c offset).inner.start :=
    hf.inner_bounds.1
  have hoffset : (unchecked c offset).raw.offset = offset := rfl
  have hheader : (unchecked c offset).raw.ignored
      (unchecked c offset).inner.start = 0 :=
    ignored_eq_zero (by omega) (by omega)
  unfold ignoredAt
  split
  case h_2 => rw [hheader, UInt8.and_zero]
  case h_1 f hread =>
    obtain ⟨rfl, -⟩ := accepted_of_read hread
    rw [Frame.ignored, hheader, ignoredInPayload, if_pos ⟨hreserved, rfl⟩]
    rfl

-- ======================================================= reading the same

/-- The bits of two buffers that are to be ignored in one of them. -/
def ignoredInEither (a b : Buffer) (offset maxLimit i : Nat) : UInt8 :=
  ignoredAt a offset maxLimit i ||| ignoredAt b offset maxLimit i

theorem ignoredInEither_eq_zero {i : Nat}
    (ha : ignoredAt a offset maxLimit i = 0)
    (hb : ignoredAt b offset maxLimit i = 0) :
    ignoredInEither a b offset maxLimit i = 0 := by
  rw [ignoredInEither, ha, hb]
  rfl

section

variable
  (hagree : Buffer.AgreeOutside (ignoredInEither a b offset maxLimit) a b)

include hagree

theorem readAt_of_agree :
    (Header.readAt a offset).Alike (Header.readAt b offset) := by
  refine readAt_alike hagree ?_
  intro i hi
  rw [ignoredInEither, ignoredAt_header hi, ignoredAt_header hi]

theorem padLength_of_agree
    (hpaddable : (Header.readAt a offset).type.definedFlags.contains .padded)
    (hpadded : Flag.padded.isSet (Header.readAt a offset).flags) :
    a.octet? (offset + 9) = b.octet? (offset + 9) := by
  have halike := readAt_of_agree hagree
  have hboth := halike.flags .padded (List.contains_iff_mem.mp hpaddable)
  refine hagree.octet?_eq (ignoredInEither_eq_zero ?_ ?_)
  · exact ignoredAt_padLength hpaddable hpadded
  · exact ignoredAt_padLength (halike.type_eq ▸ hpaddable) (hboth ▸ hpadded)

theorem parameterAt_of_agree
    (hsettings : (Header.readAt a offset).type = .settings) {i : Nat}
    (hi : i < (Header.readAt a offset).length / 6) :
    parameterAt a offset i = parameterAt b offset i := by
  have halike := readAt_of_agree hagree
  have hlength := halike.length
  rw [parameterAt, parameterAt]
  refine congrArg Parameter.decode (hagree.slice_eq ?_)
  intro j hstart hstop
  refine ignoredInEither_eq_zero ?_ ?_
  · exact ignoredAt_settings hsettings (by omega) (by omega)
  · exact ignoredAt_settings (halike.type_eq ▸ hsettings) (by omega) (by omega)

/-- The same is checked with the same outcome. -/
theorem checks_of_agree :
    checks a offset maxLimit = checks b offset maxLimit := by
  have halike := readAt_of_agree hagree
  have hpayload : payloadChecks a offset (Header.readAt a offset)
      = payloadChecks b offset (Header.readAt b offset) :=
    halike.payloadChecks_eq (padLength_of_agree hagree)
      (fun hsettings _ hi => parameterAt_of_agree hagree hsettings hi)
  unfold checks
  simp only [hagree.1, halike.length, halike.headerChecks_eq, hpayload]

end

-- ========================================================== telling the same

/-- Frames of which all accessors tell the same, apart from flags that
mean nothing to the type. -/
structure Alike (f g : Frame) : Prop where
  offset : f.raw.offset = g.raw.offset
  limit : f.raw.limit = g.raw.limit
  header : f.raw.header.Alike g.raw.header
  payload : f.payload = g.payload
  contents : f.contents = g.contents
  block : f.block?.map (·.octets) = g.block?.map (·.octets)

/-- Outcomes that tell the same. -/
inductive ReadAlike : Except Error Frame → Except Error Frame → Prop
  | ok {f g : Frame} : f.Alike g → ReadAlike (.ok f) (.ok g)
  | error (e : Error) : ReadAlike (.error e) (.error e)

theorem alike_of_raw {f g : RawFrame} (hf : f.Accepted) (h : f.Alike g) :
    f.whole.Alike g.whole where
  offset := h.offset
  limit := h.limit_eq
  header := h.header
  payload := h.interpret_eq hf
  contents := h.contents_eq hf
  block := by rw [block?_contents, block?_contents, h.contents_eq hf]

/-- In accepted frames whose parts stand at the same places nothing in
front of the padding is ignored, but for a reserved bit. -/
theorem ignoredInEither_inner (hf : (unchecked a offset).raw.Accepted)
    (hg : (unchecked b offset).raw.Accepted)
    (halign : (unchecked a offset).raw.Aligned (unchecked b offset).raw)
    {i : Nat} (hstart : (unchecked a offset).inner.start ≤ i)
    (hstop : i < (unchecked a offset).inner.stop)
    (hreserved : (unchecked a offset).raw.type.startsReserved →
      i ≠ (unchecked a offset).inner.start) :
    ignoredInEither a b offset maxLimit i = 0 := by
  have hinner : (unchecked a offset).inner = (unchecked b offset).inner :=
    halign.inner_eq hf hg
  have htype := halign.type_eq
  have hpayload : offset + 9 ≤ (unchecked a offset).inner.start :=
    hf.inner_bounds.1
  refine ignoredInEither_eq_zero ?_ ?_
  · exact ignoredAt_inner (by omega) fun _ => ⟨hstop, hreserved⟩
  · refine ignoredAt_inner (by omega) fun _ => ?_
    rw [← hinner, ← htype]
    exact ⟨hstop, hreserved⟩

theorem raw_alike_of_agree
    (hagree : Buffer.AgreeOutside (ignoredInEither a b offset maxLimit) a b)
    (hf : (unchecked a offset).raw.Accepted)
    (hg : (unchecked b offset).raw.Accepted) :
    (unchecked a offset).raw.Alike (unchecked b offset).raw := by
  have halign : (unchecked a offset).raw.Aligned (unchecked b offset).raw :=
    ⟨rfl, readAt_of_agree hagree, padLength_of_agree hagree⟩
  have hzero := fun i =>
    @ignoredInEither_inner a b offset maxLimit hf hg halign i
  refine ⟨halign, ?_, ?_⟩
  · intro start stop hstart hstop hreserved
    refine hagree.slice_eq fun i hi hi' => hzero i ?_ ?_ ?_
    · exact Nat.le_trans hstart hi
    · exact Nat.lt_of_lt_of_le hi' hstop
    · exact fun h => Nat.ne_of_gt (Nat.lt_of_lt_of_le (hreserved h) hi)
  · intro hreserved
    have hinner : (unchecked a offset).inner = (unchecked b offset).inner :=
      halign.inner_eq hf hg
    have hwide := four_le_fieldsLength hreserved
    obtain ⟨-, hfields, hlimit⟩ := hf.inner_bounds
    refine hagree.maskStreamId_eq ?_ ?_ fun i hi hi' => hzero i ?_ ?_ ?_
    · exact Nat.le_trans (by omega) hf.inside
    · show 0x7f &&& ignoredInEither a b offset maxLimit
        (unchecked a offset).inner.start = 0
      have ha := @ignoredAt_reserved offset maxLimit a hf hreserved
      have hb :=
        @ignoredAt_reserved offset maxLimit b hg (halign.type_eq ▸ hreserved)
      exact Buffer.and_or_eq_zero_iff.mpr ⟨ha, hinner ▸ hb⟩
    · exact Nat.le_of_lt hi
    · show i < (unchecked a offset).raw.whole.inner.stop
      omega
    · exact fun _ => Nat.ne_of_gt hi

/-- Bits that are to be ignored are ignored: buffers that differ in such
bits only are read with the same error, or to frames that tell the
same. -/
theorem read_of_agree
    (hagree : Buffer.AgreeOutside (ignoredInEither a b offset maxLimit) a b) :
    ReadAlike (read a offset maxLimit) (read b offset maxLimit) := by
  have hchecks := checks_of_agree hagree
  cases ha : read a offset maxLimit with
  | error e =>
      have hb : read b offset maxLimit = .error e := by
        rw [read_eq_runAll] at ha ⊢
        rw [← hchecks]
        cases hrun : runAll (checks a offset maxLimit) with
        | error e' =>
            rw [hrun] at ha
            exact ha
        | ok u =>
            rw [hrun] at ha
            cases ha
      rw [hb]
      exact .error e
  | ok f =>
      have hb : read b offset maxLimit = .ok (unchecked b offset) := by
        rw [read_eq_ok_iff] at ha ⊢
        exact ⟨hchecks ▸ ha.1, rfl⟩
      obtain ⟨rfl, hf⟩ := accepted_of_read ha
      obtain ⟨-, hg⟩ := accepted_of_read hb
      rw [hb]
      exact .ok (alike_of_raw hf (raw_alike_of_agree hagree hf hg))

/-- Padded PUSH_PROMISE frames that differ in six flags, in both reserved
bits and in the padding. -/
theorem read_of_agree_pushPromise :
    Buffer.AgreeOutside
        (ignoredInEither
          (.ofList [0, 0, 8, 5, 0x08, 0, 0, 0, 1, 2, 0, 0, 0, 2, 0x82, 0, 0])
          (.ofList [0, 0, 8, 5, 0xfb, 0x80, 0, 0, 1, 2, 0x80, 0, 0, 2, 0x82,
            7, 9])
          0 17)
        (.ofList [0, 0, 8, 5, 0x08, 0, 0, 0, 1, 2, 0, 0, 0, 2, 0x82, 0, 0])
        (.ofList [0, 0, 8, 5, 0xfb, 0x80, 0, 0, 1, 2, 0x80, 0, 0, 2, 0x82,
          7, 9])
      ∧ (read (.ofList [0, 0, 8, 5, 0x08, 0, 0, 0, 1, 2, 0, 0, 0, 2, 0x82,
          0, 0]) 0 17).isOk
      ∧ ReadAlike
        (read (.ofList [0, 0, 8, 5, 0x08, 0, 0, 0, 1, 2, 0, 0, 0, 2, 0x82,
          0, 0]) 0 17)
        (read (.ofList [0, 0, 8, 5, 0xfb, 0x80, 0, 0, 1, 2, 0x80, 0, 0, 2, 0x82,
          7, 9]) 0 17) :=
  have hagree := by decide +kernel
  ⟨hagree, by decide +kernel, read_of_agree hagree⟩

end Http2.Frame
