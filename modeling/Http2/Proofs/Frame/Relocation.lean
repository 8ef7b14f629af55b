/-
Frames in other surroundings.

What is read at an offset depends on the octets of the frame alone. If
the buffer is a part of a larger one, the same frame is read there, with
all addresses moved by the distance of the part (`read_shift`), and an
error tells the same addresses, moved. If only the bound is raised, a
frame stays what it is and so does a malformed one, and a frame that is
not there in full waits for the same end (`read_of_le`,
`read_of_overrun`).
-/
import Http2.Proofs.Frame.Verdict

namespace Http2

-- ============================================================= distance

/-- The error about addresses that lie `distance` further on. -/
def Error.shift (distance : Nat) : Error → Error
  | .bufferOverrun limit maxLimit =>
    .bufferOverrun (limit + distance) (maxLimit + distance)
  | e => e

namespace Payload

variable {α β γ : Type}

/-- The part of free length, for the types that have one. -/
def part? : Payload α → Option α
  | data _ part | headers _ _ part | pushPromise _ _ part | goAway _ _ part
  | continuation part | unrecognized part => some part
  | _ => none

theorem map_map (f : α → β) (g : β → γ) (p : Payload α) :
    (p.map f).map g = p.map (fun a => g (f a)) := by
  cases p <;> rfl

theorem map_id (p : Payload α) : p.map (fun a => a) = p := by
  cases p <;> rfl

theorem map_congr {f g : α → β} {p : Payload α}
    (h : ∀ a, p.part? = some a → f a = g a) : p.map f = p.map g := by
  cases p <;> first | rfl | (simp only [map]; rw [h _ rfl])

@[simp] theorem type_map (f : α → β) (p : Payload α) :
    (p.map f).type = p.type := by
  cases p <;> rfl

end Payload

namespace Frame

/-- The header block holds what the payload says that it does. -/
theorem block?_contents (f : Frame) :
    f.block?.map (·.octets) = f.contents.block? := by
  unfold block? contents
  cases f.payload <;> rfl

/-- A frame and the same frame `distance` addresses further on, in a
buffer where the same octets stand: all that it says is the same, and
all that it says about places is moved. -/
structure Moved (distance : Nat) (f g : Frame) : Prop where
  offset : g.raw.offset = f.raw.offset + distance
  limit : g.raw.limit = f.raw.limit + distance
  header : g.raw.header = f.raw.header
  payload : g.payload = f.payload.map (·.shift distance)
  contents : g.contents = f.contents
  octets : g.raw.octets = f.raw.octets

theorem Moved.trans {d e : Nat} {f g h : Frame} (hfg : Moved d f g)
    (hgh : Moved e g h) : Moved (d + e) f h where
  offset := by rw [hgh.offset, hfg.offset, Nat.add_assoc]
  limit := by rw [hgh.limit, hfg.limit, Nat.add_assoc]
  header := hgh.header.trans hfg.header
  payload := by
    rw [hgh.payload, hfg.payload, Payload.map_map]
    apply Payload.map_congr
    intro s _
    rw [Span.shift, Span.shift, Span.shift, Nat.add_assoc, Nat.add_assoc]
  contents := hgh.contents.trans hfg.contents
  octets := hgh.octets.trans hfg.octets

theorem Moved.symm {f g : Frame} (h : Moved 0 f g) : Moved 0 g f where
  offset := h.offset.symm
  limit := h.limit.symm
  header := h.header.symm
  payload := by
    rw [h.payload, Payload.map_map]
    exact (Payload.map_id f.payload).symm
  contents := h.contents.symm
  octets := h.octets.symm

/-- An outcome of reading and the same outcome `distance` addresses
further on. -/
inductive ItemMoved (distance : Nat) :
    Except Error Frame → Except Error Frame → Prop
  | ok {f g : Frame} : Moved distance f g → ItemMoved distance (.ok f) (.ok g)
  | error (e : Error) :
      ItemMoved distance (.error e) (.error (e.shift distance))

end Frame

namespace RawFrame

open Check Http2.Frame

-- ===================================================== accepted frames

/-- A frame that breaks no rule and is there in full. -/
structure Accepted (f : RawFrame) : Prop where
  header : runAll (headerChecks f.header) = .ok ()
  inside : f.limit ≤ f.buffer.size
  payload : runAll (payloadChecks f.buffer f.offset f.header) = .ok ()

/-- An accepted frame has all the fields of its type. -/
theorem Accepted.fixedLength_le {f : RawFrame} (h : f.Accepted) :
    f.type.fixedLength ≤ f.length := by
  have hheader := passes_of_runAll h.header
  have htype : f.type = f.header.type := rfl
  have hlength : f.length = f.header.length := rfl
  rw [htype, hlength]
  cases ht : f.header.type with
  | pushPromise =>
      have hpayload := h.payload
      simp only [payloadChecks, ht] at hpayload
      have := content_bounds hpayload
      simp only [limit, hlength] at this
      simp only [FrameType.fixedLength]
      omega
  | _ =>
      simp only [headerChecks, ht, streamCheck, noStreamCheck, lengthCheck,
        emptyAckCheck, List.mem_cons, List.not_mem_nil, or_false,
        forall_eq_or_imp, forall_eq, decide_eq_true_eq, beq_iff_eq,
        bne_iff_ne] at hheader
      simp only [FrameType.fixedLength]
      omega

/-- Nothing that a payload tells apart ends behind the frame. -/
theorem part_stop_le {f : RawFrame} {s : Span}
    (h : f.interpret.part? = some s) : s.stop ≤ f.limit := by
  have hcontent : f.content.stop ≤ f.limit := by
    unfold content
    split
    · exact Nat.sub_le _ _
    · exact Nat.le_refl _
  unfold interpret at h
  split at h
  case h_2 =>
    split at h
    all_goals
      cases h
      exact hcontent
  all_goals
    cases h <;> first | exact hcontent | exact Nat.le_refl _

-- ============================================================== moving

/-- The same header, at a place further on in another buffer. -/
def moveTo (f : RawFrame) (b : Buffer) (distance : Nat) : RawFrame :=
  ⟨b, f.offset + distance, f.header⟩

variable {f : RawFrame} {b : Buffer} {distance : Nat}

@[simp] theorem payloadStart_moveTo (f : RawFrame) (b : Buffer) (d : Nat) :
    (f.moveTo b d).payloadStart = f.payloadStart + d :=
  Nat.add_right_comm _ _ _

@[simp] theorem limit_moveTo (f : RawFrame) (b : Buffer) (d : Nat) :
    (f.moveTo b d).limit = f.limit + d := by
  have hlength : (f.moveTo b d).length = f.length := rfl
  rw [limit, limit, payloadStart_moveTo, hlength, Nat.add_right_comm]

@[simp] theorem type_moveTo (f : RawFrame) (b : Buffer) (d : Nat) :
    (f.moveTo b d).type = f.type := rfl

@[simp] theorem has_moveTo (f : RawFrame) (b : Buffer) (d : Nat) (flag : Flag) :
    (f.moveTo b d).has flag = f.has flag := rfl

/-- The first octet of a payload that is not empty moves along. -/
theorem octet?_payloadStart_moveTo (h : f.buffer.StandsIn b distance)
    (hinside : f.limit ≤ f.buffer.size) (hlength : f.header.length ≠ 0) :
    b.octet? (f.payloadStart + distance) = f.buffer.octet? f.payloadStart := by
  refine h.octet? (Nat.lt_of_lt_of_le ?_ hinside)
  have : f.limit = f.payloadStart + f.header.length := rfl
  omega

theorem paddingChecks_moveTo (h : f.buffer.StandsIn b distance)
    (hinside : f.limit ≤ f.buffer.size) (least : Nat) :
    runAll (paddingChecks b (f.offset + distance) f.header least)
      = runAll (paddingChecks f.buffer f.offset f.header least) := by
  have haddress : f.offset + distance + 9 = f.payloadStart + distance :=
    Nat.add_right_comm _ _ _
  cases hp : Flag.padded.isSet f.header.flags with
  | false => simp only [paddingChecks, hp, Bool.false_eq_true, if_false]
  | true =>
      simp only [paddingChecks, hp, if_true, haddress]
      by_cases hlength : f.header.length = 0
      · -- the octet behind an empty payload is not the frame's, but the
        -- check in front of it fails
        simp only [runAll_cons, hlength, Nat.lt_irrefl, decide_false,
          Bool.false_eq_true, if_false]
      · have hstart : f.offset + 9 = f.payloadStart := rfl
        rw [octet?_payloadStart_moveTo h hinside hlength, hstart]

theorem parameterAt_moveTo (h : f.buffer.StandsIn b distance)
    (hinside : f.limit ≤ f.buffer.size) {i : Nat}
    (hi : i < f.header.length / 6) :
    parameterAt b (f.offset + distance) i
      = parameterAt f.buffer f.offset i := by
  have hstop : f.offset + 9 + i * 6 + 6 ≤ f.limit := by
    have hlimit : f.limit = f.offset + 9 + f.header.length := rfl
    omega
  have hstart : f.offset + distance + 9 + i * 6
      = f.offset + 9 + i * 6 + distance := by
    omega
  rw [parameterAt, parameterAt, hstart, Nat.add_right_comm _ distance 6,
    h.slice (Nat.le_trans hstop hinside)]

theorem payloadChecks_moveTo (h : f.buffer.StandsIn b distance)
    (hinside : f.limit ≤ f.buffer.size) :
    runAll (payloadChecks b (f.offset + distance) f.header)
      = runAll (payloadChecks f.buffer f.offset f.header) := by
  cases ht : f.header.type with
  | settings =>
      have hsame : payloadChecks b (f.offset + distance) f.header
          = payloadChecks f.buffer f.offset f.header := by
        simp only [payloadChecks, ht]
        apply List.map_congr_left
        intro i hi
        rw [parameterAt_moveTo h hinside (List.mem_range.mp hi)]
      rw [hsame]
  | data | headers | pushPromise =>
      simp only [payloadChecks, ht]
      exact paddingChecks_moveTo h hinside _
  | _ => simp only [payloadChecks, ht]

/-- A frame is accepted wherever its octets stand. -/
theorem Accepted.moveTo (hf : f.Accepted) (h : f.buffer.StandsIn b distance) :
    (f.moveTo b distance).Accepted where
  header := hf.header
  inside := by
    have := h.size_le
    have := hf.inside
    rw [limit_moveTo]
    show _ ≤ b.size
    omega
  payload := (payloadChecks_moveTo h hf.inside).trans hf.payload

theorem padding_moveTo (h : f.buffer.StandsIn b distance)
    (hinside : f.limit ≤ f.buffer.size) :
    (f.moveTo b distance).padding = f.padding := by
  have hlength : (f.moveTo b distance).length = f.length := rfl
  rw [padding, padding, has_moveTo, padLength?, padLength?, hlength,
    payloadStart_moveTo]
  by_cases hzero : f.length = 0
  · rw [if_pos hzero, if_pos hzero]
  · rw [if_neg hzero, if_neg hzero]
    show (if _ then b.octet? _ else none) = _
    rw [octet?_payloadStart_moveTo h hinside hzero]

theorem number_moveTo (h : f.buffer.StandsIn b distance)
    (hinside : f.limit ≤ f.buffer.size) {start width : Nat}
    (hin : start + width ≤ f.length) :
    (f.moveTo b distance).number start width = f.number start width := by
  have hstop : f.payloadStart + start + width ≤ f.limit := by
    rw [limit]
    omega
  rw [number, number, payloadStart_moveTo,
    Nat.add_right_comm _ distance start, Nat.add_right_comm _ distance width]
  show BigEndian.decode (b.slice _ _) = _
  rw [h.slice (Nat.le_trans hstop hinside)]

theorem payload_moveTo (h : f.buffer.StandsIn b distance)
    (hinside : f.limit ≤ f.buffer.size) :
    (f.moveTo b distance).payload = f.payload := by
  show b.slice (f.moveTo b distance).payloadStart (f.moveTo b distance).limit
    = f.buffer.slice f.payloadStart f.limit
  rw [payloadStart_moveTo, limit_moveTo, h.slice hinside]

theorem octets_moveTo (h : f.buffer.StandsIn b distance)
    (hinside : f.limit ≤ f.buffer.size) :
    (f.moveTo b distance).octets = f.octets := by
  show b.slice (f.offset + distance) _ = f.buffer.slice f.offset _
  rw [limit_moveTo, h.slice hinside]

theorem content_moveTo (h : f.buffer.StandsIn b distance)
    (hinside : f.limit ≤ f.buffer.size) {least : Nat}
    (hchecks : runAll (paddingChecks f.buffer f.offset f.header least)
      = .ok ()) :
    (f.moveTo b distance).content = f.content.shift distance := by
  rw [content, content, has_moveTo]
  cases hp : f.has .padded with
  | false =>
      show (⟨_, _⟩ : Span) = ⟨_, _⟩
      rw [payloadStart_moveTo, limit_moveTo]
      rfl
  | true =>
      have hpass := passes_of_runAll hchecks
      have hpadded : Flag.padded.isSet f.header.flags = true := hp
      simp only [paddingChecks, hpadded, if_true, List.mem_cons,
        List.not_mem_nil, or_false, forall_eq_or_imp, forall_eq,
        decide_eq_true_eq] at hpass
      have hoctet := octet?_payloadStart_moveTo h hinside (by omega)
      have hsame : (f.moveTo b distance).paddingLength = f.paddingLength := by
        rw [paddingLength, paddingLength, payloadStart_moveTo]
        show ((b.octet? _).getD 0).toNat = _
        rw [hoctet]
      have hfits : f.paddingLength ≤ f.limit := by
        have hlimit : f.limit = f.offset + 9 + f.header.length := rfl
        have : ((f.buffer.octet? (f.offset + 9)).getD 0).toNat
          = f.paddingLength := rfl
        omega
      rw [if_pos rfl, if_pos rfl, hsame, payloadStart_moveTo, limit_moveTo,
        Span.shift, Nat.add_right_comm, Nat.sub_add_comm hfits]

theorem contentFront_moveTo (h : f.buffer.StandsIn b distance)
    (hinside : f.limit ≤ f.buffer.size) {least : Nat}
    (hchecks : runAll (paddingChecks f.buffer f.offset f.header least)
      = .ok ()) :
    (f.moveTo b distance).contentFront least = f.contentFront least := by
  obtain ⟨-, hleast, hstop⟩ := content_bounds hchecks
  rw [contentFront, contentFront, content_moveTo h hinside hchecks]
  show b.slice (f.content.start + distance) (f.content.start + distance + least)
    = _
  rw [Nat.add_right_comm, h.slice (by omega)]

theorem contentFrom_moveTo (h : f.buffer.StandsIn b distance)
    (hinside : f.limit ≤ f.buffer.size) {least : Nat}
    (hchecks : runAll (paddingChecks f.buffer f.offset f.header least) = .ok ())
    (count : Nat) :
    (f.moveTo b distance).contentFrom count
      = (f.contentFrom count).shift distance := by
  rw [contentFrom, contentFrom, content_moveTo h hinside hchecks, Span.shift,
    Span.shift, Nat.add_right_comm]

/-- What an accepted payload says does not depend on where it stands. -/
theorem interpret_moveTo (hf : f.Accepted) (h : f.buffer.StandsIn b distance) :
    (f.moveTo b distance).interpret = f.interpret.map (·.shift distance) := by
  have hinside := hf.inside
  have hchecks := hf.payload
  have hfixed := hf.fixedLength_le
  have htype : f.type = f.header.type := rfl
  have hpadding := padding_moveTo h hinside
  cases ht : f.header.type with
  | data =>
      simp only [payloadChecks, ht] at hchecks
      simp only [interpret, type_moveTo, htype, ht, hpadding,
        content_moveTo h hinside hchecks, Payload.map]
  | headers =>
      simp only [payloadChecks, ht] at hchecks
      have hflag : f.has .priority = Flag.priority.isSet f.header.flags := rfl
      simp only [interpret, type_moveTo, htype, ht, has_moveTo, hpadding]
      cases hp : f.has .priority with
      | false =>
          rw [hflag.symm.trans hp, if_neg Bool.false_ne_true] at hchecks
          simp only [Bool.false_eq_true, if_false,
            content_moveTo h hinside hchecks, Payload.map]
      | true =>
          rw [hflag.symm.trans hp, if_pos rfl] at hchecks
          simp only [if_true, contentFront_moveTo h hinside hchecks,
            contentFrom_moveTo h hinside hchecks, Payload.map]
  | pushPromise =>
      simp only [payloadChecks, ht] at hchecks
      simp only [interpret, type_moveTo, htype, ht, hpadding,
        contentFront_moveTo h hinside hchecks,
        contentFrom_moveTo h hinside hchecks, Payload.map]
  | priority | settings | ping =>
      simp only [interpret, type_moveTo, htype, ht, payload_moveTo h hinside,
        Payload.map]
  | rstStream | windowUpdate =>
      simp only [htype, ht, FrameType.fixedLength] at hfixed
      simp only [interpret, type_moveTo, htype, ht,
        number_moveTo h hinside (show 0 + 4 ≤ f.length by omega), Payload.map]
  | goAway =>
      simp only [htype, ht, FrameType.fixedLength] at hfixed
      simp only [interpret, type_moveTo, htype, ht, spanFrom,
        number_moveTo h hinside (show 0 + 4 ≤ f.length by omega),
        number_moveTo h hinside (show 4 + 4 ≤ f.length by omega),
        payloadStart_moveTo, limit_moveTo, Payload.map, Span.shift,
        Nat.add_right_comm _ distance 8]
  | continuation | unrecognized =>
      simp only [interpret, type_moveTo, htype, ht, payloadSpan,
        payloadStart_moveTo, limit_moveTo, Payload.map, Span.shift]

end RawFrame

namespace Frame

open Check RawFrame

-- ======================================================== step by step

/-- Below a bound that lies inside the buffer, only the room for the
header is left to be checked. -/
theorem runAll_regionChecks_of_le {size offset maxLimit : Nat}
    (hmax : maxLimit ≤ size) (hspace : offset + 9 < 2 ^ 64) :
    runAll (regionChecks size offset maxLimit)
      = requireEnd (offset + 9) maxLimit := by
  rw [← requireRoom_eq_runAll, requireRoom_eq, if_pos hmax, addressSpace,
    Header.width, if_pos (show offset + 9 < 1 <<< 64 by omega)]

/-- Reading below a bound that lies inside the buffer. The bound takes
part twice: the header must end before it, and so must the frame. -/
theorem read_eq_of_le {buffer : Buffer} {offset maxLimit : Nat}
    (hmax : maxLimit ≤ buffer.size) (hspace : offset + 9 < 2 ^ 64) :
    read buffer offset maxLimit
      = requireEnd (offset + 9) maxLimit >>= fun _ =>
        runAll (headerChecks (.readAt buffer offset)) >>= fun _ =>
        requireEnd (offset + 9 + (Header.readAt buffer offset).length) maxLimit
          >>= fun _ =>
        runAll (payloadChecks buffer offset (.readAt buffer offset))
          >>= fun _ => .ok (unchecked buffer offset) := by
  rw [read_eq_runAll, checks, runAll_append, runAll_append, runAll_append,
    runAll_regionChecks_of_le hmax hspace, ← requireEnd_eq_runAll, bind_assoc,
    bind_assoc, bind_assoc]

/-- A frame that is read ends inside the buffer, at or before the
bound. -/
theorem limit_le_of_read {buffer : Buffer} {offset maxLimit : Nat} {f : Frame}
    (h : read buffer offset maxLimit = .ok f) :
    f.raw.limit ≤ maxLimit ∧ maxLimit ≤ buffer.size := by
  obtain ⟨hrun, rfl⟩ := read_eq_ok_iff.mp h
  obtain ⟨hlimit, hmax, -, -⟩ := bounds_of_runAll hrun
  exact ⟨hlimit, hmax⟩

/-- What can be wrong with a header is that it is malformed, and not that
it has a type that was not asked for. -/
theorem malformed_of_headerChecks {h : Header} {e : Error}
    (he : runAll (headerChecks h) = .error e) :
    ∃ reason, e = .malformedFrame h.type reason
      ∧ ∀ code, reason ≠ .unexpectedType code := by
  obtain ⟨c, hc, rfl⟩ := mem_of_runAll he
  unfold headerChecks at hc
  split at hc <;> simp only [List.mem_cons, List.not_mem_nil, or_false] at hc
  all_goals
    rcases hc with rfl | rfl | rfl <;> exact ⟨_, rfl, nofun⟩

/-- What can be wrong with a payload is that it is malformed, and not that
it has a type that was not asked for. -/
theorem malformed_of_payloadChecks {buffer : Buffer} {offset : Nat}
    {h : Header} {e : Error}
    (he : runAll (payloadChecks buffer offset h) = .error e) :
    ∃ reason, e = .malformedFrame h.type reason
      ∧ ∀ code, reason ≠ .unexpectedType code := by
  obtain ⟨c, hc, rfl⟩ := mem_of_runAll he
  have hpadding : ∀ least, c ∈ paddingChecks buffer offset h least →
      ∃ reason, c.error = .malformedFrame h.type reason
        ∧ ∀ code, reason ≠ .unexpectedType code := by
    intro least hc
    unfold paddingChecks at hc
    split at hc <;> simp only [List.mem_cons, List.not_mem_nil, or_false] at hc
    · rcases hc with rfl | rfl <;> exact ⟨_, rfl, nofun⟩
    · rw [hc]
      exact ⟨_, rfl, nofun⟩
  unfold payloadChecks at hc
  split at hc
  case h_4 =>
    obtain ⟨i, -, rfl⟩ := List.mem_map.mp hc
    exact ⟨_, rfl, nofun⟩
  case h_5 => cases hc
  all_goals exact hpadding _ hc

-- ============================================================= verdicts

/-- The ways in which reading below a bound inside the buffer can turn
out: the header is not there in full, it breaks a rule, the payload is
not there in full, it breaks a rule, or there is a frame. -/
inductive Verdict (buffer : Buffer) (offset maxLimit : Nat) :
    Except Error Frame → Prop
  | headerCutOff (hcut : maxLimit < offset + 9) :
      Verdict buffer offset maxLimit
        (.error (.bufferOverrun (offset + 9) maxLimit))
  | headerMalformed {reason : Malformed} (hroom : offset + 9 ≤ maxLimit)
      (hheader : runAll (headerChecks (.readAt buffer offset))
        = .error (.malformedFrame (Header.readAt buffer offset).type reason)) :
      Verdict buffer offset maxLimit
        (.error (.malformedFrame (Header.readAt buffer offset).type reason))
  | payloadCutOff (hroom : offset + 9 ≤ maxLimit)
      (hheader : runAll (headerChecks (.readAt buffer offset)) = .ok ())
      (hcut : maxLimit < (unchecked buffer offset).raw.limit) :
      Verdict buffer offset maxLimit
        (.error (.bufferOverrun (unchecked buffer offset).raw.limit maxLimit))
  | payloadMalformed {reason : Malformed} (hroom : offset + 9 ≤ maxLimit)
      (hheader : runAll (headerChecks (.readAt buffer offset)) = .ok ())
      (hend : (unchecked buffer offset).raw.limit ≤ maxLimit)
      (hpayload : runAll (payloadChecks buffer offset (.readAt buffer offset))
        = .error (.malformedFrame (Header.readAt buffer offset).type reason)) :
      Verdict buffer offset maxLimit
        (.error (.malformedFrame (Header.readAt buffer offset).type reason))
  | accepted (hroom : offset + 9 ≤ maxLimit)
      (hend : (unchecked buffer offset).raw.limit ≤ maxLimit)
      (hframe : (unchecked buffer offset).raw.Accepted) :
      Verdict buffer offset maxLimit (.ok (unchecked buffer offset))

/-- Reading turns out in one of these ways. -/
theorem verdict_read {buffer : Buffer} {offset maxLimit : Nat}
    (hmax : maxLimit ≤ buffer.size) (hspace : offset + 9 < 2 ^ 64) :
    Verdict buffer offset maxLimit (read buffer offset maxLimit) := by
  rw [read_eq_of_le hmax hspace]
  by_cases hroom : offset + 9 ≤ maxLimit
  case neg =>
    rw [requireEnd_of_lt (by omega)]
    exact .headerCutOff (by omega)
  case pos =>
    rw [requireEnd_of_le hroom]
    cases hheader : runAll (headerChecks (.readAt buffer offset)) with
    | error e =>
        obtain ⟨reason, rfl, -⟩ := malformed_of_headerChecks hheader
        exact .headerMalformed hroom hheader
    | ok u =>
        by_cases hend : offset + 9 + (Header.readAt buffer offset).length
            ≤ maxLimit
        case neg =>
          rw [requireEnd_of_lt (by omega)]
          exact .payloadCutOff hroom hheader (Nat.lt_of_not_le hend)
        case pos =>
          rw [requireEnd_of_le hend]
          cases hpayload : runAll
              (payloadChecks buffer offset (.readAt buffer offset)) with
          | error e =>
              obtain ⟨reason, rfl, -⟩ := malformed_of_payloadChecks hpayload
              exact .payloadMalformed hroom hheader hend hpayload
          | ok u =>
              exact .accepted hroom hend
                ⟨hheader, Nat.le_trans hend hmax, hpayload⟩

/-- There is only one way in which reading can turn out. -/
theorem read_of_verdict {buffer : Buffer} {offset maxLimit : Nat}
    {outcome : Except Error Frame} (hmax : maxLimit ≤ buffer.size)
    (hspace : offset + 9 < 2 ^ 64)
    (h : Verdict buffer offset maxLimit outcome) :
    read buffer offset maxLimit = outcome := by
  have hlimit : (unchecked buffer offset).raw.limit
      = offset + 9 + (Header.readAt buffer offset).length := rfl
  rw [read_eq_of_le hmax hspace]
  cases h with
  | headerCutOff hcut =>
      rw [requireEnd_of_lt hcut]
      rfl
  | headerMalformed hroom hheader =>
      rw [requireEnd_of_le hroom, hheader]
      rfl
  | payloadCutOff hroom hheader hcut =>
      rw [requireEnd_of_le hroom, hheader, ← hlimit, requireEnd_of_lt hcut]
      rfl
  | payloadMalformed hroom hheader hend hpayload =>
      rw [requireEnd_of_le hroom, hheader, ← hlimit, requireEnd_of_le hend,
        hpayload]
      rfl
  | accepted hroom hend hframe =>
      have hheader : runAll (headerChecks (.readAt buffer offset)) = .ok () :=
        hframe.header
      have hpayload : runAll
          (payloadChecks buffer offset (.readAt buffer offset)) = .ok () :=
        hframe.payload
      rw [requireEnd_of_le hroom, hheader, ← hlimit, requireEnd_of_le hend,
        hpayload]
      rfl

-- =============================================================== moving

variable {p b : Buffer} {distance : Nat}

theorem moved_of_accepted {f : RawFrame} (hf : f.Accepted)
    (h : f.buffer.StandsIn b distance) :
    Moved distance ⟨f, f.interpret⟩
      ⟨f.moveTo b distance, (f.moveTo b distance).interpret⟩ where
  offset := rfl
  limit := limit_moveTo f b distance
  header := rfl
  payload := interpret_moveTo hf h
  contents := by
    show (f.moveTo b distance).interpret.map b.part
      = f.interpret.map f.buffer.part
    rw [interpret_moveTo hf h, Payload.map_map]
    apply Payload.map_congr
    intro s hs
    exact h.part (Nat.le_trans (part_stop_le hs) hf.inside)
  octets := octets_moveTo h hf.inside

/-- A header that is there in full is the same header wherever it
stands. -/
theorem unchecked_shift (h : p.StandsIn b distance) {offset : Nat}
    (hin : offset + 9 ≤ p.size) :
    (unchecked b (offset + distance)).raw
      = (unchecked p offset).raw.moveTo b distance := by
  have hsize := h.size_le
  have hb : offset + distance + Header.width ≤ b.size := by
    simp only [Header.width]
    omega
  have hp : offset + Header.width ≤ p.size := hin
  have hheader : Header.readAt b (offset + distance)
      = Header.readAt p offset := by
    rw [← Header.decode_slice hb, ← Header.decode_slice hp,
      Nat.add_right_comm offset distance, h.slice hp]
  rw [unchecked, hheader]
  rfl

/-- Reading in a part of a buffer is reading in the buffer, further
on. -/
theorem read_shift (h : p.StandsIn b distance) {offset maxLimit : Nat}
    (hmax : maxLimit ≤ p.size) (hspace : offset + distance + 9 < 2 ^ 64) :
    ItemMoved distance (read p offset maxLimit)
      (read b (offset + distance) (maxLimit + distance)) := by
  have hsize := h.size_le
  have hread := verdict_read hmax (show offset + 9 < 2 ^ 64 by omega)
  have hmoved : ∀ outcome, Verdict b (offset + distance) (maxLimit + distance)
      outcome → read b (offset + distance) (maxLimit + distance) = outcome := by
    intro outcome
    exact read_of_verdict (by omega) hspace
  have hraw : offset + 9 ≤ maxLimit → (unchecked b (offset + distance)).raw
      = (unchecked p offset).raw.moveTo b distance := by
    intro hroom
    exact unchecked_shift h (Nat.le_trans hroom hmax)
  have hheaders : offset + 9 ≤ maxLimit →
      Header.readAt b (offset + distance) = Header.readAt p offset := by
    intro hroom
    exact congrArg RawFrame.header (hraw hroom)
  have hlimit : offset + 9 ≤ maxLimit →
      (unchecked b (offset + distance)).raw.limit
        = (unchecked p offset).raw.limit + distance := by
    intro hroom
    rw [hraw hroom, limit_moveTo]
  have hpayloads : (unchecked p offset).raw.limit ≤ maxLimit →
      runAll (payloadChecks b (offset + distance) (.readAt p offset))
        = runAll (payloadChecks p offset (.readAt p offset)) := by
    intro hend
    exact @payloadChecks_moveTo (unchecked p offset).raw _ _ h
      (Nat.le_trans hend hmax)
  generalize read p offset maxLimit = outcome at hread
  cases hread with
  | headerCutOff hcut =>
      rw [hmoved _ (.headerCutOff (by omega)), Nat.add_right_comm]
      exact .error (.bufferOverrun (offset + 9) maxLimit)
  | @headerMalformed reason hroom hheader =>
      rw [← hheaders hroom] at hheader ⊢
      rw [hmoved _ (.headerMalformed (by omega) hheader)]
      exact .error (.malformedFrame _ reason)
  | payloadCutOff hroom hheader hcut =>
      rw [← hheaders hroom] at hheader
      have hlimit := hlimit hroom
      rw [hmoved _ (.payloadCutOff (by omega) hheader (by omega)), hlimit]
      exact .error (.bufferOverrun _ maxLimit)
  | @payloadMalformed reason hroom hheader hend hpayload =>
      rw [← hpayloads hend] at hpayload
      rw [← hheaders hroom] at hheader hpayload ⊢
      have hlimit := hlimit hroom
      rw [hmoved _ (.payloadMalformed (by omega) hheader (by omega) hpayload)]
      exact .error (.malformedFrame _ reason)
  | accepted hroom hend hframe =>
      have hlimit := hlimit hroom
      have hmoves := moved_of_accepted hframe h
      have haccepted := hframe.moveTo h
      rw [← hraw hroom] at hmoves haccepted
      rw [hmoved _ (.accepted (by omega) (by omega) haccepted)]
      exact .ok hmoves

-- ======================================================= raising the bound

variable {buffer : Buffer} {offset maxLimit larger : Nat}

/-- What has been made of a frame does not change when the bound is
raised. -/
theorem read_of_le (hle : maxLimit ≤ larger) (hlarger : larger ≤ buffer.size)
    (hspace : offset + 9 < 2 ^ 64) :
    (∀ f, read buffer offset maxLimit = .ok f →
        read buffer offset larger = .ok f)
      ∧ ∀ type reason, read buffer offset maxLimit
          = .error (.malformedFrame type reason) →
        read buffer offset larger = .error (.malformedFrame type reason) := by
  have hread := verdict_read (Nat.le_trans hle hlarger) hspace
  have hlater : ∀ outcome, Verdict buffer offset larger outcome →
      read buffer offset larger = outcome := by
    intro outcome
    exact read_of_verdict hlarger hspace
  generalize read buffer offset maxLimit = outcome at hread
  cases hread with
  | headerCutOff hcut => exact ⟨nofun, nofun⟩
  | payloadCutOff hroom hheader hcut => exact ⟨nofun, nofun⟩
  | headerMalformed hroom hheader =>
      refine ⟨nofun, ?_⟩
      intro type reason h
      rw [← h]
      exact hlater _ (.headerMalformed (Nat.le_trans hroom hle) hheader)
  | payloadMalformed hroom hheader hend hpayload =>
      refine ⟨nofun, ?_⟩
      intro type reason h
      rw [← h]
      exact hlater _ (.payloadMalformed (Nat.le_trans hroom hle) hheader
        (Nat.le_trans hend hle) hpayload)
  | accepted hroom hend hframe =>
      refine ⟨?_, nofun⟩
      intro f h
      rw [← h]
      exact hlater _ (.accepted (Nat.le_trans hroom hle)
        (Nat.le_trans hend hle) hframe)

/-- A frame that is cut off waits for the same end until it is
reached. -/
theorem read_of_overrun {limit bound : Nat} (hmax : maxLimit ≤ buffer.size)
    (hspace : offset + 9 < 2 ^ 64)
    (h : read buffer offset maxLimit = .error (.bufferOverrun limit bound)) :
    bound = maxLimit ∧ maxLimit < limit
      ∧ ∀ larger, maxLimit ≤ larger → larger < limit → larger ≤ buffer.size →
        read buffer offset larger = .error (.bufferOverrun limit larger) := by
  have hread := verdict_read hmax hspace
  rw [h] at hread
  cases hread with
  | headerCutOff hcut =>
      refine ⟨rfl, hcut, ?_⟩
      intro larger _ hlarger hsize
      exact read_of_verdict hsize hspace (.headerCutOff hlarger)
  | payloadCutOff hroom hheader hcut =>
      refine ⟨rfl, hcut, ?_⟩
      intro larger hle hlarger hsize
      exact read_of_verdict hsize hspace
        (.payloadCutOff (Nat.le_trans hroom hle) hheader hlarger)

end Frame

end Http2
