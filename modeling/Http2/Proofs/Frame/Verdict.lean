/-
The verdict on a frame, as a list of checks.

`checks` writes down everything that is demanded of the octets at an
offset, in the order in which it is demanded, each with the error that
failing it is reported as. It is put in terms of the octets alone: the
header fields are read one by one, and the parameters of a SETTINGS frame
are taken by their position.

`read_verdict` says that reading a frame is running this list: the first
check that fails is the error, and if none fails there is a frame with
the type, the offset and the limit that the header tells. Nothing else
can go wrong: the header block inside the frame can always be read.
-/
import Http2.Frame
import Http2.Proofs.Calls
import Http2.Proofs.Frame.Header
import Http2.Proofs.Settings.Parameters

namespace Http2

-- =============================================================== checks

/-- A check, and the error that failing it is reported as. -/
structure Check where
  passes : Bool
  error : Error

namespace Check

/-- The error of the first check that fails. -/
def firstFailure : List Check → Option Error
  | [] => none
  | c :: cs => if c.passes then firstFailure cs else some c.error

/-- Runs checks one after the other, up to the first that fails. -/
def runAll (cs : List Check) : Except Error Unit :=
  match firstFailure cs with
  | none => .ok ()
  | some e => .error e

@[simp] theorem runAll_nil : runAll [] = .ok () := rfl

theorem runAll_cons (c : Check) (cs : List Check) :
    runAll (c :: cs) = if c.passes then runAll cs else .error c.error := by
  cases hc : c.passes <;> simp [runAll, firstFailure, hc]

/-- Running two lists in a row is running one behind the other. -/
theorem runAll_append (cs ds : List Check) :
    runAll (cs ++ ds) = runAll cs >>= fun _ => runAll ds := by
  induction cs with
  | nil => rfl
  | cons c cs ih =>
      rw [List.cons_append, runAll_cons, runAll_cons, ih]
      split <;> rfl

/-- A run that went through has passed every check. -/
theorem passes_of_runAll {cs : List Check} (h : runAll cs = .ok ()) :
    ∀ c ∈ cs, c.passes = true := by
  induction cs with
  | nil => intro c hc; cases hc
  | cons d cs ih =>
      rw [runAll_cons] at h
      split at h
      case isFalse => cases h
      case isTrue hd =>
        intro c hc
        rcases List.mem_cons.mp hc with rfl | hc
        · exact hd
        · exact ih h c hc

theorem runAll_of_passes {cs : List Check} (h : ∀ c ∈ cs, c.passes = true) :
    runAll cs = .ok () := by
  induction cs with
  | nil => rfl
  | cons d cs ih =>
      obtain ⟨hd, hcs⟩ := List.forall_mem_cons.mp h
      rw [runAll_cons, if_pos hd, ih hcs]

/-- What a run reports is the error of one of its checks. -/
theorem mem_of_runAll {cs : List Check} {e : Error} (h : runAll cs = .error e) :
    ∃ c ∈ cs, c.error = e := by
  induction cs with
  | nil => cases h
  | cons d cs ih =>
      rw [runAll_cons] at h
      split at h
      case isFalse =>
        cases h
        exact ⟨d, List.mem_cons_self, rfl⟩
      case isTrue =>
        obtain ⟨c, hc, he⟩ := ih h
        exact ⟨c, List.mem_cons_of_mem d hc, he⟩

end Check

namespace Frame

-- ================================================== what is demanded

/-- The header must be addressable below the bound, and the bound must
lie inside the buffer. -/
def regionChecks (size offset maxLimit : Nat) : List Check :=
  [⟨maxLimit ≤ size, .bufferOverrun maxLimit size⟩,
    ⟨offset + 9 < 2 ^ 64, .invalidArgument .offsetOverflows⟩,
    ⟨offset + 9 ≤ maxLimit, .bufferOverrun (offset + 9) maxLimit⟩]

/-- The frame must name no stream. -/
def noStreamCheck (h : Header) : Check :=
  ⟨h.streamId == 0, .malformedFrame h.type (.streamIdMustBeZero h.streamId)⟩

/-- The frame must name a stream. -/
def streamCheck (h : Header) : Check :=
  ⟨h.streamId != 0, .malformedFrame h.type .streamIdMustBeNonZero⟩

/-- The payload length must be a legal one. -/
def lengthCheck (h : Header) (legal : Bool) : Check :=
  ⟨legal, .malformedFrame h.type (.invalidLength h.length)⟩

/-- An acknowledgement of settings must be empty. -/
def emptyAckCheck (h : Header) : Check :=
  ⟨!Flag.ack.isSet h.flags || h.length == 0,
    .malformedFrame h.type .ackWithPayload⟩

/-- What is demanded of the header, whatever follows it. -/
def headerChecks (h : Header) : List Check :=
  match h.type with
  | .data | .headers | .pushPromise | .continuation => [streamCheck h]
  | .priority => [streamCheck h, lengthCheck h (h.length == 5)]
  | .rstStream => [streamCheck h, lengthCheck h (h.length == 4)]
  | .settings =>
    [noStreamCheck h, emptyAckCheck h, lengthCheck h (h.length % 6 == 0)]
  | .ping => [noStreamCheck h, lengthCheck h (h.length == 8)]
  | .goAway => [noStreamCheck h, lengthCheck h (8 ≤ h.length)]
  | .windowUpdate => [lengthCheck h (h.length == 4)]
  | .unrecognized => []

/-- The frame must end at or before the bound. -/
def endCheck (limit maxLimit : Nat) : Check :=
  ⟨limit ≤ maxLimit, .bufferOverrun limit maxLimit⟩

/-- Besides `least` octets the payload must hold the pad length and the
padding, if the frame is padded. -/
def paddingChecks (buffer : Buffer) (offset : Nat) (h : Header) (least : Nat) :
    List Check :=
  let padding := (buffer.octet? (offset + 9)).getD 0
  if Flag.padded.isSet h.flags then
    [⟨0 < h.length, .malformedFrame h.type (.invalidLength 0)⟩,
      ⟨1 + least + padding.toNat ≤ h.length,
        .malformedFrame h.type (.invalidPadding padding)⟩]
  else [lengthCheck h (least ≤ h.length)]

/-- The parameter at a position of a SETTINGS frame. -/
def parameterAt (buffer : Buffer) (offset i : Nat) : Parameter :=
  .decode (buffer.slice (offset + 9 + i * 6) (offset + 9 + i * 6 + 6))

/-- A parameter must have a legal value. -/
def parameterCheck (h : Header) (p : Parameter) : Check :=
  ⟨p.isLegal, .malformedFrame h.type (.invalidSetting p)⟩

/-- What is demanded of the payload of a frame that is there in full. -/
def payloadChecks (buffer : Buffer) (offset : Nat) (h : Header) : List Check :=
  match h.type with
  | .data => paddingChecks buffer offset h 0
  | .headers =>
    paddingChecks buffer offset h (if Flag.priority.isSet h.flags then 5 else 0)
  | .pushPromise => paddingChecks buffer offset h 4
  | .settings =>
    (List.range (h.length / 6)).map fun i =>
      parameterCheck h (parameterAt buffer offset i)
  | _ => []

/-- Everything that is demanded of the frame at an offset, in order. -/
def checks (buffer : Buffer) (offset maxLimit : Nat) : List Check :=
  let h := Header.readAt buffer offset
  regionChecks buffer.size offset maxLimit ++ headerChecks h
    ++ [endCheck (offset + 9 + h.length) maxLimit]
    ++ payloadChecks buffer offset h

-- ===================================================== reading by checks

open Check

theorem requireEnd_eq_runAll (limit maxLimit : Nat) :
    requireEnd limit maxLimit = runAll [endCheck limit maxLimit] := by
  rw [requireEnd, endCheck, runAll_cons, runAll_nil]
  simp only [decide_eq_true_eq]

theorem requireRoom_eq_runAll (size offset maxLimit : Nat) :
    requireRoom size offset maxLimit Header.width
      = runAll (regionChecks size offset maxLimit) := by
  rw [requireRoom_eq, regionChecks, runAll_cons, runAll_cons, runAll_cons,
    runAll_nil]
  simp only [decide_eq_true_eq]
  rfl

/-- Locating a frame is checking its region; the header that is found is
the one that is read field by field. -/
theorem locate_eq_runAll (buffer : Buffer) (offset maxLimit : Nat) :
    RawFrame.locate buffer offset maxLimit
      = runAll (regionChecks buffer.size offset maxLimit) >>= fun _ =>
        .ok ⟨buffer, offset, .readAt buffer offset⟩ := by
  rw [RawFrame.locate, requireRoom_eq_runAll]
  cases hrun : runAll (regionChecks buffer.size offset maxLimit) with
  | error e => rfl
  | ok u =>
      have hpass := passes_of_runAll hrun
      simp only [regionChecks, List.mem_cons, List.not_mem_nil, or_false,
        forall_eq_or_imp, forall_eq, decide_eq_true_eq] at hpass
      obtain ⟨hsize, -, hroom⟩ := hpass
      have hheader : offset + Header.width ≤ buffer.size := by
        simp only [Header.width]
        omega
      show Except.ok _ = Except.ok _
      rw [Header.decode_slice hheader]

variable (f : RawFrame)

/-- The rules that a header can break on its own are the checks of its
type. -/
theorem requireHeader_eq_runAll :
    (f.requireScope >>= fun _ => f.requireLength)
      = runAll (headerChecks f.header) := by
  cases ht : f.header.type <;>
    simp only [RawFrame.requireScope, RawFrame.requireLength,
      RawFrame.hasLegalLength, RawFrame.malformed, RawFrame.type,
      RawFrame.length, RawFrame.has, ht, headerChecks, runAll_cons,
      runAll_nil, streamCheck, noStreamCheck, lengthCheck, emptyAckCheck,
      FrameType.isConnectionScoped, FrameType.isStreamScoped,
      FrameType.fixedLength, Parameter.width] <;>
    cases hid : (f.header.streamId == 0) <;>
    simp [bne, hid, bind, Except.bind]
  by_cases hack : Flag.ack.isSet f.header.flags <;>
    by_cases hlen : f.header.length = 0 <;> simp [hack, hlen]

end Frame

-- ======================================== what a payload says, unchecked

namespace RawFrame

/-- The number of padding octets, if the frame is padded at all. -/
def paddingLength (f : RawFrame) : Nat :=
  ((f.buffer.octet? f.payloadStart).getD 0).toNat

/-- What is between the pad length and the padding, unchecked. -/
def content (f : RawFrame) : Span :=
  if f.has .padded then ⟨f.payloadStart + 1, f.limit - f.paddingLength⟩
  else f.payloadSpan

/-- What is left of the content behind its first octets, unchecked. -/
def contentFrom (f : RawFrame) (count : Nat) : Span :=
  ⟨f.content.start + count, f.content.stop⟩

/-- The first octets of the content, unchecked. -/
def contentFront (f : RawFrame) (count : Nat) : List UInt8 :=
  f.buffer.slice f.content.start (f.content.start + count)

/-- What the payload says if there is nothing wrong with it. -/
def interpret (f : RawFrame) : Payload Span :=
  match f.type with
  | .data => .data f.padding f.content
  | .headers =>
    if f.has .priority then
      .headers f.padding (some (.decode (f.contentFront 5))) (f.contentFrom 5)
    else .headers f.padding none f.content
  | .priority => .priority (.decode f.payload)
  | .rstStream => .rstStream (.ofNat (f.number 0 4))
  | .settings => .settings ⟨f.payload⟩
  | .pushPromise =>
    .pushPromise f.padding (maskStreamId (BigEndian.decode (f.contentFront 4)))
      (f.contentFrom 4)
  | .ping => .ping f.payload
  | .goAway =>
    .goAway (maskStreamId (f.number 0 4)) (.ofNat (f.number 4 4)) (f.spanFrom 8)
  | .windowUpdate => .windowUpdate (maskStreamId (f.number 0 4))
  | .continuation => .continuation f.payloadSpan
  | .unrecognized => .unrecognized f.payloadSpan

/-- The payload is of the type that the header names. -/
theorem type_interpret (f : RawFrame) : f.interpret.type = f.type := by
  unfold interpret
  split
  case h_2 ht => split <;> rw [ht] <;> rfl
  all_goals rename_i ht; rw [ht]; rfl

open Check Http2.Frame

/-- Stripping the padding is checking it, for a frame that is there in
full. -/
theorem contentSpan_eq_runAll {f : RawFrame} (hend : f.limit ≤ f.buffer.size)
    (least : Nat) :
    f.contentSpan least
      = runAll (paddingChecks f.buffer f.offset f.header least) >>= fun _ =>
        .ok f.content := by
  have hpadded : f.has .padded = Flag.padded.isSet f.header.flags := rfl
  cases hp : Flag.padded.isSet f.header.flags with
  | false =>
      rw [contentSpan, content, paddingChecks, hpadded, hp]
      by_cases hleast : least ≤ f.header.length
      · simp [lengthCheck, runAll_cons, hleast, RawFrame.length, bind,
          Except.bind]
      · simp [lengthCheck, runAll_cons, hleast, RawFrame.length, bind,
          Except.bind, malformed, RawFrame.type]
  | true =>
      rw [contentSpan, content, paddingChecks, hpadded, hp]
      by_cases hempty : f.header.length = 0
      · have hnone : f.padLength? = none := by
          rw [padLength?, RawFrame.length, if_pos hempty]
        simp [hnone, hempty, runAll_cons, bind, Except.bind, malformed,
          RawFrame.type]
      · have hin : f.payloadStart < f.buffer.bytes.size := by
          simp only [limit, RawFrame.length] at hend
          have : f.buffer.size = f.buffer.bytes.size := rfl
          omega
        have hoctet : f.buffer.octet? f.payloadStart
            = some (f.buffer.bytes[f.payloadStart]) := by
          rw [Buffer.octet?, dif_pos hin]
        have hsome : f.padLength? = some (f.buffer.bytes[f.payloadStart]) := by
          rw [padLength?, RawFrame.length, if_neg hempty, hoctet]
        have hstart : f.offset + 9 = f.payloadStart := rfl
        rw [hsome, hstart, hoctet]
        by_cases hroom : 1 + least
            + (f.buffer.bytes[f.payloadStart]).toNat ≤ f.header.length
        · simp [runAll_cons, RawFrame.length, hroom, Nat.pos_of_ne_zero hempty,
            bind, Except.bind, paddingLength, hoctet]
        · simp [runAll_cons, RawFrame.length, hroom, Nat.pos_of_ne_zero hempty,
            bind, Except.bind, malformed, RawFrame.type]

/-- Parameters are checked up to the first illegal one. -/
theorem runAll_parameterCheck (h : Header) (ps : List Parameter) :
    runAll (ps.map (parameterCheck h))
      = match ps.find? fun p => !p.isLegal with
        | none => .ok ()
        | some p => .error (.malformedFrame h.type (.invalidSetting p)) := by
  induction ps with
  | nil => rfl
  | cons p ps ih =>
      rw [List.map_cons, runAll_cons, ih]
      cases hp : p.isLegal <;> simp [parameterCheck, hp]

theorem length_payload {f : RawFrame} (hend : f.limit ≤ f.buffer.size) :
    f.payload.length = f.header.length := by
  show (f.buffer.slice f.payloadStart f.limit).length = _
  rw [Buffer.length_slice hend, limit, Nat.add_sub_cancel_left]
  rfl

/-- The parameters of a payload are those at their addresses. -/
theorem toList_payload {f : RawFrame} (hend : f.limit ≤ f.buffer.size) :
    (⟨f.payload⟩ : Parameters).toList
      = (List.range (f.header.length / 6)).map
          (parameterAt f.buffer f.offset) := by
  have hcount : (⟨f.payload⟩ : Parameters).remaining = f.header.length / 6 := by
    rw [Parameters.remaining, length_payload hend]
    rfl
  rw [Parameters.toList_eq, hcount]
  apply List.map_congr_left
  intro i hi
  have hi : i * 6 + 6 ≤ f.header.length := by
    have := List.mem_range.mp hi
    omega
  have hstop : f.limit
      = f.offset + 9 + i * 6 + (f.header.length - i * 6) := by
    simp only [limit, payloadStart, Header.width, RawFrame.length]
    omega
  rw [Parameters.atIndex, Parameter.width, payload, Buffer.part,
    Buffer.drop_slice, parameterAt, payloadSpan, payloadStart, Header.width,
    hstop, Buffer.take_slice _ _ (by omega)]

/-- Reading the payload of a frame that is there in full is checking it. -/
theorem readPayload_eq_runAll {f : RawFrame} (hend : f.limit ≤ f.buffer.size) :
    f.readPayload
      = runAll (payloadChecks f.buffer f.offset f.header) >>= fun _ =>
        .ok f.interpret := by
  have htype : ∀ t, f.header.type = t → f.type = t := fun t ht => ht
  cases ht : f.header.type with
  | data =>
      simp only [readPayload, interpret, payloadChecks, htype _ ht, ht,
        readData, contentSpan_eq_runAll hend]
      cases runAll (paddingChecks f.buffer f.offset f.header 0) <;> rfl
  | headers =>
      simp only [readPayload, interpret, payloadChecks, htype _ ht, ht,
        readHeaders, contentSpan_eq_runAll hend, Priority.width]
      have hflag : f.has .priority = Flag.priority.isSet f.header.flags := rfl
      cases hp : Flag.priority.isSet f.header.flags with
      | false =>
          simp only [hflag, hp, Bool.false_eq_true, if_false]
          cases runAll (paddingChecks f.buffer f.offset f.header 0) <;> rfl
      | true =>
          simp only [hflag, hp, if_true]
          cases runAll (paddingChecks f.buffer f.offset f.header 5) <;> rfl
  | pushPromise =>
      simp only [readPayload, interpret, payloadChecks, htype _ ht, ht,
        readPushPromise, contentSpan_eq_runAll hend, FrameType.fixedLength]
      cases runAll (paddingChecks f.buffer f.offset f.header 4) <;> rfl
  | settings =>
      simp only [readPayload, interpret, payloadChecks, htype _ ht, ht,
        readSettings, Parameters.find?_eq, toList_payload hend]
      have hmap : (List.range (f.header.length / 6)).map
          (fun i => parameterCheck f.header
            (parameterAt f.buffer f.offset i))
          = ((List.range (f.header.length / 6)).map
              (parameterAt f.buffer f.offset)).map
              (parameterCheck f.header) := by
        rw [List.map_map]
        rfl
      rw [hmap, runAll_parameterCheck]
      cases ((List.range (f.header.length / 6)).map
        (parameterAt f.buffer f.offset)).find? (fun p => !p.isLegal) with
      | none => rfl
      | some p =>
          show Except.error (f.malformed _) = Except.error _
          rw [malformed, htype _ ht, ht]
  | _ =>
      simp only [readPayload, interpret, payloadChecks, htype _ ht, ht]
      rfl

/-- Checked content lies inside the payload and has room for what it
must hold. -/
theorem content_bounds {f : RawFrame} {least : Nat}
    (h : runAll (paddingChecks f.buffer f.offset f.header least) = .ok ()) :
    f.payloadStart ≤ f.content.start
      ∧ f.content.start + least ≤ f.content.stop
      ∧ f.content.stop ≤ f.limit := by
  have hpass := passes_of_runAll h
  have hpadded : f.has .padded = Flag.padded.isSet f.header.flags := rfl
  have hlimit : f.limit = f.payloadStart + f.header.length := rfl
  cases hp : Flag.padded.isSet f.header.flags with
  | false =>
      simp only [paddingChecks, hp, Bool.false_eq_true, if_false, lengthCheck,
        List.mem_singleton, forall_eq, decide_eq_true_eq] at hpass
      rw [content, hpadded, hp, if_neg Bool.false_ne_true]
      show f.payloadStart ≤ f.payloadStart
        ∧ f.payloadStart + least ≤ f.limit ∧ f.limit ≤ f.limit
      omega
  | true =>
      simp only [paddingChecks, hp, if_true, List.mem_cons, List.not_mem_nil,
        or_false, forall_eq_or_imp, forall_eq, decide_eq_true_eq] at hpass
      rw [content, hpadded, hp, if_pos rfl]
      have hpadding : ((f.buffer.octet? (f.offset + 9)).getD 0).toNat
          = f.paddingLength := rfl
      show f.payloadStart ≤ f.payloadStart + 1
        ∧ f.payloadStart + 1 + least ≤ f.limit - f.paddingLength
        ∧ f.limit - f.paddingLength ≤ f.limit
      omega

/-- A header block of a checked frame lies inside the payload. -/
theorem block_bounds {f : RawFrame} {block : Span}
    (h : runAll (payloadChecks f.buffer f.offset f.header) = .ok ())
    (hblock : f.interpret.block? = some block) :
    f.payloadStart ≤ block.start ∧ block.start ≤ block.stop
      ∧ block.stop ≤ f.limit := by
  have htype : ∀ t, f.header.type = t → f.type = t := fun t ht => ht
  cases ht : f.header.type with
  | headers =>
      have hflag : f.has .priority = Flag.priority.isSet f.header.flags := rfl
      simp only [interpret, htype _ ht] at hblock
      simp only [payloadChecks, ht] at h
      cases hp : Flag.priority.isSet f.header.flags with
      | false =>
          simp only [hflag, hp, Bool.false_eq_true, if_false] at hblock h
          cases hblock
          have := content_bounds h
          omega
      | true =>
          simp only [hflag, hp, if_true] at hblock h
          cases hblock
          have := content_bounds h
          simp only [contentFrom]
          omega
  | pushPromise =>
      simp only [interpret, htype _ ht] at hblock
      simp only [payloadChecks, ht] at h
      cases hblock
      have := content_bounds h
      simp only [contentFrom]
      omega
  | continuation =>
      simp only [interpret, htype _ ht] at hblock
      cases hblock
      simp only [payloadSpan, limit]
      omega
  | _ =>
      simp only [interpret, htype _ ht] at hblock
      cases hblock

end RawFrame

namespace Frame

open Check

-- ====================================================== the whole frame

/-- The checks on a frame whose header has been located. -/
def locatedChecks (buffer : Buffer) (offset : Nat) (h : Header)
    (maxLimit : Nat) : List Check :=
  headerChecks h ++ [endCheck (offset + 9 + h.length) maxLimit]
    ++ payloadChecks buffer offset h

/-- Going on from a located header is running its checks. -/
theorem ofRaw_eq_runAll {raw : RawFrame} {maxLimit : Nat}
    (hmax : maxLimit ≤ raw.buffer.size) :
    ofRaw raw maxLimit
      = runAll (locatedChecks raw.buffer raw.offset raw.header maxLimit)
          >>= fun _ => .ok ⟨raw, raw.interpret⟩ := by
  have hsteps : ofRaw raw maxLimit
      = (raw.requireScope >>= fun _ => raw.requireLength) >>= fun _ =>
          requireEnd raw.limit maxLimit >>= fun _ =>
            raw.readPayload >>= fun payload => .ok ⟨raw, payload⟩ := by
    rw [bind_assoc]
    rfl
  rw [hsteps, requireHeader_eq_runAll, locatedChecks, runAll_append,
    runAll_append, requireEnd_eq_runAll]
  cases runAll (headerChecks raw.header) with
  | error e => rfl
  | ok u =>
      have hlimit : raw.offset + 9 + raw.header.length = raw.limit := rfl
      rw [hlimit]
      by_cases hend : raw.limit ≤ maxLimit
      · rw [RawFrame.readPayload_eq_runAll (Nat.le_trans hend hmax)]
        simp only [runAll_cons, endCheck, hend, decide_true, if_true]
        cases runAll (payloadChecks raw.buffer raw.offset raw.header) <;> rfl
      · simp only [runAll_cons, endCheck, hend, decide_false,
          Bool.false_eq_true, if_false]
        rfl

/-- The frame at an offset, taken for granted. -/
def unchecked (buffer : Buffer) (offset : Nat) : Frame :=
  let raw : RawFrame := ⟨buffer, offset, .readAt buffer offset⟩
  ⟨raw, raw.interpret⟩

/-- Reading a frame is running its checks; what is read does not depend
on the bound. -/
theorem read_eq_runAll (buffer : Buffer) (offset maxLimit : Nat) :
    read buffer offset maxLimit
      = runAll (checks buffer offset maxLimit) >>= fun _ =>
        .ok (unchecked buffer offset) := by
  have hchecks : checks buffer offset maxLimit
      = regionChecks buffer.size offset maxLimit
        ++ locatedChecks buffer offset (.readAt buffer offset) maxLimit := by
    simp only [checks, locatedChecks, List.append_assoc]
  rw [read, locate_eq_runAll, hchecks, runAll_append]
  cases hregion : runAll (regionChecks buffer.size offset maxLimit) with
  | error e => rfl
  | ok u =>
      have hmax : maxLimit ≤ buffer.size := by
        have hpass := passes_of_runAll hregion
        simpa using hpass ⟨maxLimit ≤ buffer.size, _⟩ List.mem_cons_self
      show ofRaw (unchecked buffer offset).raw maxLimit = _
      rw [ofRaw_eq_runAll hmax]
      rfl

/-- There is a frame if all checks pass, and it is the one that stands
there. -/
theorem read_eq_ok_iff {buffer : Buffer} {offset maxLimit : Nat} {f : Frame} :
    read buffer offset maxLimit = .ok f
      ↔ runAll (checks buffer offset maxLimit) = .ok ()
        ∧ f = unchecked buffer offset := by
  rw [read_eq_runAll]
  exact check_eq_ok_iff

/-- A checked frame lies between its offset and the bound, and the bound
inside the buffer. -/
theorem bounds_of_runAll {buffer : Buffer} {offset maxLimit : Nat}
    (h : runAll (checks buffer offset maxLimit) = .ok ()) :
    (unchecked buffer offset).raw.limit ≤ maxLimit ∧ maxLimit ≤ buffer.size
      ∧ offset + 9 ≤ maxLimit ∧ offset + 9 < 2 ^ 64 := by
  have hpass := passes_of_runAll h
  simp only [checks, List.mem_append, or_imp, forall_and] at hpass
  obtain ⟨⟨⟨hregion, -⟩, hend⟩, -⟩ := hpass
  simp only [regionChecks, List.mem_cons, List.not_mem_nil, or_false,
    forall_eq_or_imp, forall_eq, decide_eq_true_eq] at hregion
  simp only [endCheck, List.mem_singleton, forall_eq,
    decide_eq_true_eq] at hend
  exact ⟨hend, hregion.1, hregion.2.2, hregion.2.1⟩

/-- The header block of a checked frame can be read on its own. -/
theorem readBlock_of_runAll {buffer : Buffer} {offset maxLimit : Nat}
    (hsize : buffer.size < 2 ^ 63)
    (h : runAll (checks buffer offset maxLimit) = .ok ())
    {block : HeaderBlock}
    (hblock : (unchecked buffer offset).block? = some block) :
    HeaderBlock.read buffer block.offset block.limit = .ok block := by
  obtain ⟨hlimit, hmax, -, -⟩ := bounds_of_runAll h
  obtain ⟨span, hspan, rfl⟩ := Option.map_eq_some_iff.mp hblock
  rw [checks, runAll_append, bind_eq_ok_iff] at h
  obtain ⟨-, -, hpayload⟩ := h
  obtain ⟨-, hle, hstop⟩ := RawFrame.block_bounds
    (f := (unchecked buffer offset).raw) hpayload hspan
  have hroom : requireRoom buffer.size span.start span.stop 0 = .ok () := by
    rw [requireRoom_eq_ok_iff, addressSpace]
    have hin : span.stop ≤ buffer.size :=
      Nat.le_trans hstop (Nat.le_trans hlimit hmax)
    omega
  exact check_eq_ok_iff.mpr ⟨hroom, rfl⟩

/-- The exact verdict of the frame reader. The first check that fails is
the error. If none fails, there is a frame of the type that the type
octet names, at the given offset, ending where its length says, and its
header block can be read without any further error. -/
theorem read_verdict {buffer : Buffer} (hsize : buffer.size < 2 ^ 63)
    (offset maxLimit : Nat) :
    match firstFailure (checks buffer offset maxLimit) with
    | some e => read buffer offset maxLimit = .error e
    | none => ∃ frame length, read buffer offset maxLimit = .ok frame
        ∧ Header.typeAt? buffer offset = some frame.payload.type
        ∧ Header.lengthAt? buffer offset = some length
        ∧ frame.raw.offset = offset
        ∧ frame.raw.limit = offset + 9 + length
        ∧ ∀ block, frame.block? = some block →
            HeaderBlock.read buffer block.offset block.limit = .ok block := by
  cases hfirst : firstFailure (checks buffer offset maxLimit) with
  | some e =>
      show read buffer offset maxLimit = .error e
      rw [read_eq_runAll, runAll, hfirst]
      rfl
  | none =>
      have hrun : runAll (checks buffer offset maxLimit) = .ok () := by
        rw [runAll, hfirst]
      obtain ⟨-, hmax, hroom, -⟩ := bounds_of_runAll hrun
      have htype : Header.typeCodeAt? buffer offset
          = some ((Header.readAt buffer offset).typeCode) := by
        have hin : offset + Header.typeOffset < buffer.bytes.size := by
          have : buffer.size = buffer.bytes.size := rfl
          simp only [Header.typeOffset]
          omega
        simp only [Header.readAt, Header.typeCodeAt?, Buffer.octet?,
          dif_pos hin, Option.getD_some]
      have hlength : Header.lengthAt? buffer offset
          = some ((Header.readAt buffer offset).length) := by
        have hin : offset + Header.lengthWidth ≤ buffer.size := by
          simp only [Header.lengthWidth]
          omega
        simp only [Header.readAt, Header.lengthAt?, Buffer.number?,
          if_pos hin, Option.getD_some]
      refine ⟨unchecked buffer offset, _, read_eq_ok_iff.mpr ⟨hrun, rfl⟩, ?_,
        hlength, rfl, rfl, ?_⟩
      · show (Header.typeCodeAt? buffer offset).map FrameType.ofCode
          = some (RawFrame.interpret _).type
        rw [htype, RawFrame.type_interpret]
        rfl
      · intro block hblock
        exact readBlock_of_runAll hsize hrun hblock

/-- An acknowledgement of settings that names a stream, has a payload of
an illegal length, and is cut off: of its four faults the stream is the
one that is reported. -/
theorem read_verdict_faulty_ack :
    (Buffer.ofList [0, 0, 5, 4, 1, 0, 0, 0, 1, 0xaa, 0xbb]).size < 2 ^ 63
      ∧ read (.ofList [0, 0, 5, 4, 1, 0, 0, 0, 1, 0xaa, 0xbb]) 0 11
        = .error (.malformedFrame .settings (.streamIdMustBeZero 1)) :=
  ⟨by decide, @read_verdict (.ofList [0, 0, 5, 4, 1, 0, 0, 0, 1, 0xaa, 0xbb])
    (by decide) 0 11⟩

end Frame

end Http2
