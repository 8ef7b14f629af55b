/-
Reading a payload that has been spelled out.

A builder hands out its frame by reading its own octets. The reader finds
the parts of the payload by arithmetic of its own, from the flags, the
limit and the pad length. `contents_rawFrame` says that it finds them
where the draft has them, and `build_eq` that there is one thing alone
that can be wrong with a payload that can be sent: that the frame belongs
to a stream and none is named.
-/
import Http2.Proofs.Frame.Built
import Http2.Proofs.Frame.Spelling

namespace Http2.Frame.Builder

open Check

variable {b : Builder} {d : Draft} {front back : List UInt8}

-- ================================================================= places

/-- A piece of the payload stands where the pieces in front of it end. -/
theorem LaysDown.slice_payload (h : b.LaysDown d front back)
    {before piece behind : List UInt8} {start stop : Nat}
    (hpayload : d.payload = before ++ piece ++ behind)
    (hstart : front.length + 9 + before.length = start)
    (hstop : start + piece.length = stop) :
    b.buffer.slice start stop = piece := by
  obtain ⟨room, -, hbuffer⟩ := h.buffer_eq
  have hsplit : b.buffer.toList
      = (front ++ d.header.encode ++ before) ++ piece
        ++ (behind ++ room ++ back) := by
    rw [hbuffer, Draft.encode, hpayload]
    simp only [List.append_assoc]
  refine Buffer.slice_of_append hsplit ?_ hstop
  rw [List.length_append, List.length_append, Header.length_encode]
  exact hstart

theorem LaysDown.limit_le_size (h : b.LaysDown d front back) :
    (b.rawFrame d).limit ≤ b.buffer.size := by
  obtain ⟨room, -, hbuffer⟩ := h.buffer_eq
  have hsize := congrArg List.length hbuffer
  simp only [List.length_append, Buffer.length_toList, Draft.length_encode,
    Draft.length_payload] at hsize
  rw [h.limit_rawFrame]
  omega

/-- The frame that is read ends where the window does. -/
theorem LaysDown.limit_eq_limit (h : b.LaysDown d front back) :
    (b.rawFrame d).limit = b.limit := by
  rw [h.limit_rawFrame, h.limit_eq, Draft.length_encode, Draft.length_payload]
  omega

theorem LaysDown.payload_rawFrame (h : b.LaysDown d front back) :
    (b.rawFrame d).payload = d.payload := by
  have hpayload : d.payload = [] ++ d.payload ++ [] :=
    (List.append_nil d.payload).symm
  exact h.slice_payload hpayload h.payloadStart_rawFrame.symm rfl

theorem LaysDown.padding_rawFrame (h : b.LaysDown d front back)
    (hd : d.WellFormed) : (b.rawFrame d).padding = d.padding := by
  have hhas : (b.rawFrame d).has .padded = d.padding.isSome := hd.padded
  rw [RawFrame.padding, hhas]
  cases hpadding : d.padding with
  | none => rfl
  | some padding =>
      have hlength : (b.rawFrame d).length ≠ 0 := by
        show d.payload.length ≠ 0
        rw [Draft.payload, Draft.body, hpadding]
        simp
      rw [Option.isSome_some, if_pos rfl, RawFrame.padLength?, if_neg hlength]
      exact h.octet?_payloadStart hpadding

/-- Between pad length and padding stand the fields and the content. -/
theorem LaysDown.part_content (h : b.LaysDown d front back)
    (hd : d.WellFormed) :
    b.buffer.part (b.rawFrame d).content = d.fields ++ d.content := by
  have hpayload : d.payload = d.padding.toList ++ (d.fields ++ d.content)
      ++ List.replicate d.padLength 0 := by
    rw [Draft.payload, Draft.body, List.append_assoc d.padding.toList]
  rw [h.content_rawFrame hd]
  refine h.slice_payload hpayload rfl ?_
  simp only [Draft.body, List.length_append]
  omega

theorem LaysDown.contentFront_rawFrame (h : b.LaysDown d front back)
    (hd : d.WellFormed) :
    (b.rawFrame d).contentFront d.fields.length = d.fields := by
  have hpayload : d.payload = d.padding.toList ++ d.fields
      ++ (d.content ++ List.replicate d.padLength 0) := by
    rw [Draft.payload, Draft.body, List.append_assoc _ d.content]
  rw [RawFrame.contentFront, h.content_rawFrame hd]
  exact h.slice_payload hpayload rfl rfl

theorem LaysDown.part_contentFrom (h : b.LaysDown d front back)
    (hd : d.WellFormed) :
    b.buffer.part ((b.rawFrame d).contentFrom d.fields.length)
      = d.content := by
  have hpayload : d.payload = (d.padding.toList ++ d.fields) ++ d.content
      ++ List.replicate d.padLength 0 := rfl
  rw [RawFrame.contentFrom, h.content_rawFrame hd]
  refine h.slice_payload hpayload ?_ ?_
  · rw [List.length_append, ← Nat.add_assoc]
  · simp only [Draft.body, List.length_append]
    omega

/-- A number of the payload is read where it has been written. -/
theorem LaysDown.number_rawFrame (h : b.LaysDown d front back)
    (before behind : List UInt8) {value : UInt32}
    (hpayload : d.payload
      = before ++ BigEndian.encode 4 value.toNat ++ behind) :
    (b.rawFrame d).number before.length 4 = value.toNat := by
  have hslice : b.buffer.slice ((b.rawFrame d).payloadStart + before.length)
      ((b.rawFrame d).payloadStart + before.length + 4)
      = BigEndian.encode 4 value.toNat := by
    refine h.slice_payload hpayload ?_ ?_
    · rw [h.payloadStart_rawFrame]
    · rw [BigEndian.length_encode]
  show BigEndian.decode (b.buffer.slice _ _) = _
  rw [hslice, BigEndian.decode_encode value.toNat_lt]

-- ================================================================ contents

variable {flags : UInt8} {id : UInt32} {p : Payload (List UInt8)}

/-- The flag tells whether a HEADERS frame has priority fields. -/
theorem isSet_priority_of_headers {padding : Option UInt8}
    {standing : Option Priority} {block : List UInt8}
    (hd : (Draft.ofPayload flags id
      (.headers padding standing block)).WellFormed) :
    Flag.priority.isSet flags = standing.isSome := by
  have hfields : (standing.map Priority.encode |>.getD []).length
      = if Flag.priority.isSet flags then 5 else 0 := hd.fields
  cases hset : Flag.priority.isSet flags <;> rw [hset] at hfields <;>
    cases standing <;> first | rfl | cases hfields

/-- A GOAWAY frame holds two numbers and, up to its end, debug data. -/
theorem LaysDown.contents_goAway {last errorCode : UInt32}
    {debugData : List UInt8}
    (h : b.LaysDown (.ofPayload flags id (.goAway last errorCode debugData))
      front back) :
    (b.rawFrame (.ofPayload flags id
        (.goAway last errorCode debugData))).number 0 4 = last.toNat
      ∧ (b.rawFrame (.ofPayload flags id
        (.goAway last errorCode debugData))).number 4 4 = errorCode.toNat
      ∧ b.buffer.part ((b.rawFrame (.ofPayload flags id
        (.goAway last errorCode debugData))).spanFrom 8) = debugData := by
  have hwhole : (Draft.ofPayload flags id
      (.goAway last errorCode debugData)).payload
      = BigEndian.encode 4 last.toNat ++ BigEndian.encode 4 errorCode.toNat
        ++ debugData :=
    Draft.payload_of_none rfl
  have hlength : (BigEndian.encode 4 last.toNat
      ++ BigEndian.encode 4 errorCode.toNat).length = 8 := by
    rw [List.length_append, BigEndian.length_encode, BigEndian.length_encode]
  refine ⟨?_, ?_, ?_⟩
  · refine h.number_rawFrame [] (BigEndian.encode 4 errorCode.toNat
      ++ debugData) ?_
    rw [hwhole, List.append_assoc]
    rfl
  · have hnumber := h.number_rawFrame _ _ hwhole
    rw [BigEndian.length_encode] at hnumber
    exact hnumber
  · refine h.slice_payload (hwhole.trans (List.append_nil _).symm) ?_ ?_
    · rw [hlength]
      show _ = (b.rawFrame _).payloadStart + 8
      rw [h.payloadStart_rawFrame]
    · show (b.rawFrame _).payloadStart + 8 + debugData.length
        = (b.rawFrame _).payloadStart + List.length (Draft.payload _)
      rw [hwhole, List.length_append, hlength, Nat.add_assoc]

/-- What has been spelled out is what is read. -/
theorem LaysDown.contents_rawFrame
    (h : b.LaysDown (.ofPayload flags id p) front back)
    (hd : (Draft.ofPayload flags id p).WellFormed) (hp : p.Legal) :
    (b.rawFrame (.ofPayload flags id p)).interpret.map b.buffer.part = p := by
  have hpadding := h.padding_rawFrame hd
  have hcontent := h.part_content hd
  have hfront := h.contentFront_rawFrame hd
  have hfrom := h.part_contentFrom hd
  have hpayload := h.payload_rawFrame
  unfold RawFrame.interpret
  rw [type_rawFrame b (Draft.ofPayload flags id p)]
  cases p with
  | data padding part =>
      show Payload.data (RawFrame.padding _) (b.buffer.part _) = _
      rw [hpadding, hcontent]
      rfl
  | headers padding standing block =>
      have hset : (b.rawFrame (.ofPayload flags id
          (.headers padding standing block))).has .priority
          = standing.isSome := isSet_priority_of_headers hd
      rw [hset]
      cases standing with
      | none =>
          show Payload.headers (RawFrame.padding _) none (b.buffer.part _) = _
          rw [hpadding, hcontent]
          rfl
      | some standing =>
          have hwidth : (Draft.ofPayload flags id (.headers padding
            (some standing) block)).fields.length = 5 := standing.length_encode
          rw [hwidth] at hfront hfrom
          show Payload.headers (RawFrame.padding _)
            (some (.decode (RawFrame.contentFront _ 5)))
            (b.buffer.part (RawFrame.contentFrom _ 5)) = _
          rw [hpadding, hfront, hfrom]
          show Payload.headers padding (some (.decode standing.encode)) block
            = _
          rw [Priority.decode_encode (hp standing rfl)]
  | priority standing =>
      show Payload.priority (.decode (RawFrame.payload _)) = _
      rw [hpayload, Draft.payload_of_none rfl]
      show Payload.priority (.decode (standing.encode ++ [])) = _
      rw [List.append_nil, Priority.decode_encode hp]
  | rstStream errorCode =>
      show Payload.rstStream (.ofNat (RawFrame.number _ 0 4)) = _
      have hnumber : (b.rawFrame (.ofPayload flags id
          (.rstStream errorCode))).number 0 4 = errorCode.toNat :=
        h.number_rawFrame [] [] (Draft.payload_of_none rfl)
      rw [hnumber, UInt32.ofNat_toNat]
  | settings parameters =>
      show Payload.settings ⟨RawFrame.payload _⟩ = _
      rw [hpayload, Draft.payload_of_none rfl]
      rfl
  | pushPromise padding promised block =>
      have hwidth : (Draft.ofPayload flags id (.pushPromise padding promised
        block)).fields.length = 4 := BigEndian.length_encode 4 promised.toNat
      rw [hwidth] at hfront hfrom
      show Payload.pushPromise (RawFrame.padding _)
        (maskStreamId (BigEndian.decode (RawFrame.contentFront _ 4)))
        (b.buffer.part (RawFrame.contentFrom _ 4)) = _
      rw [hpadding, hfront, hfrom]
      show Payload.pushPromise padding (maskStreamId (BigEndian.decode
        (BigEndian.encode 4 promised.toNat))) block = _
      rw [BigEndian.decode_encode promised.toNat_lt,
        Header.maskStreamId_toNat hp]
  | ping octets =>
      show Payload.ping (RawFrame.payload _) = _
      rw [hpayload, Draft.payload_of_none rfl]
      show Payload.ping (octets ++ []) = _
      rw [List.append_nil]
  | goAway last errorCode debugData =>
      obtain ⟨hlast, hcode, hdebug⟩ := h.contents_goAway
      show Payload.goAway (maskStreamId (RawFrame.number _ 0 4))
        (.ofNat (RawFrame.number _ 4 4)) (b.buffer.part _) = _
      rw [hlast, hcode, hdebug, Header.maskStreamId_toNat hp,
        UInt32.ofNat_toNat]
  | windowUpdate increment =>
      show Payload.windowUpdate (maskStreamId (RawFrame.number _ 0 4)) = _
      have hnumber : (b.rawFrame (.ofPayload flags id
          (.windowUpdate increment))).number 0 4 = increment.toNat :=
        h.number_rawFrame [] [] (Draft.payload_of_none rfl)
      rw [hnumber, Header.maskStreamId_toNat hp]
  | continuation block =>
      show Payload.continuation
        (b.rawFrame (.ofPayload flags id (.continuation block))).payload = _
      rw [hpayload, Draft.payload_of_none rfl]
      rfl
  | unrecognized octets =>
      show Payload.unrecognized
        (b.rawFrame (.ofPayload flags id (.unrecognized octets))).payload = _
      rw [hpayload, Draft.payload_of_none rfl]
      rfl

-- ================================================================= checks

/-- The padding of a draft leaves room for everything else. -/
theorem LaysDown.runAll_paddingChecks (h : b.LaysDown d front back)
    (hd : d.WellFormed) {least : Nat} (hleast : least ≤ d.fields.length) :
    runAll (paddingChecks b.buffer b.offset d.header least) = .ok () := by
  apply runAll_of_passes
  have hflag : Flag.padded.isSet d.header.flags = d.padding.isSome := hd.padded
  have hlength : d.header.length = d.padding.toList.length + d.fields.length
      + d.content.length + d.padLength := by
    show d.payload.length = _
    rw [Draft.length_payload, Draft.body, List.length_append,
      List.length_append]
  unfold paddingChecks
  rw [hflag]
  cases hpadding : d.padding with
  | none =>
      have hpasses : decide (least ≤ d.header.length) = true := by
        rw [decide_eq_true_eq]
        omega
      exact List.forall_mem_singleton.mpr hpasses
  | some padding =>
      have hoctet : b.buffer.octet? (b.offset + 9) = some padding :=
        h.octet?_payloadStart hpadding
      have hpad : d.padLength = padding.toNat := by
        rw [Draft.padLength, hpadding]
        rfl
      rw [hpadding, hpad] at hlength
      have hlength : d.header.length = 1 + d.fields.length
        + d.content.length + padding.toNat := hlength
      rw [hoctet]
      refine List.forall_mem_cons.mpr ⟨?_, List.forall_mem_singleton.mpr ?_⟩
      · show decide (0 < d.header.length) = true
        rw [decide_eq_true_eq]
        omega
      · show decide (1 + least + padding.toNat ≤ d.header.length) = true
        rw [decide_eq_true_eq]
        omega

/-- There is nothing wrong with a payload that can be sent. -/
theorem LaysDown.runAll_payloadChecks
    (h : b.LaysDown (.ofPayload flags id p) front back)
    (hd : (Draft.ofPayload flags id p).WellFormed) (hp : p.Legal) :
    runAll (payloadChecks b.buffer b.offset
      (Draft.ofPayload flags id p).header) = .ok () := by
  cases p with
  | data padding part => exact h.runAll_paddingChecks hd (Nat.zero_le _)
  | headers padding standing block =>
      exact h.runAll_paddingChecks hd (Nat.le_of_eq hd.fields.symm)
  | pushPromise padding promised block =>
      exact h.runAll_paddingChecks hd (Nat.le_of_eq hd.fields.symm)
  | settings parameters =>
      obtain ⟨-, hlegal⟩ := hp
      have hpayload : (b.rawFrame (.ofPayload flags id
          (.settings parameters))).payload = parameters.octets := by
        rw [h.payload_rawFrame, Draft.payload_of_none rfl]
        rfl
      have hlist := RawFrame.toList_payload h.limit_le_size
      rw [hpayload] at hlist
      rw [hlist] at hlegal
      refine runAll_of_passes (List.forall_mem_map.mpr ?_)
      intro i hi
      dsimp only [parameterCheck]
      exact hlegal _ (List.mem_map_of_mem hi)
  | _ => rfl

/-- The length of a payload that can be sent is legal. -/
theorem requireLength_rawFrame (b : Builder)
    (hd : (Draft.ofPayload flags id p).WellFormed) (hp : p.Legal)
    (hack : p.type = .settings → Flag.ack.isSet flags → p.content = []) :
    (b.rawFrame (.ofPayload flags id p)).requireLength = .ok () := by
  have hlength : p.padding? = none →
      (b.rawFrame (.ofPayload flags id p)).length
        = (Draft.ofPayload flags id p).fieldsLength + p.content.length := by
    intro hnone
    show (Draft.ofPayload flags id p).payload.length = _
    rw [Draft.payload_of_none hnone, List.length_append, hd.fields]
    rfl
  -- an acknowledgement is the one frame whose length depends on a flag
  have hempty : (decide ((b.rawFrame (.ofPayload flags id p)).type = .settings)
      && (b.rawFrame (.ofPayload flags id p)).has .ack
      && (b.rawFrame (.ofPayload flags id p)).length != 0) = false := by
    by_cases hset : p.type = .settings ∧ Flag.ack.isSet flags
    case pos =>
      obtain ⟨htype, hset⟩ := hset
      have hnone : p.padding? = none := by cases p <;> first | rfl | cases htype
      have hfields : (Draft.ofPayload flags id p).fieldsLength = 0 := by
        cases p <;> first | rfl | cases htype
      rw [hlength hnone, hfields, hack htype hset]
      exact Bool.and_false _
    case neg =>
      rw [type_rawFrame]
      show (decide (p.type = .settings) && Flag.ack.isSet flags && _) = false
      rw [Bool.and_eq_false_iff]
      left
      simpa using hset
  have hlegal : (b.rawFrame (.ofPayload flags id p)).hasLegalLength := by
    unfold RawFrame.hasLegalLength
    rw [type_rawFrame]
    cases p with
    | priority | rstStream | ping | windowUpdate =>
        exact beq_iff_eq.mpr (hlength rfl)
    | goAway last errorCode debugData =>
        refine decide_eq_true ?_
        rw [hlength rfl]
        exact Nat.le_add_right _ _
    | settings parameters =>
        refine beq_iff_eq.mpr ?_
        rw [hlength rfl]
        show (0 + parameters.octets.length) % Parameter.width = 0
        rw [Nat.zero_add]
        exact hp.1
    | _ => rfl
  rw [RawFrame.requireLength, hempty, if_neg Bool.false_ne_true, if_pos hlegal]

/-- The one rule that a frame that can be sent may break is the one on
the stream. -/
theorem requireScope_rawFrame (b : Builder) {d : Draft}
    (hconnection : d.type.isConnectionScoped → d.streamId = 0) :
    (b.rawFrame d).requireScope
      = if d.type.isStreamScoped && d.streamId == 0 then
          .error (.malformedFrame d.type .streamIdMustBeNonZero)
        else .ok () := by
  have hid : (b.rawFrame d).header.streamId = d.streamId := rfl
  rw [RawFrame.requireScope, RawFrame.malformed, RawFrame.malformed,
    type_rawFrame, hid]
  cases hscoped : d.type.isConnectionScoped with
  | true =>
      rw [hconnection hscoped]
      rfl
  | false => rfl

/-- A frame that can be sent is built, unless it belongs to a stream and
none is named. -/
theorem LaysDown.build_eq (h : b.LaysDown (.ofPayload flags id p) front back)
    (hd : (Draft.ofPayload flags id p).WellFormed) (hp : p.Legal)
    (hconnection : p.type.isConnectionScoped → id = 0)
    (hack : p.type = .settings → Flag.ack.isSet flags → p.content = [])
    (hspace : b.offset + Header.width < addressSpace) :
    b.build = if p.type.isStreamScoped && id == 0 then
        .error (.malformedFrame p.type .streamIdMustBeNonZero)
      else .ok ⟨b.rawFrame (.ofPayload flags id p),
        (b.rawFrame (.ofPayload flags id p)).interpret⟩ := by
  have hlimit := h.limit_eq_limit
  have hroom : requireRoom b.buffer.size b.offset b.limit Header.width
      = .ok () := by
    rw [requireRoom_eq_ok_iff]
    refine ⟨hlimit ▸ h.limit_le_size, hspace, ?_⟩
    rw [← hlimit]
    exact Nat.le_add_right _ _
  have hlocate : RawFrame.locate b.buffer b.offset b.limit
      = .ok (b.rawFrame (.ofPayload flags id p)) := by
    rw [locate_eq_runAll, ← requireRoom_eq_runAll, hroom, h.readAt_eq hd]
    rfl
  have htype : (b.rawFrame (.ofPayload flags id p)).requireType b.type
      = .ok () := by
    rw [RawFrame.requireType, type_rawFrame, if_pos h.type_eq.symm]
  have hpayload : (b.rawFrame (.ofPayload flags id p)).readPayload
      = .ok (b.rawFrame (.ofPayload flags id p)).interpret := by
    rw [RawFrame.readPayload_eq_runAll h.limit_le_size]
    show (runAll (payloadChecks b.buffer b.offset
      (Draft.ofPayload flags id p).header) >>= _) = _
    rw [h.runAll_payloadChecks hd hp]
    rfl
  have hsteps : ∀ raw : RawFrame, ofRaw raw b.limit
      = raw.requireScope >>= fun _ => raw.requireLength >>= fun _ =>
        requireEnd raw.limit b.limit >>= fun _ =>
        raw.readPayload >>= fun payload => .ok ⟨raw, payload⟩ :=
    fun _ => rfl
  rw [Builder.build, readAs, hlocate]
  show (RawFrame.requireType _ b.type >>= fun _ =>
    ofRaw (b.rawFrame (.ofPayload flags id p)) b.limit) = _
  rw [htype, hsteps, requireScope_rawFrame b hconnection,
    requireLength_rawFrame b hd hp hack, hlimit,
    requireEnd_of_le (Nat.le_refl _), hpayload]
  show (ite (p.type.isStreamScoped && id == 0) _ _ : Except Error Unit).bind _
    = _
  split <;> rfl

end Http2.Frame.Builder
