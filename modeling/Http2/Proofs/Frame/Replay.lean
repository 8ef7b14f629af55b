/-
A canonical frame is built again from what it tells.

`Frame.replay` puts what the accessors of a frame tell into edits: the
stream, the flags that are set, padding and priority if there are any,
the fields, and the content. Asked for in this order or in any other,
they make up the frame that they were told by (`requested_replay`), and a
window with just the room for that frame is enough (`granted_replay`).
-/
import Http2.Proofs.Frame.Canonical
import Http2.Proofs.Frame.ReadBack
import Http2.Proofs.Frame.Rearranged
import Http2.Proofs.Frame.Room

namespace Http2

open Http2.Frame

-- ================================================================= replay

/-- The edit that sets a flag. Padding and the optional priority bring
theirs. -/
def Flag.edit? : Flag → Option Edit
  | endStream => some .endStream
  | endHeaders => some .endHeaders
  | ack => some .acknowledge
  | padded | priority => none

/-- The edit that adds a parameter, if it is a known one. -/
def Parameter.edit? (p : Parameter) : Option Edit :=
  (Setting.ofCode? p.ident).map (.setting · p.value)

namespace Payload

/-- The standing of the stream, if it is told. -/
def standing? : Payload (List UInt8) → Option Priority
  | headers _ standing _ => standing
  | priority standing => some standing
  | _ => none

/-- The edits that fill in all but padding and priority. An increment of
zero is what a frame starts with, and cannot be asked for. -/
def plainEdits : Payload (List UInt8) → List Edit
  | data _ part | headers _ _ part | continuation part => [.append part]
  | rstStream code => (ErrorCode.ofCode? code).toList.map .errorCode
  | settings parameters => parameters.toList.filterMap (·.edit?)
  | pushPromise _ promisedStreamId block =>
    [.promisedStreamId promisedStreamId, .append block]
  | ping octets => [.payload octets]
  | goAway lastStreamId code debugData =>
    .lastStreamId lastStreamId :: (ErrorCode.ofCode? code).toList.map .errorCode
      ++ [.append debugData]
  | windowUpdate increment =>
    if increment = 0 then [] else [.windowSizeIncrement increment]
  | priority _ | unrecognized _ => []

/-- The edits that a payload is made of. -/
def edits (p : Payload (List UInt8)) : List Edit :=
  p.padding?.toList.map .padding ++ p.standing?.toList.map .priority
    ++ p.plainEdits

end Payload

namespace Frame

/-- The edits that name the stream of a frame and set its flags. -/
def headerEdits (f : Frame) : List Edit :=
  [.streamId f.raw.header.streamId].filter (·.appliesTo f.raw.type)
    ++ (f.raw.type.definedFlags.filter f.raw.has).filterMap (·.edit?)

/-- What the accessors of a frame tell, as edits. -/
def replay (f : Frame) : List Edit := f.headerEdits ++ f.contents.edits

/-- Whether an edit fills in a part that is there without it being told
by a flag. -/
def Edit.isPlain : Edit → Bool
  | .append _ | .promisedStreamId _ | .lastStreamId _ | .errorCode _
  | .windowSizeIncrement _ | .payload _ | .setting _ _ => true
  | _ => false

/-- An edit that no header field is encoded for is asked for. -/
def Edit.request (e : Edit) : Request := { edit := e }

end Frame

-- ================================================================== names

/-- The codes from 0 to 13 have names. -/
theorem ErrorCode.exists_of_le {n : UInt32} (h : n.toNat ≤ 13) :
    ∃ code, ofCode? n = some code ∧ code.code = n := by
  have hall : ∀ k : Fin 14, ∃ code ∈ all, code.code = .ofNat k := by decide
  obtain ⟨code, -, hcode⟩ := hall ⟨n.toNat, by omega⟩
  have hcode : code.code = n := hcode.trans UInt32.ofNat_toNat
  exact ⟨code, hcode ▸ ofCode?_code code, hcode⟩

/-- The identifiers from 1 to 6 have names. -/
theorem Setting.exists_of_bounds {n : UInt16} (h : 1 ≤ n.toNat ∧ n.toNat ≤ 6) :
    ∃ known, ofCode? n = some known ∧ known.code = n := by
  have hall : ∀ k : Fin 7, 1 ≤ k.val →
      ∃ known ∈ all, known.code = .ofNat k := by
    decide
  obtain ⟨known, -, hknown⟩ := hall ⟨n.toNat, by omega⟩ h.1
  have hknown : known.code = n := hknown.trans UInt16.ofNat_toNat
  exact ⟨known, hknown ▸ ofCode?_code known, hknown⟩

/-- A known parameter is announced as it is. -/
theorem Parameter.exists_edit? {p : Parameter}
    (h : 1 ≤ p.ident.toNat ∧ p.ident.toNat ≤ 6) :
    ∃ known, p.edit? = some (.setting known p.value)
      ∧ Parameter.announce known p.value = p := by
  obtain ⟨known, hknown, hcode⟩ := Setting.exists_of_bounds h
  refine ⟨known, ?_, ?_⟩
  · rw [edit?, hknown]
    rfl
  · rw [announce, hcode]

/-- The flags that padding and priority bring are the last ones of a
type. -/
theorem FrameType.definedFlags_eq (type : FrameType) :
    type.definedFlags = type.definedFlags.filter (·.edit?.isSome)
      ++ type.definedFlags.filter (·.edit?.isNone) := by
  cases type <;> rfl

/-- Flags that mean something to a type are the union of those that are
set. -/
theorem Flag.union_filter {type : FrameType} {flags : UInt8}
    (h : flags &&& ~~~union type.definedFlags = 0) :
    union (type.definedFlags.filter (·.isSet flags)) = flags := by
  have hall : ∀ n : Fin 256, UInt8.ofFin n &&& ~~~union type.definedFlags = 0 →
      union (type.definedFlags.filter (·.isSet (.ofFin n))) = .ofFin n := by
    cases type <;> decide +kernel
  exact hall flags.toFin h

-- ======================================================= the payload's edits

namespace Payload

open Request

variable {p : Payload (List UInt8)}

/-- A payload is only padded if its type can be. -/
theorem contains_padded {octets : UInt8} (h : p.padding? = some octets) :
    p.type.definedFlags.contains .padded := by
  cases p <;> first | rfl | cases h

/-- The standing of the stream is told by two types. -/
theorem legal_standing {standing : Priority} (h : p.standing? = some standing)
    (hlegal : p.Legal) : (Edit.priority standing).appliesTo p.type
      ∧ (Edit.priority standing).Legal := by
  cases p with
  | headers padding told block => exact ⟨rfl, hlegal standing h⟩
  | priority told =>
      obtain rfl := Option.some.inj h
      exact ⟨rfl, hlegal⟩
  | _ => cases h

/-- What is filled in makes sense for the type of the payload, and has
legal values if the payload has. -/
theorem legal_plainEdits (hlegal : p.Legal) (hknown : p.Known)
    (hping : ∀ octets, p = .ping octets → octets.length = 8) {e : Edit}
    (he : e ∈ p.plainEdits) : e.appliesTo p.type ∧ e.Legal := by
  cases p with
  | data padding part | headers padding standing part | continuation part =>
      rw [List.mem_singleton.mp he]
      exact ⟨rfl, trivial⟩
  | rstStream code =>
      obtain ⟨name, -, rfl⟩ := List.mem_map.mp he
      exact ⟨rfl, trivial⟩
  | settings parameters =>
      obtain ⟨parameter, hmem, hedit⟩ := List.mem_filterMap.mp he
      obtain ⟨known, hsetting, hsame⟩ := Parameter.exists_edit? (hknown _ hmem)
      obtain rfl := Option.some.inj (hsetting.symm.trans hedit)
      have hallows := hlegal.2 _ hmem
      rw [Parameter.isLegal, ← hsame, Parameter.announce,
        Setting.ofCode?_code] at hallows
      exact ⟨rfl, hallows⟩
  | pushPromise padding promised block =>
      rcases List.mem_cons.mp he with rfl | he
      · exact ⟨rfl, hlegal⟩
      · rw [List.mem_singleton.mp he]
        exact ⟨rfl, trivial⟩
  | ping octets =>
      rw [List.mem_singleton.mp he]
      exact ⟨rfl, hping octets rfl⟩
  | goAway last code debugData =>
      rcases List.mem_append.mp he with he | he
      case inr =>
        rw [List.mem_singleton.mp he]
        exact ⟨rfl, trivial⟩
      rcases List.mem_cons.mp he with rfl | he
      · exact ⟨rfl, hlegal⟩
      · obtain ⟨name, -, rfl⟩ := List.mem_map.mp he
        exact ⟨rfl, trivial⟩
  | windowUpdate increment =>
      by_cases hzero : increment = 0
      · rw [plainEdits, if_pos hzero] at he
        cases he
      · rw [plainEdits, if_neg hzero] at he
        rw [List.mem_singleton.mp he]
        exact ⟨rfl, hzero, hlegal⟩
  | priority | unrecognized => cases he

/-- The edits that a payload is made of make sense for its type, and have
legal values if it has. -/
theorem legal_edits (hlegal : p.Legal) (hknown : p.Known)
    (hping : ∀ octets, p = .ping octets → octets.length = 8) :
    ∀ e ∈ p.edits, e.appliesTo p.type ∧ e.Legal := by
  intro e he
  rcases List.mem_append.mp he with he | he
  case inr => exact legal_plainEdits hlegal hknown hping he
  rcases List.mem_append.mp he with he | he
  · obtain ⟨octets, hsome, rfl⟩ := List.mem_map.mp he
    exact ⟨contains_padded (Option.mem_toList.mp hsome), trivial⟩
  · obtain ⟨standing, hsome, rfl⟩ := List.mem_map.mp he
    exact legal_standing (Option.mem_toList.mp hsome) hlegal

/-- What is filled in is told apart from everything that a frame may
lack. -/
theorem isPlain_plainEdits (p : Payload (List UInt8)) :
    ∀ e ∈ p.plainEdits, e.isPlain := by
  rw [← List.all_eq_true]
  cases p with
  | rstStream code | goAway _ code _ =>
      rw [plainEdits]
      cases ErrorCode.ofCode? code <;> rfl
  | windowUpdate increment =>
      rw [plainEdits]
      split <;> rfl
  | settings parameters =>
      refine List.all_eq_true.mpr fun e he => ?_
      obtain ⟨parameter, -, hedit⟩ := List.mem_filterMap.mp he
      obtain ⟨known, -, rfl⟩ := Option.map_eq_some_iff.mp hedit
      rfl
  | _ => rfl

/-- Stream, flags, and padding are asked for by padding and priority
alone. -/
theorem filterMap_edits {β : Type} {part? : Edit → Option β}
    (hplain : ∀ e : Edit, e.isPlain → part? e = none)
    (p : Payload (List UInt8)) :
    p.edits.filterMap part?
      = (p.padding?.toList.map Edit.padding
        ++ p.standing?.toList.map Edit.priority).filterMap part? := by
  have hnone : p.plainEdits.filterMap part? = [] :=
    List.filterMap_eq_nil_iff.mpr fun e he =>
      hplain e (p.isPlain_plainEdits e he)
  rw [edits, List.filterMap_append, hnone, List.append_nil]

theorem streamId?_edits (p : Payload (List UInt8)) :
    p.edits.filterMap Edit.streamId? = [] := by
  rw [filterMap_edits]
  · cases p.padding? <;> cases p.standing? <;> rfl
  · intro e he
    cases e <;> first | rfl | cases he

/-- The padding is asked for if there is any. -/
theorem padding?_edits (p : Payload (List UInt8)) :
    p.edits.filterMap Edit.padding? = p.padding?.toList := by
  rw [filterMap_edits]
  · cases p.padding? <;> cases p.standing? <;> rfl
  · intro e he
    cases e <;> first | rfl | cases he

/-- Known parameters are added as they are. -/
theorem content_edits_settings {ps : List Parameter}
    (h : ∀ p ∈ ps, 1 ≤ p.ident.toNat ∧ p.ident.toNat ≤ 6) :
    Request.content ((ps.filterMap (·.edit?)).map (·.request))
      = (Parameters.ofList ps).octets := by
  induction ps with
  | nil => rfl
  | cons p ps ih =>
      obtain ⟨hp, hps⟩ := List.forall_mem_cons.mp h
      obtain ⟨known, hedit, hsame⟩ := Parameter.exists_edit? hp
      rw [List.filterMap_cons_some hedit]
      show (Parameter.announce known p.value).encode ++ Request.content _
        = p.encode ++ _
      rw [hsame, ih hps]
      rfl

/-- The edits that a payload is made of ask for it. -/
theorem payload_edits (htype : p.type ≠ .unrecognized) (hlegal : p.Legal)
    (hknown : p.Known) :
    Request.payload p.type (p.edits.map (·.request)) = p := by
  cases p with
  | data padding part =>
      cases padding <;> exact congrArg (data _) (List.append_nil part)
  | headers padding standing block =>
      cases padding <;> cases standing <;>
        exact congrArg (headers _ _) (List.append_nil block)
  | pushPromise padding promised block =>
      cases padding <;>
        exact congrArg (pushPromise _ promised) (List.append_nil block)
  | rstStream code =>
      obtain ⟨name, hname, hcode⟩ := ErrorCode.exists_of_le hknown
      rw [edits, plainEdits, hname]
      exact congrArg rstStream hcode
  | goAway last code debugData =>
      obtain ⟨name, hname, hcode⟩ := ErrorCode.exists_of_le hknown
      rw [edits, plainEdits, hname]
      exact congrArg₂ (goAway last) hcode (List.append_nil debugData)
  | settings parameters =>
      have hcontent := content_edits_settings hknown
      rw [Parameters.ofList_toList hlegal.1] at hcontent
      exact congrArg (fun octets => settings ⟨octets⟩) hcontent
  | windowUpdate increment =>
      rw [edits, plainEdits]
      split
      case isTrue hzero =>
        rw [hzero]
        rfl
      case isFalse => rfl
  | continuation block =>
      exact congrArg continuation (List.append_nil block)
  | priority | ping => rfl
  | unrecognized octets => exact absurd rfl htype

/-- The flags of a payload are those of its padding and of its optional
priority. -/
theorem flags_edits {has : Flag → Bool} (p : Payload (List UInt8))
    (hpadding : p.type.definedFlags.contains .padded →
      has .padded = p.padding?.isSome)
    (hpriority : p.type = .headers → has .priority = p.standing?.isSome) :
    p.edits.filterMap (·.flag? p.type)
      = (p.type.definedFlags.filter (·.edit?.isNone)).filter has := by
  rw [filterMap_edits]
  case hplain =>
    intro e he
    cases e <;> first | rfl | cases he
  cases p with
  | data padding part | pushPromise padding promised part =>
      have hpadded := hpadding rfl
      show _ = [Flag.padded].filter has
      rw [List.filter_cons, hpadded]
      cases padding <;> rfl
  | headers padding standing block =>
      have hpadded := hpadding rfl
      show _ = [Flag.padded, Flag.priority].filter has
      rw [List.filter_cons, List.filter_cons, hpadded, hpriority rfl]
      cases padding <;> cases standing <;> rfl
  | _ => rfl

end Payload

-- ======================================================== the header's edits

namespace Frame

open Request

/-- Whether an edit changes nothing but the header. -/
def Edit.onHeader : Edit → Bool
  | .streamId _ | .endStream | .endHeaders | .acknowledge => true
  | _ => false

theorem onHeader_of_mem {f : Frame} {e : Edit} (h : e ∈ f.headerEdits) :
    e.onHeader := by
  rcases List.mem_append.mp h with h | h
  · rw [List.mem_singleton.mp (List.mem_of_mem_filter h)]
    rfl
  · obtain ⟨flag, -, hedit⟩ := List.mem_filterMap.mp h
    cases flag <;> cases hedit <;> rfl

/-- Requests about the header leave the payload alone. -/
theorem payload_append_of_onHeader {front : List Request}
    (h : ∀ r ∈ front, r.edit.onHeader) (type : FrameType) (rs : List Request) :
    Request.payload type (front ++ rs) = Request.payload type rs := by
  have hlast : ∀ {β : Type} (part? : Edit → Option β),
      (∀ e : Edit, e.onHeader → part? e = none) →
      last? part? (front ++ rs) = last? part? rs := by
    intro β part? hpart
    have hnone : last? part? front = none :=
      last?_eq_none fun r hr => hpart r.edit (h r hr)
    rw [last?_append, hnone, Option.or_none]
  have hcontent : content (front ++ rs) = content rs := by
    have hfront : content front = [] := by
      refine List.flatMap_eq_nil_iff.mpr fun r hr => ?_
      have hr := h r hr
      cases hedit : r.edit <;> rw [hedit] at hr <;> first | rfl | cases hr
    rw [content_append, hfront, List.nil_append]
  unfold Request.payload
  rw [hcontent]
  rw [hlast Edit.padding?, hlast Edit.namedStream?, hlast Edit.errorCode?,
    hlast Edit.priority?, hlast Edit.payload?, hlast Edit.increment?]
  all_goals
    intro e he
    cases e <;> first | rfl | cases he

/-- What is asked for is a union of flags, whatever the tables. -/
theorem flags_request (type : FrameType) (es : List Edit) :
    Request.flags type (es.map (·.request))
      = Flag.union (es.filterMap (·.flag? type)) := by
  rw [Request.flags, List.filterMap_map]
  rfl

/-- The flags that can be set on their own are asked for if they are
set. -/
theorem flags_headerEdits (f : Frame) :
    f.headerEdits.filterMap (·.flag? f.raw.type)
      = (f.raw.type.definedFlags.filter (·.edit?.isSome)).filter f.raw.has := by
  have hstream : ([Edit.streamId f.raw.header.streamId].filter
      (·.appliesTo f.raw.type)).filterMap (·.flag? f.raw.type) = [] := by
    refine List.filterMap_eq_nil_iff.mpr fun e he => ?_
    rw [List.mem_singleton.mp (List.mem_of_mem_filter he)]
    rfl
  have hflag : (fun flag : Flag => flag.edit?.bind (·.flag? f.raw.type))
      = Option.guard (·.edit?.isSome) := by
    funext flag
    cases flag <;> rfl
  rw [headerEdits, List.filterMap_append, hstream, List.nil_append,
    List.filterMap_filterMap, hflag, List.filterMap_eq_filter,
    List.filter_comm]

/-- The stream is asked for if the frame can be given one. -/
theorem streamId_replay (f : Frame) :
    Request.streamId (f.replay.map (·.request))
      = if (Edit.streamId f.raw.header.streamId).appliesTo f.raw.type then
          f.raw.header.streamId
        else 0 := by
  have hflag : (fun flag : Flag => flag.edit?.bind Edit.streamId?)
      = fun _ => none := by
    funext flag
    cases flag <;> rfl
  have hstream : f.replay.filterMap Edit.streamId?
      = ([Edit.streamId f.raw.header.streamId].filter
        (·.appliesTo f.raw.type)).filterMap Edit.streamId? := by
    rw [replay, headerEdits, List.filterMap_append, List.filterMap_append,
      Payload.streamId?_edits, List.filterMap_filterMap, hflag,
      List.filterMap_none, List.append_nil, List.append_nil]
  rw [Request.streamId, last?, List.filterMap_map]
  show ((f.replay.filterMap Edit.streamId?).getLast?).getD 0 = _
  rw [hstream, List.filter_cons]
  split <;> rfl

/-- Padding is asked for once, if there is any. -/
theorem length_padding?_replay (f : Frame) :
    (f.replay.filterMap Edit.padding?).length ≤ 1 := by
  have hheader : f.headerEdits.filterMap Edit.padding? = [] := by
    refine List.filterMap_eq_nil_iff.mpr fun e he => ?_
    have he := onHeader_of_mem he
    cases e <;> first | rfl | cases he
  rw [replay, List.filterMap_append, hheader, List.nil_append,
    Payload.padding?_edits]
  exact Option.length_toList_le

end Frame

namespace RawFrame

open Check Http2.Frame

variable {f : RawFrame}

/-- An accepted frame has the optional parts that its flags tell of. -/
theorem Accepted.has_padded (hf : f.Accepted)
    (hpaddable : f.type.definedFlags.contains .padded) :
    f.has .padded = f.whole.contents.padding?.isSome := by
  have hpadding : f.whole.contents.padding? = f.interpret.padding? :=
    Payload.padding?_map _ _
  rw [hpadding, padding?_interpret, if_pos hpaddable]
  cases hpadded : f.has .padded with
  | false =>
      rw [padding, hpadded]
      rfl
  | true =>
      obtain ⟨octet, -, hsome, -⟩ := hf.padding_eq hpaddable hpadded
      rw [hsome]
      rfl

theorem has_priority (htype : f.type = .headers) :
    f.has .priority = f.whole.contents.standing?.isSome := by
  show _ = (f.interpret.map f.buffer.part).standing?.isSome
  simp only [interpret, htype]
  cases hset : f.has .priority <;> rfl

theorem Accepted.flags_replay (hf : f.Accepted) (hc : f.whole.Canonical)
    (hread : f.header = .readAt f.buffer f.offset) :
    Request.flags f.type (f.whole.replay.map (·.request)) = f.header.flags := by
  have hinside := hf.inside
  have hlimit : f.limit = f.offset + 9 + f.length := rfl
  have hclear : f.header.flags &&& ~~~Flag.union f.type.definedFlags = 0 := by
    obtain ⟨hflags, -⟩ := clear_of_canonical hc
      (show f.offset ≤ f.offset + 4 by omega) (by omega)
    have hmask : f.ignored (f.offset + 4)
        = ~~~Flag.union f.type.definedFlags := if_pos rfl
    rw [hmask] at hflags
    rw [hread]
    exact hflags
  have hpayload := @Payload.flags_edits f.has f.whole.contents
    (by rw [f.type_contents]; exact hf.has_padded)
    (by rw [f.type_contents]; exact has_priority)
  have hheader : f.whole.headerEdits.filterMap (·.flag? f.type)
      = (f.type.definedFlags.filter (·.edit?.isSome)).filter f.has :=
    flags_headerEdits f.whole
  rw [f.type_contents] at hpayload
  rw [flags_request, replay, List.filterMap_append, hheader, hpayload,
    ← List.filter_append, ← f.type.definedFlags_eq]
  exact Flag.union_filter hclear

-- =================================================== what may be asked for

/-- What an accepted frame tells has legal values. -/
theorem Accepted.legal_contents (hf : f.Accepted) :
    f.whole.contents.Legal := by
  have hpriority : ∀ octets, (Priority.decode octets).streamDependency.toNat
      < reservedBit :=
    fun _ => Header.toNat_maskStreamId_lt _
  cases ht : f.type with
  | settings =>
      have hheader := passes_of_runAll hf.header
      have hpayload := passes_of_runAll hf.payload
      have hsettings : f.header.type = .settings := ht
      simp only [headerChecks, hsettings, lengthCheck, List.mem_cons,
        List.not_mem_nil, or_false, forall_eq_or_imp, forall_eq,
        beq_iff_eq] at hheader
      simp only [payloadChecks, hsettings] at hpayload
      rw [contents_settings ht]
      refine ⟨?_, ?_⟩
      · rw [length_payload hf.inside]
        exact hheader.2.2
      · rw [toList_payload hf.inside]
        intro p hp
        obtain ⟨i, hi, rfl⟩ := List.mem_map.mp hp
        have hcheck := hpayload
          (parameterCheck f.header (parameterAt f.buffer f.offset i))
          (List.mem_map.mpr ⟨i, hi, rfl⟩)
        dsimp only [parameterCheck] at hcheck
        exact hcheck
  | headers =>
      show (f.interpret.map f.buffer.part).Legal
      simp only [interpret, ht]
      split
      all_goals intro standing hsome
      case isFalse => cases hsome
      case isTrue =>
        rw [← Option.some.inj hsome]
        exact hpriority _
  | priority =>
      show (f.interpret.map f.buffer.part).Legal
      simp only [interpret, ht]
      exact hpriority _
  | pushPromise | goAway | windowUpdate =>
      show (f.interpret.map f.buffer.part).Legal
      simp only [interpret, ht]
      exact Header.toNat_maskStreamId_lt _
  | _ =>
      show (f.interpret.map f.buffer.part).Legal
      simp only [interpret, ht]
      trivial

/-- A PING frame that is accepted has a payload of eight octets. -/
theorem Accepted.length_ping (hf : f.Accepted) {octets : List UInt8}
    (h : f.whole.contents = .ping octets) : octets.length = 8 := by
  have htype : f.type = .ping := by
    rw [← f.type_contents, h]
    rfl
  have hlength := hf.length_eq (.inr (.inr (.inl htype)))
  rw [contents_ping htype] at h
  obtain rfl := Payload.ping.inj h
  rw [htype] at hlength
  exact (length_payload hf.inside).trans hlength

/-- The length field tells how long the payload is, so there is room for
its length. -/
theorem Accepted.length_le (hf : f.Accepted)
    (hread : f.header = .readAt f.buffer f.offset) :
    f.payload.length ≤ Header.maxLength := by
  rw [length_payload hf.inside, hread]
  exact Header.length_readAt_le _ _

/-- A frame that speaks for the connection names no stream. -/
theorem Accepted.streamId_eq_zero (hf : f.Accepted)
    (hconnection : f.type.isConnectionScoped) : f.header.streamId = 0 := by
  have hheader := passes_of_runAll hf.header
  have htype : f.header.type = f.type := rfl
  cases ht : f.type <;> rw [ht] at hconnection <;>
    first | (cases hconnection; done) | skip
  all_goals
    simp only [headerChecks, htype, ht, noStreamCheck, List.mem_cons,
      List.not_mem_nil, or_false, forall_eq_or_imp, beq_iff_eq] at hheader
    exact hheader.1

/-- A frame that belongs to a stream names one. -/
theorem Accepted.streamId_ne_zero (hf : f.Accepted)
    (hstream : f.type.isStreamScoped) : f.header.streamId ≠ 0 := by
  have hheader := passes_of_runAll hf.header
  have htype : f.header.type = f.type := rfl
  cases ht : f.type <;> rw [ht] at hstream <;>
    first | (cases hstream; done) | skip
  all_goals
    simp only [headerChecks, htype, ht, streamCheck, List.mem_cons,
      List.not_mem_nil, or_false, forall_eq_or_imp, forall_eq,
      bne_iff_ne] at hheader
    first | exact hheader.1 | exact hheader

/-- An acknowledgement of settings that is accepted has no parameters. -/
theorem Accepted.content_eq_nil (hf : f.Accepted) (htype : f.type = .settings)
    (hack : f.has .ack) : f.whole.contents.content = [] := by
  have hheader := passes_of_runAll hf.header
  have hsettings : f.header.type = .settings := htype
  have hset : Flag.ack.isSet f.header.flags = true := hack
  simp only [headerChecks, hsettings, emptyAckCheck, hset, List.mem_cons,
    List.not_mem_nil, or_false, forall_eq_or_imp, forall_eq, Bool.not_true,
    Bool.false_or, beq_iff_eq] at hheader
  have hlength : f.length = 0 := hheader.2.1
  have hlimit : f.limit = f.payloadStart := by
    rw [limit, hlength, Nat.add_zero]
  have hempty : f.payload = [] := by
    rw [RawFrame.payload, Buffer.part, payloadSpan, hlimit, Buffer.slice_self]
  rw [contents_settings htype, hempty]
  rfl

/-- The stream that is asked for is the one of the frame. -/
theorem Accepted.streamId_replay (hf : f.Accepted)
    (htype : f.type ≠ .unrecognized) :
    Request.streamId (f.whole.replay.map (·.request)) = f.header.streamId := by
  rw [Frame.streamId_replay]
  split
  case isTrue => rfl
  case isFalse hnot =>
    have hnot : ¬ (Edit.streamId f.header.streamId).appliesTo f.type := hnot
    refine (hf.streamId_eq_zero ?_).symm
    cases ht : f.type <;> rw [ht] at hnot htype <;>
      first | rfl | exact absurd rfl hnot | exact absurd rfl htype

/-- The payload that is asked for is the one of the frame. -/
theorem Accepted.payload_replay (hf : f.Accepted) (hc : f.whole.Canonical) :
    Request.payload f.type (f.whole.replay.map (·.request))
      = f.whole.contents := by
  have hknown : f.whole.contents.Known :=
    Payload.known_map f.buffer.part hc.known
  have htype : f.whole.contents.type ≠ .unrecognized := by
    rw [f.type_contents]
    exact hc.type
  rw [replay, List.map_append, payload_append_of_onHeader]
  · rw [← f.type_contents]
    exact Payload.payload_edits htype hf.legal_contents hknown
  · intro r hr
    obtain ⟨e, he, rfl⟩ := List.mem_map.mp hr
    exact onHeader_of_mem he

/-- What a canonical frame tells makes up the frame. -/
theorem Accepted.requested_replay (hf : f.Accepted) (hc : f.whole.Canonical)
    (hread : f.header = .readAt f.buffer f.offset) :
    Draft.requested f.type (f.whole.replay.map (·.request))
      = Draft.ofPayload f.header.flags f.header.streamId f.whole.contents := by
  rw [Draft.requested, hf.flags_replay hc hread, hf.streamId_replay hc.type,
    hf.payload_replay hc]

/-- What a canonical frame tells can be asked for. -/
theorem Accepted.legal_replay (hf : f.Accepted) (hc : f.whole.Canonical)
    (hread : f.header = .readAt f.buffer f.offset) :
    ∀ e ∈ f.whole.replay, e.appliesTo f.type ∧ e.Legal := by
  have hknown : f.whole.contents.Known :=
    Payload.known_map f.buffer.part hc.known
  intro e he
  rcases List.mem_append.mp he with he | he
  case inr =>
    rw [← f.type_contents]
    exact Payload.legal_edits hf.legal_contents hknown
      (fun _ => hf.length_ping) e he
  rcases List.mem_append.mp he with he | he
  · obtain ⟨he, happlies⟩ := List.mem_filter.mp he
    obtain rfl := List.mem_singleton.mp he
    refine ⟨happlies, ?_⟩
    show f.header.streamId.toNat < reservedBit
    rw [hread]
    exact Header.streamId_readAt_lt _ _
  · obtain ⟨flag, hflag, hedit⟩ := List.mem_filterMap.mp he
    have hdefined : f.type.definedFlags.contains flag :=
      List.contains_iff_mem.mpr (List.mem_of_mem_filter hflag)
    cases flag <;> cases hedit <;> exact ⟨hdefined, trivial⟩

end RawFrame

-- ============================================================ the same frame

namespace Frame

open Builder RawFrame

/-- A frame that is read is an accepted one, with its header as it
stands. -/
theorem exists_accepted_of_read {buffer : Buffer} {offset maxLimit : Nat}
    {f : Frame} (h : read buffer offset maxLimit = .ok f) :
    ∃ g : RawFrame, f = g.whole ∧ g.Accepted
      ∧ g.header = .readAt g.buffer g.offset := by
  obtain ⟨rfl, hf⟩ := accepted_of_read h
  exact ⟨_, rfl, hf, rfl⟩

/-- A canonical frame is built again from what it tells, which is
something that frames of its type can be asked for. In whatever order this
is done, in a window that has room for the frame every request is granted,
and the frame is built and spelled as before. -/
theorem granted_replay {buffer target : Buffer}
    {offset maxLimit place stop : Nat} {f : Frame} {rs : List Request}
    (hread : read buffer offset maxLimit = .ok f)
    (hc : f.Canonical) (hroom : place + f.raw.size ≤ stop)
    (hstop : stop ≤ target.size) (hspace : stop < addressSpace)
    (hrearranged : Request.Rearranged (f.replay.map (·.request)) rs) :
    (∀ r ∈ rs, r.edit.appliesTo f.raw.type)
      ∧ ∃ b b' g, start f.raw.type target place stop = .ok b
        ∧ b.grant rs = .ok b' ∧ b'.octets = f.raw.octets
        ∧ b'.build = .ok g ∧ g.raw.offset = place
        ∧ g.raw.octets = f.raw.octets := by
  obtain ⟨f, rfl, hf, hheader⟩ := exists_accepted_of_read hread
  have hroom : place + f.size ≤ stop := hroom
  have hdraft : Draft.requested f.type rs
      = .ofPayload f.header.flags f.header.streamId f.whole.contents :=
    (Draft.requested_of_rearranged hrearranged).symm.trans
      (hf.requested_replay hc hheader)
  have hencode : (Draft.requested f.type rs).encode = f.octets := by
    rw [hdraft]
    exact (hf.octets_eq_encode hc hheader).symm
  have hpayload : (Draft.requested f.type rs).payload = f.payload := by
    rw [hdraft]
    exact (hf.payload_eq hc _ _).symm
  have hrequests : ∀ r ∈ rs, r.edit.appliesTo f.type ∧ r.edit.Legal := by
    intro r hr
    obtain ⟨e, he, rfl⟩ := List.mem_map.mp (hrearranged.perm.mem_iff.mpr hr)
    exact hf.legal_replay hc hheader e he
  have happlies := fun r hr => (hrequests r hr).1
  have hlegal := fun r hr => (hrequests r hr).2
  have honce : (rs.filterMap (·.edit.padding?)).length ≤ 1 := by
    rw [← (hrearranged.perm.filterMap _).length_eq, List.filterMap_map]
    exact length_padding?_replay f.whole
  have hack : f.type = .settings → Flag.ack.isSet (Request.flags f.type rs) →
      Request.content rs = [] := by
    intro htype hset
    have hflags : Request.flags f.type rs = f.header.flags :=
      congrArg Draft.flags hdraft
    have hcontent : (Request.payload f.type rs).content
        = f.whole.contents.content :=
      congrArg Draft.content hdraft
    rw [hflags] at hset
    rw [hf.content_eq_nil htype hset, htype] at hcontent
    exact hcontent
  have hstream : f.type.isStreamScoped → Request.streamId rs ≠ 0 := by
    have hsame : Request.streamId rs = f.header.streamId :=
      congrArg Draft.streamId hdraft
    rw [hsame]
    exact hf.streamId_ne_zero
  have hsize : f.octets.length = f.size := Buffer.length_slice hf.inside
  have hbuilt := exists_build happlies hlegal hack honce hstream
    (by rw [hencode, hsize]; exact hroom)
    (by rw [hpayload]; exact hf.length_le hheader) hstop hspace
  rw [hencode] at hbuilt
  exact ⟨happlies, hbuilt⟩

/-- A padded HEADERS frame with an exclusive priority, asked for from its
block back to its stream. -/
theorem granted_replay_headers :
    ∃ b b' g, start .headers (.ofList (List.replicate 21 9)) 2 20 = .ok b
      ∧ b.grant [⟨.append [0x82, 0x84], {}⟩, ⟨.priority ⟨3, true, 15⟩, {}⟩,
          ⟨.padding 1, {}⟩, ⟨.endHeaders, {}⟩, ⟨.endStream, {}⟩,
          ⟨.streamId 5, {}⟩] = .ok b'
      ∧ b'.build = .ok g
      ∧ g.raw.octets = [0, 0, 9, 1, 0x2d, 0, 0, 0, 5, 1, 0x80, 0, 0, 3, 15,
          0x82, 0x84, 0] := by
  obtain ⟨f, hread⟩ := exists_eq_ok_of_isOk (show (read (.ofList [7, 0, 0, 9, 1,
      0x2d, 0, 0, 0, 5, 1, 0x80, 0, 0, 3, 15, 0x82, 0x84, 0]) 1 19).isOk = true
    by decide +kernel)
  obtain ⟨hwhole, -⟩ := accepted_of_read hread
  have hback : Request.Rearranged (f.replay.map (·.request))
      [⟨.append [0x82, 0x84], {}⟩, ⟨.priority ⟨3, true, 15⟩, {}⟩,
        ⟨.padding 1, {}⟩, ⟨.endHeaders, {}⟩, ⟨.endStream, {}⟩,
        ⟨.streamId 5, {}⟩] := by
    rw [hwhole]
    exact fun m => by cases m <;> rfl
  subst hwhole
  obtain ⟨-, b, b', g, hstart, hgrant, -, hbuild, -, hoctets⟩ :=
    granted_replay hread ⟨by decide, by decide +kernel, trivial⟩
      (show 2 + 18 ≤ 20 by decide)
      (show 20 ≤ (Buffer.ofList (List.replicate 21 9)).size by decide)
      (by decide) hback
  exact ⟨b, b', g, hstart, hgrant, hbuild, hoctets.trans (by decide +kernel)⟩

end Frame

end Http2
