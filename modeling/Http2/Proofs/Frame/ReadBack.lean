/-
What was asked for is read back.

The payload that is asked for can be sent if every request is granted
(`legal_payload`), so building fails in one way alone, and what is built
tells what was asked for (`build_granted`).
-/
import Http2.Proofs.Frame.Reading
import Http2.Proofs.Frame.Requested

namespace Http2.Frame

open Request

-- ======================================================= what can be sent

namespace Request

variable {type : FrameType} {rs : List Request}

/-- The parameters that are added make the content of a SETTINGS frame. -/
theorem content_settings (happlies : ∀ r ∈ rs, r.edit.appliesTo .settings) :
    content rs
      = (Parameters.ofList (rs.flatMap (·.edit.parameters))).octets := by
  have hone : ∀ r ∈ rs, r.edit.content r.table
      = r.edit.parameters.flatMap (·.encode) := by
    intro r hr
    have hr := happlies r hr
    rcases r with ⟨e, table⟩
    cases e with
    | setting known value => exact (List.append_nil _).symm
    | settings record =>
        rw [Edit.content, Edit.parameters, List.flatMap_map]
    | acknowledge => rfl
    | _ => cases hr
  rw [Parameters.ofList, List.flatMap_assoc, content, List.flatMap_def,
    List.flatMap_def, List.map_congr_left hone]

/-- The parameters that are added have legal values. -/
theorem isLegal_of_mem_parameters {e : Edit} (h : e.Legal) {p : Parameter}
    (hp : p ∈ e.parameters) : p.isLegal := by
  have hannounce : ∀ {known : Setting} {value : UInt32}, known.allows value →
      (Parameter.announce known value).isLegal := by
    intro known value hallows
    rw [Parameter.isLegal, Parameter.announce, Setting.ofCode?_code]
    exact hallows
  cases e with
  | setting known value =>
      rw [List.mem_singleton.mp hp]
      exact hannounce h
  | settings record =>
      obtain ⟨s, hs, rfl⟩ := List.mem_map.mp hp
      exact hannounce (h s hs)
  | _ => cases hp

/-- What has been granted can be sent. -/
theorem legal_payload (happlies : ∀ r ∈ rs, r.edit.appliesTo type)
    (hlegal : ∀ r ∈ rs, r.edit.Legal) : (payload type rs).Legal := by
  have hpriority : ∀ standing, last? Edit.priority? rs = some standing →
      standing.streamDependency.toNat < reservedBit := by
    intro standing hlast
    obtain ⟨⟨e, table⟩, hr, hpart⟩ := exists_of_last? hlast
    have hlegal := hlegal _ hr
    cases e <;> cases hpart
    exact hlegal
  have hnamed : ((last? Edit.namedStream? rs).getD 0).toNat < reservedBit := by
    cases hlast : last? Edit.namedStream? rs with
    | none => decide
    | some id =>
        obtain ⟨⟨e, table⟩, hr, hpart⟩ := exists_of_last? hlast
        have hlegal := hlegal _ hr
        cases e <;> cases hpart <;> exact hlegal
  cases type with
  | headers => exact hpriority
  | priority =>
      show ((last? Edit.priority? rs).getD _).streamDependency.toNat < _
      cases hlast : last? Edit.priority? rs with
      | none => decide
      | some standing => exact hpriority standing hlast
  | pushPromise => exact hnamed
  | goAway => exact hnamed
  | windowUpdate =>
      show ((last? Edit.increment? rs).getD 0).toNat < _
      cases hlast : last? Edit.increment? rs with
      | none => decide
      | some increment =>
          obtain ⟨⟨e, table⟩, hr, hpart⟩ := exists_of_last? hlast
          have hlegal := hlegal _ hr
          cases e <;> cases hpart
          exact hlegal.2
  | settings =>
      show (content rs).length % _ = 0
        ∧ ∀ p ∈ (⟨content rs⟩ : Parameters).toList, p.isLegal
      rw [content_settings happlies]
      refine ⟨?_, ?_⟩
      · rw [Parameters.length_ofList, Nat.mul_mod_left]
      · show ∀ p ∈ (Parameters.ofList _).toList, _
        rw [Parameters.toList_ofList]
        intro p hp
        obtain ⟨r, hr, hp⟩ := List.mem_flatMap.mp hp
        exact isLegal_of_mem_parameters (hlegal r hr) hp
  | _ => trivial

/-- The frames that speak for the connection cannot be given a stream. -/
theorem streamId_of_connection (happlies : ∀ r ∈ rs, r.edit.appliesTo type)
    (hconnection : type.isConnectionScoped) : streamId rs = 0 := by
  have hnone : ∀ r ∈ rs, r.edit.streamId? = none := by
    intro r hr
    have hr := happlies r hr
    rcases r with ⟨e, table⟩
    cases e with
    | streamId id =>
        cases type <;>
          first | exact absurd hconnection Bool.false_ne_true | cases hr
    | _ => rfl
  rw [streamId, last?_eq_none hnone]
  rfl

end Request

-- ========================================================= what is told

/-- The payload of a PING frame that an edit asks for, as a number. -/
def Edit.opaqueData? : Edit → Option UInt64
  | .payload octets => some (.ofNat (BigEndian.decode octets))
  | .opaqueData data => some data
  | _ => none

/-- A frame of a type tells what has been asked for. -/
structure Tells (f : Frame) (type : FrameType) (rs : List Request) : Prop where
  header : f.raw.header = (Draft.requested type rs).header
  contents : f.contents = Request.payload type rs
  block : f.block?.map (·.octets) = (Request.payload type rs).block?
  parameters : ∀ ps, f.contents = .settings ps →
    ps.toList = rs.flatMap (·.edit.parameters)
  opaqueData : ∀ octets, f.contents = .ping octets →
    UInt64.ofNat (BigEndian.decode octets)
      = (last? Edit.opaqueData? rs).getD 0

namespace Builder

variable {b : Builder} {front back : List UInt8}

/-- What a builder has met is told by the frame in its window. -/
theorem Meets.tells {type : FrameType} {rs : List Request}
    (h : b.Meets type rs front back) :
    Tells ⟨b.rawFrame (.requested type rs),
      (b.rawFrame (.requested type rs)).interpret⟩ type rs := by
  have hcontents : (b.rawFrame (.requested type rs)).interpret.map b.buffer.part
      = Request.payload type rs :=
    h.lays.contents_rawFrame h.wellFormed (legal_payload h.applies h.legal)
  refine ⟨rfl, hcontents, ?_, ?_, ?_⟩
  · rw [block?_contents]
    exact congrArg Payload.block? hcontents
  · intro ps hps
    have hps := hcontents.symm.trans hps
    have happlies := h.applies
    cases type <;> cases hps
    have hcontent : (⟨Request.content rs⟩ : Parameters)
        = .ofList (rs.flatMap (·.edit.parameters)) :=
      congrArg Parameters.mk (content_settings happlies)
    rw [hcontent, Parameters.toList_ofList]
  · intro octets hoctets
    have hoctets := hcontents.symm.trans hoctets
    have hparts : ∀ e : Edit, e.opaqueData?
        = e.payload?.map fun octets => .ofNat (BigEndian.decode octets) := by
      intro e
      cases e with
      | opaqueData data =>
          have hfits : data.toNat < 256 ^ 8 := data.toNat_lt
          show some data = some (.ofNat (BigEndian.decode
            (BigEndian.encode 8 data.toNat)))
          rw [BigEndian.decode_encode hfits, UInt64.ofNat_toNat]
      | _ => rfl
    cases type <;> cases hoctets
    rw [last?_map hparts]
    cases last? Edit.payload? rs <;> rfl

/-- A builder that has met its requests builds the frame in its window,
unless it belongs to a stream and none is named. -/
theorem Meets.build_eq {type : FrameType} {rs : List Request}
    (h : b.Meets type rs front back)
    (hspace : b.offset + Header.width < addressSpace) :
    b.build = if type.isStreamScoped && Request.streamId rs == 0 then
        .error (.malformedFrame type .streamIdMustBeNonZero)
      else .ok ⟨b.rawFrame (.requested type rs),
        (b.rawFrame (.requested type rs)).interpret⟩ := by
  have hbuild := h.lays.build_eq h.wellFormed (legal_payload h.applies h.legal)
    (by
      rw [type_payload]
      exact streamId_of_connection h.applies)
    (by
      rw [type_payload]
      rintro rfl
      exact h.ack rfl)
    hspace
  rw [type_payload] at hbuild
  exact hbuild

end Builder

end Http2.Frame
