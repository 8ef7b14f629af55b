/-
Requests in any order.

Requests about different matters do not get into each other's way: the
draft that is asked for only depends on the order in which requests about
the same matter are made (`requested_of_rearranged`). So the octets that
a builder leaves in its window are a function of the requests, matter by
matter (`octets_granted`).
-/
import Mathlib.Data.List.Perm.Basic
import Http2.Proofs.Frame.Requested

namespace Http2.Frame

open Request

-- =============================================================== matters

/-- What an edit is about. -/
inductive Matter where
  | stream
  | endStream
  | endHeaders
  | acknowledgement
  | padding
  | priority
  | namedStream
  | errorCode
  | increment
  | payload
  | content
  deriving DecidableEq

def Edit.matter : Edit → Matter
  | .streamId _ => .stream
  | .endStream => .endStream
  | .endHeaders => .endHeaders
  | .acknowledge => .acknowledgement
  | .padding _ => .padding
  | .priority _ => .priority
  | .promisedStreamId _ | .lastStreamId _ => .namedStream
  | .errorCode _ => .errorCode
  | .windowSizeIncrement _ => .increment
  | .payload _ | .opaqueData _ => .payload
  | .append _ | .field _ | .fields _ | .setting _ _ | .settings _ => .content

namespace Request

/-- The same requests, with those about one matter in the same order. -/
def Rearranged (rs rs' : List Request) : Prop :=
  ∀ m, rs.filter (·.edit.matter = m) = rs'.filter (·.edit.matter = m)

variable {rs rs' : List Request}

theorem Rearranged.perm (h : Rearranged rs rs') : rs.Perm rs' := by
  classical
  rw [List.perm_iff_count]
  intro r
  have hcount : ∀ l : List Request,
      (l.filter (·.edit.matter = r.edit.matter)).count r = l.count r :=
    fun l => List.count_filter (decide_eq_true rfl)
  rw [← hcount rs, ← hcount rs', h]

/-- What the requests say about one matter stays in order. -/
theorem Rearranged.last?_eq (h : Rearranged rs rs') {β : Type}
    {part? : Edit → Option β} (m : Matter)
    (honly : ∀ e, part? e = none ∨ e.matter = m) :
    last? part? rs = last? part? rs' := by
  have hfilter : ∀ l : List Request,
      (l.filter (·.edit.matter = m)).filterMap (fun r => part? r.edit)
        = l.filterMap fun r => part? r.edit := by
    intro l
    rw [List.filterMap_filter]
    congr 1
    funext r
    rcases honly r.edit with hnone | hm
    · rw [hnone, ite_self]
    · rw [if_pos (decide_eq_true hm)]
  rw [last?, last?, ← hfilter rs, ← hfilter rs', h m]

/-- All flags that are asked for are set, in whatever order. -/
theorem Rearranged.flags_eq (h : Rearranged rs rs') (type : FrameType) :
    flags type rs = flags type rs' := by
  have hcomm : RightCommutative
      fun (octet : UInt8) (flag : Flag) => octet ||| flag.mask :=
    ⟨fun octet f g => by
      rw [UInt8.or_assoc, UInt8.or_comm f.mask, UInt8.or_assoc]⟩
  exact (h.perm.filterMap _).foldl_eq 0

/-- Only the requests about the content add to it. -/
theorem content_filter (rs : List Request) :
    content (rs.filter (·.edit.matter = .content)) = content rs := by
  induction rs with
  | nil => rfl
  | cons r rs ih =>
      by_cases hm : r.edit.matter = .content
      case pos =>
        rw [List.filter_cons_of_pos (by simpa using hm)]
        exact congrArg (r.edit.content r.table ++ ·) ih
      case neg =>
        have hnone : r.edit.content r.table = [] := by
          cases hedit : r.edit <;> rw [hedit] at hm <;>
            first | rfl | exact absurd rfl hm
        rw [List.filter_cons_of_neg (by simpa using hm), ih]
        show content rs = r.edit.content r.table ++ content rs
        rw [hnone, List.nil_append]

theorem Rearranged.content_eq (h : Rearranged rs rs') :
    content rs = content rs' := by
  rw [← content_filter rs, ← content_filter rs', h .content]

end Request

/-- The frame that is asked for only depends on the order of requests
about the same matter. -/
theorem Draft.requested_of_rearranged {type : FrameType}
    {rs rs' : List Request} (h : Request.Rearranged rs rs') :
    Draft.requested type rs = Draft.requested type rs' := by
  have hflags := h.flags_eq type
  have hcontent := h.content_eq
  have hstream : last? Edit.streamId? rs = last? Edit.streamId? rs' :=
    h.last?_eq .stream fun e => by
      cases e <;> first | exact .inl rfl | exact .inr rfl
  have hpadding : last? Edit.padding? rs = last? Edit.padding? rs' :=
    h.last?_eq .padding fun e => by
      cases e <;> first | exact .inl rfl | exact .inr rfl
  have hpriority : last? Edit.priority? rs = last? Edit.priority? rs' :=
    h.last?_eq .priority fun e => by
      cases e <;> first | exact .inl rfl | exact .inr rfl
  have hnamed : last? Edit.namedStream? rs = last? Edit.namedStream? rs' :=
    h.last?_eq .namedStream fun e => by
      cases e <;> first | exact .inl rfl | exact .inr rfl
  have hcode : last? Edit.errorCode? rs = last? Edit.errorCode? rs' :=
    h.last?_eq .errorCode fun e => by
      cases e <;> first | exact .inl rfl | exact .inr rfl
  have hincrement : last? Edit.increment? rs = last? Edit.increment? rs' :=
    h.last?_eq .increment fun e => by
      cases e <;> first | exact .inl rfl | exact .inr rfl
  have hpayload : last? Edit.payload? rs = last? Edit.payload? rs' :=
    h.last?_eq .payload fun e => by
      cases e <;> first | exact .inl rfl | exact .inr rfl
  unfold Draft.requested Request.streamId Request.payload
  rw [hflags, hcontent, hstream, hpadding, hpriority, hnamed, hcode, hincrement,
    hpayload]

-- ============================================================== the octets

namespace Builder

/-- The window of a builder holds the draft that it lays down. -/
theorem LaysDown.octets_eq {b : Builder} {d : Draft} {front back : List UInt8}
    (h : b.LaysDown d front back) : b.octets = d.encode := by
  obtain ⟨room, -, hbuffer⟩ := h.buffer_eq
  have hsplit : b.buffer.toList = front ++ d.encode ++ (room ++ back) := by
    rw [hbuffer, List.append_assoc _ room]
  exact Buffer.slice_of_append hsplit h.offset_eq.symm (by
    rw [h.limit_eq, h.offset_eq])

end Builder

/-- A flag is set if and only if it is asked for. -/
theorem Request.isSet_flags (type : FrameType) (rs : List Request)
    (flag : Flag) :
    flag.isSet (flags type rs) ↔ ∃ r ∈ rs, ∃ f,
      r.edit.flag? type = some f ∧ flag.mask = f.mask := by
  rw [flags, Flag.isSet_union, List.any_eq_true]
  simp only [List.mem_filterMap, beq_iff_eq]
  constructor
  · rintro ⟨f, ⟨r, hr, hf⟩, hmask⟩
    exact ⟨r, hr, f, hf, hmask⟩
  · rintro ⟨r, hr, f, hf, hmask⟩
    exact ⟨f, ⟨r, hr, hf⟩, hmask⟩

namespace Builder

/-- The octets in the window are the frame that was asked for. They
depend neither on what the buffer held before nor on the place of the
window, and not on how requests about different matters follow each
other. -/
theorem octets_granted {type : FrameType} {buffer : Buffer}
    {offset maxLimit : Nat} {b b' : Builder} {rs : List Request}
    (hstart : start type buffer offset maxLimit = .ok b)
    (happlies : ∀ r ∈ rs, r.edit.appliesTo type) (hok : b.grant rs = .ok b') :
    b'.octets = (Draft.requested type rs).encode
      ∧ (Draft.requested type rs).payload.length ≤ Header.maxLength
      ∧ (∀ flag : Flag, flag.isSet (Draft.requested type rs).flags ↔
          ∃ r ∈ rs, ∃ f, r.edit.flag? type = some f ∧ flag.mask = f.mask)
      ∧ ∀ {buffer₁ : Buffer} {offset₁ maxLimit₁ : Nat} {c c' : Builder}
          {rs₁ : List Request},
          start type buffer₁ offset₁ maxLimit₁ = .ok c →
          Request.Rearranged rs rs₁ → c.grant rs₁ = .ok c' →
          c'.octets = b'.octets := by
  have hmeets := granted_meets hstart happlies hok
  refine ⟨hmeets.lays.octets_eq, hmeets.wellFormed.length_le,
    Request.isSet_flags type rs, ?_⟩
  intro buffer₁ offset₁ maxLimit₁ c c' rs₁ hstart₁ hrearranged hok₁
  have happlies₁ : ∀ r ∈ rs₁, r.edit.appliesTo type :=
    fun r hr => happlies r (hrearranged.perm.mem_iff.mpr hr)
  have hmeets₁ := granted_meets hstart₁ happlies₁ hok₁
  rw [hmeets₁.lays.octets_eq, hmeets.lays.octets_eq,
    Draft.requested_of_rearranged hrearranged]

/-- A HEADERS frame is padded and given a priority after its block has
been written, in a window that it fills; elsewhere the same is asked for
the other way round. -/
theorem octets_granted_headers :
    ∃ b b' c c', start .headers (.ofList (List.replicate 19 9)) 1 18 = .ok b
      ∧ b.grant [⟨.append [0x82], {}⟩, ⟨.padding 1, {}⟩,
          ⟨.priority ⟨3, true, 15⟩, {}⟩, ⟨.streamId 5, {}⟩] = .ok b'
      ∧ start .headers (.ofList (List.replicate 17 7)) 0 17 = .ok c
      ∧ c.grant [⟨.streamId 5, {}⟩, ⟨.priority ⟨3, true, 15⟩, {}⟩,
          ⟨.padding 1, {}⟩, ⟨.append [0x82], {}⟩] = .ok c'
      ∧ b'.octets = [0, 0, 8, 1, 0x28, 0, 0, 0, 5, 1, 0x80, 0, 0, 3, 15, 0x82,
          0]
      ∧ c'.octets = b'.octets := by
  have hstart : start .headers (.ofList (List.replicate 19 9)) 1 18
      = .ok ⟨.headers, .ofList [9, 0, 0, 0, 1, 0, 0, 0, 0, 0, 9, 9, 9, 9, 9, 9,
        9, 9, 9], 1, 10, 18, 0⟩ := rfl
  have hstart₁ : start .headers (.ofList (List.replicate 17 7)) 0 17
      = .ok ⟨.headers, .ofList [0, 0, 0, 1, 0, 0, 0, 0, 0, 7, 7, 7, 7, 7, 7, 7,
        7], 0, 9, 17, 0⟩ := rfl
  obtain ⟨b', hgrant⟩ := exists_eq_ok_of_isOk (show (grant ⟨.headers, .ofList [
      9, 0, 0, 0, 1, 0, 0, 0, 0, 0, 9, 9, 9, 9, 9, 9, 9, 9, 9], 1, 10, 18, 0⟩
    [⟨.append [0x82], {}⟩, ⟨.padding 1, {}⟩, ⟨.priority ⟨3, true, 15⟩, {}⟩,
      ⟨.streamId 5, {}⟩]).isOk = true by decide +kernel)
  obtain ⟨c', hgrant₁⟩ := exists_eq_ok_of_isOk (show (grant ⟨.headers, .ofList [
      0, 0, 0, 1, 0, 0, 0, 0, 0, 7, 7, 7, 7, 7, 7, 7, 7], 0, 9, 17, 0⟩
    [⟨.streamId 5, {}⟩, ⟨.priority ⟨3, true, 15⟩, {}⟩, ⟨.padding 1, {}⟩,
      ⟨.append [0x82], {}⟩]).isOk = true by decide +kernel)
  obtain ⟨hoctets, -, -, hsame⟩ := octets_granted hstart (by decide) hgrant
  refine ⟨_, b', _, c', hstart, hgrant, hstart₁, hgrant₁,
    hoctets.trans (by decide +kernel), hsame hstart₁ ?_ hgrant₁⟩
  intro m
  cases m <;> rfl

end Builder

end Http2.Frame
