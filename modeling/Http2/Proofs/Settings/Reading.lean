/-
The parameters of a SETTINGS frame are read completely and exactly.

An iterator over a run of parameters is told by the list of those to come:
a step takes the first of them off (`toList_after`), so what a step yields
and what is still to come are told as well. A lookup finds the last parameter
with the identifier of the setting (`told_eq_some_iff`), hence one that has
been checked when the frame was read.

`readAs_settings_iff` says when a SETTINGS frame is accepted. The payload
takes part in that with its length and the legality of its parameters alone.
Unknown parameters are legal, and no lookup sees them, so a frame may be given
more or fewer of them and says the same (`sameWith_of_known`).
-/
import Http2.Proofs.Frame.Truncation
import Http2.Proofs.Settings.Update

namespace Http2

open Parameter

-- ============================================================ step by step

namespace Parameters

/-- The run behind the next parameter. A run that is over stays as it is. -/
def advance (ps : Parameters) : Parameters := (ps.next?.map (·.2)).getD ps

/-- The run behind a number of steps. -/
def after (ps : Parameters) : Nat → Parameters
  | 0 => ps
  | n + 1 => ps.advance.after n

/-- As many parameters are still to come as are listed. -/
theorem remaining_eq_length (ps : Parameters) :
    ps.remaining = ps.toList.length := by
  rw [toList_eq, List.length_map, List.length_range]

/-- A step yields the first parameter. -/
theorem next?_eq_head? (ps : Parameters) :
    ps.next?.map (·.1) = ps.toList.head? := by
  cases hnext : ps.next? with
  | none =>
      rw [toList_of_next?_none hnext]
      rfl
  | some step =>
      rw [toList_of_next?_some hnext]
      rfl

/-- A step leaves the others. -/
theorem toList_advance (ps : Parameters) :
    ps.advance.toList = ps.toList.tail := by
  unfold advance
  cases hnext : ps.next? with
  | none =>
      rw [toList_of_next?_none hnext]
      exact toList_of_next?_none hnext
  | some step =>
      rw [toList_of_next?_some hnext]
      rfl

theorem toList_after (ps : Parameters) (n : Nat) :
    (ps.after n).toList = ps.toList.drop n := by
  induction n generalizing ps with
  | zero => rfl
  | succ n ih => rw [after, ih, toList_advance, List.drop_tail]

theorem remaining_after (ps : Parameters) (n : Nat) :
    (ps.after n).remaining = ps.toList.length - n := by
  rw [remaining_eq_length, toList_after, List.length_drop]

theorem next?_after (ps : Parameters) (n : Nat) :
    (ps.after n).next?.map (·.1) = ps.toList[n]? := by
  rw [next?_eq_head?, toList_after, List.head?_drop]

end Parameters

-- ================================================================= lookups

namespace Parameter

/-- Nothing is told for a setting exactly if no parameter is about it. -/
theorem told_eq_none_iff {ps : List Parameter} {k : Setting} :
    told ps k = none ↔ ∀ p ∈ ps, p.ident ≠ k.code := by
  unfold told
  rw [Option.map_eq_none_iff, List.getLast?_eq_none_iff, List.filter_eq_nil_iff]
  simp only [decide_eq_true_eq, ne_eq]

/-- What is told for a setting is the value of the last parameter that is
about it. -/
theorem told_eq_some_iff {ps : List Parameter} {k : Setting} {value : UInt32} :
    told ps k = some value
      ↔ ∃ front back, ps = front ++ ⟨k.code, value⟩ :: back
        ∧ ∀ p ∈ back, p.ident ≠ k.code := by
  constructor
  · intro h
    induction ps with
    | nil => cases h
    | cons p ps ih =>
        rw [← List.singleton_append, told_append] at h
        -- what is told behind covers what is told here
        cases hrest : told ps k with
        | some later =>
            rw [hrest] at h ih
            obtain ⟨front, back, rfl, hback⟩ := ih h
            exact ⟨p :: front, back, rfl, hback⟩
        | none =>
            rw [hrest, Option.none_or, told_singleton] at h
            split at h
            case isFalse => cases h
            case isTrue hident =>
              obtain ⟨ident, v⟩ := p
              cases h
              obtain rfl : ident = k.code := hident
              exact ⟨[], ps, rfl, told_eq_none_iff.mp hrest⟩
  · rintro ⟨front, back, rfl, hback⟩
    rw [told_append, ← List.singleton_append, told_append,
      told_eq_none_iff.mpr hback, Option.none_or, told_singleton, if_pos rfl,
      Option.some_or]

/-- A legal parameter about a setting has a value that the setting allows. -/
theorem allows_of_told {ps : List Parameter} (hlegal : ∀ p ∈ ps, p.isLegal)
    {k : Setting} {value : UInt32} (h : told ps k = some value) :
    k.allows value := by
  have hp := hlegal _ (exists_of_told h)
  unfold isLegal at hp
  rw [Setting.ofCode?_code] at hp
  exact hp

/-- Unknown parameters are legal. -/
theorem isLegal_of_unknown {p : Parameter} (h : ¬ p.isKnown) : p.isLegal := by
  unfold isKnown at h
  unfold isLegal
  cases hcode : Setting.ofCode? p.ident with
  | none => rfl
  | some k =>
      rw [hcode] at h
      exact absurd rfl h

/-- Without the unknown parameters there is no telling whether some have been
put in. -/
theorem filter_isKnown_insert (xs ys : List Parameter) {us : List Parameter}
    (hus : ∀ u ∈ us, ¬ u.isKnown) :
    (xs ++ us ++ ys).filter isKnown = (xs ++ ys).filter isKnown := by
  have hnone : us.filter isKnown = [] :=
    List.filter_eq_nil_iff.mpr hus
  rw [List.filter_append, List.filter_append, hnone, List.append_nil,
    List.filter_append]

variable {ps qs : List Parameter}

/-- With the same known parameters the same is told. -/
theorem told_congr (h : qs.filter isKnown = ps.filter isKnown) :
    told qs = told ps := by
  rw [← told_filter_isKnown, h, told_filter_isKnown]

/-- With the same known parameters all are legal or none is. -/
theorem isLegal_congr (h : qs.filter isKnown = ps.filter isKnown)
    (hps : ∀ p ∈ ps, p.isLegal) : ∀ q ∈ qs, q.isLegal := by
  intro q hq
  by_cases hknown : q.isKnown
  case neg => exact isLegal_of_unknown hknown
  case pos =>
    have hmem : q ∈ qs.filter isKnown := List.mem_filter.mpr ⟨hq, hknown⟩
    rw [h] at hmem
    exact hps q (List.mem_of_mem_filter hmem)

end Parameter

-- ============================================================== acceptance

namespace RawFrame

variable {f : RawFrame}

/-- The rules that a SETTINGS frame has to keep. -/
structure IsSettings (f : RawFrame) : Prop where
  type_eq : f.type = .settings
  streamId_eq : f.header.streamId = 0
  empty_of_ack : f.has .ack → f.length = 0
  length_mod : f.length % Parameter.width = 0
  legal : ∀ p ∈ (⟨f.payload⟩ : Parameters).toList, p.isLegal

theorem requireType_eq_ok_iff {type : FrameType} :
    f.requireType type = .ok () ↔ f.type = type := by
  unfold requireType
  split
  case isTrue htype => exact ⟨fun _ => htype, fun _ => rfl⟩
  case isFalse htype => exact ⟨nofun, fun h => absurd h htype⟩

theorem requireScope_settings (htype : f.type = .settings) :
    f.requireScope = .ok () ↔ f.header.streamId = 0 := by
  unfold requireScope
  rw [htype]
  by_cases hid : f.header.streamId = 0
  · simp [FrameType.isConnectionScoped, FrameType.isStreamScoped, hid]
  · simp [FrameType.isConnectionScoped, hid]

theorem requireLength_settings (htype : f.type = .settings) :
    f.requireLength = .ok ()
      ↔ (f.has .ack → f.length = 0) ∧ f.length % Parameter.width = 0 := by
  unfold requireLength hasLegalLength
  rw [htype]
  by_cases hack : f.has .ack
  · by_cases hlength : f.length = 0
    · simp [hack, hlength]
    · simp [hack, hlength]
  · simp [hack]

theorem readPayload_settings (htype : f.type = .settings)
    {payload : Payload Span} :
    f.readPayload = .ok payload
      ↔ (∀ p ∈ (⟨f.payload⟩ : Parameters).toList, p.isLegal)
        ∧ payload = .settings ⟨f.payload⟩ := by
  have hread : f.readPayload = f.readSettings := by
    unfold readPayload
    rw [htype]
  rw [hread]
  unfold readSettings
  simp only [Parameters.find?_eq]
  split
  case h_1 p hfind =>
    have hillegal := List.find?_some hfind
    have hp := List.mem_of_find?_eq_some hfind
    refine ⟨nofun, fun h => ?_⟩
    rw [h.1 p hp] at hillegal
    cases hillegal
  case h_2 hfind =>
    have hlegal : ∀ p ∈ (⟨f.payload⟩ : Parameters).toList, p.isLegal := by
      intro p hp
      simpa using List.find?_eq_none.mp hfind p hp
    constructor
    · intro h
      exact ⟨hlegal, (Except.ok.inj h).symm⟩
    · rintro ⟨-, rfl⟩
      rfl

/-- The octets of the frame with other parameters, and a length field to
match. -/
def octetsWith (f : RawFrame) (ps : Parameters) : List UInt8 :=
  BigEndian.encode Header.lengthWidth ps.octets.length
    ++ (f.octets.take Header.width).drop Header.lengthWidth ++ ps.octets

end RawFrame

/-- A header is the same with another length in its length field. -/
theorem Header.decode_exchange (octets : List UInt8) {length : Nat}
    (hlength : length ≤ maxLength) :
    decode (BigEndian.encode lengthWidth length ++ octets.drop lengthWidth)
      = { decode octets with length := length } := by
  have hfits : length < 256 ^ lengthWidth := by
    simp only [maxLength, lengthWidth] at hlength ⊢
    omega
  have hthree : (BigEndian.encode lengthWidth length).length = lengthWidth :=
    BigEndian.length_encode _ _
  have hbehind : ∀ i, lengthWidth ≤ i →
      (BigEndian.encode lengthWidth length ++ octets.drop lengthWidth)[i]?
        = octets[i]? := by
    intro i hi
    rw [List.getElem?_append_right (by rw [hthree]; exact hi), hthree,
      List.getElem?_drop, Nat.add_sub_of_le hi]
  have hstream : (BigEndian.encode lengthWidth length
      ++ octets.drop lengthWidth).drop streamIdOffset
      = octets.drop streamIdOffset := by
    apply List.ext_getElem?
    intro i
    rw [List.getElem?_drop, List.getElem?_drop]
    apply hbehind
    exact Nat.le_trans (by decide) (Nat.le_add_right _ _)
  unfold decode
  simp only [List.getD_eq_getElem?_getD]
  rw [List.take_left' hthree, BigEndian.decode_encode hfits, hstream,
    hbehind typeOffset (by decide), hbehind flagsOffset (by decide)]

namespace Frame

open RawFrame

variable {buffer other : Buffer} {offset maxLimit bound : Nat} {f : Frame}
variable {ps : Parameters} {qs : List Parameter}

/-- A SETTINGS frame is accepted if it is there in full and keeps the rules.
What it says are the parameters in its payload. -/
theorem readAs_settings_iff :
    readAs .settings buffer offset maxLimit = .ok f
      ↔ requireRoom buffer.size offset maxLimit Header.width = .ok ()
        ∧ (unchecked buffer offset).raw.limit ≤ maxLimit
        ∧ (unchecked buffer offset).raw.IsSettings
        ∧ f = ⟨(unchecked buffer offset).raw,
          .settings ⟨(unchecked buffer offset).raw.payload⟩⟩ := by
  rw [readAs_eq_run, Stages.run_eq_ok_iff]
  constructor
  · rintro ⟨hroom, hheader, hend, hpayload⟩
    obtain ⟨_, htype, hheader⟩ := bind_eq_ok_iff.mp hheader
    obtain ⟨_, hscope, hlength⟩ := bind_eq_ok_iff.mp hheader
    obtain ⟨payload, hread, hf⟩ := bind_eq_ok_iff.mp hpayload
    have htype := requireType_eq_ok_iff.mp htype
    obtain ⟨hack, hmod⟩ := (requireLength_settings htype).mp hlength
    obtain ⟨hlegal, rfl⟩ := (readPayload_settings htype).mp hread
    exact ⟨hroom, hend, ⟨htype, (requireScope_settings htype).mp hscope, hack,
      hmod, hlegal⟩, (Except.ok.inj hf).symm⟩
  · rintro ⟨hroom, hend, ⟨htype, hstream, hack, hmod, hlegal⟩, rfl⟩
    refine ⟨hroom, ?_, hend, ?_⟩
    · refine bind_eq_ok_iff.mpr ⟨_, requireType_eq_ok_iff.mpr htype, ?_⟩
      exact bind_eq_ok_iff.mpr ⟨_, (requireScope_settings htype).mpr hstream,
        (requireLength_settings htype).mpr ⟨hack, hmod⟩⟩
    · exact bind_eq_ok_iff.mpr
        ⟨_, (readPayload_settings htype).mpr ⟨hlegal, rfl⟩, rfl⟩

-- ======================================================= other parameters

/-- Parameters that can be put in place of those of a SETTINGS frame: what
comes of it is accepted as well, below every bound that it fits, and tells the
same about every setting. -/
def SameWith (f : Frame) (ps qs : Parameters) : Prop :=
  qs.octets.length ≤ Header.maxLength →
  ∀ (other : Buffer) (stop bound : Nat),
    stop = f.raw.offset + (f.raw.octetsWith qs).length →
    other.slice f.raw.offset stop = f.raw.octetsWith qs →
    stop ≤ bound → bound ≤ other.size →
    ∃ g, readAs .settings other f.raw.offset bound = .ok g
      ∧ g.parameters? = some qs ∧ qs.get? = ps.get?

/-- An accepted frame has its header in front. -/
theorem take_octets_unchecked
    (hroom : requireRoom buffer.size offset maxLimit Header.width = .ok ()) :
    (unchecked buffer offset).raw.octets.take Header.width
        = buffer.slice offset (offset + Header.width)
      ∧ (buffer.slice offset (offset + Header.width)).length
        = Header.width := by
  obtain ⟨hmax, -, hle⟩ := requireRoom_eq_ok_iff.mp hroom
  constructor
  · show (buffer.slice offset (offset + Header.width + _)).take _ = _
    rw [Nat.add_assoc]
    exact buffer.take_slice offset (Nat.le_add_right _ _)
  · rw [Buffer.length_slice (Nat.le_trans hle hmax), Nat.add_sub_cancel_left]

/-- Where a SETTINGS frame stands with other parameters, its header is found
with another length, and these parameters as the payload. -/
theorem unchecked_octetsWith
    (hroom : requireRoom buffer.size offset maxLimit Header.width = .ok ())
    {qs : Parameters} (hlength : qs.octets.length ≤ Header.maxLength)
    {stop : Nat}
    (hstop : stop = offset
      + ((unchecked buffer offset).raw.octetsWith qs).length)
    (hother : other.slice offset stop
      = (unchecked buffer offset).raw.octetsWith qs)
    (hin : stop ≤ other.size) :
    (unchecked other offset).raw.header
        = { (unchecked buffer offset).raw.header with
          length := qs.octets.length }
      ∧ (unchecked other offset).raw.limit = stop
      ∧ (unchecked other offset).raw.payload = qs.octets := by
  obtain ⟨hmax, -, hle⟩ := requireRoom_eq_ok_iff.mp hroom
  obtain ⟨htake, hnine⟩ := take_octets_unchecked hroom
  -- in front stand nine octets, of which the length field alone is new
  unfold octetsWith at hstop hother
  rw [htake] at hstop hother
  generalize hfront : BigEndian.encode Header.lengthWidth qs.octets.length
    ++ (buffer.slice offset (offset + Header.width)).drop Header.lengthWidth
    = front at hstop hother
  have hwidth : front.length = Header.width := by
    rw [← hfront, List.length_append, BigEndian.length_encode, List.length_drop,
      hnine]
    rfl
  rw [List.length_append, hwidth] at hstop
  have hslice : other.slice offset (offset + Header.width) = front := by
    rw [← other.take_slice offset (Nat.le_add_right _ qs.octets.length),
      ← hstop, hother, List.take_left' hwidth]
  have hheader : (unchecked other offset).raw.header
      = { (unchecked buffer offset).raw.header with
        length := qs.octets.length } := by
    show Header.readAt other offset = { Header.readAt buffer offset with
      length := qs.octets.length }
    rw [← Header.decode_slice (Nat.le_trans hle hmax),
      ← Header.decode_slice (by omega), hslice, ← hfront,
      Header.decode_exchange _ hlength]
  have hlimit : (unchecked other offset).raw.limit = stop := by
    show offset + Header.width + (unchecked other offset).raw.header.length
      = stop
    rw [hheader, hstop, Nat.add_assoc]
  refine ⟨hheader, hlimit, ?_⟩
  show other.slice (offset + Header.width) (unchecked other offset).raw.limit
    = _
  rw [hlimit, ← Buffer.drop_slice, hother, List.drop_left' hwidth]

/-- Legal parameters can be put in place of those of a SETTINGS frame that is
no acknowledgement. -/
theorem exists_readAs_octetsWith
    (h : readAs .settings buffer offset maxLimit = .ok f)
    (hack : f.raw.has .ack = false) {qs : List Parameter}
    (hlegal : ∀ q ∈ qs, q.isLegal)
    (hlength : (Parameters.ofList qs).octets.length ≤ Header.maxLength)
    {stop : Nat}
    (hstop : stop = offset + (f.raw.octetsWith (.ofList qs)).length)
    (hother : other.slice offset stop = f.raw.octetsWith (.ofList qs))
    (hbound : stop ≤ bound) (hin : bound ≤ other.size) :
    ∃ g, readAs .settings other offset bound = .ok g
      ∧ g.parameters? = some (.ofList qs) := by
  obtain ⟨hroom, -, hsettings, rfl⟩ := readAs_settings_iff.mp h
  obtain ⟨hheader, hlimit, hpayload⟩ :=
    unchecked_octetsWith hroom hlength hstop hother (Nat.le_trans hbound hin)
  obtain ⟨-, hspace, -⟩ := requireRoom_eq_ok_iff.mp hroom
  have hwhole : offset + Header.width ≤ stop := by
    rw [← hlimit]
    exact add_le_limit other offset
  have hkeeps : (unchecked other offset).raw.IsSettings := by
    refine ⟨?type, ?stream, ?ack, ?length, ?legal⟩
    case type =>
      show (unchecked other offset).raw.header.type = .settings
      rw [hheader]
      exact hsettings.type_eq
    case stream =>
      rw [hheader]
      exact hsettings.streamId_eq
    case ack =>
      have hsame : (unchecked other offset).raw.has .ack
          = (unchecked buffer offset).raw.has .ack := by
        unfold RawFrame.has
        rw [hheader]
      intro hset
      rw [hsame, hack] at hset
      cases hset
    case length =>
      show (unchecked other offset).raw.header.length % Parameter.width = 0
      rw [hheader]
      show (Parameters.ofList qs).octets.length % Parameter.width = 0
      rw [Parameters.length_ofList, Nat.mul_mod_left]
    case legal =>
      rw [hpayload]
      show ∀ p ∈ (Parameters.ofList qs).toList, p.isLegal
      rw [Parameters.toList_ofList]
      exact hlegal
  have hroom' : requireRoom other.size offset bound Header.width = .ok () :=
    requireRoom_eq_ok_iff.mpr ⟨hin, hspace, Nat.le_trans hwhole hbound⟩
  have hend : (unchecked other offset).raw.limit ≤ bound := by
    rw [hlimit]
    exact hbound
  refine ⟨_, readAs_settings_iff.mpr ⟨hroom', hend, hkeeps, rfl⟩, ?_⟩
  show some (⟨(unchecked other offset).raw.payload⟩ : Parameters) = _
  rw [hpayload]

/-- Parameters that differ in unknown ones alone can be put in place of those
of a SETTINGS frame that is no acknowledgement. -/
theorem sameWith_of_known
    (h : readAs .settings buffer offset maxLimit = .ok f)
    (hps : f.parameters? = some ps) (hack : f.raw.has .ack = false)
    (hknown : qs.filter isKnown = ps.toList.filter isKnown) :
    f.SameWith ps (.ofList qs) := by
  obtain ⟨ps', hps', hlegal⟩ := Settings.legal_of_readAs h
  obtain rfl : ps = ps' := Option.some.inj (hps.symm.trans hps')
  have hoffset : f.raw.offset = offset := by
    obtain ⟨-, -, -, rfl⟩ := readAs_settings_iff.mp h
    rfl
  intro hlength other stop bound hstop hother hbound hin
  rw [hoffset] at hstop hother
  obtain ⟨g, hg, hparameters⟩ := exists_readAs_octetsWith h hack
    (isLegal_congr hknown hlegal) hlength hstop hother hbound hin
  have hget : (Parameters.ofList qs).get? = ps.get? := by
    rw [Parameters.get?_eq_told, Parameters.get?_eq_told,
      Parameters.toList_ofList, told_congr hknown]
  rw [hoffset]
  exact ⟨g, hg, hparameters, hget⟩

-- ============================================================== the result

/-- The parameters of a SETTINGS frame are read completely and exactly. There
is one for every six octets of the payload, and their encodings in order are
the payload. Before each step it is known how many are still to come, and the
step yields the first of these. A lookup yields the value of the last
parameter about the setting, which is one that the setting allows, or nothing
if there is none. An acknowledgement has no parameters. -/
structure ReadsExactly (f : Frame) (ps : Parameters) : Prop where
  parameters : f.parameters? = some ps
  length_eq : ps.toList.length = f.raw.length / Parameter.width
  encoded_eq : ps.toList.flatMap Parameter.encode = f.raw.payload
  remaining_eq : ∀ n, (ps.after n).remaining = ps.toList.length - n
  next_eq : ∀ n, (ps.after n).next?.map (·.1) = ps.toList[n]?
  get_eq_some_iff : ∀ k value, ps.get? k = some value
    ↔ ∃ front back, ps.toList = front ++ ⟨k.code, value⟩ :: back
      ∧ ∀ p ∈ back, p.ident ≠ k.code
  get_eq_none_iff : ∀ k, ps.get? k = none ↔ ∀ p ∈ ps.toList, p.ident ≠ k.code
  allows_get : ∀ k value, ps.get? k = some value → k.allows value
  nil_of_ack : f.raw.has .ack → ps.toList = []

/-- A SETTINGS frame that keeps the rules and is there in full is read
completely and exactly. -/
theorem readsExactly_of_isSettings {raw : RawFrame} (hkeeps : raw.IsSettings)
    (hin : raw.limit ≤ raw.buffer.size) :
    ReadsExactly ⟨raw, .settings ⟨raw.payload⟩⟩ ⟨raw.payload⟩ := by
  have hpayload : raw.payload.length = raw.length := length_payload hin
  have hcount : (⟨raw.payload⟩ : Parameters).toList.length
      = raw.length / Parameter.width := by
    rw [← Parameters.remaining_eq_length, Parameters.remaining, hpayload]
  refine ⟨rfl, hcount, ?encoded, Parameters.remaining_after _,
    Parameters.next?_after _, ?some, ?none, ?allows, ?ack⟩
  case encoded =>
    show (Parameters.ofList _).octets = _
    rw [Parameters.ofList_toList]
    simp only [hpayload]
    exact hkeeps.length_mod
  case some =>
    intro k value
    rw [Parameters.get?_eq_told]
    exact told_eq_some_iff
  case none =>
    intro k
    rw [Parameters.get?_eq_told]
    exact told_eq_none_iff
  case allows =>
    intro k value h
    rw [Parameters.get?_eq_told] at h
    exact allows_of_told hkeeps.legal h
  case ack =>
    intro hack
    apply List.eq_nil_of_length_eq_zero
    rw [hcount, hkeeps.empty_of_ack hack, Nat.zero_div]

/-- What is read from an accepted SETTINGS frame, and what does not matter to
it: if the frame is no acknowledgement, unknown parameters may be put in or
left out anywhere between the others. -/
theorem settings_read_exactly
    (h : readAs .settings buffer offset maxLimit = .ok f) :
    ∃ ps, f.ReadsExactly ps
      ∧ (f.raw.has .ack = false →
        ∀ xs us ys : List Parameter, (∀ u ∈ us, ¬ u.isKnown) →
          (ps.toList = xs ++ ys → f.SameWith ps (.ofList (xs ++ us ++ ys)))
          ∧ (ps.toList = xs ++ us ++ ys →
            f.SameWith ps (.ofList (xs ++ ys)))) := by
  have hreads : ∃ ps, f.ReadsExactly ps := by
    obtain ⟨hroom, hend, hkeeps, rfl⟩ := readAs_settings_iff.mp h
    obtain ⟨hmax, -, -⟩ := requireRoom_eq_ok_iff.mp hroom
    exact ⟨_, readsExactly_of_isSettings hkeeps (Nat.le_trans hend hmax)⟩
  obtain ⟨ps, hreads⟩ := hreads
  refine ⟨ps, hreads, ?_⟩
  intro hack xs us ys hus
  have hknown := filter_isKnown_insert xs ys hus
  constructor
  · intro hlist
    apply sameWith_of_known h hreads.parameters hack
    rw [hlist, hknown]
  · intro hlist
    apply sameWith_of_known h hreads.parameters hack
    rw [hlist, hknown]

/-- A frame that tells two windows with an unknown parameter between them, and
the same frame without the unknown one. -/
theorem settings_read_exactly_window :
    ∃ f g ps, readAs .settings (.ofList [0, 0, 18, 4, 0, 0, 0, 0, 0,
          0, 4, 0, 0, 0, 9, 0, 0x99, 0, 0, 0, 1, 0, 4, 0, 1, 0, 0]) 0 27 = .ok f
      ∧ f.parameters? = some ps ∧ (ps.after 2).remaining = 1
      ∧ ps.get? .initialWindowSize = some 0x10000
      ∧ readAs .settings (.ofList [0, 0, 12, 4, 0, 0, 0, 0, 0,
          0, 4, 0, 0, 0, 9, 0, 4, 0, 1, 0, 0]) 0 21 = .ok g
      ∧ g.parameters? = some (.ofList [⟨4, 9⟩, ⟨4, 0x10000⟩]) := by
  have hread := readAs_eq_of_isOk (show (readAs .settings
    (.ofList [0, 0, 18, 4, 0, 0, 0, 0, 0,
      0, 4, 0, 0, 0, 9, 0, 0x99, 0, 0, 0, 1, 0, 4, 0, 1, 0, 0]) 0 27).isOk by
        decide +kernel)
  obtain ⟨ps, hreads, hsame⟩ := settings_read_exactly hread
  have hps : ps = .ofList [⟨4, 9⟩, ⟨0x99, 1⟩, ⟨4, 0x10000⟩] := by
    refine Option.some.inj (hreads.parameters.symm.trans ?_)
    decide +kernel
  have hlist : ps.toList = [⟨4, 9⟩, ⟨0x99, 1⟩, ⟨4, 0x10000⟩] := by
    rw [hps, Parameters.toList_ofList]
  obtain ⟨-, hdelete⟩ := hsame (by decide +kernel) [⟨4, 9⟩] [⟨0x99, 1⟩]
    [⟨4, 0x10000⟩] (by decide)
  obtain ⟨g, hg, hparameters, -⟩ := hdelete hlist (by decide +kernel)
    (.ofList [0, 0, 12, 4, 0, 0, 0, 0, 0,
      0, 4, 0, 0, 0, 9, 0, 4, 0, 1, 0, 0]) 21 21 (by decide +kernel)
    (by decide +kernel) (by decide) (by decide)
  refine ⟨_, g, ps, hread, hreads.parameters, ?_, ?_, hg, hparameters⟩
  · rw [hreads.remaining_eq, hlist]
    rfl
  · rw [hreads.get_eq_some_iff, hlist]
    exact ⟨[⟨4, 9⟩, ⟨0x99, 1⟩], [], rfl, nofun⟩

end Frame

end Http2
