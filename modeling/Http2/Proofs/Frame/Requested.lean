/-
A frame is a function of what was asked for.

A builder is asked for one thing after the other, and each request moves
octets about. What stands in its window in the end can be told from the
requests alone (`Draft.requested`): the flags are those that any request
asks for, every part of fixed length is what the last request for it
says, and the content is what the requests add, in their order.

One request changes the draft of the requests so far into the draft of
the requests with this one (`requested_snoc`). `Builder.Meets` says that
the draft of the requests stands in the window of a builder; a builder
does so from its start on and after every run of requests that it grants
(`granted_meets`).
-/
import Http2.Proofs.Frame.Editing
import Http2.Proofs.Frame.Spelling

namespace Http2.Frame

-- ======================================================= what is asked for

namespace Edit

def streamId? : Edit → Option UInt32
  | .streamId id => some id
  | _ => none

def padding? : Edit → Option UInt8
  | .padding octets => some octets
  | _ => none

def priority? : Edit → Option Priority
  | .priority standing => some standing
  | _ => none

/-- The stream that goes into the fields. -/
def namedStream? : Edit → Option UInt32
  | .promisedStreamId id | .lastStreamId id => some id
  | _ => none

def errorCode? : Edit → Option ErrorCode
  | .errorCode code => some code
  | _ => none

def increment? : Edit → Option UInt32
  | .windowSizeIncrement increment => some increment
  | _ => none

/-- The payload of a PING frame, which can also be given as a number. -/
def payload? : Edit → Option (List UInt8)
  | .payload octets => some octets
  | .opaqueData data => some (BigEndian.encode 8 data.toNat)
  | _ => none

/-- The flag that an edit of a frame of a type sets. Padding and the
optional priority bring theirs. -/
def flag? (type : FrameType) : Edit → Option Flag
  | .endStream => some .endStream
  | .endHeaders => some .endHeaders
  | .acknowledge => some .ack
  | .padding _ => some .padded
  | .priority _ => if type = .headers then some .priority else none
  | _ => none

/-- The parameters that an edit adds. -/
def parameters : Edit → List Parameter
  | .setting known value => [.announce known value]
  | .settings record => record.announced.map fun s => .announce s.1 s.2
  | _ => []

/-- The octets that an edit adds to the content, given the encoder's
table. -/
def content (table : Hpack.Table) : Edit → List UInt8
  | .append octets => octets
  | .field f => (table.encode f).1
  | .fields map => (table.encodeAll map.toList).1
  | .setting known value => (Parameter.announce known value).encode
  | .settings record =>
    record.announced.flatMap fun s => (Parameter.announce s.1 s.2).encode
  | _ => []

/-- Whether the values of an edit are such that they can be sent. -/
def Legal : Edit → Prop
  | .streamId id | .promisedStreamId id | .lastStreamId id =>
    id.toNat < reservedBit
  | .priority standing => standing.streamDependency.toNat < reservedBit
  | .windowSizeIncrement increment =>
    increment ≠ 0 ∧ increment.toNat < reservedBit
  | .payload octets => octets.length = FrameType.ping.fixedLength
  | .setting known value => known.allows value
  | .settings record => ∀ s ∈ record.announced, s.1.allows s.2
  | _ => True

end Edit

/-- An edit that is asked for, with the encoder's table at that time. -/
structure Request where
  edit : Edit
  table : Hpack.Table := {}

namespace Request

/-- What the last of the requests for a part says. -/
def last? {β : Type} (part? : Edit → Option β) (rs : List Request) : Option β :=
  (rs.filterMap fun r => part? r.edit).getLast?

/-- The flags that any of the requests asks for. -/
def flags (type : FrameType) (rs : List Request) : UInt8 :=
  Flag.union (rs.filterMap fun r => r.edit.flag? type)

/-- The stream that the frame belongs to. -/
def streamId (rs : List Request) : UInt32 := (last? Edit.streamId? rs).getD 0

/-- All that the requests add, in their order. -/
def content (rs : List Request) : List UInt8 :=
  rs.flatMap fun r => r.edit.content r.table

/-- What the payload says. The parts that nobody asks for are zero, or
not there if they are optional. -/
def payload (type : FrameType) (rs : List Request) : Payload (List UInt8) :=
  let padding := last? Edit.padding? rs
  let stream := (last? Edit.namedStream? rs).getD 0
  let errorCode := ((last? Edit.errorCode? rs).map ErrorCode.code).getD 0
  match type with
  | .data => .data padding (content rs)
  | .headers => .headers padding (last? Edit.priority? rs) (content rs)
  | .priority => .priority ((last? Edit.priority? rs).getD ⟨0, false, 0⟩)
  | .rstStream => .rstStream errorCode
  | .settings => .settings ⟨content rs⟩
  | .pushPromise => .pushPromise padding stream (content rs)
  | .ping => .ping ((last? Edit.payload? rs).getD (List.replicate 8 0))
  | .goAway => .goAway stream errorCode (content rs)
  | .windowUpdate => .windowUpdate ((last? Edit.increment? rs).getD 0)
  | .continuation => .continuation (content rs)
  | .unrecognized => .unrecognized (content rs)

end Request

/-- The frame of a type that is asked for. -/
def Draft.requested (type : FrameType) (rs : List Request) : Draft :=
  .ofPayload (Request.flags type rs) (Request.streamId rs)
    (Request.payload type rs)

open Request

namespace Request

variable {β : Type} {part? : Edit → Option β} {rs more : List Request}

/-- What is said about a part has been asked for. -/
theorem exists_of_last? {part : β} (h : last? part? rs = some part) :
    ∃ r ∈ rs, part? r.edit = some part :=
  List.mem_filterMap.mp (List.mem_of_getLast? h)

/-- Nothing is said about a part that nobody asks for. -/
theorem last?_eq_none (h : ∀ r ∈ rs, part? r.edit = none) :
    last? part? rs = none := by
  rw [last?, List.filterMap_eq_nil_iff.mpr h]
  rfl

theorem last?_map {γ : Type} {other? : Edit → Option γ} {f : β → γ}
    (h : ∀ e, other? e = (part? e).map f) (rs : List Request) :
    last? other? rs = (last? part? rs).map f := by
  have hall : (fun r : Request => other? r.edit)
      = fun r => (part? r.edit).map f := funext fun r => h r.edit
  rw [last?, last?, hall, ← List.getLast?_map, List.map_filterMap]

/-- The last requests decide if one of them is about the part. -/
theorem last?_append (part? : Edit → Option β) (rs more : List Request) :
    last? part? (rs ++ more) = (last? part? more).or (last? part? rs) := by
  rw [last?, List.filterMap_append, List.getLast?_append]
  rfl

theorem content_append (rs more : List Request) :
    content (rs ++ more) = content rs ++ content more :=
  List.flatMap_append

end Request

-- ========================================================== one more request

namespace Request

variable {type : FrameType} {rs : List Request} {r : Request}

/-- The last request decides if it is about the part at all. -/
theorem last?_snoc {β : Type} (part? : Edit → Option β) (rs : List Request)
    (r : Request) :
    last? part? (rs ++ [r]) = (part? r.edit).or (last? part? rs) := by
  rw [last?_append, last?, List.filterMap_cons, List.filterMap_nil]
  cases part? r.edit <;> rfl

theorem flags_snoc (type : FrameType) (rs : List Request) (r : Request) :
    flags type (rs ++ [r])
      = flags type rs ||| ((r.edit.flag? type).map Flag.mask).getD 0 := by
  rw [flags, List.filterMap_append, Flag.union, List.foldl_append,
    List.filterMap_cons, List.filterMap_nil]
  cases r.edit.flag? type with
  | none => exact UInt8.or_zero.symm
  | some flag => rfl

theorem content_snoc (rs : List Request) (r : Request) :
    content (rs ++ [r]) = content rs ++ r.edit.content r.table := by
  rw [content_append]
  exact congrArg (content rs ++ ·) (List.flatMap_singleton _ r)

@[simp] theorem type_payload (type : FrameType) (rs : List Request) :
    (payload type rs).type = type := by
  cases type <;> rfl

theorem padding?_payload_snoc (happlies : r.edit.appliesTo type) :
    (payload type (rs ++ [r])).padding?
      = r.edit.padding?.or (payload type rs).padding? := by
  by_cases hpaddable : type.definedFlags.contains .padded
  case pos => cases type <;> first | exact last?_snoc .. | cases hpaddable
  case neg =>
    have hnone : r.edit.padding? = none := by
      rcases r with ⟨e, table⟩
      cases e with
      | padding octets => exact absurd happlies hpaddable
      | _ => rfl
    rw [hnone]
    cases type <;> first | rfl | exact absurd rfl hpaddable

/-- Nothing is added to the types that have no content. -/
theorem content_payload_snoc (happlies : r.edit.appliesTo type) :
    (payload type (rs ++ [r])).content
      = (payload type rs).content ++ r.edit.content r.table := by
  cases type with
  | priority | rstStream | ping | windowUpdate =>
      rcases r with ⟨e, table⟩
      cases e <;> first | rfl | cases happlies
  | _ => exact content_snoc rs r

end Request

namespace Draft

variable {type : FrameType} {rs : List Request} {r : Request}

@[simp] theorem type_requested (type : FrameType) (rs : List Request) :
    (requested type rs).type = type :=
  type_payload type rs

theorem flags_edit (d : Draft) (table : Hpack.Table) (e : Edit) :
    (d.edit table e).1.flags
      = d.flags ||| ((e.flag? d.type).map Flag.mask).getD 0 := by
  cases e with
  | endStream | endHeaders | acknowledge | padding => rfl
  | priority standing =>
      simp only [edit, setPriority, Edit.flag?]
      split
      case isTrue => rfl
      case isFalse => exact UInt8.or_zero.symm
  | _ => exact UInt8.or_zero.symm

theorem streamId_edit (d : Draft) (table : Hpack.Table) (e : Edit) :
    (d.edit table e).1.streamId = e.streamId?.getD d.streamId := by
  cases e with
  | priority standing =>
      simp only [edit, setPriority]
      split <;> rfl
  | _ => rfl

theorem padding_edit (d : Draft) (table : Hpack.Table) (e : Edit) :
    (d.edit table e).1.padding = e.padding?.or d.padding := by
  cases e with
  | priority standing =>
      simp only [edit, setPriority]
      split <;> rfl
  | _ => rfl

/-- Every edit adds octets behind the content, if only none. -/
theorem content_edit_eq (d : Draft) (table : Hpack.Table) (e : Edit) :
    (d.edit table e).1.content = d.content ++ e.content table := by
  cases e with
  | append | field | fields | setting | settings => rfl
  | priority standing =>
      refine Eq.trans ?_ (List.append_nil d.content).symm
      simp only [edit, setPriority]
      split <;> rfl
  | _ => exact (List.append_nil d.content).symm

/-- The fields stay as they are unless an edit is about one of them. -/
theorem fields_requested_of_none (type : FrameType) (rs : List Request)
    (hpriority : r.edit.priority? = none)
    (hstream : r.edit.namedStream? = none)
    (hcode : r.edit.errorCode? = none) (hincrement : r.edit.increment? = none)
    (hpayload : r.edit.payload? = none) :
    (requested type (rs ++ [r])).fields = (requested type rs).fields := by
  show (Request.payload type (rs ++ [r])).fields
    = (Request.payload type rs).fields
  cases type <;>
    simp only [Request.payload, Payload.fields, last?_snoc, hpriority,
      hstream, hcode, hincrement, hpayload, Option.none_or]

/-- One more request does to the fields what the edit does. -/
theorem fields_requested_snoc (hd : (requested type rs).WellFormed)
    (happlies : r.edit.appliesTo type) (hlegal : r.edit.Legal) :
    (requested type (rs ++ [r])).fields
      = ((requested type rs).edit r.table r.edit).1.fields := by
  have hlength : type ≠ .headers →
      (requested type rs).fields.length = type.fixedLength := by
    intro htype
    have htype : (requested type rs).type ≠ .headers := by
      rw [type_requested]
      exact htype
    rw [Builder.length_fields hd htype, type_requested]
  -- the type is told by the edit, but for edits that leave the fields alone
  rcases r with ⟨e, table⟩
  cases e with
  | priority standing =>
      have htype : type = .headers ∨ type = .priority := by
        simpa [Edit.appliesTo] using happlies
      rcases htype with rfl | rfl <;>
        simp only [requested, ofPayload, Request.payload, Payload.fields,
          last?_snoc, Edit.priority?, Option.some_or, Option.map_some,
          Option.getD_some, edit, setPriority]
  | promisedStreamId id =>
      obtain rfl : type = .pushPromise := beq_iff_eq.mp happlies
      rw [edit, setField_all]
      · simp only [requested, ofPayload, Request.payload, Payload.fields,
          last?_snoc, Edit.namedStream?, Option.some_or, Option.getD_some]
      · rw [BigEndian.length_encode, hlength (by decide)]
        rfl
  | lastStreamId id =>
      obtain rfl : type = .goAway := beq_iff_eq.mp happlies
      simp only [edit, setField, requested, ofPayload, Request.payload,
        Payload.fields, last?_snoc, Edit.namedStream?, Edit.errorCode?,
        Option.some_or, Option.none_or, Option.getD_some, List.take_zero,
        List.nil_append, BigEndian.length_encode]
      rw [Nat.zero_add, List.drop_left' (BigEndian.length_encode _ _)]
  | errorCode code =>
      have htype : type = .rstStream ∨ type = .goAway := by
        simpa [Edit.appliesTo] using happlies
      rcases htype with rfl | rfl
      · rw [edit, type_requested, if_neg (by decide), setField_all]
        · simp only [requested, ofPayload, Request.payload, Payload.fields,
            last?_snoc, Edit.errorCode?, Option.some_or, Option.map_some,
            Option.getD_some]
        · rw [BigEndian.length_encode, hlength (by decide)]
          rfl
      · rw [edit, type_requested, if_pos rfl]
        simp only [setField, requested, ofPayload, Request.payload,
          Payload.fields, last?_snoc, Edit.namedStream?, Edit.errorCode?,
          Option.some_or, Option.none_or, Option.map_some, Option.getD_some]
        rw [List.take_left' (BigEndian.length_encode _ _),
          List.drop_of_length_le (by simp), List.append_nil]
  | windowSizeIncrement increment =>
      obtain rfl : type = .windowUpdate := beq_iff_eq.mp happlies
      rw [edit, setField_all]
      · simp only [requested, ofPayload, Request.payload, Payload.fields,
          last?_snoc, Edit.increment?, Option.some_or, Option.getD_some]
      · rw [BigEndian.length_encode, hlength (by decide)]
        rfl
  | payload octets =>
      obtain rfl : type = .ping := beq_iff_eq.mp happlies
      rw [edit, setField_all]
      · simp only [requested, ofPayload, Request.payload, Payload.fields,
          last?_snoc, Edit.payload?, Option.some_or, Option.getD_some]
      · rw [hlength (by decide)]
        exact hlegal
  | opaqueData data =>
      obtain rfl : type = .ping := beq_iff_eq.mp happlies
      rw [edit, setField_all]
      · simp only [requested, ofPayload, Request.payload, Payload.fields,
          last?_snoc, Edit.payload?, Option.some_or, Option.getD_some]
      · rw [BigEndian.length_encode, hlength (by decide)]
        rfl
  | _ => exact fields_requested_of_none type rs rfl rfl rfl rfl rfl

/-- The draft of the requests with one more is the draft so far, edited
as requested. -/
theorem requested_snoc (hd : (requested type rs).WellFormed)
    (happlies : r.edit.appliesTo type) (hlegal : r.edit.Legal) :
    requested type (rs ++ [r])
      = ((requested type rs).edit r.table r.edit).1 := by
  apply Draft.ext
  case type => rw [type_edit, type_requested, type_requested]
  case flags =>
    rw [flags_edit, type_requested]
    exact flags_snoc type rs r
  case streamId =>
    rw [streamId_edit]
    show (last? Edit.streamId? (rs ++ [r])).getD 0
      = r.edit.streamId?.getD ((last? Edit.streamId? rs).getD 0)
    rw [last?_snoc]
    cases r.edit.streamId? <;> rfl
  case padding =>
    rw [padding_edit]
    exact padding?_payload_snoc happlies
  case fields => exact fields_requested_snoc hd happlies hlegal
  case content =>
    rw [content_edit_eq]
    exact content_payload_snoc happlies

/-- As long as nothing is asked for, the frame is the blank one. -/
theorem requested_nil (type : FrameType) : requested type [] = blank type := by
  cases type <;> rfl

end Draft

-- ============================================================ the requests

namespace Builder

/-- Meets requests one after the other, up to the first that is
refused. -/
def grant (b : Builder) : List Request → Attempt Builder
  | [] => .ok b
  | r :: rs =>
    match b.edit r.table r.edit with
    | .error refused => .refuse refused.left.1 refused.error
    | .ok (b, _) => b.grant rs

variable {b b' : Builder} {front back : List UInt8}

theorem grant_cons_eq_ok_iff {r : Request} {rs : List Request} :
    b.grant (r :: rs) = .ok b' ↔ ∃ b₁ table',
      b.edit r.table r.edit = .ok (b₁, table') ∧ b₁.grant rs = .ok b' := by
  rw [grant]
  constructor
  · intro hok
    split at hok
    case h_1 => cases hok
    case h_2 b₁ table' hedit => exact ⟨b₁, table', hedit, hok⟩
  · rintro ⟨b₁, table', hedit, hok⟩
    rw [hedit]
    exact hok

theorem addSettings_of_addSetting {known : Setting} {value : UInt32}
    (hok : b.addSetting known value = .ok b') :
    b.addSettings [(known, value)] = .ok b' :=
  Attempt.andThen_eq_ok_iff.mpr ⟨b', hok, rfl⟩

/-- Parameters are only added if their values are legal. -/
theorem allows_of_addSettings {settings : List (Setting × UInt32)}
    (hok : b.addSettings settings = .ok b') :
    ∀ s ∈ settings, s.1.allows s.2 := by
  induction settings generalizing b with
  | nil => nofun
  | cons s settings ih =>
      obtain ⟨b₁, hfirst, hok⟩ := Attempt.andThen_eq_ok_iff.mp hok
      refine List.forall_mem_cons.mpr ⟨?_, ih hok⟩
      unfold addSetting at hfirst
      split at hfirst
      case isTrue => cases hfirst
      case isFalse =>
        split at hfirst
        case isTrue hallows => exact hallows
        case isFalse => cases hfirst

/-- Whatever is granted has values that can be sent. -/
theorem legal_of_edit {e : Edit} {table table' : Hpack.Table}
    (hok : b.edit table e = .ok (b', table')) : e.Legal := by
  cases e with
  | streamId id | promisedStreamId id | lastStreamId id =>
      obtain ⟨hset, -⟩ := Attempt.within_pair_eq_ok_iff.mp hok
      obtain ⟨hid, -⟩ := Attempt.guarded_eq_ok_iff.mp hset
      exact requireStreamId_eq_ok_iff.mp hid
  | priority standing =>
      obtain ⟨hset, -⟩ := Attempt.within_pair_eq_ok_iff.mp hok
      obtain ⟨hid, -⟩ := Attempt.guarded_eq_ok_iff.mp hset
      exact requireStreamId_eq_ok_iff.mp hid
  | windowSizeIncrement increment =>
      obtain ⟨hset, -⟩ := Attempt.within_pair_eq_ok_iff.mp hok
      unfold setIncrement at hset
      split at hset
      case isTrue => cases hset
      case isFalse hbounds =>
        simp only [Bool.or_eq_true, decide_eq_true_eq, not_or,
          Nat.not_le] at hbounds
        exact hbounds
  | payload octets =>
      obtain ⟨hset, -⟩ := Attempt.within_pair_eq_ok_iff.mp hok
      unfold setPayload at hset
      split at hset
      case isTrue hlength => exact hlength
      case isFalse => cases hset
  | setting known value =>
      obtain ⟨hadd, -⟩ := Attempt.within_pair_eq_ok_iff.mp hok
      exact allows_of_addSettings (addSettings_of_addSetting hadd) _
        List.mem_cons_self
  | settings record =>
      obtain ⟨hadd, -⟩ := Attempt.within_pair_eq_ok_iff.mp hok
      exact allows_of_addSettings hadd
  | _ => trivial

/-- The builder has met all of the requests so far: the frame that they
ask for stands in its window. An acknowledgement of settings has been
kept empty. -/
structure Meets (b : Builder) (type : FrameType) (rs : List Request)
    (front back : List UInt8) : Prop where
  lays : b.LaysDown (.requested type rs) front back
  wellFormed : (Draft.requested type rs).WellFormed
  applies : ∀ r ∈ rs, r.edit.appliesTo type
  legal : ∀ r ∈ rs, r.edit.Legal
  ack : type = .settings → Flag.ack.isSet (Request.flags type rs) →
    Request.content rs = []

/-- To an acknowledgement nothing is added. -/
theorem unset_of_addSettings {settings : List (Setting × UInt32)}
    (hok : b.addSettings settings = .ok b') :
    settings = [] ∨ b.has .ack = false := by
  cases settings with
  | nil => exact .inl rfl
  | cons s settings =>
      obtain ⟨b₁, hfirst, -⟩ := Attempt.andThen_eq_ok_iff.mp hok
      unfold addSetting at hfirst
      split at hfirst
      case isTrue => cases hfirst
      case isFalse hunset => exact .inr (Bool.eq_false_iff.mpr hunset)

/-- An acknowledgement stays empty, and what is not empty does not become
one. -/
theorem LaysDown.ack_of_edit {d : Draft} (h : b.LaysDown d front back)
    (htype : d.type = .settings)
    (hack : Flag.ack.isSet d.flags → d.content = []) {e : Edit}
    {table table' : Hpack.Table} (happlies : e.appliesTo d.type)
    (hok : b.edit table e = .ok (b', table')) :
    Flag.ack.isSet (d.edit table e).1.flags →
      (d.edit table e).1.content = [] := by
  have hadd : ∀ {settings b₁}, b.addSettings settings = .ok b₁ →
      Flag.ack.isSet d.flags → settings = [] := by
    intro settings b₁ hadd hset
    rcases unset_of_addSettings hadd with hnil | hunset
    · exact hnil
    · rw [h.has_eq, hset] at hunset
      cases hunset
  rw [htype] at happlies
  cases e with
  | acknowledge =>
      intro _
      obtain ⟨hset, -⟩ := Attempt.within_pair_eq_ok_iff.mp hok
      unfold Builder.acknowledge at hset
      split at hset
      case isTrue => cases hset
      case isFalse hempty =>
        rw [h.type_eq, htype] at hempty
        have hlength : b.length = 0 := by simpa using hempty
        rw [length, payloadStart, h.limit_eq, h.offset_eq, Draft.length_encode,
          Draft.length_payload, Header.width] at hlength
        refine List.eq_nil_of_length_eq_zero (?_ : d.content.length = 0)
        simp only [Draft.body, List.length_append] at hlength
        omega
  | setting known value =>
      intro hset
      obtain ⟨hok, -⟩ := Attempt.within_pair_eq_ok_iff.mp hok
      cases hadd (addSettings_of_addSetting hok) hset
  | settings record =>
      intro hset
      obtain ⟨hok, -⟩ := Attempt.within_pair_eq_ok_iff.mp hok
      have hnil := hadd hok hset
      simp only [Draft.edit, hnil, List.flatMap_nil, Draft.append_nil]
      exact hack hset
  | _ => cases happlies

/-- One more request is met. -/
theorem Meets.edit {type : FrameType} {rs : List Request} {r : Request}
    {table' : Hpack.Table} (h : b.Meets type rs front back)
    (happlies : r.edit.appliesTo type)
    (hok : b.edit r.table r.edit = .ok (b', table')) :
    b'.Meets type (rs ++ [r]) front back := by
  have hlegal := legal_of_edit hok
  have happlies' : r.edit.appliesTo (Draft.requested type rs).type := by
    rw [Draft.type_requested]
    exact happlies
  have hsnoc := Draft.requested_snoc h.wellFormed happlies hlegal
  obtain ⟨hlays, hwell, -⟩ := h.lays.edit h.wellFormed happlies' hok
  rw [← hsnoc] at hlays hwell
  refine ⟨hlays, hwell, ?_, ?_, ?_⟩
  · exact List.forall_mem_append.mpr
      ⟨h.applies, List.forall_mem_singleton.mpr happlies⟩
  · exact List.forall_mem_append.mpr
      ⟨h.legal, List.forall_mem_singleton.mpr hlegal⟩
  · rintro rfl
    have hack := h.lays.ack_of_edit rfl (h.ack rfl) happlies' hok
    rw [← hsnoc] at hack
    exact hack

/-- A run of requests is met. -/
theorem Meets.grant {type : FrameType} {done rs : List Request}
    (h : b.Meets type done front back)
    (happlies : ∀ r ∈ rs, r.edit.appliesTo type) (hok : b.grant rs = .ok b') :
    b'.Meets type (done ++ rs) front back := by
  induction rs generalizing b done with
  | nil =>
      cases hok
      rw [List.append_nil]
      exact h
  | cons r rs ih =>
      obtain ⟨b₁, table', hfirst, hok⟩ := grant_cons_eq_ok_iff.mp hok
      obtain ⟨hr, hrs⟩ := List.forall_mem_cons.mp happlies
      have hrest := ih (h.edit hr hfirst) hrs hok
      rw [List.append_assoc] at hrest
      exact hrest

/-- A builder that has been started has met no requests. -/
theorem start_meets {type : FrameType} {buffer : Buffer} {offset maxLimit : Nat}
    (hstart : start type buffer offset maxLimit = .ok b) :
    b.Meets type [] (buffer.toList.take offset)
      (buffer.toList.drop maxLimit) := by
  have hlays := start_laysDown hstart
  have hwell := Draft.WellFormed.blank type
  rw [← Draft.requested_nil] at hlays hwell
  exact ⟨hlays, hwell, nofun, nofun, fun _ _ => rfl⟩

/-- From its start on, a builder meets all requests that it grants. -/
theorem granted_meets {type : FrameType} {buffer : Buffer}
    {offset maxLimit : Nat} {rs : List Request}
    (hstart : start type buffer offset maxLimit = .ok b)
    (happlies : ∀ r ∈ rs, r.edit.appliesTo type) (hok : b.grant rs = .ok b') :
    b'.Meets type rs (buffer.toList.take offset)
      (buffer.toList.drop maxLimit) :=
  (start_meets hstart).grant happlies hok

end Builder

end Http2.Frame
