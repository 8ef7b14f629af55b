/-
Frames as they are meant.

A builder works on octets in place. A `Draft` is what the octets stand
for: the flags, the stream, the padding, the fields that every frame of
the type has, and the content, each on its own. `Draft.encode` spells the
frame out, and `Draft.edit` says what an edit does to a draft.

In a HEADERS frame the priority fields are there once they are set. All
other types have their fields from the start.
-/
import Http2.Frame.Edit
import Http2.Proofs.Calls
import Http2.Proofs.Frame.Header

namespace Http2

-- ================================================================ flags

/-- Setting a flag sets that bit and leaves the others alone. -/
theorem Flag.isSet_or_mask (f g : Flag) (flags : UInt8) :
    f.isSet (flags ||| g.mask) = (f.isSet flags || f.mask == g.mask) := by
  have hdistrib : (flags ||| g.mask) &&& f.mask
      = (flags &&& f.mask) ||| (g.mask &&& f.mask) :=
    UInt8.toBitVec_inj.mp BitVec.and_or_distrib_right
  rw [isSet, isSet, hdistrib]
  by_cases hsame : f.mask = g.mask
  case pos =>
    have hmask : g.mask &&& g.mask ≠ 0 := by cases g <;> decide
    have hor : (flags &&& g.mask) ||| (g.mask &&& g.mask) ≠ 0 :=
      fun hzero => hmask (UInt8.or_eq_zero_iff.mp hzero).2
    rw [hsame, bne_iff_ne.mpr hor, beq_self_eq_true, Bool.or_true]
  case neg =>
    have hzero : g.mask &&& f.mask = 0 := by
      cases f <;> cases g <;> first | rfl | exact absurd rfl hsame
    rw [hzero, UInt8.or_zero, beq_eq_false_iff_ne.mpr hsame, Bool.or_false]

/-- Setting a flag that is set changes nothing. -/
theorem Flag.or_mask_of_isSet {f : Flag} {flags : UInt8} (h : f.isSet flags) :
    flags ||| f.mask = flags := by
  have hall : ∀ n : Fin 256, f.isSet (.ofFin n) →
      UInt8.ofFin n ||| f.mask = UInt8.ofFin n := by
    cases f <;> decide +kernel
  exact hall flags.toFin h

/-- Several flags are set as one of them is, or another flag with the
same bit. -/
theorem Flag.isSet_union (f : Flag) (flags : List Flag) :
    f.isSet (union flags) = flags.any (f.mask == ·.mask) := by
  have hfold : ∀ octet, f.isSet (flags.foldl (· ||| ·.mask) octet)
      = (f.isSet octet || flags.any (f.mask == ·.mask)) := by
    induction flags with
    | nil => exact fun octet => (Bool.or_false _).symm
    | cons g flags ih =>
        intro octet
        rw [List.foldl_cons, ih, isSet_or_mask, List.any_cons, Bool.or_assoc]
  have hzero : f.isSet 0 = false := by cases f <;> rfl
  rw [union, hfold, hzero, Bool.false_or]

namespace Frame

-- =============================================================== drafts

/-- A frame of a type by its parts. -/
@[ext] structure Draft where
  type : FrameType
  flags : UInt8 := 0
  streamId : UInt32 := 0
  padding : Option UInt8 := none
  fields : List UInt8
  content : List UInt8 := []

namespace Draft

/-- The draft that a builder starts with. -/
def blank (type : FrameType) : Draft :=
  { type, fields := List.replicate type.fixedLength 0 }

/-- The number of padding octets. -/
def padLength (d : Draft) : Nat := (d.padding.getD 0).toNat

/-- The payload up to the padding. -/
def body (d : Draft) : List UInt8 :=
  d.padding.toList ++ d.fields ++ d.content

/-- The payload. -/
def payload (d : Draft) : List UInt8 :=
  d.body ++ List.replicate d.padLength 0

def header (d : Draft) : Header :=
  ⟨d.payload.length, d.type.code, d.flags, d.streamId⟩

/-- The octets of the frame. -/
def encode (d : Draft) : List UInt8 := d.header.encode ++ d.payload

/-- How many octets the fields of the type take. -/
def fieldsLength (d : Draft) : Nat :=
  if d.type = .headers then
    if Flag.priority.isSet d.flags then Priority.width else 0
  else d.type.fixedLength

/-- The flags tell which optional parts are there, and everything fits
into its place. -/
structure WellFormed (d : Draft) : Prop where
  length_le : d.payload.length ≤ Header.maxLength
  stream_lt : d.streamId.toNat < reservedBit
  padded : Flag.padded.isSet d.flags = d.padding.isSome
  paddable : d.padding.isSome → d.type.definedFlags.contains .padded
  fields : d.fields.length = d.fieldsLength

-- ============================================================= layout

/-- The header behind the length field. -/
def tag (d : Draft) : List UInt8 :=
  d.type.code :: d.flags
    :: BigEndian.encode Header.streamIdWidth d.streamId.toNat

theorem encode_eq (d : Draft) :
    d.encode = BigEndian.encode Header.lengthWidth d.payload.length ++ d.tag
      ++ d.payload := by
  rw [encode, Header.encode_eq]
  rfl

@[simp] theorem length_tag (d : Draft) : d.tag.length = 6 := by
  simp [tag, Header.streamIdWidth]

@[simp] theorem length_payload (d : Draft) :
    d.payload.length = d.body.length + d.padLength := by
  simp [payload]

/-- Without padding there are only the fields and the content. -/
theorem payload_of_none {d : Draft} (h : d.padding = none) :
    d.payload = d.fields ++ d.content := by
  have hzero : d.padLength = 0 := by
    rw [padLength, h]
    rfl
  rw [payload, body, hzero, h, List.replicate_zero, List.append_nil]
  rfl

@[simp] theorem length_encode (d : Draft) :
    d.encode.length = 9 + d.payload.length := by
  simp [encode, Header.width]

-- ================================================================ edits

def setFlag (d : Draft) (flag : Flag) : Draft :=
  { d with flags := d.flags ||| flag.mask }

/-- Overwrites a part of the fields. -/
def setField (d : Draft) (start : Nat) (octets : List UInt8) : Draft :=
  { d with fields := d.fields.take start ++ octets
      ++ d.fields.drop (start + octets.length) }

def append (d : Draft) (octets : List UInt8) : Draft :=
  { d with content := d.content ++ octets }

def setPadding (d : Draft) (padding : UInt8) : Draft :=
  { d.setFlag .padded with padding := some padding }

/-- Sets the priority fields, which a HEADERS frame has from then on. -/
def setPriority (d : Draft) (priority : Priority) : Draft :=
  let d := if d.type = .headers then d.setFlag .priority else d
  { d with fields := priority.encode }

/-- What a successful edit does, given the encoder's table. -/
def edit (d : Draft) (table : Hpack.Table) : Edit → Draft × Hpack.Table
  | .streamId id => ({ d with streamId := id }, table)
  | .endStream => (d.setFlag .endStream, table)
  | .endHeaders => (d.setFlag .endHeaders, table)
  | .acknowledge => (d.setFlag .ack, table)
  | .padding octets => (d.setPadding octets, table)
  | .append octets => (d.append octets, table)
  | .priority priority => (d.setPriority priority, table)
  | .field field => (d.append (table.encode field).1, (table.encode field).2)
  | .fields fields =>
    (d.append (table.encodeAll fields.toList).1,
      (table.encodeAll fields.toList).2)
  | .promisedStreamId id | .lastStreamId id =>
    (d.setField 0 (BigEndian.encode 4 id.toNat), table)
  | .errorCode code =>
    (d.setField (if d.type = .goAway then 4 else 0)
      (BigEndian.encode 4 code.code.toNat), table)
  | .windowSizeIncrement increment =>
    (d.setField 0 (BigEndian.encode 4 increment.toNat), table)
  | .payload octets => (d.setField 0 octets, table)
  | .opaqueData data => (d.setField 0 (BigEndian.encode 8 data.toNat), table)
  | .setting setting value =>
    (d.append (Parameter.announce setting value).encode, table)
  | .settings settings =>
    (d.append (settings.announced.flatMap fun s =>
      (Parameter.announce s.1 s.2).encode), table)

/-- What several edits do, one after the other. -/
def editAll (d : Draft) (table : Hpack.Table) :
    List Edit → Draft × Hpack.Table
  | [] => (d, table)
  | e :: es => (d.edit table e).1.editAll (d.edit table e).2 es

theorem append_append (d : Draft) (xs ys : List UInt8) :
    (d.append xs).append ys = d.append (xs ++ ys) := by
  simp only [append, List.append_assoc]

@[simp] theorem append_nil (d : Draft) : d.append [] = d := by
  simp only [append, List.append_nil]

/-- Overwriting all of the fields replaces them. -/
theorem setField_all {d : Draft} {octets : List UInt8}
    (h : octets.length = d.fields.length) :
    d.setField 0 octets = { d with fields := octets } := by
  simp only [setField, List.take_zero, List.nil_append, Nat.zero_add, h,
    List.drop_length, List.append_nil]

-- ============================================================== lengths

theorem length_body_append (d : Draft) (octets : List UInt8) :
    (d.append octets).body.length = d.body.length + octets.length := by
  simp only [body, append, List.length_append, Nat.add_assoc]

/-- The pad length counts when it is added. -/
theorem length_body_setPadding (d : Draft) (padding : UInt8) :
    (d.setPadding padding).body.length
      = d.body.length + if d.padding.isSome then 0 else 1 := by
  simp only [body, setPadding, setFlag, List.length_append]
  cases d.padding with
  | none =>
      simp only [Option.toList_some, Option.toList_none, List.length_cons,
        List.length_nil, Option.isSome_none, Bool.false_eq_true, if_false]
      omega
  | some old => rfl

@[simp] theorem padLength_setPriority (d : Draft) (priority : Priority) :
    (d.setPriority priority).padLength = d.padLength := by
  simp only [setPriority]
  split <;> rfl

@[simp] theorem type_edit (d : Draft) (table : Hpack.Table) (e : Edit) :
    (d.edit table e).1.type = d.type := by
  cases e with
  | priority priority =>
      simp only [edit, setPriority]
      split <;> rfl
  | _ => rfl

@[simp] theorem type_editAll (d : Draft) (table : Hpack.Table)
    (es : List Edit) : (d.editAll table es).1.type = d.type := by
  induction es generalizing d table with
  | nil => rfl
  | cons e es ih => rw [editAll, ih, type_edit]

-- ========================================================= well-formedness

namespace WellFormed

variable {d : Draft}

theorem blank (type : FrameType) : (blank type).WellFormed where
  length_le := by cases type <;> decide
  stream_lt := show (0 : UInt32).toNat < reservedBit by decide
  padded := show Flag.padded.isSet 0 = false by decide
  paddable := nofun
  fields := by cases type <;> rfl

/-- The flags that say nothing about the layout can be set freely. -/
theorem setFlag (h : d.WellFormed) {flag : Flag}
    (hpadded : Flag.padded.mask ≠ flag.mask)
    (hpriority : Flag.priority.mask ≠ flag.mask) :
    (d.setFlag flag).WellFormed where
  length_le := h.length_le
  stream_lt := h.stream_lt
  padded := by
    show Flag.padded.isSet (d.flags ||| flag.mask) = d.padding.isSome
    rw [Flag.isSet_or_mask, beq_eq_false_iff_ne.mpr hpadded, Bool.or_false,
      h.padded]
  paddable := h.paddable
  fields := by
    refine h.fields.trans ?_
    simp only [fieldsLength, Draft.setFlag, Flag.isSet_or_mask,
      beq_eq_false_iff_ne.mpr hpriority, Bool.or_false]

theorem setStreamId (h : d.WellFormed) {id : UInt32}
    (hid : id.toNat < reservedBit) :
    ({ d with streamId := id } : Draft).WellFormed :=
  ⟨h.length_le, hid, h.padded, h.paddable, h.fields⟩

theorem setField (h : d.WellFormed) {start : Nat} {octets : List UInt8}
    (hin : start + octets.length ≤ d.fields.length) :
    (d.setField start octets).WellFormed := by
  have hsame : (d.setField start octets).fields.length = d.fields.length := by
    simp only [Draft.setField, List.length_append, List.length_take,
      List.length_drop]
    omega
  refine ⟨?_, h.stream_lt, h.padded, h.paddable, hsame.trans h.fields⟩
  have hlength := h.length_le
  simp only [length_payload, body, List.length_append] at hlength ⊢
  rw [hsame]
  exact hlength

theorem append (h : d.WellFormed) {octets : List UInt8}
    (hlength : (d.append octets).payload.length ≤ Header.maxLength) :
    (d.append octets).WellFormed :=
  ⟨hlength, h.stream_lt, h.padded, h.paddable, h.fields⟩

theorem setPadding (h : d.WellFormed) {padding : UInt8}
    (hlength : (d.setPadding padding).payload.length ≤ Header.maxLength)
    (happlies : d.type.definedFlags.contains .padded) :
    (d.setPadding padding).WellFormed where
  length_le := hlength
  stream_lt := h.stream_lt
  padded := by
    show Flag.padded.isSet (d.flags ||| Flag.padded.mask) = true
    rw [Flag.isSet_or_mask, beq_self_eq_true, Bool.or_true]
  paddable := fun _ => happlies
  fields := by
    have hother : (Flag.priority.mask == Flag.padded.mask) = false := rfl
    refine h.fields.trans ?_
    simp only [fieldsLength, Draft.setPadding, Draft.setFlag,
      Flag.isSet_or_mask, hother, Bool.or_false]

theorem setPriority (h : d.WellFormed) {priority : Priority}
    (hlength : (d.setPriority priority).payload.length ≤ Header.maxLength)
    (happlies : d.type = .headers ∨ d.type = .priority) :
    (d.setPriority priority).WellFormed := by
  have hwidth : priority.encode.length = 5 := by simp [Priority.encode]
  rcases happlies with htype | htype
  · have heq : d.setPriority priority
        = { d.setFlag .priority with fields := priority.encode } := by
      rw [Draft.setPriority, if_pos htype]
    rw [heq] at hlength ⊢
    refine ⟨hlength, h.stream_lt, ?_, h.paddable, ?_⟩
    · show Flag.padded.isSet (d.flags ||| Flag.priority.mask) = _
      rw [Flag.isSet_or_mask, h.padded]
      exact Bool.or_false _
    · show priority.encode.length = if d.type = .headers then
        if Flag.priority.isSet (d.flags ||| Flag.priority.mask) then _ else _
        else _
      rw [if_pos htype, Flag.isSet_or_mask, beq_self_eq_true, Bool.or_true,
        if_pos rfl, hwidth]
      rfl
  · have hother : d.type ≠ .headers := by
      rw [htype]
      nofun
    have heq : d.setPriority priority
        = { d with fields := priority.encode } := by
      rw [Draft.setPriority, if_neg hother]
    rw [heq] at hlength ⊢
    refine ⟨hlength, h.stream_lt, h.padded, h.paddable, ?_⟩
    show priority.encode.length = if d.type = .headers then _ else _
    rw [if_neg hother, hwidth, htype]
    rfl

end WellFormed

/-- Priority fields count when they are added. -/
theorem WellFormed.length_body_setPriority {d : Draft} (h : d.WellFormed)
    (htype : d.type = .headers) (hunset : Flag.priority.isSet d.flags = false)
    (priority : Priority) :
    (d.setPriority priority).body.length
      = d.body.length + priority.encode.length := by
  have hnone : d.fields.length = 0 := by
    rw [h.fields, fieldsLength, if_pos htype, hunset]
    rfl
  simp only [body, Draft.setPriority, if_pos htype, Draft.setFlag,
    List.length_append, hnone]
  omega

/-- Priority fields that are there already are overwritten. -/
theorem setPriority_eq_setField {d : Draft} {priority : Priority}
    (hlength : d.fields.length = 5)
    (hset : d.type = .headers → Flag.priority.isSet d.flags) :
    d.setPriority priority = d.setField 0 priority.encode := by
  have hwidth : priority.encode.length = d.fields.length := by
    simp [Priority.encode, hlength]
  rw [Draft.setField_all hwidth, Draft.setPriority]
  split
  case isFalse => rfl
  case isTrue htype =>
    rw [Draft.setFlag, Flag.or_mask_of_isSet (hset htype)]

end Draft

end Frame

end Http2
