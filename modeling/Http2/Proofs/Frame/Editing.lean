/-
Edits of a frame and of its draft.

Every edit that succeeds does to the builder's octets what it does to the
draft (`LaysDown.edit`), from the blank frame on (`start_laysDown`).
`Edited` collects what can be reached in this way, with any encoder's
table at each step.
-/
import Http2.Proofs.Frame.Building
import Http2.Proofs.HeaderBlock.Building

namespace Http2.Frame.Builder

variable {b b' : Builder} {d : Draft} {front back : List UInt8}

-- ================================================================ the start

/-- The frame of a type with no flags, stream 0, and `fixed` zeros. -/
def blankOf (type : FrameType) (fixed : Nat) : List UInt8 :=
  Header.encode ⟨fixed, type.code, 0, 0⟩ ++ List.replicate fixed 0

/-- Starts a frame at `offset` with `fixed` octets as its fields. -/
def startWith (type : FrameType) (fixed : Nat) (buffer : Buffer)
    (offset maxLimit : Nat) : Except Error Builder := do
  let width := Header.width + fixed
  requireRoom buffer.size offset maxLimit width
  return {
    type
    buffer := buffer.write offset (blankOf type fixed)
    offset
    limit := offset + width
    maxLimit }

/-- A frame is started with the fields that every frame of its type has. -/
theorem start_eq_startWith (type : FrameType) :
    start type = startWith type type.fixedLength := rfl

variable {type : FrameType} {fixed : Nat} {buffer : Buffer}
variable {offset maxLimit : Nat}

theorem length_blankOf (type : FrameType) (fixed : Nat) :
    (blankOf type fixed).length = Header.width + fixed := by
  simp [blankOf]

theorem encode_blankOf (type : FrameType) (fixed : Nat) :
    ({ type, fields := List.replicate fixed 0 } : Draft).encode
      = blankOf type fixed := by
  have hpayload : ({ type, fields := List.replicate fixed 0 } : Draft).payload
      = List.replicate fixed 0 := by
    show [] ++ List.replicate fixed 0 ++ [] ++ [] = _
    rw [List.nil_append, List.append_nil, List.append_nil]
  rw [Draft.encode, Draft.header, hpayload, List.length_replicate]
  rfl

theorem startWith_eq_ok_iff :
    startWith type fixed buffer offset maxLimit = .ok b
      ↔ requireRoom buffer.size offset maxLimit (Header.width + fixed) = .ok ()
        ∧ b = ⟨type, buffer.write offset (blankOf type fixed), offset,
          offset + (Header.width + fixed), maxLimit, 0⟩ :=
  check_eq_ok_iff

theorem start_eq_ok_iff :
    start type buffer offset maxLimit = .ok b
      ↔ requireRoom buffer.size offset maxLimit
          (Header.width + type.fixedLength) = .ok ()
        ∧ b = ⟨type, buffer.write offset (blank type), offset,
          offset + (Header.width + type.fixedLength), maxLimit, 0⟩ :=
  check_eq_ok_iff

/-- A builder starts with a blank frame. -/
theorem startWith_laysDown
    (hok : startWith type fixed buffer offset maxLimit = .ok b) :
    b.LaysDown { type, fields := List.replicate fixed 0 }
      (buffer.toList.take offset) (buffer.toList.drop maxLimit) := by
  obtain ⟨hroom, rfl⟩ := startWith_eq_ok_iff.mp hok
  obtain ⟨hmax, -, hroom⟩ := requireRoom_eq_ok_iff.mp hroom
  have hfront : (buffer.toList.take offset).length = offset := by
    rw [List.length_take, Buffer.length_toList]
    omega
  have hblank := length_blankOf type fixed
  obtain ⟨room, hlength, hrest⟩ := buffer.exists_drop_eq
    (show offset + (blankOf type fixed).length ≤ maxLimit by omega) hmax
  refine ⟨rfl, hfront.symm, ?_, rfl, room, ?_, ?_⟩
  · show offset + (Header.width + fixed) = _
    rw [hfront, encode_blankOf, hblank]
  · show maxLimit = offset + (Header.width + fixed) + room.length
    omega
  · show (buffer.write offset (blankOf type fixed)).toList = _
    rw [Buffer.toList_write, encode_blankOf, hrest]
    simp only [List.append_assoc]

theorem start_laysDown (hok : start type buffer offset maxLimit = .ok b) :
    b.LaysDown (.blank type) (buffer.toList.take offset)
      (buffer.toList.drop maxLimit) :=
  startWith_laysDown hok

-- ============================================================= one edit

/-- A field is added by filling a block in place of the content and
ending the content where the block ends. -/
theorem addField_eq_ok_iff {table table' : Hpack.Table} {f : Field} :
    b.addField table f = .ok (b', table')
      ↔ ∃ block block',
        HeaderBlock.Builder.start b.buffer b.contentEnd (b.maxLimit - b.padding)
          = .ok block
        ∧ block.field table f = .ok (block', table')
        ∧ ({ b with buffer := block'.buffer } : Builder).endContentAt
          block'.limit = .ok b' := by
  unfold addField
  dsimp only
  constructor
  · intro hok
    split at hok
    case h_1 e hstart => cases hok
    case h_2 block hstart =>
      split at hok
      case h_1 r hfield => cases hok
      case h_2 block' table'' hfield =>
        obtain ⟨b'', hend, hpair⟩ := Attempt.within_eq_ok_iff.mp hok
        cases hpair
        exact ⟨block, block', hstart, hfield, hend⟩
  · rintro ⟨block, block', hstart, hfield, hend⟩
    simp only [hstart, hfield]
    exact Attempt.within_eq_ok_iff.mpr ⟨b', hend, rfl⟩

/-- Adding a field is adding its representation. -/
theorem addField_eq_ok {table table' : Hpack.Table} {f : Field}
    (hok : b.addField table f = .ok (b', table')) :
    b.append (table.encode f).1 = .ok b' ∧ table' = (table.encode f).2 := by
  obtain ⟨block, block', hstart, hfield, hend⟩ := addField_eq_ok_iff.mp hok
  obtain ⟨-, rfl⟩ := HeaderBlock.Builder.start_eq_ok_iff.mp hstart
  obtain ⟨happend, htable⟩ := HeaderBlock.Builder.field_eq_ok_iff.mp hfield
  obtain ⟨-, rfl⟩ := HeaderBlock.Builder.append_eq_ok_iff.mp happend
  -- that the padding fits behind the field is checked once more when the
  -- content is ended
  refine ⟨Attempt.guarded_eq_ok_iff.mpr ⟨?_, hend⟩, htable⟩
  exact (Attempt.guarded_eq_ok_iff.mp hend).1

/-- Adding a parameter is adding its octets. -/
theorem append_of_addSetting {setting : Setting} {value : UInt32}
    (hok : b.addSetting setting value = .ok b') :
    b.append (Parameter.announce setting value).encode = .ok b' := by
  unfold addSetting at hok
  split at hok
  case isTrue => cases hok
  case isFalse =>
    split at hok
    case isTrue => exact hok
    case isFalse => cases hok

/-- The first priority of a HEADERS frame goes in front of the block. -/
theorem LaysDown.insertPriority (h : b.LaysDown d front back)
    (hd : d.WellFormed) {priority : Priority} (htype : d.type = .headers)
    (hunset : Flag.priority.isSet d.flags = false)
    (hok : b.insert b.fieldsStart priority.encode = .ok b') :
    (b'.setFlag .priority).LaysDown (d.setPriority priority) front back
      ∧ (d.setPriority priority).payload.length ≤ Header.maxLength := by
  have hnone : d.fields = [] := by
    have hfields := hd.fields
    rw [Draft.fieldsLength, if_pos htype, hunset] at hfields
    exact List.eq_nil_of_length_eq_zero hfields
  have hbody : d.body = d.padding.toList ++ d.content := by
    rw [Draft.body, hnone, List.append_nil]
  have hbody' : ({ d with fields := priority.encode } : Draft).body
      = d.padding.toList ++ priority.encode ++ d.content := rfl
  have hsame : d.setPriority priority
      = ({ d with fields := priority.encode } : Draft).setFlag .priority := by
    rw [Draft.setPriority, if_pos htype]
    rfl
  obtain ⟨hlays, hfits⟩ := h.insert hbody hbody' rfl rfl rfl
    (h.fieldsStart_eq hd) hok
  rw [hsame]
  exact ⟨hlays.setFlag .priority, hfits⟩

theorem LaysDown.setPriority (h : b.LaysDown d front back) (hd : d.WellFormed)
    {priority : Priority} (happlies : d.type = .headers ∨ d.type = .priority)
    (hok : b.setPriority priority = .ok b') :
    b'.LaysDown (d.setPriority priority) front back
      ∧ (d.setPriority priority).payload.length ≤ Header.maxLength := by
  obtain ⟨-, hok⟩ := Attempt.guarded_eq_ok_iff.mp hok
  rw [h.type_eq, h.has_eq] at hok
  by_cases hfirst : d.type = .headers ∧ Flag.priority.isSet d.flags = false
  case pos =>
    obtain ⟨htype, hunset⟩ := hfirst
    simp only [htype, hunset, decide_true, Bool.not_false, Bool.and_true,
      if_true] at hok
    obtain ⟨b₁, hinsert, hflag⟩ := Attempt.andThen_eq_ok_iff.mp hok
    cases hflag
    exact h.insertPriority hd htype hunset hinsert
  case neg =>
    have hset : d.type = .headers → Flag.priority.isSet d.flags := by
      intro htype
      cases hflag : Flag.priority.isSet d.flags with
      | true => rfl
      | false => exact absurd ⟨htype, hflag⟩ hfirst
    have hlength : d.fields.length = 5 := by
      rw [hd.fields, Draft.fieldsLength]
      rcases happlies with htype | htype
      · rw [if_pos htype, if_pos (hset htype)]
        rfl
      · rw [htype]
        rfl
    have hwrite : (decide (d.type = .headers)
        && !Flag.priority.isSet d.flags) = false := by
      rw [Bool.and_eq_false_imp, decide_eq_true_eq]
      intro htype
      rw [hset htype]
      rfl
    have hin : 0 + priority.encode.length ≤ d.fields.length := by
      simp [Priority.encode, hlength]
    have hlays := h.setField hd hin
    rw [hwrite] at hok
    cases hok
    rw [Draft.setPriority_eq_setField hlength hset]
    rw [Nat.add_zero] at hlays
    exact ⟨hlays, (hd.setField hin).length_le⟩

-- =========================================================== several parts

theorem addFields_cons (b : Builder) (table : Hpack.Table) (f : Field)
    (fs : List Field) :
    b.addFields table (f :: fs)
      = (b.addField table f).andThen fun s => s.1.addFields s.2 fs := by
  rw [Builder.addFields]
  cases b.addField table f <;> rfl

theorem addFields_eq_chain (b : Builder) (table : Hpack.Table)
    (fs : List Field) :
    b.addFields table fs
      = Attempt.chain (fun s f => s.1.addField s.2 f) (b, table) fs :=
  Attempt.eq_chain (fun s => s.1.addFields s.2) (fun _ => rfl)
    (fun s => addFields_cons s.1 s.2) (b, table) fs

theorem addSettings_eq_chain (b : Builder)
    (settings : List (Setting × UInt32)) :
    b.addSettings settings
      = Attempt.chain (fun b s => b.addSetting s.1 s.2) b settings :=
  Attempt.eq_chain Builder.addSettings (fun _ => rfl) (fun _ _ _ => rfl)
    b settings

/-- Adding fields is adding their representations. -/
theorem LaysDown.addFields (h : b.LaysDown d front back) (hd : d.WellFormed)
    {table table' : Hpack.Table} {fs : List Field}
    (hok : b.addFields table fs = .ok (b', table')) :
    b'.LaysDown (d.append (table.encodeAll fs).1) front back
      ∧ (d.append (table.encodeAll fs).1).WellFormed
      ∧ table' = (table.encodeAll fs).2 := by
  rw [addFields_eq_chain] at hok
  refine Attempt.chain_induction (P := fun done s =>
    s.1.LaysDown (d.append (table.encodeAll done).1) front back
      ∧ (d.append (table.encodeAll done).1).WellFormed
      ∧ s.2 = (table.encodeAll done).2) ?_ ⟨?_, ?_, rfl⟩ hok
  · rintro done ⟨b₁, table₁⟩ f ⟨b₂, table₂⟩ ⟨hlays, hwell, rfl⟩ hfirst
    obtain ⟨happend, rfl⟩ := addField_eq_ok hfirst
    obtain ⟨hlays', hfits⟩ := hlays.append happend
    rw [Hpack.Table.encodeAll_append, Hpack.Table.encodeAll_singleton,
      ← Draft.append_append]
    exact ⟨hlays', hwell.append hfits, rfl⟩
  · rwa [Hpack.Table.encodeAll, Draft.append_nil]
  · rwa [Hpack.Table.encodeAll, Draft.append_nil]

/-- Adding parameters is adding their octets. -/
theorem LaysDown.addSettings (h : b.LaysDown d front back) (hd : d.WellFormed)
    {settings : List (Setting × UInt32)}
    (hok : b.addSettings settings = .ok b') :
    b'.LaysDown (d.append (settings.flatMap fun s =>
        (Parameter.announce s.1 s.2).encode)) front back
      ∧ (d.append (settings.flatMap fun s =>
        (Parameter.announce s.1 s.2).encode)).WellFormed := by
  rw [addSettings_eq_chain] at hok
  refine Attempt.chain_induction (P := fun done b₁ =>
    b₁.LaysDown (d.append (done.flatMap fun s =>
        (Parameter.announce s.1 s.2).encode)) front back
      ∧ (d.append (done.flatMap fun s =>
        (Parameter.announce s.1 s.2).encode)).WellFormed) ?_ ⟨?_, ?_⟩ hok
  · rintro done b₁ s b₂ ⟨hlays, hwell⟩ hfirst
    obtain ⟨hlays', hfits⟩ := hlays.append (append_of_addSetting hfirst)
    rw [List.flatMap_append, List.flatMap_singleton, ← Draft.append_append]
    exact ⟨hlays', hwell.append hfits⟩
  · rwa [List.flatMap_nil, Draft.append_nil]
  · rwa [List.flatMap_nil, Draft.append_nil]

-- ================================================================ any edit

/-- The fields of a type other than HEADERS are there from the start. -/
theorem length_fields {d : Draft} (hd : d.WellFormed) (h : d.type ≠ .headers) :
    d.fields.length = d.type.fixedLength := by
  rw [hd.fields, Draft.fieldsLength, if_neg h]

theorem LaysDown.setNumber (h : b.LaysDown d front back) (hd : d.WellFormed)
    {start : Nat} (hin : start + 4 ≤ d.fields.length) (value : UInt32) :
    (b.setField start value).LaysDown
        (d.setField start (BigEndian.encode 4 value.toNat)) front back
      ∧ (d.setField start (BigEndian.encode 4 value.toNat)).WellFormed := by
  have hin : start + (BigEndian.encode 4 value.toNat).length
      ≤ d.fields.length := by
    rw [BigEndian.length_encode]
    exact hin
  exact ⟨h.setField hd hin, hd.setField hin⟩

/-- The number that the fields of a type start with. -/
theorem LaysDown.setFirstNumber (h : b.LaysDown d front back)
    (hd : d.WellFormed) (hwide : d.type ≠ .headers ∧ 4 ≤ d.type.fixedLength)
    (value : UInt32) :
    (b.setField 0 value).LaysDown
        (d.setField 0 (BigEndian.encode 4 value.toNat)) front back
      ∧ (d.setField 0 (BigEndian.encode 4 value.toNat)).WellFormed := by
  refine h.setNumber hd ?_ value
  rw [Nat.zero_add, length_fields hd hwide.1]
  exact hwide.2

/-- The whole payload of a PING frame is filled in. -/
theorem LaysDown.setPayload (h : b.LaysDown d front back) (hd : d.WellFormed)
    (htype : d.type = .ping) {octets : List UInt8}
    (hlength : octets.length = 8) :
    (b.overwrite b.fieldsStart octets).LaysDown (d.setField 0 octets) front back
      ∧ (d.setField 0 octets).WellFormed := by
  have hin : 0 + octets.length ≤ d.fields.length := by
    rw [length_fields hd (htype ▸ nofun), htype, hlength]
    decide
  have hlays := h.setField hd hin
  rw [Nat.add_zero] at hlays
  exact ⟨hlays, hd.setField hin⟩

/-- An edit that succeeds does to the octets what it does to the
draft. -/
theorem LaysDown.edit (h : b.LaysDown d front back) (hd : d.WellFormed)
    {table table' : Hpack.Table} {e : Edit} (happlies : e.appliesTo d.type)
    (hok : b.edit table e = .ok (b', table')) :
    b'.LaysDown (d.edit table e).1 front back ∧ (d.edit table e).1.WellFormed
      ∧ table' = (d.edit table e).2 := by
  cases e with
  | streamId id =>
      obtain ⟨hset, rfl⟩ := Attempt.within_pair_eq_ok_iff.mp hok
      obtain ⟨hid, hset⟩ := Attempt.guarded_eq_ok_iff.mp hset
      cases hset
      exact ⟨h.setStreamId id,
        hd.setStreamId (requireStreamId_eq_ok_iff.mp hid), rfl⟩
  | endStream =>
      cases hok
      exact ⟨h.setFlag .endStream, hd.setFlag (by decide) (by decide), rfl⟩
  | endHeaders =>
      cases hok
      exact ⟨h.setFlag .endHeaders, hd.setFlag (by decide) (by decide), rfl⟩
  | acknowledge =>
      obtain ⟨hset, rfl⟩ := Attempt.within_pair_eq_ok_iff.mp hok
      unfold Builder.acknowledge at hset
      split at hset
      case isTrue => cases hset
      case isFalse =>
        cases hset
        exact ⟨h.setFlag .ack, hd.setFlag (by decide) (by decide), rfl⟩
  | padding octets =>
      obtain ⟨hset, rfl⟩ := Attempt.within_pair_eq_ok_iff.mp hok
      obtain ⟨hlays, hfits⟩ := h.setPadding hd hset
      exact ⟨hlays, hd.setPadding hfits happlies, rfl⟩
  | append octets =>
      obtain ⟨hset, rfl⟩ := Attempt.within_pair_eq_ok_iff.mp hok
      obtain ⟨hlays, hfits⟩ := h.append hset
      exact ⟨hlays, hd.append hfits, rfl⟩
  | priority priority =>
      obtain ⟨hset, rfl⟩ := Attempt.within_pair_eq_ok_iff.mp hok
      have htype : d.type = .headers ∨ d.type = .priority := by
        simpa [Edit.appliesTo] using happlies
      obtain ⟨hlays, hfits⟩ := h.setPriority hd htype hset
      exact ⟨hlays, hd.setPriority hfits htype, rfl⟩
  | field field =>
      obtain ⟨happend, rfl⟩ := addField_eq_ok hok
      obtain ⟨hlays, hfits⟩ := h.append happend
      exact ⟨hlays, hd.append hfits, rfl⟩
  | fields fields => exact h.addFields hd hok
  | promisedStreamId id =>
      obtain ⟨hset, rfl⟩ := Attempt.within_pair_eq_ok_iff.mp hok
      obtain ⟨-, hset⟩ := Attempt.guarded_eq_ok_iff.mp hset
      cases hset
      have htype : d.type = .pushPromise := beq_iff_eq.mp happlies
      obtain ⟨hlays, hwell⟩ := h.setFirstNumber hd (by rw [htype]; decide) id
      exact ⟨hlays, hwell, rfl⟩
  | lastStreamId id =>
      obtain ⟨hset, rfl⟩ := Attempt.within_pair_eq_ok_iff.mp hok
      obtain ⟨-, hset⟩ := Attempt.guarded_eq_ok_iff.mp hset
      cases hset
      have htype : d.type = .goAway := beq_iff_eq.mp happlies
      obtain ⟨hlays, hwell⟩ := h.setFirstNumber hd (by rw [htype]; decide) id
      exact ⟨hlays, hwell, rfl⟩
  | errorCode code =>
      cases hok
      have hplace : b.errorCodeOffset = if d.type = .goAway then 4 else 0 := by
        rw [errorCodeOffset, h.type_eq]
      have htype : d.type = .rstStream ∨ d.type = .goAway := by
        simpa [Edit.appliesTo] using happlies
      have hin : b.errorCodeOffset + 4 ≤ d.fields.length := by
        rw [hplace]
        rcases htype with htype | htype <;>
          rw [length_fields hd (htype ▸ nofun), htype] <;> decide
      obtain ⟨hlays, hwell⟩ := h.setNumber hd hin code.code
      rw [hplace] at hlays hwell
      rw [hplace]
      exact ⟨hlays, hwell, rfl⟩
  | windowSizeIncrement increment =>
      obtain ⟨hset, rfl⟩ := Attempt.within_pair_eq_ok_iff.mp hok
      have htype : d.type = .windowUpdate := beq_iff_eq.mp happlies
      obtain ⟨hlays, hwell⟩ :=
        h.setFirstNumber hd (by rw [htype]; decide) increment
      unfold Builder.setIncrement at hset
      split at hset
      case isTrue => cases hset
      case isFalse =>
        cases hset
        exact ⟨hlays, hwell, rfl⟩
  | payload octets =>
      obtain ⟨hset, rfl⟩ := Attempt.within_pair_eq_ok_iff.mp hok
      unfold Builder.setPayload at hset
      split at hset
      case isFalse => cases hset
      case isTrue hlength =>
        cases hset
        obtain ⟨hlays, hwell⟩ :=
          h.setPayload hd (beq_iff_eq.mp happlies) hlength
        exact ⟨hlays, hwell, rfl⟩
  | opaqueData data =>
      cases hok
      obtain ⟨hlays, hwell⟩ := h.setPayload hd (beq_iff_eq.mp happlies)
        (BigEndian.length_encode 8 data.toNat)
      exact ⟨hlays, hwell, rfl⟩
  | setting setting value =>
      obtain ⟨hset, rfl⟩ := Attempt.within_pair_eq_ok_iff.mp hok
      obtain ⟨hlays, hfits⟩ := h.append (append_of_addSetting hset)
      exact ⟨hlays, hd.append hfits, rfl⟩
  | settings settings =>
      obtain ⟨hset, rfl⟩ := Attempt.within_pair_eq_ok_iff.mp hok
      obtain ⟨hlays, hwell⟩ := h.addSettings hd hset
      exact ⟨hlays, hwell, rfl⟩

-- ================================================================ any run

/-- What becomes of a builder by successful edits that make sense for its
type, each made with some encoder's table at hand. -/
inductive Edited : Builder → Builder → Prop
  | refl (b : Builder) : Edited b b
  | edit {b b₁ b' : Builder} {e : Edit} {table table' : Hpack.Table}
      (run : Edited b b₁) (happlies : e.appliesTo b₁.type)
      (hok : b₁.edit table e = .ok (b', table')) : Edited b b'

/-- An edited builder lays an edited draft down in the same window. -/
theorem LaysDown.edited (h : b.LaysDown d front back) (hd : d.WellFormed)
    (hrun : Edited b b') :
    ∃ d', d'.type = d.type ∧ b'.LaysDown d' front back ∧ d'.WellFormed := by
  induction hrun with
  | refl => exact ⟨d, rfl, h, hd⟩
  | edit run happlies hok ih =>
      obtain ⟨d₁, htype, hlays, hwell⟩ := ih
      rw [hlays.type_eq] at happlies
      obtain ⟨hlays', hwell', -⟩ := hlays.edit hwell happlies hok
      exact ⟨_, (d₁.type_edit _ _).trans htype, hlays', hwell'⟩

theorem Edited.cons {b b₁ b' : Builder} {e : Edit} {table table' : Hpack.Table}
    (happlies : e.appliesTo b.type) (hok : b.edit table e = .ok (b₁, table'))
    (run : Edited b₁ b') : Edited b b' := by
  induction run with
  | refl => exact .edit (.refl _) happlies hok
  | edit run happlies' hok' ih => exact .edit ih happlies' hok'

theorem editAll_cons (b : Builder) (table : Hpack.Table) (e : Edit)
    (es : List Edit) :
    b.editAll table (e :: es)
      = (b.edit table e).andThen fun s => s.1.editAll s.2 es := by
  rw [Builder.editAll]
  cases b.edit table e <;> rfl

theorem editAll_eq_chain (b : Builder) (table : Hpack.Table) (es : List Edit) :
    b.editAll table es
      = Attempt.chain (fun s e => s.1.edit s.2 e) (b, table) es :=
  Attempt.eq_chain (fun s => s.1.editAll s.2) (fun _ => rfl)
    (fun s => editAll_cons s.1 s.2) (b, table) es

/-- Edits made in a row with one encoder. -/
theorem LaysDown.editAll (h : b.LaysDown d front back) (hd : d.WellFormed)
    {table table' : Hpack.Table} {es : List Edit}
    (happlies : ∀ e ∈ es, e.appliesTo d.type)
    (hok : b.editAll table es = .ok (b', table')) :
    Edited b b' ∧ b'.LaysDown (d.editAll table es).1 front back
      ∧ (d.editAll table es).1.WellFormed
      ∧ table' = (d.editAll table es).2 := by
  induction es generalizing b d table with
  | nil =>
      cases hok
      exact ⟨.refl _, h, hd, rfl⟩
  | cons e es ih =>
      rw [editAll_cons] at hok
      obtain ⟨⟨b₁, table₁⟩, hfirst, hok⟩ := Attempt.andThen_eq_ok_iff.mp hok
      obtain ⟨he, hes⟩ := List.forall_mem_cons.mp happlies
      obtain ⟨hlays, hwell, rfl⟩ := h.edit hd he hfirst
      obtain ⟨hrun, hrest⟩ := ih hlays hwell
        (by rw [Draft.type_edit]; exact hes) hok
      exact ⟨.cons (by rw [h.type_eq]; exact he) hfirst hrun, hrest⟩

end Http2.Frame.Builder
