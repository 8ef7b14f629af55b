/-
Requests are granted as long as there is room.

A builder turns down what its window or the length field has no room for
(`HasRoom`) and what has no legal values, and nothing else: an edit with
legal values is made if and only if there is room for the frame that it
leads to (`exists_edit_iff`). So a run of requests is granted if there is
room for the frame after each of them (`exists_grant`).

The window itself never changes (`maxLimit_edit`).
-/
import Http2.Proofs.Frame.ReadBack
import Http2.Proofs.Frame.Rearranged
import Http2.Proofs.Settings.Parameters

namespace Http2.Frame

namespace Request

variable {type : FrameType} {rs more : List Request}

/-- A flag that is asked for stays set. -/
theorem isSet_flags_append {flag : Flag} (h : flag.isSet (flags type rs)) :
    flag.isSet (flags type (rs ++ more)) := by
  rw [flags, Flag.isSet_union] at h ⊢
  rw [List.filterMap_append, List.any_append, h, Bool.true_or]

end Request

namespace Builder

variable {b b' : Builder} {d d' : Draft} {front back : List UInt8}

-- ============================================================= the window

@[simp] theorem maxLimit_overwrite (b : Builder) (start : Nat)
    (octets : List UInt8) :
    (b.overwrite start octets).maxLimit = b.maxLimit := by
  dsimp only [overwrite]

@[simp] theorem payloadStart_overwrite (b : Builder) (start : Nat)
    (octets : List UInt8) :
    (b.overwrite start octets).payloadStart = b.payloadStart := by
  dsimp only [payloadStart, overwrite]

@[simp] theorem padding_overwrite (b : Builder) (start : Nat)
    (octets : List UInt8) : (b.overwrite start octets).padding = b.padding := by
  dsimp only [overwrite]

@[simp] theorem maxLimit_setFlag (b : Builder) (flag : Flag) :
    (b.setFlag flag).maxLimit = b.maxLimit :=
  maxLimit_overwrite b _ _

theorem maxLimit_endContentAt {contentEnd : Nat}
    (hok : b.endContentAt contentEnd = .ok b') : b'.maxLimit = b.maxLimit := by
  obtain ⟨-, hok⟩ := Attempt.guarded_eq_ok_iff.mp hok
  obtain ⟨-, hok⟩ := Attempt.guarded_eq_ok_iff.mp hok
  obtain rfl := Except.ok.inj hok
  rw [maxLimit_overwrite, maxLimit_overwrite]

theorem maxLimit_insert {start : Nat} {octets : List UInt8}
    (hok : b.insert start octets = .ok b') : b'.maxLimit = b.maxLimit := by
  obtain ⟨-, hok⟩ := Attempt.guarded_eq_ok_iff.mp hok
  rw [maxLimit_endContentAt hok, maxLimit_overwrite]

theorem maxLimit_append {octets : List UInt8} (hok : b.append octets = .ok b') :
    b'.maxLimit = b.maxLimit := by
  rw [append_eq_insert] at hok
  exact maxLimit_insert hok

theorem maxLimit_addPadLength (hok : b.addPadLength = .ok b') :
    b'.maxLimit = b.maxLimit := by
  obtain ⟨b₁, hinsert, hflag⟩ := Attempt.andThen_eq_ok_iff.mp hok
  obtain rfl := Except.ok.inj hflag
  rw [maxLimit_setFlag, maxLimit_insert hinsert]

theorem maxLimit_resizePadding {padding : UInt8}
    (hok : b.resizePadding padding = .ok b') : b'.maxLimit = b.maxLimit := by
  obtain ⟨-, hok⟩ := Attempt.guarded_eq_ok_iff.mp hok
  rw [maxLimit_endContentAt hok]
  dsimp only [overwrite]

theorem maxLimit_setPadding {padding : UInt8}
    (hok : b.setPadding padding = .ok b') : b'.maxLimit = b.maxLimit := by
  obtain ⟨b₁, hfirst, hresize⟩ := Attempt.andThen_eq_ok_iff.mp hok
  rw [maxLimit_resizePadding hresize]
  split at hfirst
  case isTrue => rw [Except.ok.inj hfirst]
  case isFalse => exact maxLimit_addPadLength hfirst

theorem maxLimit_setPriority {priority : Priority}
    (hok : b.setPriority priority = .ok b') : b'.maxLimit = b.maxLimit := by
  obtain ⟨-, hok⟩ := Attempt.guarded_eq_ok_iff.mp hok
  split at hok
  case isTrue =>
    obtain ⟨b₁, hinsert, hflag⟩ := Attempt.andThen_eq_ok_iff.mp hok
    obtain rfl := Except.ok.inj hflag
    rw [maxLimit_setFlag, maxLimit_insert hinsert]
  case isFalse =>
    obtain rfl := Except.ok.inj hok
    exact maxLimit_overwrite b _ _

theorem maxLimit_addFields {fs : List Field} {table table' : Hpack.Table}
    (hok : b.addFields table fs = .ok (b', table')) :
    b'.maxLimit = b.maxLimit := by
  rw [addFields_eq_chain] at hok
  refine Attempt.chain_keeps (P := fun s => s.1.maxLimit = b.maxLimit)
    ?_ rfl hok
  intro s f s' hs hfirst
  exact (maxLimit_append (addField_eq_ok hfirst).1).trans hs

theorem maxLimit_addSettings {settings : List (Setting × UInt32)}
    (hok : b.addSettings settings = .ok b') : b'.maxLimit = b.maxLimit := by
  rw [addSettings_eq_chain] at hok
  refine Attempt.chain_keeps (P := fun s => s.maxLimit = b.maxLimit) ?_ rfl hok
  intro s setting s' hs hfirst
  exact (maxLimit_append (append_of_addSetting hfirst)).trans hs

theorem maxLimit_setStreamId {id : UInt32} (hok : b.setStreamId id = .ok b') :
    b'.maxLimit = b.maxLimit := by
  obtain ⟨-, hok⟩ := Attempt.guarded_eq_ok_iff.mp hok
  obtain rfl := Except.ok.inj hok
  exact maxLimit_overwrite b _ _

theorem maxLimit_setNamedStream {id : UInt32}
    (hok : b.setNamedStream id = .ok b') : b'.maxLimit = b.maxLimit := by
  obtain ⟨-, hok⟩ := Attempt.guarded_eq_ok_iff.mp hok
  obtain rfl := Except.ok.inj hok
  exact maxLimit_overwrite b _ _

theorem maxLimit_acknowledge (hok : b.acknowledge = .ok b') :
    b'.maxLimit = b.maxLimit := by
  unfold Builder.acknowledge at hok
  split at hok
  case isTrue => cases hok
  case isFalse =>
    obtain rfl := Except.ok.inj hok
    exact maxLimit_setFlag b _

theorem maxLimit_setIncrement {increment : UInt32}
    (hok : b.setIncrement increment = .ok b') : b'.maxLimit = b.maxLimit := by
  unfold setIncrement at hok
  split at hok
  case isTrue => cases hok
  case isFalse =>
    obtain rfl := Except.ok.inj hok
    exact maxLimit_overwrite b _ _

theorem maxLimit_setPayload {octets : List UInt8}
    (hok : b.setPayload octets = .ok b') : b'.maxLimit = b.maxLimit := by
  unfold setPayload at hok
  split at hok
  case isFalse => cases hok
  case isTrue =>
    obtain rfl := Except.ok.inj hok
    exact maxLimit_overwrite b _ _

/-- No edit moves the bound. -/
theorem maxLimit_edit {e : Edit} {table table' : Hpack.Table}
    (hok : b.edit table e = .ok (b', table')) : b'.maxLimit = b.maxLimit := by
  cases e with
  | endStream | endHeaders =>
      obtain ⟨rfl, -⟩ := Prod.mk.inj (Except.ok.inj hok)
      exact maxLimit_setFlag b _
  | errorCode | opaqueData =>
      obtain ⟨rfl, -⟩ := Prod.mk.inj (Except.ok.inj hok)
      exact maxLimit_overwrite b _ _
  | field f => exact maxLimit_append (addField_eq_ok hok).1
  | fields map => exact maxLimit_addFields hok
  | streamId id =>
      exact maxLimit_setStreamId (Attempt.within_pair_eq_ok_iff.mp hok).1
  | promisedStreamId id | lastStreamId id =>
      exact maxLimit_setNamedStream (Attempt.within_pair_eq_ok_iff.mp hok).1
  | acknowledge =>
      exact maxLimit_acknowledge (Attempt.within_pair_eq_ok_iff.mp hok).1
  | windowSizeIncrement increment =>
      exact maxLimit_setIncrement (Attempt.within_pair_eq_ok_iff.mp hok).1
  | payload octets =>
      exact maxLimit_setPayload (Attempt.within_pair_eq_ok_iff.mp hok).1
  | padding octets =>
      exact maxLimit_setPadding (Attempt.within_pair_eq_ok_iff.mp hok).1
  | append octets =>
      exact maxLimit_append (Attempt.within_pair_eq_ok_iff.mp hok).1
  | priority standing =>
      exact maxLimit_setPriority (Attempt.within_pair_eq_ok_iff.mp hok).1
  | setting known value =>
      exact maxLimit_append
        (append_of_addSetting (Attempt.within_pair_eq_ok_iff.mp hok).1)
  | settings record =>
      exact maxLimit_addSettings (Attempt.within_pair_eq_ok_iff.mp hok).1

theorem maxLimit_grant {rs : List Request} (hok : b.grant rs = .ok b') :
    b'.maxLimit = b.maxLimit := by
  induction rs generalizing b with
  | nil =>
      cases hok
      rfl
  | cons r rs ih =>
      obtain ⟨b₁, table', hedit, hok⟩ := grant_cons_eq_ok_iff.mp hok
      rw [ih hok, maxLimit_edit hedit]

/-- A granted builder still has the window that it was started with. -/
theorem window_granted {type : FrameType} {buffer : Buffer}
    {offset maxLimit : Nat} {rs : List Request}
    (hstart : start type buffer offset maxLimit = .ok b)
    (happlies : ∀ r ∈ rs, r.edit.appliesTo type) (hok : b.grant rs = .ok b') :
    b'.offset = offset ∧ b'.maxLimit = maxLimit := by
  have hmeets := granted_meets hstart happlies hok
  obtain ⟨hroom, rfl⟩ := start_eq_ok_iff.mp hstart
  obtain ⟨hsize, -, hle⟩ := requireRoom_eq_ok_iff.mp hroom
  refine ⟨?_, maxLimit_grant hok⟩
  rw [hmeets.lays.offset_eq, List.length_take, Buffer.length_toList]
  omega

-- ================================================================ the room

/-- There is room for a draft in the window of a builder, and for the
length of its payload in the length field. -/
structure HasRoom (b : Builder) (d : Draft) : Prop where
  window : b.offset + d.encode.length ≤ b.maxLimit
  length : d.payload.length ≤ Header.maxLength

theorem LaysDown.hasRoom (h : b.LaysDown d front back) (hd : d.WellFormed) :
    b.HasRoom d := by
  obtain ⟨room, hroom, -⟩ := h.buffer_eq
  have hlimit := h.limit_eq
  rw [← h.offset_eq] at hlimit
  exact ⟨by omega, hd.length_le⟩

theorem LaysDown.maxLimit_le_size (h : b.LaysDown d front back) :
    b.maxLimit ≤ b.buffer.size := by
  obtain ⟨room, hroom, hbuffer⟩ := h.buffer_eq
  have hlimit := h.limit_eq
  have hsize := congrArg List.length hbuffer
  simp only [Buffer.length_toList, List.length_append] at hsize
  omega

/-- Where there is room for a frame there is room for a smaller one. -/
theorem HasRoom.of_le (h : b.HasRoom d)
    (hle : d'.payload.length ≤ d.payload.length) : b.HasRoom d' := by
  obtain ⟨hwindow, hlength⟩ := h
  rw [Draft.length_encode] at hwindow
  refine ⟨?_, Nat.le_trans hle hlength⟩
  rw [Draft.length_encode]
  omega

/-- Room does not depend on what is written. -/
theorem HasRoom.of_window (h : b.HasRoom d) (hoffset : b'.offset = b.offset)
    (hmax : b'.maxLimit = b.maxLimit) : b'.HasRoom d :=
  ⟨hoffset ▸ hmax ▸ h.window, h.length⟩

theorem length_le_append (d : Draft) (octets : List UInt8) :
    d.payload.length ≤ (d.append octets).payload.length := by
  have hpadLength : (d.append octets).padLength = d.padLength := rfl
  rw [Draft.length_payload, Draft.length_payload, Draft.length_body_append,
    hpadLength]
  omega

-- ============================================================== enough room

theorem exists_endContentAt {contentEnd : Nat}
    (hend : contentEnd + b.padding ≤ b.maxLimit)
    (hlength : contentEnd + b.padding - b.payloadStart ≤ Header.maxLength) :
    ∃ b', b.endContentAt contentEnd = .ok b' :=
  ⟨_, Attempt.guarded_eq_ok_iff.mpr ⟨requireEnd_of_le hend,
    Attempt.guarded_eq_ok_iff.mpr ⟨requireLength_eq_ok_iff.mpr hlength, rfl⟩⟩⟩

/-- Octets can be put into the content if there is room for what comes of
it. -/
theorem LaysDown.exists_insert (h : b.LaysDown d front back)
    (start : Nat) (octets : List UInt8) (hroom : b.HasRoom d')
    (hbody : d'.body.length = d.body.length + octets.length)
    (hpadding : d'.padLength = d.padLength) :
    ∃ b', b.insert start octets = .ok b' := by
  obtain ⟨hwindow, hlength⟩ := hroom
  have hend := h.contentEnd_eq
  have hoffset := h.offset_eq
  have hpadded := h.padding_eq
  rw [Draft.length_encode, Draft.length_payload] at hwindow
  rw [Draft.length_payload] at hlength
  have hfits : b.contentEnd + octets.length + b.padding ≤ b.maxLimit := by
    omega
  have hstart := h.payloadStart_eq
  obtain ⟨b', hok⟩ := @exists_endContentAt
    (b.overwrite start (octets ++ b.buffer.slice start b.contentEnd))
    (b.contentEnd + octets.length)
    (by
      rw [padding_overwrite, maxLimit_overwrite]
      exact hfits)
    (by
      rw [padding_overwrite, payloadStart_overwrite]
      omega)
  exact ⟨b', Attempt.guarded_eq_ok_iff.mpr ⟨requireEnd_of_le hfits, hok⟩⟩

theorem LaysDown.exists_append (h : b.LaysDown d front back)
    {octets : List UInt8} (hroom : b.HasRoom (d.append octets)) :
    ∃ b', b.append octets = .ok b' := by
  rw [append_eq_insert]
  exact h.exists_insert _ _ hroom (d.length_body_append octets) rfl

/-- The padding of a padded frame can be exchanged. -/
theorem LaysDown.exists_resizePadding (h : b.LaysDown d front back)
    {old : UInt8} (new : UInt8) (hsome : d.padding = some old)
    (hroom : b.HasRoom { d with padding := some new }) :
    ∃ b', b.resizePadding new = .ok b' := by
  obtain ⟨hwindow, hlength⟩ := hroom
  have hend := h.contentEnd_eq
  have hoffset := h.offset_eq
  have hbody : ({ d with padding := some new } : Draft).body.length
      = d.body.length := by
    simp only [Draft.body, hsome, Option.toList_some]
    rfl
  have hpadLength : ({ d with padding := some new } : Draft).padLength
      = new.toNat := rfl
  rw [Draft.length_encode, Draft.length_payload, hbody, hpadLength] at hwindow
  rw [Draft.length_payload, hbody, hpadLength] at hlength
  have hfits : b.contentEnd + new.toNat ≤ b.maxLimit := by
    omega
  have hstart := h.payloadStart_eq
  have hsame : ({ b.overwrite b.payloadStart [new] with
      padding := new.toNat } : Builder).payloadStart = b.payloadStart :=
    payloadStart_overwrite b b.payloadStart [new]
  obtain ⟨b', hok⟩ := @exists_endContentAt
    { b.overwrite b.payloadStart [new] with padding := new.toNat }
    b.contentEnd
    (by
      dsimp only [overwrite]
      exact hfits)
    (by
      rw [hsame]
      show b.contentEnd + new.toNat - b.payloadStart ≤ _
      omega)
  exact ⟨b', Attempt.guarded_eq_ok_iff.mpr ⟨requireEnd_of_le hfits, hok⟩⟩

/-- The pad length is there first, and then the padding. There is room
for the one if there is for both. -/
theorem LaysDown.exists_setPadding (h : b.LaysDown d front back)
    (hd : d.WellFormed) {padding : UInt8}
    (hroom : b.HasRoom (d.setPadding padding)) :
    ∃ b', b.setPadding padding = .ok b' := by
  rw [Builder.setPadding, h.has_padded hd]
  cases hpadding : d.padding with
  | some old =>
      obtain ⟨b', hok⟩ := h.exists_resizePadding padding hpadding
        (hroom.of_le (Nat.le_refl _))
      exact ⟨b', hok⟩
  | none =>
      have hsmaller : b.HasRoom { d with padding := some 0 } := by
        refine hroom.of_le ?_
        rw [Draft.length_payload, Draft.length_payload]
        exact Nat.add_le_add_left (Nat.zero_le _) _
      have hbody := d.length_body_setPadding 0
      rw [hpadding] at hbody
      obtain ⟨b₁, hinsert⟩ := h.exists_insert b.payloadStart [0] hsmaller hbody
        (by rw [Draft.padLength, Draft.padLength, hpadding]; rfl)
      have hfirst : b.addPadLength = .ok (b₁.setFlag .padded) := by
        rw [h.addPadLength_eq hpadding]
        exact Attempt.andThen_eq_ok_iff.mpr ⟨b₁, hinsert, rfl⟩
      obtain ⟨hlays, -⟩ := h.addPadLength hpadding hfirst
      obtain ⟨b', hresize⟩ := hlays.exists_resizePadding padding rfl
        ((hroom.of_le (Nat.le_refl _)).of_window
          (hlays.offset_eq.trans h.offset_eq.symm)
          (maxLimit_addPadLength hfirst))
      exact ⟨b', Attempt.andThen_eq_ok_iff.mpr ⟨_, hfirst, hresize⟩⟩

theorem LaysDown.exists_setPriority (h : b.LaysDown d front back)
    (hd : d.WellFormed) {priority : Priority}
    (hlegal : priority.streamDependency.toNat < reservedBit)
    (hroom : b.HasRoom (d.setPriority priority)) :
    ∃ b', b.setPriority priority = .ok b' := by
  have hrequire : priority.require = .ok () :=
    requireStreamId_eq_ok_iff.mpr hlegal
  suffices hset : ∃ b', (if b.type = .headers && !b.has .priority then
      (b.insert b.fieldsStart priority.encode).andThen fun b =>
        .ok (b.setFlag .priority)
      else .ok (b.overwrite b.fieldsStart priority.encode)) = .ok b' by
    obtain ⟨b', hset⟩ := hset
    exact ⟨b', Attempt.guarded_eq_ok_iff.mpr ⟨hrequire, hset⟩⟩
  split
  case isFalse => exact ⟨_, rfl⟩
  case isTrue hfirst =>
    rw [h.type_eq, h.has_eq, Bool.and_eq_true, decide_eq_true_eq,
      Bool.not_eq_true'] at hfirst
    obtain ⟨b₁, hinsert⟩ := h.exists_insert b.fieldsStart priority.encode
      hroom (hd.length_body_setPriority hfirst.1 hfirst.2 priority)
      (d.padLength_setPriority priority)
    exact ⟨_, Attempt.andThen_eq_ok_iff.mpr ⟨b₁, hinsert, rfl⟩⟩

/-- A parameter can be added to anything but an acknowledgement. -/
theorem LaysDown.exists_addSetting (h : b.LaysDown d front back)
    {known : Setting} {value : UInt32} (hlegal : known.allows value)
    (hunset : Flag.ack.isSet d.flags = false)
    (hroom : b.HasRoom (d.append (Parameter.announce known value).encode)) :
    ∃ b', b.addSetting known value = .ok b' := by
  have hhas : ¬ b.has .ack := by
    rw [h.has_eq, hunset]
    nofun
  rw [addSetting, if_neg hhas, if_pos hlegal]
  exact h.exists_append hroom

theorem LaysDown.exists_addSettings (h : b.LaysDown d front back)
    {settings : List (Setting × UInt32)}
    (hlegal : ∀ s ∈ settings, s.1.allows s.2)
    (hunset : settings ≠ [] → Flag.ack.isSet d.flags = false)
    (hroom : b.HasRoom (d.append (settings.flatMap fun s =>
      (Parameter.announce s.1 s.2).encode))) :
    ∃ b', b.addSettings settings = .ok b' := by
  induction settings generalizing b d with
  | nil => exact ⟨b, rfl⟩
  | cons s settings ih =>
      obtain ⟨hfirst, hrest⟩ := List.forall_mem_cons.mp hlegal
      have hunset := hunset (List.cons_ne_nil _ _)
      rw [List.flatMap_cons, ← Draft.append_append] at hroom
      obtain ⟨b₁, hok⟩ := h.exists_addSetting hfirst hunset
        (hroom.of_le (length_le_append _ _))
      obtain ⟨hlays, -⟩ := h.append (append_of_addSetting hok)
      obtain ⟨b', hok'⟩ := ih hlays hrest (fun _ => hunset)
        (hroom.of_window (hlays.offset_eq.trans h.offset_eq.symm)
          (maxLimit_append (append_of_addSetting hok)))
      exact ⟨b', Attempt.andThen_eq_ok_iff.mpr ⟨b₁, hok, hok'⟩⟩

/-- A field can be added if there is room for its representation. -/
theorem LaysDown.exists_addField (h : b.LaysDown d front back)
    (hspace : b.maxLimit < addressSpace) {table : Hpack.Table} {f : Field}
    (hroom : b.HasRoom (d.append (table.encode f).1)) :
    ∃ b', b.addField table f = .ok (b', (table.encode f).2) := by
  obtain ⟨hwindow, hlength⟩ := hroom
  have hend := h.contentEnd_eq
  have hoffset := h.offset_eq
  have hpadded := h.padding_eq
  have hsize := h.maxLimit_le_size
  have hbody : (d.append (table.encode f).1).body.length
      = d.body.length + (table.encode f).1.length := by
    simp only [Draft.body, Draft.append, List.length_append, Nat.add_assoc]
  have hpadLength : (d.append (table.encode f).1).padLength = d.padLength := rfl
  rw [Draft.length_encode, Draft.length_payload, hbody, hpadLength] at hwindow
  rw [Draft.length_payload, hbody, hpadLength] at hlength
  have hstart := h.payloadStart_eq
  have hblock : requireRoom b.buffer.size b.contentEnd
      (b.maxLimit - b.padding) 0 = .ok () :=
    requireRoom_eq_ok_iff.mpr (by omega)
  have hfits : b.contentEnd + (table.encode f).1.length
      ≤ b.maxLimit - b.padding := by
    omega
  obtain ⟨b', hok⟩ := @exists_endContentAt
    (b.overwrite b.contentEnd (table.encode f).1)
    (b.contentEnd + (table.encode f).1.length)
    (by
      rw [padding_overwrite, maxLimit_overwrite]
      omega)
    (by
      rw [padding_overwrite, payloadStart_overwrite]
      omega)
  refine ⟨b', addField_eq_ok_iff.mpr ⟨_, _,
    HeaderBlock.Builder.start_eq_ok_iff.mpr ⟨hblock, rfl⟩,
    HeaderBlock.Builder.field_eq_ok_iff.mpr
      ⟨HeaderBlock.Builder.append_eq_ok_iff.mpr ⟨hfits, rfl⟩, rfl⟩, hok⟩⟩

theorem LaysDown.exists_addFields (h : b.LaysDown d front back)
    (hspace : b.maxLimit < addressSpace) {table : Hpack.Table}
    {fs : List Field} (hroom : b.HasRoom (d.append (table.encodeAll fs).1)) :
    ∃ b' table', b.addFields table fs = .ok (b', table') := by
  induction fs generalizing b d table with
  | nil => exact ⟨b, table, rfl⟩
  | cons f fs ih =>
      rw [Hpack.Table.encodeAll_cons, ← Draft.append_append] at hroom
      obtain ⟨b₁, hok⟩ := h.exists_addField hspace
        (hroom.of_le (length_le_append _ _))
      obtain ⟨happend, -⟩ := addField_eq_ok hok
      obtain ⟨hlays, -⟩ := h.append happend
      have hmax := maxLimit_append happend
      obtain ⟨b', table', hok'⟩ := ih hlays (hmax ▸ hspace)
        (hroom.of_window (hlays.offset_eq.trans h.offset_eq.symm) hmax)
      rw [addFields_cons]
      exact ⟨b', table', Attempt.andThen_eq_ok_iff.mpr ⟨_, hok, hok'⟩⟩

-- ================================================================ any edit

/-- A SETTINGS frame without content has no payload at all. -/
theorem LaysDown.length_eq_zero (h : b.LaysDown d front back)
    (hd : d.WellFormed) (htype : d.type = .settings)
    (hcontent : d.content = []) :
    b.length = 0 := by
  have hpadding : d.padding = none := by
    cases hp : d.padding with
    | none => rfl
    | some octets =>
        have hpaddable := hd.paddable (by rw [hp]; rfl)
        rw [htype] at hpaddable
        cases hpaddable
  have hfields : d.fields.length = 0 := by
    rw [length_fields hd (htype ▸ nofun), htype]
    rfl
  rw [length, payloadStart, h.limit_eq, h.offset_eq, Draft.length_encode,
    Draft.payload_of_none hpadding, hcontent, List.append_nil, hfields]
  exact Nat.sub_self _

/-- Nothing is added to an acknowledgement, if it is to stay one. -/
theorem isSet_ack_of_append {octets : List UInt8} (hoctets : octets ≠ [])
    (hack : Flag.ack.isSet d.flags → (d.append octets).content = []) :
    Flag.ack.isSet d.flags = false := by
  rw [Bool.eq_false_iff]
  intro hset
  exact hoctets (List.append_eq_nil_iff.mp (hack hset)).2

/-- An edit with legal values is made if there is room. -/
theorem LaysDown.exists_edit (h : b.LaysDown d front back) (hd : d.WellFormed)
    (hspace : b.maxLimit < addressSpace) {table : Hpack.Table} {e : Edit}
    (happlies : e.appliesTo d.type) (hlegal : e.Legal)
    (hack : d.type = .settings → Flag.ack.isSet (d.edit table e).1.flags →
      (d.edit table e).1.content = [])
    (hroom : b.HasRoom (d.edit table e).1) :
    ∃ b' table', b.edit table e = .ok (b', table') := by
  -- all calls but those on header fields leave the table alone
  suffices hcall : (∃ call : Attempt Builder,
        b.edit table e = call.within (·, table) ∧ ∃ b', call = .ok b')
      ∨ ∃ b' table', b.edit table e = .ok (b', table') by
    rcases hcall with ⟨call, hedit, b', hok⟩ | hedit
    case inr => exact hedit
    case inl =>
      exact ⟨b', table,
        hedit.trans (Attempt.within_pair_eq_ok_iff.mpr ⟨hok, rfl⟩)⟩
  cases e with
  | streamId id =>
      refine .inl ⟨_, rfl, _, Attempt.guarded_eq_ok_iff.mpr ⟨?_, rfl⟩⟩
      exact requireStreamId_eq_ok_iff.mpr hlegal
  | promisedStreamId id | lastStreamId id =>
      refine .inl ⟨_, rfl, _, Attempt.guarded_eq_ok_iff.mpr ⟨?_, rfl⟩⟩
      exact requireStreamId_eq_ok_iff.mpr hlegal
  | endStream | endHeaders | errorCode | opaqueData => exact .inr ⟨_, _, rfl⟩
  | acknowledge =>
      refine .inl ⟨_, rfl, _, if_neg ?_⟩
      rw [Bool.and_eq_true, decide_eq_true_eq, bne_iff_ne, h.type_eq]
      rintro ⟨htype, hlength⟩
      refine hlength (h.length_eq_zero hd htype (hack htype ?_))
      show Flag.ack.isSet (d.flags ||| Flag.ack.mask)
      rw [Flag.isSet_or_mask, beq_self_eq_true, Bool.or_true]
  | padding octets => exact .inl ⟨_, rfl, h.exists_setPadding hd hroom⟩
  | append octets => exact .inl ⟨_, rfl, h.exists_append hroom⟩
  | priority standing =>
      exact .inl ⟨_, rfl, h.exists_setPriority hd hlegal hroom⟩
  | field f =>
      obtain ⟨b', hok⟩ := h.exists_addField hspace hroom
      exact .inr ⟨b', _, hok⟩
  | fields map => exact .inr (h.exists_addFields hspace hroom)
  | windowSizeIncrement increment =>
      refine .inl ⟨_, rfl, _, if_neg ?_⟩
      rw [Bool.or_eq_true, decide_eq_true_eq, decide_eq_true_eq, not_or,
        Nat.not_le]
      exact hlegal
  | payload octets => exact .inl ⟨_, rfl, _, if_pos hlegal⟩
  | setting known value =>
      have htype : d.type = .settings := beq_iff_eq.mp happlies
      refine .inl ⟨_, rfl, h.exists_addSetting hlegal ?_ hroom⟩
      refine isSet_ack_of_append (fun hnil => ?_) (hack htype)
      have hlength := Parameter.length_encode (.announce known value)
      rw [hnil] at hlength
      cases hlength
  | settings record =>
      have htype : d.type = .settings := beq_iff_eq.mp happlies
      refine .inl ⟨_, rfl, h.exists_addSettings hlegal (fun hsome => ?_) hroom⟩
      refine isSet_ack_of_append (fun hnil => ?_) (hack htype)
      obtain ⟨s, settings, hs⟩ := List.exists_cons_of_ne_nil hsome
      have hlength := Parameter.length_encode (.announce s.1 s.2)
      rw [hs, List.flatMap_cons, List.append_eq_nil_iff] at hnil
      rw [hnil.1] at hlength
      cases hlength

/-- Of edits with legal values only those are turned down that there is
no room for. -/
theorem LaysDown.exists_edit_iff (h : b.LaysDown d front back)
    (hd : d.WellFormed) (hspace : b.maxLimit < addressSpace)
    {table : Hpack.Table} {e : Edit} (happlies : e.appliesTo d.type)
    (hlegal : e.Legal)
    (hack : d.type = .settings → Flag.ack.isSet (d.edit table e).1.flags →
      (d.edit table e).1.content = []) :
    (∃ b' table', b.edit table e = .ok (b', table'))
      ↔ b.HasRoom (d.edit table e).1 := by
  refine ⟨?_, h.exists_edit hd hspace happlies hlegal hack⟩
  rintro ⟨b', table', hok⟩
  obtain ⟨hlays, hwell, -⟩ := h.edit hd happlies hok
  exact (hlays.hasRoom hwell).of_window
    (h.offset_eq.trans hlays.offset_eq.symm) (maxLimit_edit hok).symm

-- ============================================================= a whole run

/-- Requests with legal values are granted if there is room for the frame
after each of them. -/
theorem Meets.exists_grant {type : FrameType} {done rs : List Request}
    (h : b.Meets type done front back) (hspace : b.maxLimit < addressSpace)
    (happlies : ∀ r ∈ rs, r.edit.appliesTo type)
    (hlegal : ∀ r ∈ rs, r.edit.Legal)
    (hack : type = .settings →
      Flag.ack.isSet (Request.flags type (done ++ rs)) →
      Request.content (done ++ rs) = [])
    (hroom : ∀ part, part <+: rs → b.HasRoom (.requested type (done ++ part))) :
    ∃ b', b.grant rs = .ok b' := by
  induction rs generalizing b done with
  | nil => exact ⟨b, rfl⟩
  | cons r rs ih =>
      obtain ⟨hr, hrs⟩ := List.forall_mem_cons.mp happlies
      obtain ⟨hrlegal, hrslegal⟩ := List.forall_mem_cons.mp hlegal
      have hsplit : done ++ r :: rs = done ++ [r] ++ rs := by
        rw [List.append_assoc]
        rfl
      have hsnoc := Draft.requested_snoc h.wellFormed hr hrlegal
      have hr' : r.edit.appliesTo (Draft.requested type done).type := by
        rw [Draft.type_requested]
        exact hr
      have hone := hroom [r] (List.prefix_append [r] rs)
      obtain ⟨b₁, table', hok⟩ := h.lays.exists_edit h.wellFormed hspace hr'
        hrlegal
        (by
          rw [← hsnoc, Draft.type_requested]
          rintro rfl hset
          have hset : Flag.ack.isSet (Request.flags .settings (done ++ [r])) :=
            hset
          rw [hsplit] at hack
          have hempty := hack rfl (Request.isSet_flags_append hset)
          rw [Request.content_append] at hempty
          exact (List.append_eq_nil_iff.mp hempty).1)
        (hsnoc ▸ hone)
      have hmeets := h.edit hr hok
      have hmax := maxLimit_edit hok
      obtain ⟨b', hok'⟩ := ih hmeets (hmax ▸ hspace) hrs hrslegal
        (by rw [← hsplit]; exact hack)
        (fun part hpart => by
          obtain ⟨rest, rfl⟩ := hpart
          have hlater := hroom (r :: part) ⟨rest, rfl⟩
          rw [List.append_assoc]
          exact hlater.of_window
            (hmeets.lays.offset_eq.trans h.lays.offset_eq.symm) hmax)
      exact ⟨b', grant_cons_eq_ok_iff.mpr ⟨b₁, table', hok, hok'⟩⟩

end Builder

-- ======================================================== growing frames

namespace Request

variable {type : FrameType} {rs more : List Request}

theorem padding?_payload (type : FrameType) (rs : List Request) :
    (payload type rs).padding?
      = if type.definedFlags.contains .padded then last? Edit.padding? rs
        else none := by
  cases type <;> rfl

/-- The fields of a type take the same room whatever is asked for, but
for the optional priority. -/
theorem length_fields_payload (hlegal : ∀ r ∈ rs, r.edit.Legal) :
    (payload type rs).fields.length
      = if type = .headers then
          if (last? Edit.priority? rs).isSome then Priority.width else 0
        else type.fixedLength := by
  cases type with
  | headers =>
      rw [if_pos rfl, payload, Payload.fields]
      cases last? Edit.priority? rs with
      | none => rfl
      | some standing => exact standing.length_encode
  | ping =>
      rw [if_neg (by decide), payload, Payload.fields]
      cases hlast : last? Edit.payload? rs with
      | none => rfl
      | some octets =>
          obtain ⟨⟨e, table⟩, hr, hpart⟩ := exists_of_last? hlast
          have hlegal := hlegal _ hr
          cases e <;> cases hpart
          · exact hlegal
          · exact BigEndian.length_encode _ _
  | goAway =>
      simp only [payload, Payload.fields, List.length_append,
        BigEndian.length_encode]
      rfl
  | priority => exact Priority.length_encode _
  | rstStream | pushPromise | windowUpdate => exact BigEndian.length_encode _ _
  | _ => rfl

/-- Padding that is asked for once is not changed later on. -/
theorem last?_padding?_append
    (honce : ((rs ++ more).filterMap (·.edit.padding?)).length ≤ 1) :
    last? Edit.padding? rs = none
      ∨ last? Edit.padding? (rs ++ more) = last? Edit.padding? rs := by
  rw [List.filterMap_append, List.length_append] at honce
  rw [last?_append]
  rcases hrs : rs.filterMap (·.edit.padding?) with _ | ⟨padding, rest⟩
  case nil => exact .inl (by rw [last?, hrs]; rfl)
  case cons =>
    rw [hrs, List.length_cons] at honce
    have hmore : more.filterMap (·.edit.padding?) = [] :=
      List.eq_nil_of_length_eq_zero (by omega)
    exact .inr (by rw [last?, hmore]; rfl)

/-- Of the fields only the optional priority is added later on. -/
theorem length_fields_append_le (hlegal : ∀ r ∈ rs ++ more, r.edit.Legal) :
    (payload type rs).fields.length
      ≤ (payload type (rs ++ more)).fields.length := by
  have hrs : ∀ r ∈ rs, r.edit.Legal := fun r hr =>
    hlegal r (List.mem_append_left more hr)
  rw [length_fields_payload hlegal, length_fields_payload hrs, last?_append]
  split
  case isFalse => exact Nat.le_refl _
  case isTrue =>
    rw [Option.isSome_or]
    cases (last? Edit.priority? rs).isSome with
    | false => exact Nat.zero_le _
    | true => exact Nat.le_of_eq (by rw [Bool.or_true])

theorem length_content_append_le (type : FrameType) (rs more : List Request) :
    (payload type rs).content.length
      ≤ (payload type (rs ++ more)).content.length := by
  have hadded : (content rs).length ≤ (content (rs ++ more)).length := by
    rw [content_append, List.length_append]
    exact Nat.le_add_right _ _
  cases type <;> first | exact hadded | exact Nat.le_refl _

/-- As long as the padding is not changed, a frame only grows. -/
theorem length_payload_le (hlegal : ∀ r ∈ rs ++ more, r.edit.Legal)
    (honce : ((rs ++ more).filterMap (·.edit.padding?)).length ≤ 1) :
    (Draft.requested type rs).payload.length
      ≤ (Draft.requested type (rs ++ more)).payload.length := by
  have hfields := @length_fields_append_le type rs more hlegal
  have hcontent := length_content_append_le type rs more
  have hlength : ∀ rs, (Draft.requested type rs).payload.length
      = (payload type rs).padding?.toList.length
        + (payload type rs).fields.length + (payload type rs).content.length
        + ((payload type rs).padding?.getD 0).toNat := by
    intro rs
    rw [Draft.length_payload, Draft.body, List.length_append,
      List.length_append]
    rfl
  rw [hlength, hlength, padding?_payload, padding?_payload]
  rcases last?_padding?_append honce with hnone | hsame
  case inl =>
    rw [hnone, ite_self]
    simp only [Option.toList_none, List.length_nil, Option.getD_none,
      UInt8.toNat_zero]
    omega
  case inr =>
    rw [hsame]
    omega

end Request

/-- Requests with legal values that pad at most once are granted if there
is room for the frame in the end. -/
theorem Builder.Meets.exists_grant_once {b : Builder} {front back : List UInt8}
    {type : FrameType} {rs : List Request} (h : b.Meets type [] front back)
    (hspace : b.maxLimit < addressSpace)
    (happlies : ∀ r ∈ rs, r.edit.appliesTo type)
    (hlegal : ∀ r ∈ rs, r.edit.Legal)
    (hack : type = .settings → Flag.ack.isSet (Request.flags type rs) →
      Request.content rs = [])
    (honce : (rs.filterMap (·.edit.padding?)).length ≤ 1)
    (hroom : b.HasRoom (.requested type rs)) : ∃ b', b.grant rs = .ok b' := by
  refine h.exists_grant hspace happlies hlegal hack ?_
  rintro part ⟨more, rfl⟩
  exact hroom.of_le (Request.length_payload_le hlegal honce)

-- ============================================================ a whole frame

namespace Builder

variable {type : FrameType} {buffer : Buffer} {offset maxLimit : Nat}
  {rs : List Request}

/-- A frame is started if there is room for what it will be. -/
theorem exists_start (hlegal : ∀ r ∈ rs, r.edit.Legal)
    (honce : (rs.filterMap (·.edit.padding?)).length ≤ 1)
    (hroom : offset + (Draft.requested type rs).encode.length ≤ maxLimit)
    (hmax : maxLimit ≤ buffer.size) (hspace : maxLimit < addressSpace) :
    ∃ b, start type buffer offset maxLimit = .ok b := by
  have hblank : (Draft.requested type []).payload.length
      = type.fixedLength := by
    rw [Draft.requested_nil, Draft.length_payload]
    simp only [Draft.blank, Draft.body, Draft.padLength, Option.toList_none,
      List.nil_append, List.append_nil, List.length_replicate,
      Option.getD_none, UInt8.toNat_zero, Nat.add_zero]
  have hgrows := @Request.length_payload_le type [] rs hlegal honce
  rw [List.nil_append, hblank] at hgrows
  rw [Draft.length_encode] at hroom
  have hwidth : Header.width = 9 := rfl
  exact ⟨_, start_eq_ok_iff.mpr
    ⟨requireRoom_eq_ok_iff.mpr ⟨hmax, by omega, by omega⟩, rfl⟩⟩

/-- What is asked for is built in any window that has room for it: each
request is granted, and the frame that they make up stands in the window
and is read from it. -/
theorem exists_build (happlies : ∀ r ∈ rs, r.edit.appliesTo type)
    (hlegal : ∀ r ∈ rs, r.edit.Legal)
    (hack : type = .settings → Flag.ack.isSet (Request.flags type rs) →
      Request.content rs = [])
    (honce : (rs.filterMap (·.edit.padding?)).length ≤ 1)
    (hstream : type.isStreamScoped → Request.streamId rs ≠ 0)
    (hroom : offset + (Draft.requested type rs).encode.length ≤ maxLimit)
    (hlength : (Draft.requested type rs).payload.length ≤ Header.maxLength)
    (hmax : maxLimit ≤ buffer.size) (hspace : maxLimit < addressSpace) :
    ∃ b b' f, start type buffer offset maxLimit = .ok b ∧ b.grant rs = .ok b'
      ∧ b'.octets = (Draft.requested type rs).encode ∧ b'.build = .ok f
      ∧ f.raw.offset = offset
      ∧ f.raw.octets = (Draft.requested type rs).encode := by
  obtain ⟨b, hstart⟩ := exists_start hlegal honce hroom hmax hspace
  have hmeets := start_meets hstart
  obtain ⟨-, rfl⟩ := start_eq_ok_iff.mp hstart
  obtain ⟨b', hgrant⟩ := hmeets.exists_grant_once hspace happlies hlegal hack
    honce ⟨hroom, hlength⟩
  have hmeets' : b'.Meets type rs _ _ := hmeets.grant happlies hgrant
  have hoctets := hmeets'.lays.octets_eq
  have hoffset : b'.offset = offset := by
    rw [Draft.length_encode] at hroom
    rw [hmeets'.lays.offset_eq, List.length_take, Buffer.length_toList]
    omega
  have hbuild := hmeets'.build_eq (by
    rw [Draft.length_encode] at hroom
    rw [hoffset, Header.width]
    omega)
  rw [if_neg] at hbuild
  · exact ⟨_, b', _, hstart, hgrant, hoctets, hbuild, hoffset,
      (congrArg (b'.buffer.slice b'.offset)
        hmeets'.lays.limit_eq_limit).trans hoctets⟩
  · rw [Bool.and_eq_true, beq_iff_eq]
    exact fun h => hstream h.1 h.2

end Builder

end Http2.Frame
