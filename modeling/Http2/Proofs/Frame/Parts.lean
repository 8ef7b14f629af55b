/-
Calls that are made of several calls, and where they stop.

Adding the fields of a map, or the parameters of a record, is making one
call for each (`editAll_map_field`, `editAll_map_setting`). So if such a run
is refused, the calls in front of the one that is refused have succeeded,
and the frame is the one that they leave (`LaysDown.addFields_stops`,
`LaysDown.addSettings_stops`). The encoder's table is one field ahead of the
frame, because a field is encoded before there is room for it.
-/
import Http2.Proofs.Frame.Containment

namespace Http2

/-- The settings that are announced, in their order. -/
theorem Settings.announced_eq (s : Settings) :
    s.announced
      = [(.headerTableSize, s.headerTableSize),
          (.enablePush, if s.enablePush then 1 else 0)]
        ++ (s.maxConcurrentStreams.map (Setting.maxConcurrentStreams, ·)).toList
        ++ [(.initialWindowSize, s.initialWindowSize),
          (.maxFrameSize, s.maxFrameSize)]
        ++ (s.maxHeaderListSize.map (Setting.maxHeaderListSize, ·)).toList := by
  cases hstreams : s.maxConcurrentStreams <;>
    cases hlist : s.maxHeaderListSize <;>
    simp [announced, Setting.all, get?, hstreams, hlist]

theorem Parameter.length_flatMap_announce (settings : List (Setting × UInt32)) :
    (settings.flatMap fun s => (announce s.1 s.2).encode).length
      = 6 * settings.length := by
  induction settings with
  | nil => rfl
  | cons s settings ih =>
      rw [List.flatMap_cons, List.length_append, ih, length_encode, width,
        List.length_cons]
      omega

namespace Frame.Builder

variable {b b' : Builder} {d : Draft} {front back : List UInt8}
variable {table : Hpack.Table}

-- ========================================================== several calls

/-- To add fields is to add one after the other. -/
theorem editAll_map_field (b : Builder) (table : Hpack.Table)
    (fs : List Field) :
    b.editAll table (fs.map .field) = b.addFields table fs := by
  rw [editAll_eq_chain, addFields_eq_chain, Attempt.chain_map]
  rfl

/-- To add parameters is to add one after the other. -/
theorem editAll_map_setting (b : Builder) (table : Hpack.Table)
    (settings : List (Setting × UInt32)) :
    b.editAll table (settings.map fun s => .setting s.1 s.2)
      = (b.addSettings settings).within (·, table) := by
  rw [editAll_eq_chain, addSettings_eq_chain, Attempt.chain_map,
    ← Attempt.chain_within]
  rfl

-- ============================================================ where they stop

/-- A field that does not fit leaves the frame as it was, and the table
behind the field. -/
theorem LaysDown.left_of_overrun (h : b.LaysDown d front back) {f : Field}
    {r : Refused (Builder × Hpack.Table)} {stop bound : Nat}
    (hno : b.addField table f = .error r)
    (hover : r.error = .bufferOverrun stop bound) :
    r.left = (b, (table.encode f).2) := by
  by_cases hspace : b.contentEnd < addressSpace
  case neg =>
    rw [h.addField_of_unaddressable (Nat.le_of_not_lt hspace)] at hno
    rw [← Except.error.inj hno] at hover
    cases hover
  case pos =>
    obtain ⟨q, happend, -, hleft⟩ := h.append_eq_error hspace hno
    have hsame : r.left.1 = b := by
      rcases h.leaves_of_addField hno with hsame | ⟨hlong, -⟩
      · exact hsame
      · rw [hover] at hlong
        cases hlong
    rw [hleft] at hsame ⊢
    rw [show q.left = b from hsame]

/-- Fields that are refused for want of room leave the frame with those in
front of the first that does not fit, and the table behind that one. -/
theorem LaysDown.addFields_stops (h : b.LaysDown d front back)
    (hd : d.WellFormed) {fs : List Field} {r : Refused (Builder × Hpack.Table)}
    {stop bound : Nat} (hno : b.addFields table fs = .error r)
    (hover : r.error = .bufferOverrun stop bound) :
    ∃ k f b₁, fs[k]? = some f
      ∧ b.addFields table (fs.take k)
        = .ok (b₁, (table.encodeAll (fs.take k)).2)
      ∧ b₁.addField (table.encodeAll (fs.take k)).2 f = .error r
      ∧ r.left = (b₁, (table.encodeAll (fs.take (k + 1))).2) := by
  rw [addFields_eq_chain] at hno
  obtain ⟨k, f, ⟨b₁, table₁⟩, hf, hfront, hlast⟩ :=
    Attempt.exists_of_chain_eq_error hno
  rw [← addFields_eq_chain] at hfront
  obtain ⟨hlays, -, rfl⟩ := h.addFields hd hfront
  refine ⟨k, f, b₁, hf, hfront, hlast, ?_⟩
  rw [hlays.left_of_overrun hlast hover, List.take_add_one, hf,
    Option.toList_some, Hpack.Table.encodeAll_append,
    Hpack.Table.encodeAll_singleton]

/-- Parameters that are refused, for anything but the length of the payload,
leave the frame with those in front of the first that is refused. -/
theorem LaysDown.addSettings_stops (h : b.LaysDown d front back)
    (hd : d.WellFormed) {settings : List (Setting × UInt32)}
    {r : Refused Builder} (hno : b.addSettings settings = .error r)
    (hshort : r.error ≠ .invalidArgument .payloadTooLong) :
    ∃ k s, settings[k]? = some s
      ∧ b.addSettings (settings.take k) = .ok r.left
      ∧ r.left.addSetting s.1 s.2 = .error r := by
  rw [addSettings_eq_chain] at hno
  obtain ⟨k, s, b₁, hs, hfront, hlast⟩ :=
    Attempt.exists_of_chain_eq_error hno
  rw [← addSettings_eq_chain] at hfront
  obtain ⟨hlays, -⟩ := h.addSettings hd hfront
  rcases hlays.leaves_of_addSetting hlast with hsame | ⟨hlong, -⟩
  · rw [hsame]
    exact ⟨k, s, hs, hfront, hlast⟩
  · exact absurd hlong hshort

-- ================================================================ the frame

theorem LaysDown.length_eq (h : b.LaysDown d front back) :
    b.length = d.payload.length := by
  rw [Builder.length, h.payloadStart_eq, h.limit_eq, Draft.length_encode]
  omega

/-- The frame that can be read in the window ends where the builder says. -/
theorem LaysDown.exists_read (h : b.LaysDown d front back) (hd : d.WellFormed)
    (hspace : b.offset + Header.width < addressSpace) :
    ∃ f, RawFrame.read b.buffer b.offset b.maxLimit = .ok f
      ∧ f.limit = b.limit ∧ f.length = b.length := by
  rw [h.offset_eq] at hspace ⊢
  refine ⟨_, h.heads.read hd hspace, ?_, h.length_eq.symm⟩
  rw [h.limit_eq, Draft.length_encode, ← Nat.add_assoc]
  rfl

theorem LaysDown.length_append_eq (h : b.LaysDown d front back)
    {octets : List UInt8} (h' : b'.LaysDown (d.append octets) front back) :
    b'.length = b.length + octets.length := by
  have hbody := d.length_body_append octets
  rw [h'.length_eq, h.length_eq, Draft.length_payload, Draft.length_payload,
    hbody]
  show d.body.length + octets.length + d.padLength = _
  omega

-- =============================================================== the result

/-- Calls that are made of several calls stop between two of them. If the
fields of a map are refused for want of room, there is a first that does not
fit. The builder is the one that the calls for the fields in front of it
leave, a frame that can be read, of which the block and the length tell of
just these fields; and the table is behind one field more. If the parameters
of a record are refused for anything but the length of the payload, the
builder is the one that the calls for the parameters in front of the refused
one leave. Parameters go in the order of their identifiers, without those
that are unlimited. -/
theorem runs_stop_between_parts {type : FrameType} {buffer : Buffer}
    {offset maxLimit : Nat} {b b' : Builder} {rs : List Request}
    (hstart : start type buffer offset maxLimit = .ok b)
    (happlies : ∀ r ∈ rs, r.edit.appliesTo type) (hgrant : b.grant rs = .ok b')
    (table : Hpack.Table) :
    (∀ (map : HeaderMap) (r : Refused (Builder × Hpack.Table))
        (stop bound : Nat),
      b'.edit table (.fields map) = .error r →
      r.error = .bufferOverrun stop bound →
      ∃ k f b₁ raw, map.toList[k]? = some f
        ∧ b'.editAll table ((map.toList.take k).map .field)
          = .ok (b₁, (table.encodeAll (map.toList.take k)).2)
        ∧ b₁.edit (table.encodeAll (map.toList.take k)).2 (.field f) = .error r
        ∧ r.left = (b₁, (table.encodeAll (map.toList.take (k + 1))).2)
        ∧ RawFrame.read b₁.buffer offset maxLimit = .ok raw
        ∧ raw.limit = b₁.limit
        ∧ raw.length
          = b'.length + (table.encodeAll (map.toList.take k)).1.length
        ∧ b₁.block.octets
          = b'.block.octets ++ (table.encodeAll (map.toList.take k)).1)
      ∧ (∀ (record : Settings) (r : Refused (Builder × Hpack.Table)),
        b'.edit table (.settings record) = .error r →
        r.error ≠ .invalidArgument .payloadTooLong →
        ∃ k known value b₁ raw, record.announced[k]? = some (known, value)
          ∧ b'.editAll table ((record.announced.take k).map fun s =>
            .setting s.1 s.2) = .ok (b₁, table)
          ∧ b₁.edit table (.setting known value) = .error r
          ∧ r.left = (b₁, table)
          ∧ RawFrame.read b₁.buffer offset maxLimit = .ok raw
          ∧ raw.limit = b₁.limit ∧ raw.length = b'.length + 6 * k)
      ∧ ∀ record : Settings, record.announced
        = [(.headerTableSize, record.headerTableSize),
            (.enablePush, if record.enablePush then 1 else 0)]
          ++ (record.maxConcurrentStreams.map
            (Setting.maxConcurrentStreams, ·)).toList
          ++ [(.initialWindowSize, record.initialWindowSize),
            (.maxFrameSize, record.maxFrameSize)]
          ++ (record.maxHeaderListSize.map
            (Setting.maxHeaderListSize, ·)).toList := by
  have hmeets := granted_meets hstart happlies hgrant
  have hlays := hmeets.lays
  have hwell := hmeets.wellFormed
  obtain ⟨hoffset, hmax⟩ := window_granted hstart happlies hgrant
  obtain ⟨hfront, hspace, -⟩ := exists_window hstart
  refine ⟨?fields, ?settings, Settings.announced_eq⟩
  case fields =>
    intro map r stop bound hno hover
    obtain ⟨k, f, b₁, hf, hadded, hlast, hleft⟩ :=
      hlays.addFields_stops hwell hno hover
    obtain ⟨hlays₁, hwell₁, -⟩ := hlays.addFields hwell hadded
    have hoffset₁ : b₁.offset = offset := hlays₁.offset_eq.trans hfront
    have hmax₁ : b₁.maxLimit = maxLimit :=
      (maxLimit_addFields hadded).trans hmax
    obtain ⟨raw, hread, hlimit, hlength⟩ := hlays₁.exists_read hwell₁ (by omega)
    rw [hoffset₁, hmax₁] at hread
    refine ⟨k, f, b₁, raw, hf, (editAll_map_field ..).trans hadded, hlast,
      hleft, hread, hlimit, ?_, ?_⟩
    · rw [hlength, hlays.length_append_eq hlays₁]
    · rw [hlays₁.octets_block hwell₁, hlays.octets_block hwell]
      rfl
  case settings =>
    intro record r hno hshort
    obtain ⟨q, hsettings, rfl⟩ := Attempt.within_eq_error_iff.mp hno
    obtain ⟨k, s, hs, hadded, hlast⟩ :=
      hlays.addSettings_stops hwell hsettings hshort
    obtain ⟨hlays₁, hwell₁⟩ := hlays.addSettings hwell hadded
    have hoffset₁ : q.left.offset = offset := hlays₁.offset_eq.trans hfront
    have hmax₁ : q.left.maxLimit = maxLimit :=
      (maxLimit_addSettings hadded).trans hmax
    obtain ⟨raw, hread, hlimit, hlength⟩ := hlays₁.exists_read hwell₁ (by omega)
    rw [hoffset₁, hmax₁] at hread
    refine ⟨k, s.1, s.2, q.left, raw, hs, ?_, ?_, rfl, hread, hlimit, ?_⟩
    · rw [editAll_map_setting]
      exact Attempt.within_pair_eq_ok_iff.mpr ⟨hadded, rfl⟩
    · exact Attempt.within_eq_error_iff.mpr ⟨q, hlast, rfl⟩
    · have hk : k < record.announced.length :=
        (List.getElem?_eq_some_iff.mp hs).1
      rw [hlength, hlays.length_append_eq hlays₁,
        Parameter.length_flatMap_announce, List.length_take,
        Nat.min_eq_left (Nat.le_of_lt hk)]

/-- A HEADERS frame with room for the first of two fields, and a SETTINGS
frame with room for two of the four parameters of a record without
limits. -/
theorem runs_stop_between_parts_first :
    (∃ b r k f b₁, start .headers (.ofList (List.replicate 12 9)) 1 11 = .ok b
      ∧ b.edit {} (.fields (.ofList [.ofText ":method" "GET",
        .ofText ":path" "/"])) = .error r
      ∧ r.error = .bufferOverrun 12 11
      ∧ r.left.1.octets = [0, 0, 1, 1, 0, 0, 0, 0, 0, 0x82]
      ∧ (HeaderMap.ofList [.ofText ":method" "GET",
        .ofText ":path" "/"]).toList[k]? = some f
      ∧ b.editAll {} (((HeaderMap.ofList [.ofText ":method" "GET",
        .ofText ":path" "/"]).toList.take k).map .field)
        = .ok (b₁, (Hpack.Table.encodeAll {} ((HeaderMap.ofList
          [.ofText ":method" "GET", .ofText ":path" "/"]).toList.take k)).2)
      ∧ r.left.1 = b₁)
    ∧ ∃ b r k b₁, start .settings (.ofList (List.replicate 24 9)) 1 23 = .ok b
      ∧ b.edit {} (.settings {}) = .error r
      ∧ r.left.1.length = 12
      ∧ b.editAll {} (((Settings.announced {}).take k).map fun s =>
        .setting s.1 s.2) = .ok (b₁, {})
      ∧ r.left = (b₁, {}) := by
  refine ⟨?headers, ?settings⟩
  case headers =>
    have hstart : start .headers (.ofList (List.replicate 12 9)) 1 11
        = .ok ⟨.headers, .ofList [9, 0, 0, 0, 1, 0, 0, 0, 0, 0, 9, 9], 1, 10,
          11, 0⟩ := rfl
    obtain ⟨r, hno, hover, hleft⟩ := Attempt.exists_of_error? (show (edit
      ⟨.headers, .ofList [9, 0, 0, 0, 1, 0, 0, 0, 0, 0, 9, 9], 1, 10, 11, 0⟩ {}
        (.fields (.ofList [.ofText ":method" "GET",
          .ofText ":path" "/"]))).error? = some (.bufferOverrun 12 11) by
            decide +kernel)
    obtain ⟨hfields, -, -⟩ :=
      runs_stop_between_parts hstart (List.forall_mem_nil _) rfl {}
    obtain ⟨k, f, b₁, -, hf, hfront, -, hbefore, -⟩ :=
      hfields _ r 12 11 hno hover
    refine ⟨_, r, k, f, b₁, hstart, hno, hover, ?_, hf, hfront, ?_⟩
    · rw [← hleft]
      decide +kernel
    · rw [hbefore]
  case settings =>
    have hstart : start .settings (.ofList (List.replicate 24 9)) 1 23
        = .ok ⟨.settings, .ofList [9, 0, 0, 0, 4, 0, 0, 0, 0, 0, 9, 9, 9, 9, 9,
          9, 9, 9, 9, 9, 9, 9, 9, 9], 1, 10, 23, 0⟩ := rfl
    obtain ⟨r, hno, hover, hleft⟩ := Attempt.exists_of_error? (show (edit
      ⟨.settings, .ofList [9, 0, 0, 0, 4, 0, 0, 0, 0, 0, 9, 9, 9, 9, 9, 9, 9, 9,
        9, 9, 9, 9, 9, 9], 1, 10, 23, 0⟩ {} (.settings {})).error?
      = some (.bufferOverrun 28 23) by decide +kernel)
    obtain ⟨-, hsettings, -⟩ :=
      runs_stop_between_parts hstart (List.forall_mem_nil _) rfl {}
    obtain ⟨k, known, value, b₁, -, -, hfront, -, hbefore, -⟩ :=
      hsettings {} r hno (by rw [hover]; nofun)
    refine ⟨_, r, k, b₁, hstart, hno, ?_, hfront, hbefore⟩
    rw [← hleft]
    decide +kernel

end Frame.Builder

end Http2
