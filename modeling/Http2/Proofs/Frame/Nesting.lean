/-
Three ways to fill a header block.

A field can be added to a frame by a block builder that is nested in the
frame's window, its encoding can be appended to the frame directly, and a
block can be filled on its own. The nested builder is kept from the padding
by a lower bound, and the direct call adds the padding to the end that it
checks. `LaysDown.append_eq_addField` says that this is the same: the calls
succeed together and leave the same frame, and a refusal differs only in the
numbers it tells.

So every call that adds to the block of a frame is a call on a block of its
own (`HeaderBlock.Call`), and in both places a run of them writes the same
octets (`encodeCalls`). Padding, priority, flags and numbers do not take
part in it.
-/
import Http2.Proofs.Frame.Refusal
import Http2.Proofs.HeaderBlock.Exchange

namespace Http2

-- ======================================================== calls on a block

namespace HeaderBlock

/-- A call that adds to a block. -/
inductive Call where
  /-- Adds representations that are encoded already. -/
  | append (octets : List UInt8)
  | field (field : Field)
  | fields (fields : HeaderMap)

/-- The octets that a call adds, and the encoder's table behind it. -/
def Call.encode (table : Hpack.Table) : Call → List UInt8 × Hpack.Table
  | .append octets => (octets, table)
  | .field f => table.encode f
  | .fields map => table.encodeAll map.toList

/-- The octets that calls add one behind the other, and the encoder's table
behind them. -/
def encodeCalls (table : Hpack.Table) : List Call → List UInt8 × Hpack.Table
  | [] => ([], table)
  | c :: cs =>
    let (front, table) := c.encode table
    let (back, table) := encodeCalls table cs
    (front ++ back, table)

theorem encodeCalls_cons (table : Hpack.Table) (c : Call) (cs : List Call) :
    encodeCalls table (c :: cs)
      = ((c.encode table).1 ++ (encodeCalls (c.encode table).2 cs).1,
        (encodeCalls (c.encode table).2 cs).2) := rfl

namespace Builder

variable {b b' b'' : Builder} {table : Hpack.Table}
variable {octets more content front back : List UInt8}

/-- Makes a call, with the encoder's table at hand. -/
def call (b : Builder) (table : Hpack.Table) :
    Call → Attempt (Builder × Hpack.Table)
  | .append octets => (b.append octets).within (·, table)
  | .field f => b.field table f
  | .fields map => b.fields table map.toList

/-- Makes several calls, up to the first that is refused. -/
def callAll (b : Builder) (table : Hpack.Table) (cs : List Call) :
    Attempt (Builder × Hpack.Table) :=
  Attempt.chain (fun s c => s.1.call s.2 c) (b, table) cs

/-- The block has grown by octets, below the same bound. -/
structure Grown (b : Builder) (octets : List UInt8) (b' : Builder) : Prop where
  limit_eq : b'.limit = b.limit + octets.length
  maxLimit_eq : b'.maxLimit = b.maxLimit
  lays : ∀ {content front back : List UInt8}, b.LaysDown content front back →
    b'.LaysDown (content ++ octets) front back

theorem Grown.refl (b : Builder) : b.Grown [] b :=
  ⟨rfl, rfl, fun h => by rwa [List.append_nil]⟩

theorem Grown.trans (h : b.Grown octets b') (h' : b'.Grown more b'') :
    b.Grown (octets ++ more) b'' where
  limit_eq := by
    rw [h'.limit_eq, h.limit_eq, List.length_append, Nat.add_assoc]
  maxLimit_eq := h'.maxLimit_eq.trans h.maxLimit_eq
  lays := fun hlays => by
    rw [← List.append_assoc]
    exact h'.lays (h.lays hlays)

-- with enough room every call succeeds

theorem exists_append (hroom : b.limit + octets.length ≤ b.maxLimit) :
    ∃ b', b.append octets = .ok b' ∧ b.Grown octets b' := by
  have hok := append_eq_ok_iff.mpr ⟨hroom, rfl⟩
  exact ⟨_, hok, rfl, rfl, fun h => h.append hok⟩

theorem exists_field {f : Field}
    (hroom : b.limit + (table.encode f).1.length ≤ b.maxLimit) :
    ∃ b', b.field table f = .ok (b', (table.encode f).2)
      ∧ b.Grown (table.encode f).1 b' := by
  obtain ⟨b', hok, hgrown⟩ := exists_append hroom
  exact ⟨b', field_eq_ok_iff.mpr ⟨hok, rfl⟩, hgrown⟩

theorem exists_fields {fs : List Field}
    (hroom : b.limit + (table.encodeAll fs).1.length ≤ b.maxLimit) :
    ∃ b', b.fields table fs = .ok (b', (table.encodeAll fs).2)
      ∧ b.Grown (table.encodeAll fs).1 b' := by
  induction fs generalizing b table with
  | nil => exact ⟨b, rfl, .refl b⟩
  | cons f fs ih =>
      rw [Hpack.Table.encodeAll_cons, List.length_append] at hroom
      have hone : b.limit + (table.encode f).1.length ≤ b.maxLimit := by omega
      obtain ⟨b₁, hfirst, hgrown⟩ := exists_field hone
      have hothers : b₁.limit + ((table.encode f).2.encodeAll fs).1.length
          ≤ b₁.maxLimit := by
        rw [hgrown.limit_eq, hgrown.maxLimit_eq]
        omega
      obtain ⟨b', hrest, hgrown'⟩ := ih hothers
      refine ⟨b', ?_, hgrown.trans hgrown'⟩
      rw [fields_cons]
      exact Attempt.andThen_eq_ok_iff.mpr ⟨_, hfirst, hrest⟩

theorem exists_call {c : Call}
    (hroom : b.limit + (c.encode table).1.length ≤ b.maxLimit) :
    ∃ b', b.call table c = .ok (b', (c.encode table).2)
      ∧ b.Grown (c.encode table).1 b' := by
  cases c with
  | append octets =>
      obtain ⟨b', hok, hgrown⟩ := exists_append hroom
      exact ⟨b', Attempt.within_pair_eq_ok_iff.mpr ⟨hok, rfl⟩, hgrown⟩
  | field f => exact exists_field hroom
  | fields map => exact exists_fields hroom

/-- With enough room calls add their octets one behind the other. -/
theorem exists_callAll {cs : List Call}
    (hroom : b.limit + (encodeCalls table cs).1.length ≤ b.maxLimit) :
    ∃ b', b.callAll table cs = .ok (b', (encodeCalls table cs).2)
      ∧ b.Grown (encodeCalls table cs).1 b' := by
  induction cs generalizing b table with
  | nil => exact ⟨b, rfl, .refl b⟩
  | cons c cs ih =>
      rw [encodeCalls_cons, List.length_append] at hroom
      have hone : b.limit + (c.encode table).1.length ≤ b.maxLimit := by omega
      obtain ⟨b₁, hfirst, hgrown⟩ := exists_call hone
      have hothers : b₁.limit + (encodeCalls (c.encode table).2 cs).1.length
          ≤ b₁.maxLimit := by
        rw [hgrown.limit_eq, hgrown.maxLimit_eq]
        omega
      obtain ⟨b', hrest, hgrown'⟩ := ih hothers
      exact ⟨b', Attempt.andThen_eq_ok_iff.mpr ⟨_, hfirst, hrest⟩,
        hgrown.trans hgrown'⟩

/-- What has been written can be handed out. -/
theorem LaysDown.exists_build (h : b.LaysDown content front back)
    (hspace : b.offset < addressSpace) :
    ∃ view, b.build = .ok view ∧ view.octets = content := by
  have hoffset := h.offset_eq
  have hlimit := h.limit_eq
  obtain ⟨room, hroom, hbuffer⟩ := h.buffer_eq
  have hsize := congrArg List.length hbuffer
  simp only [List.length_append, Buffer.length_toList] at hsize
  have hok : b.build = .ok ⟨b.buffer, b.offset, b.limit⟩ :=
    check_eq_ok_iff.mpr ⟨requireRoom_eq_ok_iff.mpr (by omega), rfl⟩
  exact ⟨_, hok, h.build hok⟩

end Builder

end HeaderBlock

-- ============================================================ calls on a frame

namespace Frame

open HeaderBlock (encodeCalls)

/-- The call on a block that an edit amounts to. -/
def Edit.blockCall? : Edit → Option HeaderBlock.Call
  | .append octets => some (.append octets)
  | .field f => some (.field f)
  | .fields map => some (.fields map)
  | _ => none

namespace Draft

variable {d : Draft} {table : Hpack.Table} {e : Edit}

/-- An edit that is a call on the block adds the octets of that call. -/
theorem content_edit_of_blockCall? {c : HeaderBlock.Call}
    (hcall : e.blockCall? = some c) :
    (d.edit table e).1.content = d.content ++ (c.encode table).1
      ∧ (d.edit table e).2 = (c.encode table).2 := by
  cases e <;> cases hcall <;> exact ⟨rfl, rfl⟩

/-- All other edits leave the block and the table alone. -/
theorem content_edit_of_no_blockCall (hcarries : Builder.carriesBlock d.type)
    (happlies : e.appliesTo d.type) (hnone : e.blockCall? = none) :
    (d.edit table e).1.content = d.content ∧ (d.edit table e).2 = table := by
  have hencoded : e.isRaw = false := by cases e <;> first | rfl | cases hnone
  have hadded : e.added = [] := by cases e <;> first | rfl | cases hnone
  have hedit := @content_edit d table e hcarries happlies hencoded
  rwa [hadded, Hpack.Table.encodeAll, List.append_nil] at hedit

/-- What edits make of the content is what their calls on the block add. -/
theorem content_editAll_eq_encodeCalls {es : List Edit}
    (hcarries : Builder.carriesBlock d.type)
    (happlies : ∀ e ∈ es, e.appliesTo d.type) :
    (d.editAll table es).1.content
        = d.content ++ (encodeCalls table (es.filterMap Edit.blockCall?)).1
      ∧ (d.editAll table es).2
        = (encodeCalls table (es.filterMap Edit.blockCall?)).2 := by
  induction es generalizing d table with
  | nil => exact ⟨(List.append_nil d.content).symm, rfl⟩
  | cons e es ih =>
      obtain ⟨he, hes⟩ := List.forall_mem_cons.mp happlies
      have htype := d.type_edit table e
      have hrest := @ih (d.edit table e).1 (d.edit table e).2
        (htype ▸ hcarries) (htype ▸ hes)
      rw [editAll]
      cases hcall : e.blockCall? with
      | none =>
          obtain ⟨hcontent, htable⟩ :=
            @content_edit_of_no_blockCall d table e hcarries he hcall
          rw [hcontent, htable] at hrest
          rw [List.filterMap_cons_none hcall, htable]
          exact hrest
      | some c =>
          obtain ⟨hcontent, htable⟩ :=
            @content_edit_of_blockCall? d table e c hcall
          rw [hcontent, htable] at hrest
          rw [List.filterMap_cons_some hcall, HeaderBlock.encodeCalls_cons,
            ← List.append_assoc, htable]
          exact hrest

end Draft

namespace Builder

variable {b b' : Builder} {d : Draft} {front back : List UInt8}

theorem LaysDown.size_block (h : b.LaysDown d front back) (hd : d.WellFormed) :
    b.block.size = d.content.length := by
  rw [h.block_eq hd, HeaderBlock.size, Draft.body]
  simp only [List.length_append]
  omega

-- =============================================================== the result

/-- Two errors of the kinds that a growing call is refused with, and of the
same kind. -/
inductive RefusedAlike : Error → Error → Prop
  | overrun (limit maxLimit limit' maxLimit' : Nat) :
      RefusedAlike (.bufferOverrun limit maxLimit)
        (.bufferOverrun limit' maxLimit')
  | tooLong : RefusedAlike (.invalidArgument .payloadTooLong)
      (.invalidArgument .payloadTooLong)

/-- Adding a field and appending its representation come to the same. -/
theorem LaysDown.addField_alike (h : b.LaysDown d front back)
    (hspace : b.contentEnd < addressSpace) (table : Hpack.Table) (f : Field) :
    (b.addField table f).isOk = (b.append (table.encode f).1).isOk
      ∧ (b.addField table f).state
        = ((b.append (table.encode f).1).state, (table.encode f).2)
      ∧ ∀ r q, b.addField table f = .error r →
        b.append (table.encode f).1 = .error q →
        RefusedAlike r.error q.error := by
  cases hadd : b.addField table f with
  | ok s =>
      obtain ⟨b₁, table₁⟩ := s
      obtain ⟨happend, htable⟩ := addField_eq_ok hadd
      rw [happend, ← htable]
      refine ⟨rfl, rfl, ?_⟩
      intro r q hr
      cases hr
  | error r =>
      obtain ⟨q, happend, herror, hleft⟩ := h.append_eq_error hspace hadd
      rw [happend]
      refine ⟨rfl, hleft, ?_⟩
      intro r' q' hr hq
      cases hr
      cases hq
      have hkind := append_refused happend
      generalize hcause : r.error = cause at herror
      generalize q = refusal at herror hkind
      cases hkind with
      | overrun hlimit =>
          cases cause <;> cases herror
          exact .overrun ..
      | tooLong hlimit hlength =>
          cases cause <;> cases herror
          exact .tooLong

/-- The nested, the direct and the standalone way to fill a header block
agree. On every granted builder of a type that carries a block, with every
table and field, the nested way succeeds if and only if appending the
representation directly does, leaves the same builder, refused or not, and
the table behind the representation, and is refused for the same kind of
reason. After any edits of a frame, what a block of its own with enough room
is filled with by the calls among them is the block that stands in the frame
and is found in the view that is built, and the tables are the same. -/
theorem nested_direct_standalone {type : FrameType} {buffer : Buffer}
    {offset maxLimit : Nat} {b : Builder} (hcarries : carriesBlock type)
    (hsize : buffer.size < 2 ^ 63)
    (hstart : start type buffer offset maxLimit = .ok b) :
    (∀ rs b', (∀ r ∈ rs, r.edit.appliesTo type) → b.grant rs = .ok b' →
      ∀ (table : Hpack.Table) (f : Field),
        (b'.addField table f).isOk = (b'.append (table.encode f).1).isOk
          ∧ (b'.addField table f).state
            = ((b'.append (table.encode f).1).state, (table.encode f).2)
          ∧ ∀ r q, b'.addField table f = .error r →
            b'.append (table.encode f).1 = .error q →
            RefusedAlike r.error q.error)
      ∧ ∀ table es b' table', (∀ e ∈ es, e.appliesTo type) →
        b.editAll table es = .ok (b', table') →
        (∀ f, b'.build = .ok f → f.block? = some b'.block)
          ∧ ∀ buffer₂ offset₂ maxLimit₂ s,
            HeaderBlock.Builder.start buffer₂ offset₂ maxLimit₂ = .ok s →
            offset₂ + b'.block.size ≤ maxLimit₂ →
            ∃ s' view,
              s.callAll table (es.filterMap Edit.blockCall?) = .ok (s', table')
                ∧ s'.build = .ok view ∧ view.octets = b'.block.octets := by
  refine ⟨?nested, ?standalone⟩
  case nested =>
    intro rs b' happlies hgrant table f
    have hlays := (granted_meets hstart happlies hgrant).lays
    obtain ⟨hroom, -, -⟩ :=
      requireRoom_eq_ok_iff.mp (start_eq_ok_iff.mp hstart).1
    have hmax := (window_granted hstart happlies hgrant).2
    have hend := hlays.contentEnd_add_padding
    obtain ⟨room, hlimit, -⟩ := hlays.buffer_eq
    refine hlays.addField_alike ?_ table f
    rw [addressSpace]
    omega
  case standalone =>
    intro table es b' table' happlies hedits
    have hcontent := @Draft.content_editAll_eq_encodeCalls (.blank type) table
      es hcarries happlies
    obtain ⟨-, hlays, hwell, htable⟩ :=
      (start_laysDown hstart).editAll (.blank type) happlies hedits
    have hcarries' :
        carriesBlock ((Draft.blank type).editAll table es).1.type := by
      rw [Draft.type_editAll]
      exact hcarries
    refine ⟨fun f hbuild => hlays.block?_build hwell hcarries' hbuild, ?_⟩
    intro buffer₂ offset₂ maxLimit₂ s hstart₂ hroom
    rw [hlays.octets_block hwell, htable, hcontent.1, hcontent.2]
    rw [hlays.size_block hwell, hcontent.1] at hroom
    have hempty := HeaderBlock.Builder.start_laysDown hstart₂
    obtain ⟨hregion, hs⟩ := HeaderBlock.Builder.start_eq_ok_iff.mp hstart₂
    have hroom : s.limit + (encodeCalls table (es.filterMap
        Edit.blockCall?)).1.length ≤ s.maxLimit := by
      rw [hs]
      exact hroom
    obtain ⟨s', hcalls, hgrown⟩ := HeaderBlock.Builder.exists_callAll hroom
    have hfilled := hgrown.lays hempty
    have hspace : s'.offset < addressSpace := by
      rw [hfilled.offset_eq, ← hempty.offset_eq, hs]
      exact (requireRoom_eq_ok_iff.mp hregion).2.1
    obtain ⟨view, hview, hoctets⟩ := hfilled.exists_build hspace
    exact ⟨s', view, hcalls, hview, hoctets⟩

/-- A HEADERS frame that fills its window with two fields and padding. A
block of the size of the fields is filled with the same calls, and another
field is refused in the frame either way. -/
theorem nested_direct_standalone_headers :
    ∃ b b' table' s s' view,
      start .headers (.ofList (List.replicate 16 9)) 1 15 = .ok b
        ∧ b.editAll {} [.field (.ofText ":method" "GET"), .padding 2,
          .append [0x84]] = .ok (b', table')
        ∧ HeaderBlock.Builder.start (.ofList [9, 9, 9]) 1 3 = .ok s
        ∧ s.callAll {} [.field (.ofText ":method" "GET"), .append [0x84]]
          = .ok (s', table')
        ∧ s'.build = .ok view ∧ view.octets = [0x82, 0x84]
        ∧ ∃ b₁ r q,
          b.grant [⟨.padding 2, {}⟩, ⟨.append [0x84, 0x84], {}⟩] = .ok b₁
          ∧ b₁.addField {} (.ofText ":method" "GET") = .error r
          ∧ b₁.append [0x82] = .error q
          ∧ r.left = (q.left, {}) ∧ RefusedAlike r.error q.error := by
  have hstart : start .headers (.ofList (List.replicate 16 9)) 1 15
      = .ok ⟨.headers, .ofList [9, 0, 0, 0, 1, 0, 0, 0, 0, 0, 9, 9, 9, 9, 9, 9],
        1, 10, 15, 0⟩ := rfl
  obtain ⟨⟨b', table'⟩, hedits⟩ := exists_eq_ok_of_isOk (show (editAll
    ⟨.headers, .ofList [9, 0, 0, 0, 1, 0, 0, 0, 0, 0, 9, 9, 9, 9, 9, 9], 1, 10,
      15, 0⟩ {} [.field (.ofText ":method" "GET"), .padding 2,
        .append [0x84]]).isOk = true by decide +kernel)
  obtain ⟨b₁, hgrant⟩ := exists_eq_ok_of_isOk (show (grant
    ⟨.headers, .ofList [9, 0, 0, 0, 1, 0, 0, 0, 0, 0, 9, 9, 9, 9, 9, 9], 1, 10,
      15, 0⟩ [⟨.padding 2, {}⟩, ⟨.append [0x84, 0x84], {}⟩]).isOk = true by
        decide +kernel)
  obtain ⟨hnested, hstandalone⟩ :=
    nested_direct_standalone (by rfl) (by decide) hstart
  -- the block in the frame
  obtain ⟨-, hlays, hwell, -⟩ :=
    (start_laysDown hstart).editAll (.blank _) (by decide) hedits
  have hoctets : b'.block.octets = [0x82, 0x84] :=
    (hlays.octets_block hwell).trans (by decide +kernel)
  have hsize : 1 + b'.block.size ≤ 3 := by
    rw [hlays.size_block hwell, ← hlays.octets_block hwell, hoctets]
    decide
  obtain ⟨s', view, hcalls, hview, hsame⟩ := (hstandalone _ _ _ _ (by decide)
    hedits).2 (.ofList [9, 9, 9]) 1 3 _ rfl hsize
  refine ⟨_, b', table', _, s', view, hstart, hedits, rfl, hcalls, hview,
    hsame.trans hoctets, b₁, ?_⟩
  -- the frame is full
  have hfull := (granted_meets hstart (by decide) hgrant).lays
  have hlimit : b₁.limit = 15 := hfull.limit_eq.trans (by decide +kernel)
  have hmax := (window_granted hstart (by decide) hgrant).2
  have hend := hfull.contentEnd_add_padding
  have happend : b₁.append [0x82]
      = .error ⟨.bufferOverrun (b₁.contentEnd + 1 + b₁.padding) b₁.maxLimit,
        b₁⟩ :=
    Attempt.guarded_eq_error_iff.mpr (.inl ⟨_, requireEnd_of_lt
      (show b₁.maxLimit < b₁.contentEnd + 1 + b₁.padding by omega), rfl⟩)
  have hencode : Hpack.Table.encode {} (.ofText ":method" "GET")
      = ([0x82], {}) := rfl
  obtain ⟨hok, hstate, hkind⟩ :=
    hnested _ b₁ (by decide) hgrant {} (.ofText ":method" "GET")
  rw [hencode, happend] at hok hstate hkind
  cases hadd : b₁.addField {} (.ofText ":method" "GET") with
  | ok t =>
      rw [hadd] at hok
      cases hok
  | error r =>
      rw [hadd] at hstate
      exact ⟨r, _, hgrant, rfl, happend, hstate, hkind r _ hadd rfl⟩

end Builder

end Frame

end Http2
