/-
Header fields from one end of a connection to the other.

A sender compresses fields into HEADERS, PUSH_PROMISE and CONTINUATION
frames and into blocks of their own, in any order and with any padding
and priority, and goes on with one table all the time. `Sends` is what it
sends. A receiver reads the blocks in the same order, each field by field
or with a consumer, and goes on with one table as well.

`receiveAll_sent` says that the receiver gets the fields that were added
and has the sender's table after every block. It is put together from two
halves: what stands in a block is the encoding of the fields that were
added (`Composed.octets_eq`), and what is decoded from an encoding are the
fields it is made from (`receive_encodeAll`). The tables agree after a
block because both halves arrive at the table behind the encoding.
-/
import Http2.Proofs.Frame.Built
import Http2.Proofs.Frame.Editing
import Http2.Proofs.HeaderBlock.Decoding

namespace Http2

-- ========================================================= content of a frame

namespace Frame

/-- The header fields that an edit adds. -/
def Edit.added : Edit → List Field
  | .field f => [f]
  | .fields map => map.toList
  | _ => []

/-- Whether an edit adds octets without encoding them. -/
def Edit.isRaw : Edit → Bool
  | .append _ => true
  | _ => false

namespace Draft

open Builder

variable {d : Draft} {table : Hpack.Table}

/-- An edit of a frame that carries a block appends the representations
of the fields it adds. -/
theorem content_edit {e : Edit} (hcarries : carriesBlock d.type)
    (happlies : e.appliesTo d.type) (hencoded : e.isRaw = false) :
    (d.edit table e).1.content = d.content ++ (table.encodeAll e.added).1
      ∧ (d.edit table e).2 = (table.encodeAll e.added).2 := by
  cases e with
  | append octets => cases hencoded
  | field field =>
      rw [Edit.added, Hpack.Table.encodeAll_singleton]
      exact ⟨rfl, rfl⟩
  | fields fields => exact ⟨rfl, rfl⟩
  | setting setting value =>
      rw [show d.type = .settings from beq_iff_eq.mp happlies] at hcarries
      cases hcarries
  | settings settings =>
      rw [show d.type = .settings from beq_iff_eq.mp happlies] at hcarries
      cases hcarries
  | priority priority =>
      refine ⟨?_, rfl⟩
      have hadded : (Edit.priority priority).added = [] := rfl
      rw [hadded, Hpack.Table.encodeAll, List.append_nil]
      simp only [edit, setPriority]
      split <;> rfl
  | _ => exact ⟨(List.append_nil d.content).symm, rfl⟩

theorem content_editAll {es : List Edit} (hcarries : carriesBlock d.type)
    (happlies : ∀ e ∈ es, e.appliesTo d.type ∧ e.isRaw = false) :
    (d.editAll table es).1.content
        = d.content ++ (table.encodeAll (es.flatMap Edit.added)).1
      ∧ (d.editAll table es).2
        = (table.encodeAll (es.flatMap Edit.added)).2 := by
  induction es generalizing d table with
  | nil => exact ⟨(List.append_nil d.content).symm, rfl⟩
  | cons e es ih =>
      obtain ⟨⟨he, hencoded⟩, hes⟩ := List.forall_mem_cons.mp happlies
      obtain ⟨hcontent, htable⟩ := @content_edit d table e hcarries he hencoded
      have htype := d.type_edit table e
      obtain ⟨hrest, hlast⟩ := @ih (d.edit table e).1 (d.edit table e).2
        (htype ▸ hcarries) (htype ▸ hes)
      rw [List.flatMap_cons, Hpack.Table.encodeAll_append]
      rw [hcontent, htable, List.append_assoc] at hrest
      rw [htable] at hlast
      rw [editAll, htable]
      exact ⟨hrest, hlast⟩

end Draft

end Frame

-- ================================================================ sending

namespace HeaderBlock

variable {table table' : Hpack.Table} {fs : List Field}

/-- A header block that has been composed with an encoder: the encoder's
table before, the fields that were added, the block as it is found in the
view that has been built, and the table behind it. -/
inductive Composed : Hpack.Table → List Field → Option HeaderBlock →
    Hpack.Table → Prop
  | frame {type : FrameType} {buffer : Buffer} {offset maxLimit : Nat}
      {b b' : Frame.Builder} {es : List Frame.Edit} {table table' : Hpack.Table}
      {f : Frame} (hcarries : Frame.Builder.carriesBlock type)
      (hstart : Frame.Builder.start type buffer offset maxLimit = .ok b)
      (happlies : ∀ e ∈ es, e.appliesTo type ∧ e.isRaw = false)
      (hedits : b.editAll table es = .ok (b', table'))
      (hbuild : b'.build = .ok f) :
      Composed table (es.flatMap Frame.Edit.added) f.block? table'
  | block {buffer : Buffer} {offset maxLimit : Nat} {b b' : Builder}
      {fs : List Field} {table table' : Hpack.Table} {view : HeaderBlock}
      (hstart : Builder.start buffer offset maxLimit = .ok b)
      (hfilled : Builder.Filled b table fs b' table')
      (hbuild : b'.build = .ok view) : Composed table fs (some view) table'

/-- What stands in a composed block is the encoding of its fields. -/
theorem Composed.octets_eq {view : Option HeaderBlock}
    (h : Composed table fs view table') :
    ∃ block, view = some block ∧ block.octets = (table.encodeAll fs).1
      ∧ table' = (table.encodeAll fs).2 := by
  cases h with
  | @frame type _ _ _ _ _ es _ _ f hcarries hstart happlies hedits hbuild =>
      obtain ⟨-, hlays, hwell, rfl⟩ := (Frame.Builder.start_laysDown
        hstart).editAll (.blank type) (fun e he => (happlies e he).1) hedits
      obtain ⟨hcontent, htable⟩ := @Frame.Draft.content_editAll
        (Frame.Draft.blank type) table es hcarries happlies
      have htype := (Frame.Draft.blank type).type_editAll table es
      obtain ⟨block, hblock, hoctets⟩ := hlays.block_build hwell
        (by rw [htype]; exact hcarries) hbuild
      exact ⟨block, hblock, hoctets.trans hcontent, htable⟩
  | @block _ _ _ _ _ _ _ _ view hstart hfilled hbuild =>
      obtain ⟨hlays, htable⟩ := (Builder.start_laysDown hstart).filled hfilled
      exact ⟨view, rfl, hlays.build hbuild, htable⟩

/-- What a sender composes: the fields of a block, the block in the view
that has been built, and the encoder's table behind it. -/
structure Sent where
  fields : List Field
  view : Option HeaderBlock
  table : Hpack.Table

/-- Blocks that are composed one after the other with one encoder. -/
inductive Sends : Hpack.Table → List Sent → Prop
  | nothing (table : Hpack.Table) : Sends table []
  | block {table : Hpack.Table} {s : Sent} {later : List Sent}
      (h : Composed table s.fields s.view s.table)
      (rest : Sends s.table later) : Sends table (s :: later)

-- ============================================================== receiving

/-- How a receiver goes through a block: field by field, or by handing
the fields to a consumer. -/
inductive Reading where
  | fields
  | forEach

/-- What a receiver gets out of a block, and the decoder's table behind
it. -/
def receive (block : HeaderBlock) (table : Hpack.Table) :
    Reading → List (Except Error Field) × Hpack.Table
  | .fields =>
    let (items, rest) := (block.fields table).drain
    (items, rest.table)
  | .forEach =>
    let (taken, failure, rest) :=
      (block.fields table).fold (fun taken f => taken ++ [f]) []
    (taken.map .ok ++ failure.toList.map .error, rest.table)

/-- What a receiver gets out of several blocks with one decoder. -/
def receiveAll (table : Hpack.Table) :
    List (Reading × HeaderBlock) →
      List (List (Except Error Field) × Hpack.Table)
  | [] => []
  | (reading, block) :: later =>
    let got := block.receive table reading
    got :: receiveAll got.2 later

/-- What is received from an encoding are the fields it is made from. -/
theorem receive_encodeAll {block : HeaderBlock} (ht : table.Bounded)
    (hfs : ∀ f ∈ fs, f.Readable)
    (hoctets : block.octets = (table.encodeAll fs).1) (reading : Reading) :
    block.receive table reading = (fs.map .ok, (table.encodeAll fs).2) := by
  have hwalk : block.fields table
      = ⟨⟨(table.encodeAll fs).1, false⟩, table⟩ := by
    rw [HeaderBlock.fields, representations, hoctets]
  cases reading with
  | fields => rw [receive, hwalk, Fields.drain_encodeAll ht hfs]
  | forEach =>
      have hcollect : (fs.map fun f => [f]).flatten = fs :=
        List.flatMap_singleton' fs
      rw [receive, hwalk, Fields.fold_encodeAll _ _ ht hfs,
        List.foldl_append_eq_append, hcollect]
      simp only [List.nil_append, Option.toList_none, List.map_nil,
        List.append_nil]

/-- What is received goes with what is sent from any table on that both
ends have. -/
theorem Sends.receive {sent : List Sent} (hsent : Sends table sent)
    (ht : table.Bounded) (hreadable : ∀ s ∈ sent, ∀ f ∈ s.fields, f.Readable) :
    ∃ blocks, sent.map Sent.view = blocks.map some
      ∧ ∀ readings : List Reading, readings.length = blocks.length →
        receiveAll table (readings.zip blocks)
          = sent.map fun s => (s.fields.map .ok, s.table) := by
  -- over the blocks; a block leaves both ends with the same table again,
  -- and it is a bounded one
  induction hsent with
  | nothing table =>
      refine ⟨[], rfl, ?_⟩
      intro readings _
      rw [List.zip_nil_right]
      rfl
  | @block table s later hcomposed rest ih =>
      obtain ⟨hs, hlater⟩ := List.forall_mem_cons.mp hreadable
      obtain ⟨block, hview, hoctets, htable⟩ := hcomposed.octets_eq
      obtain ⟨blocks, hviews, hrest⟩ := ih
        (htable ▸ ht.encodeAll s.fields) hlater
      refine ⟨block :: blocks, ?_, ?_⟩
      · rw [List.map_cons, List.map_cons, hview, hviews]
      · intro readings hlength
        cases readings with
        | nil => cases hlength
        | cons reading readings =>
            rw [List.zip_cons_cons, receiveAll, List.map_cons,
              receive_encodeAll ht hs hoctets, ← htable,
              hrest readings (Nat.succ.inj hlength)]

/-- A receiver gets all fields in the order in which they were added and
without an error, and has the sender's table after every block. -/
theorem receiveAll_sent {sent : List Sent} (hsent : Sends {} sent)
    (hreadable : ∀ s ∈ sent, ∀ f ∈ s.fields, f.Readable) :
    ∃ blocks, sent.map Sent.view = blocks.map some
      ∧ ∀ readings : List Reading, readings.length = blocks.length →
        receiveAll {} (readings.zip blocks)
          = sent.map fun s => (s.fields.map .ok, s.table) :=
  hsent.receive .start hreadable

/-- A field in a block, and once more in a HEADERS frame, where it is an
index into the table. -/
theorem receiveAll_sent_repeated :
    ∃ first second : HeaderBlock,
      first.octets = [0x40, 1, 1, 1, 2] ∧ second.octets = [0xbe]
      ∧ Sends {} [⟨[⟨[1], [2]⟩], some first, ⟨[⟨[1], [2]⟩], 4096⟩⟩,
        ⟨[⟨[1], [2]⟩], some second, ⟨[⟨[1], [2]⟩], 4096⟩⟩]
      ∧ receiveAll {} [(.fields, first), (.forEach, second)]
        = [([.ok ⟨[1], [2]⟩], ⟨[⟨[1], [2]⟩], 4096⟩),
          ([.ok ⟨[1], [2]⟩], ⟨[⟨[1], [2]⟩], 4096⟩)] := by
  have hempty : Builder.start (.ofList [7, 7, 7, 7, 7]) 0 5
      = .ok ⟨.ofList [7, 7, 7, 7, 7], 0, 0, 5⟩ := rfl
  have hfield : Builder.field ⟨.ofList [7, 7, 7, 7, 7], 0, 0, 5⟩ {} ⟨[1], [2]⟩
      = .ok (⟨.ofList [0x40, 1, 1, 1, 2], 0, 5, 5⟩, ⟨[⟨[1], [2]⟩], 4096⟩) := rfl
  have hblock : Composed {} [⟨[1], [2]⟩]
      (some ⟨.ofList [0x40, 1, 1, 1, 2], 0, 5⟩) ⟨[⟨[1], [2]⟩], 4096⟩ :=
    .block hempty (.header .empty hfield) rfl
  have hstart : Frame.Builder.start .headers
      (.ofList (List.replicate 11 7)) 0 11
      = .ok ⟨.headers, .ofList [0, 0, 0, 1, 0, 0, 0, 0, 0, 7, 7], 0, 9, 11,
        0⟩ := rfl
  have hstream : Frame.Builder.edit
      ⟨.headers, .ofList [0, 0, 0, 1, 0, 0, 0, 0, 0, 7, 7], 0, 9, 11, 0⟩
      ⟨[⟨[1], [2]⟩], 4096⟩ (.streamId 1)
      = .ok (⟨.headers, .ofList [0, 0, 0, 1, 0, 0, 0, 0, 1, 7, 7], 0, 9, 11, 0⟩,
        ⟨[⟨[1], [2]⟩], 4096⟩) := rfl
  have hfield' : Builder.field
      ⟨.ofList [0, 0, 0, 1, 0, 0, 0, 0, 1, 7, 7], 9, 9, 11⟩
      ⟨[⟨[1], [2]⟩], 4096⟩ ⟨[1], [2]⟩
      = .ok (⟨.ofList [0, 0, 0, 1, 0, 0, 0, 0, 1, 0xbe, 7], 9, 10, 11⟩,
        ⟨[⟨[1], [2]⟩], 4096⟩) := rfl
  have hindexed : Frame.Builder.addField
      ⟨.headers, .ofList [0, 0, 0, 1, 0, 0, 0, 0, 1, 7, 7], 0, 9, 11, 0⟩
      ⟨[⟨[1], [2]⟩], 4096⟩ ⟨[1], [2]⟩
      = .ok (⟨.headers, .ofList [0, 0, 1, 1, 0, 0, 0, 0, 1, 0xbe, 7], 0, 10, 11,
        0⟩, ⟨[⟨[1], [2]⟩], 4096⟩) :=
    Frame.Builder.addField_eq_ok_iff.mpr ⟨_, _, rfl, hfield', rfl⟩
  have hedits : Frame.Builder.editAll
      ⟨.headers, .ofList [0, 0, 0, 1, 0, 0, 0, 0, 0, 7, 7], 0, 9, 11, 0⟩
      ⟨[⟨[1], [2]⟩], 4096⟩ [.streamId 1, .field ⟨[1], [2]⟩]
      = .ok (⟨.headers, .ofList [0, 0, 1, 1, 0, 0, 0, 0, 1, 0xbe, 7], 0, 10, 11,
        0⟩, ⟨[⟨[1], [2]⟩], 4096⟩) := by
    rw [Frame.Builder.editAll_cons, Attempt.andThen_eq_ok_iff]
    refine ⟨_, hstream, ?_⟩
    rw [Frame.Builder.editAll_cons, Attempt.andThen_eq_ok_iff]
    exact ⟨_, hindexed, rfl⟩
  have hframe : Composed ⟨[⟨[1], [2]⟩], 4096⟩ [⟨[1], [2]⟩]
      (some ⟨.ofList [0, 0, 1, 1, 0, 0, 0, 0, 1, 0xbe, 7], 9, 10⟩)
      ⟨[⟨[1], [2]⟩], 4096⟩ :=
    .frame rfl hstart (by decide) hedits rfl
  have hsends :
      Sends {} [⟨[⟨[1], [2]⟩], some _, _⟩, ⟨[⟨[1], [2]⟩], some _, _⟩] :=
    .block hblock (.block hframe (.nothing _))
  have hreadable : ∀ f ∈ [(⟨[1], [2]⟩ : Field)], f.Readable :=
    List.forall_mem_cons.mpr ⟨⟨by decide, by decide⟩, nofun⟩
  obtain ⟨blocks, hviews, hreceived⟩ := receiveAll_sent hsends
    (List.forall_mem_cons.mpr
      ⟨hreadable, List.forall_mem_cons.mpr ⟨hreadable, nofun⟩⟩)
  have hblocks : [_, _] = blocks :=
    (List.map_inj_right fun _ _ => Option.some.inj).mp hviews
  rw [← hblocks] at hreceived
  exact ⟨_, _, rfl, rfl, hsends, hreceived [.fields, .forEach] rfl⟩

end HeaderBlock

end Http2
