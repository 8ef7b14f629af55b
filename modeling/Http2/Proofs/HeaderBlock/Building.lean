/-
What block builders write.

A successful call appends the representations of its fields, one behind
the other, and leaves the table as encoding them does. What was in front
of the block stays as it was.
-/
import Http2.HeaderBlock.Builder
import Http2.Proofs.Calls
import Http2.Proofs.Octets.Pieces

namespace Http2

-- ============================================================== encodings

namespace Hpack.Table

theorem encodeAll_cons (t : Table) (f : Field) (fs : List Field) :
    t.encodeAll (f :: fs)
      = ((t.encode f).1 ++ ((t.encode f).2.encodeAll fs).1,
        ((t.encode f).2.encodeAll fs).2) := rfl

theorem encodeAll_singleton (t : Table) (f : Field) :
    t.encodeAll [f] = t.encode f := by
  rw [encodeAll_cons, encodeAll, List.append_nil]

/-- Fields are encoded one behind the other. -/
theorem encodeAll_append (t : Table) (fs gs : List Field) :
    t.encodeAll (fs ++ gs)
      = ((t.encodeAll fs).1 ++ ((t.encodeAll fs).2.encodeAll gs).1,
        ((t.encodeAll fs).2.encodeAll gs).2) := by
  induction fs generalizing t with
  | nil => rfl
  | cons f fs ih =>
      rw [List.cons_append, encodeAll_cons, encodeAll_cons, ih,
        List.append_assoc]

end Hpack.Table

namespace HeaderBlock.Builder

variable {b b' : Builder} {table table' : Hpack.Table}

-- =============================================================== one call

theorem start_eq_ok_iff {buffer : Buffer} {offset maxLimit : Nat} :
    start buffer offset maxLimit = .ok b
      ↔ requireRoom buffer.size offset maxLimit 0 = .ok ()
        ∧ b = ⟨buffer, offset, offset, maxLimit⟩ :=
  check_eq_ok_iff

theorem append_eq_ok_iff {octets : List UInt8} :
    b.append octets = .ok b'
      ↔ b.limit + octets.length ≤ b.maxLimit
        ∧ b' = { b with
            buffer := b.buffer.write b.limit octets
            limit := b.limit + octets.length } := by
  rw [append, Attempt.guarded_eq_ok_iff, requireEnd_eq_ok_iff]
  constructor
  · rintro ⟨hfits, hok⟩
    exact ⟨hfits, (Except.ok.inj hok).symm⟩
  · rintro ⟨hfits, rfl⟩
    exact ⟨hfits, rfl⟩

theorem field_eq_ok_iff {f : Field} :
    b.field table f = .ok (b', table')
      ↔ b.append (table.encode f).1 = .ok b'
        ∧ table' = (table.encode f).2 := by
  rw [field, Attempt.within_eq_ok_iff]
  constructor
  · rintro ⟨s, hs, hpair⟩
    cases hpair
    exact ⟨hs, rfl⟩
  · rintro ⟨hs, rfl⟩
    exact ⟨b', hs, rfl⟩

theorem fields_cons (b : Builder) (table : Hpack.Table) (f : Field)
    (fs : List Field) :
    b.fields table (f :: fs)
      = (b.field table f).andThen fun s => s.1.fields s.2 fs := by
  rw [fields]
  cases b.field table f <;> rfl

theorem fields_eq_chain (b : Builder) (table : Hpack.Table)
    (fs : List Field) :
    b.fields table fs
      = Attempt.chain (fun s f => s.1.field s.2 f) (b, table) fs :=
  Attempt.eq_chain (fun s => s.1.fields s.2) (fun _ => rfl)
    (fun s => fields_cons s.1 s.2) (b, table) fs

-- ======================================================= what stands there

/-- The builder has written `content`. In front of it stands `front`, and
behind the bound stands `back`. -/
structure LaysDown (b : Builder) (content front back : List UInt8) : Prop where
  offset_eq : b.offset = front.length
  limit_eq : b.limit = front.length + content.length
  buffer_eq : ∃ room, b.maxLimit = b.limit + room.length
    ∧ b.buffer.toList = front ++ content ++ room ++ back

variable {content front back : List UInt8}

theorem start_laysDown {buffer : Buffer} {offset maxLimit : Nat}
    (hok : start buffer offset maxLimit = .ok b) :
    b.LaysDown [] (buffer.toList.take offset)
      (buffer.toList.drop maxLimit) := by
  obtain ⟨hroom, rfl⟩ := start_eq_ok_iff.mp hok
  obtain ⟨hmax, -, hle⟩ := requireRoom_eq_ok_iff.mp hroom
  have hfront : (buffer.toList.take offset).length = offset := by
    rw [List.length_take, Buffer.length_toList]
    omega
  obtain ⟨room, hlength, hrest⟩ := buffer.exists_drop_eq hle hmax
  refine ⟨hfront.symm, hfront.symm, room, hlength, ?_⟩
  show buffer.toList = _
  rw [List.append_nil, List.append_assoc, ← hrest]
  exact (List.take_append_drop offset buffer.toList).symm

theorem LaysDown.append (h : b.LaysDown content front back)
    {octets : List UInt8} (hok : b.append octets = .ok b') :
    b'.LaysDown (content ++ octets) front back := by
  obtain ⟨hfits, rfl⟩ := append_eq_ok_iff.mp hok
  obtain ⟨room, hroom, hbuffer⟩ := h.buffer_eq
  have hlimit := h.limit_eq
  have hfree : octets.length ≤ room.length := by omega
  have hsplit : b.buffer.toList
      = (front ++ content) ++ room.take octets.length
        ++ (room.drop octets.length ++ back) := by
    rw [hbuffer, List.append_assoc (front ++ content) (room.take _),
      ← List.append_assoc (room.take _), List.take_append_drop,
      List.append_assoc (front ++ content)]
  have hplace : (front ++ content).length = b.limit := by
    rw [List.length_append, hlimit]
  have hwrite := Buffer.toList_write_of_append hsplit hplace
    (show (room.take octets.length).length = octets.length by
      rw [List.length_take, Nat.min_eq_left hfree])
  refine ⟨h.offset_eq, ?_, room.drop octets.length, ?_, ?_⟩
  · show b.limit + octets.length = _
    rw [List.length_append]
    omega
  · show b.maxLimit = b.limit + octets.length + _
    rw [List.length_drop]
    omega
  · show (b.buffer.write b.limit octets).toList = _
    rw [hwrite]
    simp only [List.append_assoc]

/-- Adding fields appends their representations. -/
theorem LaysDown.fields (h : b.LaysDown content front back) {fs : List Field}
    (hok : b.fields table fs = .ok (b', table')) :
    b'.LaysDown (content ++ (table.encodeAll fs).1) front back
      ∧ table' = (table.encodeAll fs).2 := by
  rw [fields_eq_chain] at hok
  refine Attempt.chain_induction (P := fun done s =>
    s.1.LaysDown (content ++ (table.encodeAll done).1) front back
      ∧ s.2 = (table.encodeAll done).2) ?_ ⟨?_, rfl⟩ hok
  · rintro done ⟨b₁, table₁⟩ f ⟨b₂, table₂⟩ ⟨hlays, rfl⟩ hfirst
    obtain ⟨happend, rfl⟩ := field_eq_ok_iff.mp hfirst
    rw [Hpack.Table.encodeAll_append, Hpack.Table.encodeAll_singleton,
      ← List.append_assoc]
    exact ⟨hlays.append happend, rfl⟩
  · rwa [Hpack.Table.encodeAll, List.append_nil]

-- ================================================================ any run

/-- What becomes of a builder and of the encoder's table by successful
calls that add fields, and the fields that they add. -/
inductive Filled (b : Builder) (table : Hpack.Table) :
    List Field → Builder → Hpack.Table → Prop
  | empty : Filled b table [] b table
  | header {fs : List Field} {f : Field} {b₁ b₂ : Builder}
      {table₁ table₂ : Hpack.Table} (run : Filled b table fs b₁ table₁)
      (hok : b₁.field table₁ f = .ok (b₂, table₂)) :
      Filled b table (fs ++ [f]) b₂ table₂
  | headers {fs : List Field} {map : HeaderMap} {b₁ b₂ : Builder}
      {table₁ table₂ : Hpack.Table} (run : Filled b table fs b₁ table₁)
      (hok : b₁.fields table₁ map.toList = .ok (b₂, table₂)) :
      Filled b table (fs ++ map.toList) b₂ table₂

/-- A filled builder has written the representations of its fields. -/
theorem LaysDown.filled (h : b.LaysDown [] front back) {fs : List Field}
    (hrun : Filled b table fs b' table') :
    b'.LaysDown (table.encodeAll fs).1 front back
      ∧ table' = (table.encodeAll fs).2 := by
  induction hrun with
  | empty => exact ⟨h, rfl⟩
  | @header fs f b₁ b₂ table₁ table₂ run hok ih =>
      obtain ⟨hlays, rfl⟩ := ih
      obtain ⟨happend, rfl⟩ := field_eq_ok_iff.mp hok
      rw [Hpack.Table.encodeAll_append, Hpack.Table.encodeAll_singleton]
      exact ⟨hlays.append happend, rfl⟩
  | headers run hok ih =>
      obtain ⟨hlays, rfl⟩ := ih
      rw [Hpack.Table.encodeAll_append]
      exact hlays.fields hok

/-- What is built is the octets written. -/
theorem LaysDown.build (h : b.LaysDown content front back) {block : HeaderBlock}
    (hok : b.build = .ok block) : block.octets = content := by
  have hblock : block = ⟨b.buffer, b.offset, b.limit⟩ := by
    unfold Builder.build HeaderBlock.read at hok
    cases hroom : requireRoom b.buffer.size b.offset b.limit 0 with
    | error e =>
        rw [hroom] at hok
        cases hok
    | ok u =>
        rw [hroom] at hok
        exact (Except.ok.inj hok).symm
  obtain ⟨room, -, hbuffer⟩ := h.buffer_eq
  rw [hblock]
  refine Buffer.slice_of_append (hbuffer.trans (List.append_assoc _ _ _))
    h.offset_eq.symm ?_
  show b.offset + content.length = b.limit
  rw [h.offset_eq, h.limit_eq]

end HeaderBlock.Builder

end Http2
