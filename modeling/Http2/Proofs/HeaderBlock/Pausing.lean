/-
Decoding goes representation by representation and can stop at any.

A walk over the fields of a block takes the representations of the split
one by one, each with the table that the one before left
(`drain_append_of_decode`). `Decodes` is a run of them that all decode,
`DecodesUpTo` one that ends with the representation of its last field,
where a walk stands that was asked for so many fields (`take_append`).
Whatever follows such a run is decoded as if it stood alone, with the
table behind the run. So decoding can be paused and gone on with
elsewhere, and a block may be cut into several between representations
(`drain_paused`).
-/
import Http2.Proofs.HeaderBlock.Steps

namespace Http2.HeaderBlock

open Hpack Hpack.Representation

variable {t t' t'' : Table} {r : Representation} {rs qs : List Representation}
variable {f : Field} {fs gs ds : List Field} {octets rest : List UInt8}

namespace Fields

-- =================================================== one representation

theorem drain_of_stuck (h : Stuck octets) (t : Table) :
    drain ⟨⟨octets, false⟩, t⟩
      = ([.error .compression], ⟨⟨octets, true⟩, t⟩) := by
  rw [drain_of_next_some (next_of_stuck h t),
    drain_of_next_none (next_failed octets t)]

theorem drain_of_undecodable (hr : r.WellFormed)
    (h : t.decode r.octets = (none, t')) (rest : List UInt8) :
    drain ⟨⟨r.octets ++ rest, false⟩, t⟩
      = ([.error .compression], ⟨⟨rest, true⟩, t'⟩) := by
  rw [drain_of_next_some (next_of_undecodable hr h rest),
    drain_of_next_none (next_failed rest t')]

/-- What follows a representation that decodes is drained with the table
behind it. -/
theorem drain_append_of_decode (hr : r.WellFormed)
    (h : t.decode r.octets = (some ds, t')) (rest : List UInt8) :
    drain ⟨⟨r.octets ++ rest, false⟩, t⟩
      = (ds.getLast?.toList.map .ok ++ (drain ⟨⟨rest, false⟩, t'⟩).1,
        (drain ⟨⟨rest, false⟩, t'⟩).2) := by
  cases hf : ds.getLast? with
  | none => exact drain_congr (next_of_no_field hr h hf rest)
  | some f => exact drain_of_next_some (next_of_field hr h hf rest)

end Fields

-- =========================================================== runs that decode

/-- Representations that decode one after another, the fields they stand
for, and the table behind them. -/
inductive Decodes :
    Table → List Representation → List Field → Table → Prop
  | nil {t : Table} : Decodes t [] [] t
  | cons {t t' t'' : Table} {r : Representation} {rs : List Representation}
      {ds fs : List Field} (hr : r.WellFormed)
      (hdecode : t.decode r.octets = (some ds, t')) (h : Decodes t' rs fs t'') :
      Decodes t (r :: rs) (ds.getLast?.toList ++ fs) t''

/-- Representations that decode one after another, up to the one that
stands for the last of the fields: none is passed over unless a field is
still to come. -/
inductive DecodesUpTo :
    Table → List Representation → List Field → Table → Prop
  | nothing {t : Table} : DecodesUpTo t [] [] t
  | pass {t t' t'' : Table} {r : Representation} {rs : List Representation}
      {ds fs : List Field} (hr : r.WellFormed)
      (hdecode : t.decode r.octets = (some ds, t')) (hf : ds.getLast? = none)
      (hmore : fs ≠ []) (h : DecodesUpTo t' rs fs t'') :
      DecodesUpTo t (r :: rs) fs t''
  | field {t t' t'' : Table} {r : Representation} {rs : List Representation}
      {f : Field} {ds fs : List Field} (hr : r.WellFormed)
      (hdecode : t.decode r.octets = (some ds, t'))
      (hf : ds.getLast? = some f) (h : DecodesUpTo t' rs fs t'') :
      DecodesUpTo t (r :: rs) (f :: fs) t''

theorem DecodesUpTo.decodes (h : DecodesUpTo t rs fs t') :
    Decodes t rs fs t' := by
  induction h with
  | nothing => exact .nil
  | pass hr hdecode hf hmore h ih =>
      have hrun := Decodes.cons hr hdecode ih
      rwa [hf] at hrun
  | field hr hdecode hf h ih =>
      have hrun := Decodes.cons hr hdecode ih
      rwa [hf] at hrun

/-- Representations decode one after another, or some are left from the
first one on that does not. -/
theorem decodes_or_fails (hrs : ∀ r ∈ rs, r.WellFormed) (t : Table) :
    (∃ fs t', Decodes t rs fs t')
      ∨ ∃ qs r ps fs t' t'', rs = qs ++ r :: ps ∧ Decodes t qs fs t'
        ∧ r.WellFormed ∧ t'.decode r.octets = (none, t'') := by
  induction rs generalizing t with
  | nil => exact .inl ⟨[], t, .nil⟩
  | cons r rs ih =>
      obtain ⟨hr, hrs⟩ := List.forall_mem_cons.mp hrs
      rcases hdecode : t.decode r.octets with ⟨result, t₁⟩
      cases result with
      | none =>
          exact .inr ⟨[], r, rs, [], t, t₁, rfl, .nil, hr, hdecode⟩
      | some ds =>
          rcases ih hrs t₁
            with ⟨fs, t', h⟩ | ⟨qs, q, ps, fs, t', t'', heq, h, hq⟩
          · exact .inl ⟨_, t', .cons hr hdecode h⟩
          · refine .inr ⟨r :: qs, q, ps, _, t', t'', ?_, .cons hr hdecode h, hq⟩
            rw [heq, List.cons_append]

namespace Fields

/-- What follows a run that decodes is drained with the table behind it,
whatever stands there. -/
theorem drain_append (h : Decodes t rs fs t') (rest : List UInt8) :
    drain ⟨⟨join rs ++ rest, false⟩, t⟩
      = (fs.map .ok ++ (drain ⟨⟨rest, false⟩, t'⟩).1,
        (drain ⟨⟨rest, false⟩, t'⟩).2) := by
  induction h with
  | nil => rfl
  | cons hr hdecode h ih =>
      rw [join_cons, List.append_assoc, drain_append_of_decode hr hdecode, ih,
        List.map_append, List.append_assoc]

/-- A block of a run that decodes yields its fields. -/
theorem drain_join (h : Decodes t rs fs t') :
    drain ⟨⟨join rs, false⟩, t⟩ = (fs.map .ok, ⟨⟨[], false⟩, t'⟩) := by
  have hdrain := drain_append h []
  rwa [drain_of_next_none (next_nil t'), List.append_nil, List.append_nil]
    at hdrain

/-- A representation that does not decode ends the walk, whatever follows
it. -/
theorem drain_append_of_fails (h : Decodes t qs fs t') (hr : r.WellFormed)
    (hfails : t'.decode r.octets = (none, t'')) (rest : List UInt8) :
    drain ⟨⟨join qs ++ (r.octets ++ rest), false⟩, t⟩
      = (fs.map .ok ++ [.error .compression], ⟨⟨rest, true⟩, t''⟩) := by
  rw [drain_append h, drain_of_undecodable hr hfails]

/-- Asked for as many fields as a run has up to its end, a walk stands
behind the run, whatever follows it. -/
theorem take_append (h : DecodesUpTo t rs fs t') (rest : List UInt8) :
    take fs.length ⟨⟨join rs ++ rest, false⟩, t⟩
      = (fs.map .ok, ⟨⟨rest, false⟩, t'⟩) := by
  induction h with
  | nothing => rfl
  | @pass _ _ _ r _ _ fs hr hdecode hf hmore h ih =>
      obtain ⟨n, hn⟩ := Nat.exists_eq_succ_of_ne_zero
        (fun hzero => hmore (List.eq_nil_of_length_eq_zero hzero))
      rw [join_cons, List.append_assoc, hn,
        take_congr (next_of_no_field hr hdecode hf _), ← Nat.succ_eq_add_one,
        ← hn, ih]
  | field hr hdecode hf h ih =>
      rw [join_cons, List.append_assoc, List.length_cons,
        take_of_next_some (next_of_field hr hdecode hf _), ih, List.map_cons]

theorem not_all_isOk (items : List (Except Error Field)) :
    ¬ ∀ item ∈ items ++ [.error .compression], item.isOk := by
  intro hall
  have hlast := hall _ (List.mem_append_right _ (List.mem_singleton_self _))
  cases hlast

/-- A walk that yields only fields decodes a run. -/
theorem exists_decodes_of_drain
    (h : ∀ item ∈ (drain ⟨⟨octets, false⟩, t⟩).1, item.isOk) :
    ∃ rs fs t', octets = join rs ∧ Decodes t rs fs t' := by
  obtain ⟨rs, tail, hsplits⟩ := exists_splits octets
  have heq := hsplits.eq_join
  rcases decodes_or_fails hsplits.wellFormed t
    with ⟨fs, t', hrun⟩ | ⟨qs, r, ps, fs, t', t'', rfl, hrun, hr, hfails⟩
  · rcases hsplits.stuck_tail with hnil | hstuck
    · rw [hnil, List.append_nil] at heq
      exact ⟨rs, fs, t', heq, hrun⟩
    · rw [heq, drain_append hrun, drain_of_stuck hstuck] at h
      exact absurd h (not_all_isOk _)
  · rw [heq, join_append, join_cons, List.append_assoc, List.append_assoc,
      drain_append_of_fails hrun hr hfails] at h
    exact absurd h (not_all_isOk _)

/-- A walk that yields the fields it is asked for has decoded the
representation in front of it, to no field or to the first of them. -/
theorem cases_of_take (hr : r.WellFormed) {after : Fields}
    (h : take (f :: fs).length ⟨⟨r.octets ++ rest, false⟩, t⟩
      = ((f :: fs).map .ok, after)) :
    ∃ ds t', t.decode r.octets = (some ds, t')
      ∧ (ds.getLast? = none
          ∧ take (f :: fs).length ⟨⟨rest, false⟩, t'⟩
            = ((f :: fs).map .ok, after)
        ∨ ds.getLast? = some f
          ∧ take fs.length ⟨⟨rest, false⟩, t'⟩ = (fs.map .ok, after)) := by
  rw [List.length_cons] at h ⊢
  rcases hdecode : t.decode r.octets with ⟨result, t'⟩
  cases result with
  | none =>
      rw [take_of_next_some (next_of_undecodable hr hdecode rest)] at h
      cases h
  | some ds =>
      refine ⟨ds, t', rfl, ?_⟩
      cases hf : ds.getLast? with
      | none =>
          rw [take_congr (next_of_no_field hr hdecode hf rest)] at h
          exact .inl ⟨rfl, h⟩
      | some g =>
          rw [take_of_next_some (next_of_field hr hdecode hf rest)] at h
          obtain ⟨hitems, hafter⟩ := Prod.mk.inj h
          obtain ⟨hg, hmore⟩ := List.cons.inj hitems
          cases hg
          exact .inr ⟨rfl, Prod.ext hmore hafter⟩

/-- A walk that yields as many fields as it is asked for stands behind
the representation of the last one. -/
theorem exists_decodesUpTo_of_take {after : Fields}
    (h : take fs.length ⟨⟨octets, false⟩, t⟩ = (fs.map .ok, after)) :
    ∃ rs rest, octets = join rs ++ rest
      ∧ DecodesUpTo t rs fs after.table ∧ after.scanner = ⟨rest, false⟩ := by
  obtain ⟨rs, tail, hsplits⟩ := exists_splits octets
  -- over the representations; where one is passed over, a field is still
  -- to come
  induction hsplits generalizing t fs with
  | done =>
      cases fs with
      | nil =>
          cases h
          exact ⟨[], [], rfl, .nothing, rfl⟩
      | cons f fs =>
          rw [List.length_cons, take, next_nil] at h
          cases h
  | @stuck octets hstuck =>
      cases fs with
      | nil =>
          cases h
          exact ⟨[], octets, rfl, .nothing, rfl⟩
      | cons f fs =>
          rw [List.length_cons, take_of_next_some (next_of_stuck hstuck t)] at h
          cases h
  | @piece r rest tail rs hr hsplits ih =>
      cases fs with
      | nil =>
          cases h
          exact ⟨[], r.octets ++ rest, rfl, .nothing, rfl⟩
      | cons f fs =>
          obtain ⟨ds, t', hdecode, ⟨hf, hrest⟩ | ⟨hf, hrest⟩⟩ :=
            cases_of_take hr h
          · obtain ⟨ps, left, rfl, hrun, hafter⟩ := ih hrest
            refine ⟨r :: ps, left, ?_, ?_, hafter⟩
            · rw [join_cons, List.append_assoc]
            · exact .pass hr hdecode hf (List.cons_ne_nil _ _) hrun
          · obtain ⟨ps, left, rfl, hrun, hafter⟩ := ih hrest
            refine ⟨r :: ps, left, ?_, ?_, hafter⟩
            · rw [join_cons, List.append_assoc]
            · exact .field hr hdecode hf hrun

end Fields

-- ============================================================ several blocks

/-- Drains blocks one after another with the same decoder, up to the
first one with an error: what they yield, and the table behind them. -/
def drainAll (t : Table) :
    List HeaderBlock → List (Except Error Field) × Table
  | [] => ([], t)
  | b :: later =>
    let (items, after) := (b.fields t).drain
    if items.all (·.isOk) then
      let (more, table) := drainAll after.table later
      (items ++ more, table)
    else (items, after.table)

theorem drainAll_cons (t : Table) (b : HeaderBlock) (later : List HeaderBlock) :
    drainAll t (b :: later)
      = if (b.fields t).drain.1.all (·.isOk) then
          ((b.fields t).drain.1
            ++ (drainAll (b.fields t).drain.2.table later).1,
            (drainAll (b.fields t).drain.2.table later).2)
        else ((b.fields t).drain.1, (b.fields t).drain.2.table) := rfl

theorem drainAll_singleton (t : Table) (b : HeaderBlock) :
    drainAll t [b] = ((b.fields t).drain.1, (b.fields t).drain.2.table) := by
  rw [drainAll_cons, drainAll, List.append_nil, ite_self]

/-- Blocks whose boundaries, but for the last one, are boundaries of
representations are drained like the one block that they make up. -/
theorem drainAll_eq_drain (parts : List HeaderBlock) (t : Table)
    (hparts : ∀ b ∈ parts.dropLast, ∃ rs : List Representation,
      (∀ r ∈ rs, r.WellFormed) ∧ b.octets = join rs) :
    drainAll t parts
      = ((Fields.drain ⟨⟨parts.flatMap HeaderBlock.octets, false⟩, t⟩).1,
        (Fields.drain
          ⟨⟨parts.flatMap HeaderBlock.octets, false⟩, t⟩).2.table) := by
  induction parts generalizing t with
  | nil =>
      rw [List.flatMap_nil, Fields.drain_of_next_none (Fields.next_nil t)]
      rfl
  | cons b later ih =>
      rw [List.flatMap_cons]
      cases later with
      | nil =>
          rw [drainAll_singleton, List.flatMap_nil, List.append_nil]
          rfl
      | cons c later =>
          rw [List.dropLast_cons_cons, List.forall_mem_cons] at hparts
          obtain ⟨⟨rs, hrs, hb⟩, hlater⟩ := hparts
          have hwalk : b.fields t = ⟨⟨join rs, false⟩, t⟩ := by
            rw [← hb]
            rfl
          rw [drainAll_cons, hwalk, hb]
          rcases decodes_or_fails hrs t
            with ⟨fs, t', hrun⟩
              | ⟨qs, r, ps, fs, t', t'', rfl, hrun, hr, hfails⟩
          · have hall : (fs.map (Except.ok (ε := Error))).all (·.isOk) := by
              rw [List.all_map]
              exact List.all_eq_true.mpr fun _ _ => rfl
            rw [Fields.drain_join hrun, if_pos hall, ih t' hlater,
              Fields.drain_append hrun]
          · have hbad := Fields.not_all_isOk (fs.map .ok)
            rw [← List.all_eq_true] at hbad
            rw [join_append, join_cons,
              Fields.drain_append_of_fails hrun hr hfails, if_neg hbad,
              List.append_assoc, List.append_assoc,
              Fields.drain_append_of_fails hrun hr hfails]

-- =============================================================== the result

/-- Decoding a block can be paused. Two blocks in a row are drained like
one block, the second with the table behind the first, as long as the first
yields only fields. A walk that has yielded some fields has decoded the
representations up to the last of these and nothing more, whatever follows
them; what follows is drained in the same way from there. And a block that
is cut between representations is drained like the whole, as the blocks of
a HEADERS frame and its CONTINUATION frames are. -/
theorem drain_paused (t : Table) :
    (∀ a b whole : HeaderBlock, whole.octets = a.octets ++ b.octets →
      (∀ item ∈ (a.fields t).drain.1, item.isOk) →
      (whole.fields t).drain
        = ((a.fields t).drain.1
          ++ (b.fields (a.fields t).drain.2.table).drain.1,
          (b.fields (a.fields t).drain.2.table).drain.2))
    ∧ (∀ (b : HeaderBlock) (fs : List Field) (after : Fields),
      (b.fields t).take fs.length = (fs.map .ok, after) →
      ∃ rs rest, b.octets = join rs ++ rest
        ∧ DecodesUpTo t rs fs after.table ∧ after.scanner = ⟨rest, false⟩
        ∧ (∀ c : HeaderBlock, join rs <+: c.octets →
          ((c.fields t).take fs.length).1 = fs.map .ok
          ∧ ((c.fields t).take fs.length).2.table = after.table)
        ∧ ∀ c : HeaderBlock, c.octets = rest →
          (b.fields t).drain
            = (fs.map .ok ++ (c.fields after.table).drain.1,
              (c.fields after.table).drain.2))
    ∧ ∀ (whole : HeaderBlock) (parts : List HeaderBlock),
      whole.octets = parts.flatMap HeaderBlock.octets →
      (∀ b ∈ parts.dropLast, ∃ rs : List Representation,
        (∀ r ∈ rs, r.WellFormed) ∧ b.octets = join rs) →
      drainAll t parts
        = ((whole.fields t).drain.1, (whole.fields t).drain.2.table) := by
  refine ⟨?joined, ?paused, ?parts⟩
  case joined =>
    intro a b whole hwhole hall
    obtain ⟨rs, fs, t', ha, hrun⟩ := Fields.exists_decodes_of_drain hall
    have hfront : (a.fields t).drain = (fs.map .ok, ⟨⟨[], false⟩, t'⟩) := by
      show Fields.drain ⟨⟨a.octets, false⟩, t⟩ = _
      rw [ha, Fields.drain_join hrun]
    rw [hfront]
    show Fields.drain ⟨⟨whole.octets, false⟩, t⟩ = _
    rw [hwhole, ha]
    exact Fields.drain_append hrun b.octets
  case paused =>
    intro b fs after htake
    obtain ⟨rs, rest, hb, hrun, hafter⟩ :=
      Fields.exists_decodesUpTo_of_take htake
    refine ⟨rs, rest, hb, hrun, hafter, ?_, ?_⟩
    · rintro c ⟨back, hback⟩
      have hc : (c.fields t).take fs.length
          = (fs.map .ok, ⟨⟨back, false⟩, after.table⟩) := by
        show Fields.take fs.length ⟨⟨c.octets, false⟩, t⟩ = _
        rw [← hback]
        exact Fields.take_append hrun back
      rw [hc]
      exact ⟨rfl, rfl⟩
    · intro c hc
      show Fields.drain ⟨⟨b.octets, false⟩, t⟩ = _
      rw [hb, ← hc]
      exact Fields.drain_append hrun.decodes c.octets
  case parts =>
    intro whole parts hwhole hparts
    rw [drainAll_eq_drain parts t hparts, ← hwhole]
    rfl

/-- A literal that is added to the table, the index it has got there, and
the beginning of another literal: as one block and cut behind the first
literal. -/
theorem drain_paused_dynamic :
    (∀ item ∈ (fields ⟨.ofList [0x40, 1, 0x61, 1, 0x62], 0, 5⟩ {}).drain.1,
      item.isOk)
    ∧ (fields ⟨.ofList [0x40, 1, 0x61, 1, 0x62], 0, 5⟩ {}).drain.1
        ++ (fields ⟨.ofList [0xbe, 0x40], 0, 2⟩
          (fields ⟨.ofList [0x40, 1, 0x61, 1, 0x62], 0, 5⟩
            {}).drain.2.table).drain.1
      = [.ok ⟨[0x61], [0x62]⟩, .ok ⟨[0x61], [0x62]⟩, .error .compression]
    ∧ (∃ rs, DecodesUpTo {} rs [⟨[0x61], [0x62]⟩]
        { entries := [⟨[0x61], [0x62]⟩] })
    ∧ drainAll {} [⟨.ofList [0x40, 1, 0x61, 1, 0x62], 0, 5⟩,
        ⟨.ofList [0xbe, 0x40], 0, 2⟩]
      = ([.ok ⟨[0x61], [0x62]⟩, .ok ⟨[0x61], [0x62]⟩, .error .compression],
        { entries := [⟨[0x61], [0x62]⟩] }) := by
  obtain ⟨hjoined, hpaused, hparts⟩ := drain_paused {}
  have hok : ∀ item ∈ (fields ⟨.ofList [0x40, 1, 0x61, 1, 0x62], 0, 5⟩
      {}).drain.1, item.isOk := by
    decide +kernel
  have htake : (fields ⟨.ofList [0x40, 1, 0x61, 1, 0x62, 0xbe, 0x40], 0, 7⟩
      {}).take 1 = ([.ok ⟨[0x61], [0x62]⟩],
        ⟨⟨[0xbe, 0x40], false⟩, { entries := [⟨[0x61], [0x62]⟩] }⟩) := by
    show Fields.take 1 ⟨⟨[0x40, 1, 0x61, 1, 0x62, 0xbe, 0x40], false⟩, {}⟩ = _
    cbv
  have hvalue : Literal.WellFormed [1, 0x62] :=
    @Literal.WellFormed.intro 0 [1] [0x62] (.short (by decide) rfl)
  have hname : Literal.WellFormed [1, 0x61] :=
    @Literal.WellFormed.intro 0 [1] [0x61] (.short (by decide) rfl)
  have hliteral : Representation.WellFormed
      ⟨.withIndexing, [0x40, 1, 0x61, 1, 0x62]⟩ :=
    .withIndexing (@IsField.unnamed 0b01 6 [0x40] [1, 0x61] [1, 0x62]
      (.short (by decide) rfl) hname hvalue)
  have hcut : ∀ b ∈ List.dropLast
      [(⟨.ofList [0x40, 1, 0x61, 1, 0x62], 0, 5⟩ : HeaderBlock),
        ⟨.ofList [0xbe, 0x40], 0, 2⟩],
      ∃ rs : List Representation, (∀ r ∈ rs, r.WellFormed)
        ∧ b.octets = join rs := by
    intro b hb
    obtain rfl := List.mem_singleton.mp hb
    exact ⟨[_], List.forall_mem_singleton.mpr hliteral, rfl⟩
  obtain ⟨rs, rest, -, hrun, hafter, -, hdrain⟩ := hpaused
    ⟨.ofList [0x40, 1, 0x61, 1, 0x62, 0xbe, 0x40], 0, 7⟩
    [⟨[0x61], [0x62]⟩] _ htake
  obtain rfl := congrArg Scanner.rest hafter
  have hindex : Fields.next ⟨⟨[0xbe, 0x40], false⟩,
      { entries := [⟨[0x61], [0x62]⟩] }⟩
      = (some (.ok ⟨[0x61], [0x62]⟩), ⟨⟨[0x40], false⟩,
        { entries := [⟨[0x61], [0x62]⟩] }⟩) := by
    cbv
  have hbroken : Fields.next ⟨⟨[0x40], false⟩,
      { entries := [⟨[0x61], [0x62]⟩] }⟩
      = (some (.error .compression), ⟨⟨[0x40], true⟩,
        { entries := [⟨[0x61], [0x62]⟩] }⟩) := by
    cbv
  have hwhole : (fields ⟨.ofList [0x40, 1, 0x61, 1, 0x62, 0xbe, 0x40], 0, 7⟩
      {}).drain
      = ([.ok ⟨[0x61], [0x62]⟩, .ok ⟨[0x61], [0x62]⟩, .error .compression],
        ⟨⟨[0x40], true⟩, { entries := [⟨[0x61], [0x62]⟩] }⟩) := by
    rw [hdrain ⟨.ofList [0xbe, 0x40], 0, 2⟩ rfl]
    show (_ ++ (Fields.drain ⟨⟨[0xbe, 0x40], false⟩, _⟩).1,
      (Fields.drain ⟨⟨[0xbe, 0x40], false⟩, _⟩).2) = _
    rw [Fields.drain_of_next_some hindex, Fields.drain_of_next_some hbroken,
      Fields.drain_of_next_none (Fields.next_failed ..)]
    rfl
  have hsplit := hjoined ⟨.ofList [0x40, 1, 0x61, 1, 0x62], 0, 5⟩
    ⟨.ofList [0xbe, 0x40], 0, 2⟩
    ⟨.ofList [0x40, 1, 0x61, 1, 0x62, 0xbe, 0x40], 0, 7⟩ rfl hok
  refine ⟨hok, congrArg Prod.fst (hsplit.symm.trans hwhole), ⟨rs, hrun⟩, ?_⟩
  rw [hparts ⟨.ofList [0x40, 1, 0x61, 1, 0x62, 0xbe, 0x40], 0, 7⟩ _ rfl hcut,
    hwhole]

end Http2.HeaderBlock
