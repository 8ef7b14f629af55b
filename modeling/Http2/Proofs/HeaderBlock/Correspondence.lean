/-
Fields and representations of a block correspond.

Blocks are split without a table and decoded with one, by readers that
know nothing of each other. They agree on every piece: a piece on its own
is decoded to one field or turned down, or it is a size update and decoded
to none. So of what a piece is decoded to nothing is lost by keeping the
last field only. A block that is drained without an error yields the
fields of its representations one for one, in their order, with the table
handed on from each to the next (`Yields`).
-/
import Http2.Proofs.HeaderBlock.Pausing
import Http2.Proofs.Hpack.Decoding

namespace Http2.HeaderBlock

open Hpack Hpack.Representation

variable {t t' : Table} {r : Representation} {rs : List Representation}
variable {fs : List Field} {octets : List UInt8}

-- ====================================================== one field for each

/-- Representations, the fields that they are decoded to one for one, but
for size updates, and the table behind them. -/
inductive Yields :
    Table → List Representation → List Field → Table → Prop
  | nil {t : Table} : Yields t [] [] t
  | update {t t' t'' : Table} {r : Representation} {rs : List Representation}
      {fs : List Field} (hkind : r.kind = .sizeUpdate)
      (hdecode : t.decode r.octets = (some [], t')) (h : Yields t' rs fs t'') :
      Yields t (r :: rs) fs t''
  | field {t t' t'' : Table} {r : Representation} {rs : List Representation}
      {f : Field} {fs : List Field} (hkind : r.kind ≠ .sizeUpdate)
      (hdecode : t.decode r.octets = (some [f], t')) (h : Yields t' rs fs t'') :
      Yields t (r :: rs) (f :: fs) t''

/-- Only size updates stand for no field. -/
theorem Yields.length_eq (h : Yields t rs fs t') :
    fs.length = (rs.filter (·.kind ≠ .sizeUpdate)).length := by
  induction h with
  | nil => rfl
  | update hkind hdecode h ih =>
      rw [List.filter_cons, if_neg (by simp [hkind]), ih]
  | field hkind hdecode h ih =>
      rw [List.filter_cons, if_pos (by simp [hkind]), List.length_cons,
        List.length_cons, ih]

theorem Yields.decodes (h : Yields t rs fs t') (hrs : ∀ r ∈ rs, r.WellFormed) :
    Decodes t rs fs t' := by
  induction h with
  | nil => exact .nil
  | update hkind hdecode h ih =>
      obtain ⟨hr, hrs⟩ := List.forall_mem_cons.mp hrs
      exact .cons hr hdecode (ih hrs)
  | field hkind hdecode h ih =>
      obtain ⟨hr, hrs⟩ := List.forall_mem_cons.mp hrs
      exact .cons hr hdecode (ih hrs)

theorem Decodes.wellFormed (h : Decodes t rs fs t') :
    ∀ r ∈ rs, r.WellFormed := by
  induction h with
  | nil => exact List.forall_mem_nil _
  | cons hr hdecode h ih => exact List.forall_mem_cons.mpr ⟨hr, ih⟩

/-- A run that decodes is decoded to a field a representation. -/
theorem Decodes.yields (h : Decodes t rs fs t') : Yields t rs fs t' := by
  induction h with
  | nil => exact .nil
  | @cons t t' t'' r rs ds fs hr hdecode h ih =>
      rcases hr.decode_cases t
        with ⟨-, hnone⟩ | ⟨hkind, f, after, hone⟩ | ⟨hkind, after, hzero⟩
      · rw [hnone] at hdecode
        cases hdecode
      · rw [hone] at hdecode
        cases hdecode
        exact .field hkind hone ih
      · rw [hzero] at hdecode
        cases hdecode
        exact .update hkind hzero ih

-- =============================================================== the result

/-- What is split off a block is a representation. -/
theorem wellFormed_of_mem_toList
    (h : .ok r ∈ Scanner.toList ⟨octets, false⟩) : r.WellFormed := by
  obtain ⟨rs, tail, hsplits⟩ := exists_splits octets
  rw [hsplits.toList_eq] at h
  rcases List.mem_append.mp h with hrun | hend
  · obtain ⟨q, hq, heq⟩ := List.mem_map.mp hrun
    cases heq
    exact hsplits.wellFormed r hq
  · split at hend
    · cases hend
    · cases List.mem_singleton.mp hend

/-- Splitting and decoding agree. A piece that is split off a block either
cannot be decoded or is decoded to one field, unless it is a size update,
which is decoded to none and never turned down; the last field is always
all there is. Where a block is drained without an error, its pieces are
representations that yield the fields in their order, one for each but the
size updates. -/
theorem fields_correspond (b : HeaderBlock) (t : Table) :
    (∀ (u : Table) (r : Representation), .ok r ∈ b.representations.toList →
      (r.kind ≠ .sizeUpdate →
        (u.decode r.octets).1 = none ∨ ∃ f, (u.decode r.octets).1 = some [f])
      ∧ (r.kind = .sizeUpdate → (u.decode r.octets).1 = some [])
      ∧ ∀ ds, (u.decode r.octets).1 = some ds → ds.getLast?.toList = ds)
    ∧ ((∀ item ∈ (b.fields t).drain.1, item.isOk) →
      ∃ rs fs, b.representations.toList = rs.map .ok
        ∧ (b.fields t).drain.1 = fs.map .ok
        ∧ Yields t rs fs (b.fields t).drain.2.table
        ∧ fs.length = (rs.filter (·.kind ≠ .sizeUpdate)).length) := by
  refine ⟨?piece, ?whole⟩
  case piece =>
    intro u r hmem
    have hr : r.WellFormed := wellFormed_of_mem_toList hmem
    rcases hr.decode_cases u
      with ⟨hkind, hnone⟩ | ⟨hkind, f, after, hone⟩ | ⟨hkind, after, hzero⟩
    · rw [hnone]
      exact ⟨fun _ => .inl rfl, fun hupdate => absurd hupdate hkind, nofun⟩
    · rw [hone]
      refine ⟨fun _ => .inr ⟨f, rfl⟩, fun hupdate => absurd hupdate hkind, ?_⟩
      intro ds hds
      cases hds
      rfl
    · rw [hzero]
      refine ⟨fun hfield => absurd hkind hfield, fun _ => rfl, ?_⟩
      intro ds hds
      cases hds
      rfl
  case whole =>
    intro hall
    obtain ⟨rs, fs, t', hb, hrun⟩ := Fields.exists_decodes_of_drain hall
    have hdrain : (b.fields t).drain = (fs.map .ok, ⟨⟨[], false⟩, t'⟩) := by
      show Fields.drain ⟨⟨b.octets, false⟩, t⟩ = _
      rw [hb, Fields.drain_join hrun]
    have hlist : b.representations.toList = rs.map .ok := by
      show Scanner.toList ⟨b.octets, false⟩ = _
      rw [hb, (splits_join hrun.wellFormed).toList_eq, if_pos rfl,
        List.append_nil]
    rw [hdrain]
    exact ⟨rs, fs, hlist, rfl, hrun.yields, hrun.yields.length_eq⟩

/-- A size update, a field of the static table and a literal. -/
theorem fields_correspond_update :
    (∀ item ∈ (fields ⟨.ofList [0x3f, 0xe1, 0x1f, 0x82, 0x40, 1, 0x61, 1, 0x62],
      0, 9⟩ {}).drain.1, item.isOk)
    ∧ .ok ⟨.sizeUpdate, [0x3f, 0xe1, 0x1f]⟩ ∈ (representations
      ⟨.ofList [0x3f, 0xe1, 0x1f, 0x82, 0x40, 1, 0x61, 1, 0x62], 0, 9⟩).toList
    ∧ (Table.decode {} [0x3f, 0xe1, 0x1f]).1 = some []
    ∧ Yields {} [⟨.sizeUpdate, [0x3f, 0xe1, 0x1f]⟩, ⟨.indexed, [0x82]⟩,
        ⟨.withIndexing, [0x40, 1, 0x61, 1, 0x62]⟩]
      [.ofText ":method" "GET", ⟨[0x61], [0x62]⟩]
      { entries := [⟨[0x61], [0x62]⟩] } := by
  obtain ⟨hpiece, hwhole⟩ := fields_correspond
    ⟨.ofList [0x3f, 0xe1, 0x1f, 0x82, 0x40, 1, 0x61, 1, 0x62], 0, 9⟩ {}
  have hlist : (representations
      ⟨.ofList [0x3f, 0xe1, 0x1f, 0x82, 0x40, 1, 0x61, 1, 0x62], 0, 9⟩).toList
      = [⟨.sizeUpdate, [0x3f, 0xe1, 0x1f]⟩, ⟨.indexed, [0x82]⟩,
        ⟨.withIndexing, [0x40, 1, 0x61, 1, 0x62]⟩].map .ok := by
    show Scanner.toList
      ⟨[0x3f, 0xe1, 0x1f, 0x82, 0x40, 1, 0x61, 1, 0x62], false⟩ = _
    cbv
  have hitems : (fields
      ⟨.ofList [0x3f, 0xe1, 0x1f, 0x82, 0x40, 1, 0x61, 1, 0x62], 0, 9⟩
      {}).drain.1.map Except.toOption
      = [.ofText ":method" "GET", ⟨[0x61], [0x62]⟩].map some := by
    decide +kernel
  have htable : (fields
      ⟨.ofList [0x3f, 0xe1, 0x1f, 0x82, 0x40, 1, 0x61, 1, 0x62], 0, 9⟩
      {}).drain.2.table = { entries := [⟨[0x61], [0x62]⟩] } := by
    decide +kernel
  have hok : ∀ item ∈ (fields
      ⟨.ofList [0x3f, 0xe1, 0x1f, 0x82, 0x40, 1, 0x61, 1, 0x62], 0, 9⟩
      {}).drain.1, item.isOk := by
    decide +kernel
  have hupdate : .ok ⟨.sizeUpdate, [0x3f, 0xe1, 0x1f]⟩ ∈ (representations
      ⟨.ofList [0x3f, 0xe1, 0x1f, 0x82, 0x40, 1, 0x61, 1, 0x62],
        0, 9⟩).toList := by
    rw [hlist]
    exact List.mem_cons_self ..
  obtain ⟨rs, fs, hrs, hfs, hrun, -⟩ := hwhole hok
  rw [htable] at hrun
  obtain rfl := (List.map_inj_right fun _ _ => Except.ok.inj).mp
    (hrs.symm.trans hlist)
  rw [hfs, List.map_map] at hitems
  obtain rfl := (List.map_inj_right fun _ _ => Option.some.inj).mp hitems
  exact ⟨hok, hupdate, (hpiece {} _ hupdate).2.1 rfl, hrun⟩

end Http2.HeaderBlock
