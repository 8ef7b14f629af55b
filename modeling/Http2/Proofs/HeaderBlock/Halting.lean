/-
How decoding a block ends.

There are two ways to fail: no representation can be split off, or one is
split off and cannot be decoded. Either ends the walk over the fields with
one error, and the table stays as the representations in front of it left
it (`RunsTo`). Both ways of going through a block, field by field and with
a consumer, take the representations up to there and then the same last
step (`exists_next_of_halts`), behind which there is nothing more.
-/
import Http2.Proofs.HeaderBlock.Correspondence

namespace Http2.HeaderBlock

open Hpack Hpack.Representation

variable {t t' : Table} {r : Representation} {rs : List Representation}
variable {f : Field} {fs : List Field} {octets rest : List UInt8}
variable {ahead : List (Except Error Representation)} {failure : Option Error}

-- ================================================================= the end

/-- What stands at the end of a walk with a table: nothing more, no
representation, or one that cannot be decoded. -/
inductive Halts (t : Table) :
    List (Except Error Representation) → Option Error → Prop
  | done : Halts t [] none
  | unscanned {e : Error} {later : List (Except Error Representation)} :
      Halts t (.error e :: later) (some .compression)
  | undecoded {r : Representation}
      {later : List (Except Error Representation)}
      (h : (t.decode r.octets).1 = none) :
      Halts t (.ok r :: later) (some .compression)

/-- The walk over a block from a table on: the representations up to the
first failure, their fields, the table behind them, and the failure if
there is one. -/
structure RunsTo (b : HeaderBlock) (t : Table) (before : List Representation)
    (fs : List Field) (t' : Table) (failure : Option Error) : Prop where
  yields : Yields t before fs t'
  halts : ∃ ahead, b.representations.toList = before.map .ok ++ ahead
    ∧ Halts t' ahead failure

/-- A walk has representations ahead of it just if its octets begin with
them. -/
theorem exists_rest_of_toList
    (h : Scanner.toList ⟨octets, false⟩ = rs.map .ok ++ ahead) :
    ∃ rest, octets = join rs ++ rest ∧ Scanner.toList ⟨rest, false⟩ = ahead
      ∧ ∀ r ∈ rs, r.WellFormed := by
  induction rs generalizing octets with
  | nil => exact ⟨octets, rfl, h, List.forall_mem_nil _⟩
  | cons r rs ih =>
      obtain ⟨qs, tail, hsplits⟩ := exists_splits octets
      cases hsplits with
      | done =>
          rw [Scanner.toList_of_next?_none (Scanner.next?_nil false)] at h
          cases h
      | stuck hstuck =>
          rw [Scanner.toList_of_next?_some (Scanner.next?_of_stuck hstuck)] at h
          cases h
      | piece hq hsplits =>
          rw [Scanner.toList_of_next?_some (Scanner.next?_append hq _)] at h
          obtain ⟨hhead, hback⟩ := List.cons.inj h
          cases hhead
          obtain ⟨rest, rfl, hahead, hrs⟩ := ih hback
          refine ⟨rest, ?_, hahead, List.forall_mem_cons.mpr ⟨hq, hrs⟩⟩
          rw [join_cons, List.append_assoc]

/-- Every walk comes to its end. -/
theorem exists_runsTo (b : HeaderBlock) (t : Table) :
    ∃ before fs t' failure, RunsTo b t before fs t' failure := by
  obtain ⟨rs, tail, hsplits⟩ := exists_splits b.octets
  have hlist : b.representations.toList
      = rs.map .ok ++ if tail = [] then [] else [.error .compression] :=
    hsplits.toList_eq
  rcases decodes_or_fails hsplits.wellFormed t
    with ⟨fs, t', hrun⟩ | ⟨qs, r, ps, fs, t', t'', rfl, hrun, hr, hfails⟩
  · by_cases htail : tail = []
    case pos =>
      rw [if_pos htail] at hlist
      exact ⟨rs, fs, t', none, hrun.yields, [], hlist, .done⟩
    case neg =>
      rw [if_neg htail] at hlist
      exact ⟨rs, fs, t', some .compression, hrun.yields, _, hlist, .unscanned⟩
  · rw [List.map_append, List.map_cons, List.append_assoc] at hlist
    exact ⟨qs, fs, t', some .compression, hrun.yields, _, hlist,
      .undecoded (congrArg Prod.fst hfails)⟩

namespace Fields

-- =============================================================== many calls

/-- What `n` calls yield one after another, and the walk behind them. -/
def calls : (n : Nat) → Fields → List (Option (Except Error Field)) × Fields
  | 0, s => ([], s)
  | n + 1, s => (s.next.1 :: (calls n s.next.2).1, (calls n s.next.2).2)

theorem calls_congr {s s' : Fields} (h : s.next = s'.next) (n : Nat) :
    calls (n + 1) s = calls (n + 1) s' := by
  rw [calls, calls, h]

theorem calls_of_next {s after : Fields} {item : Option (Except Error Field)}
    (h : s.next = (item, after)) (n : Nat) :
    calls (n + 1) s = (item :: (calls n after).1, (calls n after).2) := by
  rw [calls, h]

/-- Nothing is yielded from the end on, and nothing changes. -/
theorem calls_at_end {s : Fields} (h : s.next = (none, s)) (n : Nat) :
    calls n s = (List.replicate n none, s) := by
  induction n with
  | zero => rfl
  | succ n ih => rw [calls_of_next h, ih, List.replicate_succ]

/-- One call for each field of a run takes a walk behind it. -/
theorem calls_append (h : Decodes t rs fs t') (rest : List UInt8) (n : Nat) :
    calls (fs.length + (n + 1)) ⟨⟨join rs ++ rest, false⟩, t⟩
      = (fs.map (some ∘ .ok) ++ (calls (n + 1) ⟨⟨rest, false⟩, t'⟩).1,
        (calls (n + 1) ⟨⟨rest, false⟩, t'⟩).2) := by
  induction h with
  | nil =>
      rw [List.length_nil, Nat.zero_add]
      rfl
  | @cons t t' t'' r rs ds fs hr hdecode h ih =>
      rw [join_cons, List.append_assoc]
      cases hf : ds.getLast? with
      | none =>
          rw [Option.toList_none, List.nil_append, ← Nat.add_assoc,
            calls_congr (next_of_no_field hr hdecode hf _), Nat.add_assoc, ih]
      | some f =>
          rw [Option.toList_some, List.singleton_append, List.length_cons,
            Nat.add_right_comm,
            calls_of_next (next_of_field hr hdecode hf _), ih]
          rfl

-- ================================================================ consumers

/-- A consumer is handed the same where the next step is the same. -/
theorem fold_congr {σ : Type} (consume : σ → Field → σ) (state : σ)
    {s s' : Fields} (h : s.next = s'.next) :
    s.fold consume state = s'.fold consume state := by
  rcases hnext : s'.next with ⟨item, after⟩
  rcases item with _ | (e | f)
  · rw [fold_of_next_none consume state (h.trans hnext),
      fold_of_next_none consume state hnext]
  · rw [fold_of_next_error consume state (h.trans hnext),
      fold_of_next_error consume state hnext]
  · rw [fold_of_next_ok consume state (h.trans hnext),
      fold_of_next_ok consume state hnext]

/-- A consumer is handed the fields of a run and then those behind it. -/
theorem fold_append {σ : Type} (consume : σ → Field → σ) (state : σ)
    (h : Decodes t rs fs t') (rest : List UInt8) :
    fold consume state ⟨⟨join rs ++ rest, false⟩, t⟩
      = fold consume (fs.foldl consume state) ⟨⟨rest, false⟩, t'⟩ := by
  induction h generalizing state with
  | nil => rfl
  | @cons t t' t'' r rs ds fs hr hdecode h ih =>
      rw [join_cons, List.append_assoc]
      cases hf : ds.getLast? with
      | none =>
          rw [fold_congr consume state (next_of_no_field hr hdecode hf _), ih,
            Option.toList_none, List.nil_append]
      | some f =>
          rw [fold_of_next_ok consume state (next_of_field hr hdecode hf _), ih,
            Option.toList_some, List.singleton_append, List.foldl_cons]

-- ============================================================ the last step

/-- At its end a walk yields the failure, or nothing, and keeps the table.
Nothing comes after. -/
theorem exists_next_of_halts
    (h : Halts t (Scanner.toList ⟨rest, false⟩) failure) :
    ∃ last, next ⟨⟨rest, false⟩, t⟩ = (failure.map .error, last)
      ∧ last.table = t ∧ last.next = (none, last) := by
  obtain ⟨rs, tail, hsplits⟩ := exists_splits rest
  cases hsplits with
  | done =>
      rw [Scanner.toList_of_next?_none (Scanner.next?_nil false)] at h
      cases h
      exact ⟨_, next_nil t, rfl, next_nil t⟩
  | stuck hstuck =>
      rw [Scanner.toList_of_next?_some (Scanner.next?_of_stuck hstuck)] at h
      cases h
      exact ⟨_, next_of_stuck hstuck t, rfl, next_failed _ t⟩
  | @piece r back tail rs hr hsplits =>
      rw [Scanner.toList_of_next?_some (Scanner.next?_append hr back)] at h
      cases h with
      | undecoded hnone =>
          have hfails : t.decode r.octets = (none, t) := by
            rcases hr.decode_cases t
              with ⟨-, hfails⟩ | ⟨-, f, after, hone⟩ | ⟨-, after, hzero⟩
            · exact hfails
            · rw [hone] at hnone
              cases hnone
            · rw [hzero] at hnone
              cases hnone
          exact ⟨_, next_of_undecodable hr hfails back, rfl, next_failed _ t⟩

end Fields

-- =============================================================== the result

/-- A walk over the fields of a block runs to the first representation that
cannot be split off or decoded, or to the end of the block. It yields the
fields up to there, one error if there is a failure, and then nothing,
however often it is asked. The table is the one behind the representations
in front of the failure. A consumer is handed the same fields in the same
order, and the same failure is returned with the same table. -/
theorem fields_halt (b : HeaderBlock) (t : Table) :
    (∃ before fs t' failure, RunsTo b t before fs t' failure)
    ∧ ∀ before fs t' failure, RunsTo b t before fs t' failure →
      (b.fields t).drain.1 = fs.map .ok ++ failure.toList.map .error
      ∧ (b.fields t).drain.2.table = t'
      ∧ (∀ n, (b.fields t).calls (fs.length + (n + 1))
        = (fs.map (some ∘ .ok) ++ failure.map .error :: List.replicate n none,
          (b.fields t).drain.2))
      ∧ ∀ (σ : Type) (consume : σ → Field → σ) (state : σ),
        (b.fields t).fold consume state
          = (fs.foldl consume state, failure, (b.fields t).drain.2) := by
  refine ⟨exists_runsTo b t, ?_⟩
  intro before fs t' failure hruns
  obtain ⟨ahead, hlist, hhalts⟩ := hruns.halts
  obtain ⟨rest, hb, hahead, hbefore⟩ := exists_rest_of_toList hlist
  have hrun := hruns.yields.decodes hbefore
  rw [← hahead] at hhalts
  obtain ⟨last, hnext, htable, hend⟩ := Fields.exists_next_of_halts hhalts
  have hwalk : b.fields t = ⟨⟨join before ++ rest, false⟩, t⟩ := by
    rw [← hb]
    rfl
  have hlast : Fields.drain ⟨⟨rest, false⟩, t'⟩
      = (failure.toList.map .error, last) := by
    cases failure with
    | none => exact Fields.drain_of_next_none hnext
    | some e =>
        rw [Fields.drain_of_next_some hnext, Fields.drain_of_next_none hend]
        rfl
  have hdrain : (b.fields t).drain
      = (fs.map .ok ++ failure.toList.map .error, last) := by
    rw [hwalk, Fields.drain_append hrun, hlast]
  rw [hdrain]
  refine ⟨rfl, htable, ?calls, ?consumer⟩
  case calls =>
    intro n
    rw [hwalk, Fields.calls_append hrun, Fields.calls_of_next hnext,
      Fields.calls_at_end hend]
  case consumer =>
    intro σ consume state
    rw [hwalk, Fields.fold_append consume state hrun]
    cases failure with
    | none => exact Fields.fold_of_next_none consume _ hnext
    | some e => exact Fields.fold_of_next_error consume _ hnext

/-- A field, an index that is in no table, and a field behind it. -/
theorem fields_halt_unknown_index :
    RunsTo ⟨.ofList [0x82, 0xc6, 0x82], 0, 3⟩ {} [⟨.indexed, [0x82]⟩]
      [.ofText ":method" "GET"] {} (some .compression)
    ∧ (fields ⟨.ofList [0x82, 0xc6, 0x82], 0, 3⟩ {}).drain.1
      = [.ok (.ofText ":method" "GET"), .error .compression]
    ∧ ((fields ⟨.ofList [0x82, 0xc6, 0x82], 0, 3⟩ {}).calls 4).1
      = [some (.ok (.ofText ":method" "GET")), some (.error .compression),
        none, none]
    ∧ (Fields.fold (fun n _ => n + 1) 0
        (fields ⟨.ofList [0x82, 0xc6, 0x82], 0, 3⟩ {})).1 = 1 := by
  obtain ⟨-, hall⟩ := fields_halt ⟨.ofList [0x82, 0xc6, 0x82], 0, 3⟩ {}
  have hlist : (representations ⟨.ofList [0x82, 0xc6, 0x82], 0, 3⟩).toList
      = [.ok ⟨.indexed, [0x82]⟩, .ok ⟨.indexed, [0xc6]⟩,
        .ok ⟨.indexed, [0x82]⟩] := by
    show Scanner.toList ⟨[0x82, 0xc6, 0x82], false⟩ = _
    cbv
  have hruns : RunsTo ⟨.ofList [0x82, 0xc6, 0x82], 0, 3⟩ {}
      [⟨.indexed, [0x82]⟩] [.ofText ":method" "GET"] {} (some .compression) :=
    { yields := .field (by decide) (by decide +kernel) .nil
      halts := ⟨_, hlist, .undecoded (by decide +kernel)⟩ }
  obtain ⟨hdrain, -, hcalls, hfold⟩ := hall _ _ _ _ hruns
  refine ⟨hruns, hdrain, ?_, ?_⟩
  · exact congrArg Prod.fst (hcalls 2)
  · exact congrArg Prod.fst (hfold Nat (fun n _ => n + 1) 0)

end Http2.HeaderBlock
