/-
Blocks are split into the representations they are made of.

A string splits in one way only: representations from the front on, as
long as there are any, and a tail that is empty or `Stuck` (`Splits`).
The walk over a block follows this split one piece a step
(`Splits.toList_eq`), so it yields the longest run of representations at
the front, and an error just if something is left. A split that is cut
off keeps what ends at or before the cut (`splits_take`).
-/
import Http2.HeaderBlock
import Http2.Proofs.Hpack.Grammar

namespace Http2.Hpack

namespace Representation

/-- The octets of a run of representations. -/
def join (rs : List Representation) : List UInt8 := rs.flatMap (·.octets)

/-- The representations that end within the first `n` octets of a run. -/
def endingBy : (n : Nat) → List Representation → List Representation
  | _, [] => []
  | n, r :: rs =>
    if r.octets.length ≤ n then r :: endingBy (n - r.octets.length) rs else []

@[simp] theorem join_nil : join [] = [] := rfl

@[simp] theorem join_cons (r : Representation) (rs : List Representation) :
    join (r :: rs) = r.octets ++ join rs := List.flatMap_cons

theorem join_append (rs qs : List Representation) :
    join (rs ++ qs) = join rs ++ join qs := List.flatMap_append

end Representation

open Http2.Hpack.Representation

variable {octets tail rest : List UInt8} {r : Representation}
variable {rs qs : List Representation}

-- =============================================================== the split

/-- There is something left, but no representation at the front of it. -/
structure Stuck (octets : List UInt8) : Prop where
  ne_nil : octets ≠ []
  no_front : ∀ r : Representation, r.WellFormed → ¬ r.octets <+: octets

/-- A string split into representations, and a tail with none at its
front. -/
inductive Splits : List UInt8 → List Representation → List UInt8 → Prop
  | done : Splits [] [] []
  | stuck {octets : List UInt8} (h : Stuck octets) : Splits octets [] octets
  | piece {r : Representation} {rest tail : List UInt8}
      {rs : List Representation} (hr : r.WellFormed) (h : Splits rest rs tail) :
      Splits (r.octets ++ rest) (r :: rs) tail

theorem Splits.eq_join (h : Splits octets rs tail) :
    octets = join rs ++ tail := by
  induction h with
  | done | stuck => rfl
  | piece hr h ih => rw [join_cons, List.append_assoc, ← ih]

theorem Splits.wellFormed (h : Splits octets rs tail) :
    ∀ r ∈ rs, r.WellFormed := by
  induction h with
  | done | stuck => exact List.forall_mem_nil _
  | piece hr h ih => exact List.forall_mem_cons.mpr ⟨hr, ih⟩

theorem Splits.stuck_tail (h : Splits octets rs tail) :
    tail = [] ∨ Stuck tail := by
  induction h with
  | done => exact .inl rfl
  | stuck h => exact .inr h
  | piece hr h ih => exact ih

theorem exists_splits (octets : List UInt8) :
    ∃ rs tail, Splits octets rs tail := by
  by_cases hnil : octets = []
  case pos =>
    subst hnil
    exact ⟨[], [], .done⟩
  case neg =>
    by_cases hfront : ∃ r : Representation, r.WellFormed ∧ r.octets <+: octets
    case pos =>
      obtain ⟨r, hr, rest, heq⟩ := hfront
      obtain ⟨rs, tail, h⟩ := exists_splits rest
      rw [← heq]
      exact ⟨r :: rs, tail, .piece hr h⟩
    case neg =>
      refine ⟨[], octets, .stuck ⟨hnil, ?_⟩⟩
      intro r hr hlead
      exact hfront ⟨r, hr, hlead⟩
termination_by octets.length
decreasing_by
  have hpos := List.length_pos_iff.mpr hr.octets_ne_nil
  rw [← heq, List.length_append]
  omega

/-- Whatever representations there are at the front, the split begins
with them. -/
theorem Splits.longest (h : Splits octets rs tail)
    (hqs : ∀ q ∈ qs, q.WellFormed) (hlead : join qs <+: octets) :
    qs <+: rs := by
  induction h generalizing qs with
  | done =>
      cases qs with
      | nil => exact List.nil_prefix
      | cons q qs =>
          have hq := hqs q (List.mem_cons_self ..)
          rw [List.prefix_nil, join_cons, List.append_eq_nil_iff] at hlead
          exact absurd hlead.1 hq.octets_ne_nil
  | stuck h =>
      cases qs with
      | nil => exact List.nil_prefix
      | cons q qs =>
          have hq := hqs q (List.mem_cons_self ..)
          rw [join_cons] at hlead
          exact absurd ((List.prefix_append ..).trans hlead) (h.no_front q hq)
  | @piece r rest tail rs hr h ih =>
      cases qs with
      | nil => exact List.nil_prefix
      | cons q qs =>
          obtain ⟨hq, hqs⟩ := List.forall_mem_cons.mp hqs
          obtain ⟨back, hback⟩ := hlead
          rw [join_cons, List.append_assoc] at hback
          obtain ⟨rfl, rfl⟩ := hq.eq_of_append_eq hr hback
          exact List.cons_prefix_cons.mpr ⟨rfl, ih hqs (List.prefix_append ..)⟩

theorem Splits.append (hrs : ∀ r ∈ rs, r.WellFormed) (h : Splits rest qs tail) :
    Splits (join rs ++ rest) (rs ++ qs) tail := by
  induction rs with
  | nil => exact h
  | cons r rs ih =>
      obtain ⟨hr, hrs⟩ := List.forall_mem_cons.mp hrs
      rw [join_cons, List.append_assoc]
      exact .piece hr (ih hrs)

/-- A run of representations splits into them. -/
theorem splits_join (hrs : ∀ r ∈ rs, r.WellFormed) :
    Splits (join rs) rs [] := by
  have h := Splits.append hrs .done
  rwa [List.append_nil, List.append_nil] at h

/-- What is left of a representation that is cut off is none. -/
theorem stuck_take {n : Nat} (hr : r.WellFormed) (hpos : n ≠ 0)
    (hcut : n < r.octets.length) : Stuck (r.octets.take n) := by
  constructor
  case ne_nil =>
    intro hnil
    rcases List.take_eq_nil_iff.mp hnil with hzero | hempty
    · exact hpos hzero
    · exact hr.octets_ne_nil hempty
  case no_front =>
    intro q hq hlead
    obtain ⟨back, hback⟩ := hlead.trans (List.take_prefix n r.octets)
    have hsame : q.octets ++ back = r.octets ++ [] := by
      rw [hback, List.append_nil]
    obtain ⟨rfl, -⟩ := hq.eq_of_append_eq hr hsame
    have hle := hlead.length_le
    rw [List.length_take] at hle
    omega

/-- Of a run that is cut off, the representations up to the cut are
left, and a tail unless they end there. -/
theorem splits_take (hrs : ∀ r ∈ rs, r.WellFormed) (n : Nat) :
    ∃ tail, Splits ((join rs).take n) (endingBy n rs) tail := by
  induction rs generalizing n with
  | nil => exact ⟨[], by rw [join_nil, List.take_nil]; exact .done⟩
  | cons r rs ih =>
      obtain ⟨hr, hrs⟩ := List.forall_mem_cons.mp hrs
      rw [join_cons, List.take_append]
      unfold endingBy
      split
      case isTrue hwhole =>
        obtain ⟨tail, h⟩ := ih hrs (n - r.octets.length)
        rw [List.take_of_length_le hwhole]
        exact ⟨tail, .piece hr h⟩
      case isFalse hcut =>
        have hover : n - r.octets.length = 0 := by omega
        rw [hover, List.take_zero, List.append_nil]
        by_cases hzero : n = 0
        · rw [hzero, List.take_zero]
          exact ⟨[], .done⟩
        · exact ⟨_, .stuck (stuck_take hr hzero (Nat.lt_of_not_le hcut))⟩

-- ================================================================ the walk

namespace Scanner

theorem next?_nil (failed : Bool) : next? ⟨[], failed⟩ = none := by
  unfold next?
  rw [List.isEmpty_nil, Bool.or_true]
  rfl

theorem next?_failed (octets : List UInt8) : next? ⟨octets, true⟩ = none := rfl

/-- A representation at the front is the next piece, whatever follows. -/
theorem next?_append (hr : r.WellFormed) (rest : List UInt8) :
    next? ⟨r.octets ++ rest, false⟩ = some (.ok r, ⟨rest, false⟩) := by
  obtain ⟨first, back, heq, -⟩ := hr.exists_head
  have hfull : (r.octets ++ rest).isEmpty = false := by
    rw [heq]
    rfl
  unfold next?
  simp only [hfull, Bool.or_self, Bool.false_eq_true, if_false,
    hr.extent_append rest, List.take_left, List.drop_left]

theorem next?_of_stuck (h : Stuck octets) :
    next? ⟨octets, false⟩ = some (.error .compression, ⟨octets, true⟩) := by
  have hfull : octets.isEmpty = false := by
    cases octets with
    | nil => exact absurd rfl h.ne_nil
    | cons first back => rfl
  have hextent : extent? octets = none := by
    cases hext : extent? octets with
    | none => rfl
    | some found =>
        obtain ⟨front, rest, heq, -, hfront⟩ := extent?_eq_some_iff.mp hext
        exact absurd ⟨rest, heq.symm⟩ (h.no_front _ hfront)
  unfold next?
  simp only [hfull, Bool.or_self, Bool.false_eq_true, if_false, hextent,
    abandon]

theorem toList_of_next?_none {s : Scanner} (h : s.next? = none) :
    s.toList = [] := by
  unfold toList
  split
  case h_1 => rfl
  case h_2 hsome =>
    rw [h] at hsome
    cases hsome

theorem toList_of_next?_some {s after : Scanner}
    {item : Except Error Representation} (h : s.next? = some (item, after)) :
    s.toList = item :: after.toList := by
  rw [toList]
  split
  case h_1 hnone =>
    rw [h] at hnone
    cases hnone
  case h_2 hsome =>
    rw [h] at hsome
    cases hsome
    rfl

/-- What the call number `i` yields. A walk that yields nothing stays
where it is. -/
def answer (s : Scanner) : (i : Nat) → Option (Except Error Representation)
  | 0 => s.next?.map (·.1)
  | i + 1 =>
    match s.next? with
    | none => answer s i
    | some (_, after) => answer after i

/-- The calls yield the list of the walk, and nothing from its end on. -/
theorem answer_eq (s : Scanner) (i : Nat) : s.answer i = s.toList[i]? := by
  induction i generalizing s with
  | zero =>
      unfold answer
      cases hnext : s.next? with
      | none => rw [toList_of_next?_none hnext]; rfl
      | some found => rw [toList_of_next?_some hnext]; rfl
  | succ i ih =>
      unfold answer
      cases hnext : s.next? with
      | none =>
          show s.answer i = _
          rw [ih, toList_of_next?_none hnext]
          rfl
      | some found =>
          show found.2.answer i = _
          rw [ih, toList_of_next?_some hnext, List.getElem?_cons_succ]

/-- The pieces of a walk. -/
def pieces (s : Scanner) : List Representation :=
  s.toList.filterMap Except.toOption

end Scanner

/-- The walk yields the representations of the split, and an error if
something is left. -/
theorem Splits.toList_eq (h : Splits octets rs tail) :
    Scanner.toList ⟨octets, false⟩
      = rs.map .ok ++ if tail = [] then [] else [.error .compression] := by
  induction h with
  | done => exact Scanner.toList_of_next?_none (Scanner.next?_nil false)
  | @stuck octets h =>
      rw [Scanner.toList_of_next?_some (Scanner.next?_of_stuck h),
        Scanner.toList_of_next?_none (Scanner.next?_failed octets),
        if_neg h.ne_nil]
      rfl
  | piece hr h ih =>
      rw [Scanner.toList_of_next?_some (Scanner.next?_append hr _), ih]
      rfl

theorem Splits.pieces_eq (h : Splits octets rs tail) :
    Scanner.pieces ⟨octets, false⟩ = rs := by
  have hok : ∀ rs : List Representation,
      (rs.map (Except.ok (ε := Error))).filterMap Except.toOption = rs := by
    intro rs
    rw [List.filterMap_map]
    exact List.filterMap_some
  unfold Scanner.pieces
  rw [h.toList_eq, List.filterMap_append, hok]
  split
  case isTrue => exact List.append_nil rs
  case isFalse => exact List.append_nil rs

theorem Splits.exists_error_iff (h : Splits octets rs tail) :
    (∃ e, .error e ∈ Scanner.toList ⟨octets, false⟩) ↔ tail ≠ [] := by
  rw [h.toList_eq]
  constructor
  · rintro ⟨e, hmem⟩ hnil
    rw [if_pos hnil, List.append_nil] at hmem
    obtain ⟨r, -, heq⟩ := List.mem_map.mp hmem
    cases heq
  · intro htail
    rw [if_neg htail]
    exact ⟨.compression, List.mem_append_right _ (List.mem_singleton_self _)⟩

end Http2.Hpack

-- =============================================================== the result

namespace Http2.HeaderBlock

open Hpack Hpack.Representation

/-- The walk over the representations of a block finds those of the
grammar. A run of them is split into just these. Of anything else the
longest run of them at the front is split off, before one error. From the
end on nothing is yielded. The pieces have the kinds of their first octets
and make up the front of the block, all of it unless there is an error. A
run that is cut off is split into what ends by the cut, with an error
unless it ends there. -/
theorem representations_split (b : HeaderBlock) :
    (∀ rs : List Representation, (∀ r ∈ rs, r.WellFormed) →
      b.octets = join rs → b.representations.toList = rs.map .ok)
    ∧ ((¬ ∃ rs : List Representation, (∀ r ∈ rs, r.WellFormed)
        ∧ b.octets = join rs) →
      ∃ rs : List Representation, (∀ r ∈ rs, r.WellFormed)
        ∧ join rs <+: b.octets
        ∧ (∀ qs : List Representation, (∀ q ∈ qs, q.WellFormed) →
          join qs <+: b.octets → qs <+: rs)
        ∧ b.representations.toList = rs.map .ok ++ [.error .compression])
    ∧ (∀ i, b.representations.answer i = b.representations.toList[i]?)
    ∧ (∀ r ∈ b.representations.pieces, ∃ first back,
        r.octets = first :: back ∧ r.kind = Kind.ofOctet first)
    ∧ join b.representations.pieces <+: b.octets
    ∧ (join b.representations.pieces = b.octets
      ↔ ¬ ∃ e, .error e ∈ b.representations.toList)
    ∧ ∀ rs : List Representation, (∀ r ∈ rs, r.WellFormed) →
      b.octets = join rs →
      ∀ (n : Nat) (c : HeaderBlock), c.octets = b.octets.take n →
        c.representations.toList = (endingBy n rs).map .ok
          ++ if join (endingBy n rs) = c.octets then []
            else [.error .compression] := by
  obtain ⟨rs, tail, h⟩ := exists_splits b.octets
  have heq := h.eq_join
  have hpieces : b.representations.pieces = rs := h.pieces_eq
  have herror : (∃ e, .error e ∈ b.representations.toList) ↔ tail ≠ [] :=
    h.exists_error_iff
  refine ⟨?run, ?other, ?calls, ?kinds, ?front, ?all, ?cut⟩
  case run =>
    intro qs hqs hjoin
    show Scanner.toList ⟨b.octets, false⟩ = _
    rw [hjoin, (splits_join hqs).toList_eq, if_pos rfl, List.append_nil]
  case other =>
    intro hnot
    have htail : tail ≠ [] := by
      intro hnil
      rw [hnil, List.append_nil] at heq
      exact hnot ⟨rs, h.wellFormed, heq⟩
    refine ⟨rs, h.wellFormed, ?_, ?_, ?_⟩
    · exact ⟨tail, heq.symm⟩
    · intro qs hqs hlead
      exact h.longest hqs hlead
    · show Scanner.toList ⟨b.octets, false⟩ = _
      rw [h.toList_eq, if_neg htail]
  case calls => exact Scanner.answer_eq b.representations
  case kinds =>
    intro r hr
    rw [hpieces] at hr
    obtain ⟨first, back, hhead, hkind⟩ := (h.wellFormed r hr).exists_head
    exact ⟨first, back, hhead, hkind.symm⟩
  case front =>
    rw [hpieces]
    exact ⟨tail, heq.symm⟩
  case all =>
    rw [hpieces, herror, Classical.not_not]
    constructor
    · intro hall
      rw [hall] at heq
      exact List.self_eq_append_right.mp heq
    · intro hnil
      rw [heq, hnil, List.append_nil]
  case cut =>
    intro qs hqs hjoin n c hcut
    obtain ⟨left, hleft⟩ := splits_take hqs n
    rw [← hjoin, ← hcut] at hleft
    have hc := hleft.eq_join
    have hend : left = [] ↔ join (endingBy n qs) = c.octets := by
      constructor
      · intro hnil
        rw [hc, hnil, List.append_nil]
      · intro hall
        rw [hall] at hc
        exact List.self_eq_append_right.mp hc
    show Scanner.toList ⟨c.octets, false⟩ = _
    rw [hleft.toList_eq]
    simp only [hend]

/-- A block of an index, a literal and a size update, whole and cut off
within the literal. -/
theorem representations_split_within :
    (∀ r ∈ [⟨.indexed, [0x82]⟩, ⟨.withIndexing, [0x41, 0x01, 0x61]⟩,
        ⟨.sizeUpdate, [0x3f, 0xe1, 0x1f]⟩], Representation.WellFormed r)
    ∧ (representations ⟨.ofList [0x82, 0x41, 0x01, 0x61, 0x3f, 0xe1, 0x1f],
        0, 7⟩).toList
      = [.ok ⟨.indexed, [0x82]⟩, .ok ⟨.withIndexing, [0x41, 0x01, 0x61]⟩,
        .ok ⟨.sizeUpdate, [0x3f, 0xe1, 0x1f]⟩]
    ∧ (representations ⟨.ofList [0x82, 0x41, 0x01, 0x61, 0x3f, 0xe1, 0x1f],
        0, 3⟩).toList
      = [.ok ⟨.indexed, [0x82]⟩, .error .compression]
    ∧ ¬ ∃ rs : List Representation, (∀ r ∈ rs, r.WellFormed)
      ∧ octets ⟨.ofList [0x82, 0x41, 0x01, 0x61, 0x3f, 0xe1, 0x1f], 0, 3⟩
        = join rs := by
  have hindex : Representation.WellFormed ⟨.indexed, [0x82]⟩ :=
    .indexed (.short (by decide : 2 < 2 ^ 7 - 1) rfl)
  have hvalue : Literal.WellFormed [0x01, 0x61] :=
    @Literal.WellFormed.intro 0 [0x01] [0x61] (.short (by decide) rfl)
  have hliteral :
      Representation.WellFormed ⟨.withIndexing, [0x41, 0x01, 0x61]⟩ :=
    .withIndexing (@IsField.named 0b01 6 [0x41] [0x01, 0x61] 1
      (.short (by decide) rfl) (by decide) hvalue)
  have hupdate : Representation.WellFormed ⟨.sizeUpdate, [0x3f, 0xe1, 0x1f]⟩ :=
    .sizeUpdate (.long rfl (.more (by decide) (.last (by decide))) (by decide))
  have hrs : ∀ r ∈ [⟨.indexed, [0x82]⟩, ⟨.withIndexing, [0x41, 0x01, 0x61]⟩,
      ⟨.sizeUpdate, [0x3f, 0xe1, 0x1f]⟩], Representation.WellFormed r := by
    simp only [List.forall_mem_cons, List.not_mem_nil, false_implies,
      implies_true, and_true]
    exact ⟨hindex, hliteral, hupdate⟩
  obtain ⟨hwhole, -, -, -, -, -, hcut⟩ := representations_split
    ⟨.ofList [0x82, 0x41, 0x01, 0x61, 0x3f, 0xe1, 0x1f], 0, 7⟩
  have hshort := hcut _ hrs rfl 3
    ⟨.ofList [0x82, 0x41, 0x01, 0x61, 0x3f, 0xe1, 0x1f], 0, 3⟩ rfl
  refine ⟨hrs, hwhole _ hrs rfl, hshort, ?_⟩
  rintro ⟨qs, hqs, hjoin⟩
  obtain ⟨hrun, -⟩ := representations_split
    ⟨.ofList [0x82, 0x41, 0x01, 0x61, 0x3f, 0xe1, 0x1f], 0, 3⟩
  rw [hrun qs hqs hjoin] at hshort
  have herror : .error .compression ∈ qs.map (Except.ok (ε := Error)) := by
    rw [hshort]
    exact List.mem_append_right _ (List.mem_singleton_self _)
  obtain ⟨r, -, heq⟩ := List.mem_map.mp herror
  cases heq

end Http2.HeaderBlock
