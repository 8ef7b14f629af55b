/-
What field representations look like, and that the reader finds them.

`Representation.WellFormed` is the grammar, said without a reader: the
bits that tell the kind, an integer behind them (`Integer.Spells`), and
for a literal field its strings (`IsField`). `extent?` accepts at the
front of a string just what the grammar allows there
(`extent?_eq_some_iff`). So where a representation ends does not depend
on what follows it, and no representation is the beginning of another
(`WellFormed.eq_of_append_eq`).
-/
import Http2.Proofs.Hpack.Literal

namespace Http2.Hpack

-- =============================================================== integers

namespace Integer

variable {mark bits room n taken : Nat} {first : UInt8}
variable {front octets : List UInt8}

/-- Octets of seven bits each that spell a number, least significant
first. All but the last have their top bit set. -/
inductive Continues : List UInt8 → Nat → Prop
  | last {octet : UInt8} (hlast : octet.toNat < 128) :
      Continues [octet] octet.toNat
  | more {octet : UInt8} {octets : List UInt8} {n : Nat}
      (hmore : 128 ≤ octet.toNat) (hrest : Continues octets n) :
      Continues (octet :: octets) (octet.toNat - 128 + 128 * n)

/-- An integer with `bits` bits left for it behind the bits of `mark` in
its first octet: below the all-ones pattern of these bits, or with at
most four octets more. -/
inductive Spells (mark bits : Nat) : List UInt8 → Nat → Prop
  | short {first : UInt8} {n : Nat} (hn : n < 2 ^ bits - 1)
      (hfirst : first.toNat = mark * 2 ^ bits + n) :
      Spells mark bits [first] n
  | long {first : UInt8} {octets : List UInt8} {n : Nat}
      (hfirst : first.toNat = mark * 2 ^ bits + (2 ^ bits - 1))
      (hrest : Continues octets n) (hroom : octets.length ≤ 4) :
      Spells mark bits (first :: octets) (2 ^ bits - 1 + n)

theorem Continues.decode_append (h : Continues front n)
    (hroom : front.length ≤ room) (rest : List UInt8) :
    decodeContinuation room (front ++ rest) = some (n, front.length) := by
  induction h generalizing room with
  | @last octet hlast =>
      cases room with
      | zero => cases hroom
      | succ room =>
          rw [List.singleton_append, decodeContinuation, if_pos hlast]
          rfl
  | @more octet octets n hmore hrest ih =>
      cases room with
      | zero => cases hroom
      | succ room =>
          rw [List.cons_append, decodeContinuation, if_neg (by omega),
            ih (Nat.le_of_succ_le_succ hroom)]
          rfl

theorem continues_of_decode
    (h : decodeContinuation room octets = some (n, taken)) :
    ∃ front rest, octets = front ++ rest ∧ taken = front.length
      ∧ Continues front n ∧ front.length ≤ room := by
  induction room generalizing octets n taken with
  | zero => cases h
  | succ room ih =>
      cases octets with
      | nil => cases h
      | cons octet octets =>
          unfold decodeContinuation at h
          split at h
          case isTrue hlast =>
            cases h
            exact ⟨[octet], octets, rfl, rfl, .last hlast, Nat.le_add_left ..⟩
          case isFalse hmore =>
            obtain ⟨⟨m, k⟩, hrest, heq⟩ := Option.map_eq_some_iff.mp h
            cases heq
            obtain ⟨front, rest, rfl, rfl, hfront, hroom⟩ := ih hrest
            refine ⟨octet :: front, rest, rfl, rfl, ?_, ?_⟩
            · exact .more (Nat.le_of_not_lt hmore) hfront
            · exact Nat.succ_le_succ hroom

/-- An integer starts with its mark. -/
theorem Spells.exists_head (h : Spells mark bits octets n) :
    ∃ first back, octets = first :: back ∧ first.toNat / 2 ^ bits = mark := by
  have hpow : 0 < 2 ^ bits := Nat.two_pow_pos bits
  have hmark : ∀ k, k < 2 ^ bits → (mark * 2 ^ bits + k) / 2 ^ bits = mark := by
    intro k hk
    rw [Nat.add_comm, Nat.add_mul_div_right _ _ hpow, Nat.div_eq_of_lt hk,
      Nat.zero_add]
  cases h with
  | short hn hfirst =>
      refine ⟨_, _, rfl, ?_⟩
      rw [hfirst]
      exact hmark _ (by omega)
  | long hfirst hrest hroom =>
      refine ⟨_, _, rfl, ?_⟩
      rw [hfirst]
      exact hmark _ (by omega)

/-- An integer is read at the front of whatever it stands in front of. -/
theorem Spells.decode_append (h : Spells mark bits front n)
    (rest : List UInt8) :
    decode bits (front ++ rest) = some (n, front.length) := by
  have hpow : 0 < 2 ^ bits := Nat.two_pow_pos bits
  have hlow : ∀ k, k < 2 ^ bits → (mark * 2 ^ bits + k) % 2 ^ bits = k := by
    intro k hk
    rw [Nat.add_comm, Nat.add_mul_mod_self_right, Nat.mod_eq_of_lt hk]
  cases h with
  | short hn hfirst =>
      rw [List.singleton_append, decode_cons, hfirst, hlow n (by omega),
        if_pos hn]
      rfl
  | @long first octets m hfirst hrest hroom =>
      rw [List.cons_append, decode_cons, hfirst, hlow _ (by omega),
        if_neg (Nat.lt_irrefl _), maxContinuation, hrest.decode_append hroom]
      rfl

/-- What is read as an integer spells it. -/
theorem spells_of_decode (h : decode bits (first :: octets) = some (n, taken)) :
    ∃ front rest, first :: octets = front ++ rest ∧ taken = front.length
      ∧ Spells (first.toNat / 2 ^ bits) bits front n := by
  have hpow : 0 < 2 ^ bits := Nat.two_pow_pos bits
  have hsplit := Nat.div_add_mod' first.toNat (2 ^ bits)
  have hlow := Nat.mod_lt first.toNat hpow
  rw [decode_cons] at h
  split at h
  case isTrue hfits =>
    cases h
    exact ⟨[first], octets, rfl, rfl, .short hfits hsplit.symm⟩
  case isFalse hbeyond =>
    obtain ⟨⟨m, k⟩, hrest, heq⟩ := Option.map_eq_some_iff.mp h
    cases heq
    obtain ⟨front, rest, rfl, rfl, hfront, hroom⟩ := continues_of_decode hrest
    refine ⟨first :: front, rest, rfl, rfl, .long ?_ hfront hroom⟩
    omega

end Integer

-- ================================================================ strings

namespace Literal

variable {octets : List UInt8} {taken : Nat}

/-- A string: its length behind one bit, then that many octets. -/
inductive WellFormed : List UInt8 → Prop
  | intro {mark : Nat} {length body : List UInt8}
      (hlength : Integer.Spells mark 7 length body.length) :
      WellFormed (length ++ body)

theorem WellFormed.extent_append (h : WellFormed octets) (rest : List UInt8) :
    literalExtent? (octets ++ rest) = some octets.length := by
  cases h with
  | @intro mark length body hlength =>
      have hread := hlength.decode_append (body ++ rest)
      simp only [literalExtent?, List.append_assoc, hread, Option.bind_eq_bind,
        Option.bind_some, List.drop_left, List.take_left, if_true,
        List.length_append]

theorem wellFormed_of_extent (h : literalExtent? octets = some taken) :
    ∃ front rest, octets = front ++ rest ∧ taken = front.length
      ∧ WellFormed front := by
  unfold literalExtent? at h
  obtain ⟨⟨length, k⟩, hlength, h⟩ := Option.bind_eq_some_iff.mp h
  dsimp only at h
  split at h
  case isFalse => cases h
  case isTrue hbody =>
    cases h
    cases octets with
    | nil => cases hlength
    | cons first octets =>
        obtain ⟨front, rest, heq, rfl, hspells⟩ :=
          Integer.spells_of_decode hlength
        rw [heq, List.drop_left] at hbody
        rw [← hbody] at hspells
        refine ⟨front ++ rest.take length, rest.drop length, ?_, ?_,
          .intro hspells⟩
        · rw [List.append_assoc, List.take_append_drop, heq]
        · rw [List.length_append, hbody]

end Literal

-- ======================================================== representations

/-- The bits in front of the integer of a kind. -/
def Kind.mark : Kind → Nat
  | .indexed => 0b1
  | .withIndexing => 0b01
  | .sizeUpdate => 0b001
  | .neverIndexed => 0b0001
  | .withoutIndexing => 0b0000

/-- A kind is told by the bits in front of its integer. -/
theorem Kind.ofOctet_eq_iff {first : UInt8} {kind : Kind} :
    Kind.ofOctet first = kind
      ↔ first.toNat / 2 ^ kind.integerBits = kind.mark := by
  have hbyte := first.toNat_lt
  unfold ofOctet
  cases kind <;> grind [integerBits, mark]

/-- A literal field: an index and a value, or index 0, a name and a
value. -/
inductive IsField (mark bits : Nat) : List UInt8 → Prop
  | named {index value : List UInt8} {n : Nat}
      (hindex : Integer.Spells mark bits index n) (hn : n ≠ 0)
      (hvalue : Literal.WellFormed value) :
      IsField mark bits (index ++ value)
  | unnamed {index name value : List UInt8}
      (hindex : Integer.Spells mark bits index 0)
      (hname : Literal.WellFormed name) (hvalue : Literal.WellFormed value) :
      IsField mark bits (index ++ (name ++ value))

namespace Representation

/-- The grammar of representations. -/
inductive WellFormed : Representation → Prop
  | indexed {octets : List UInt8} {n : Nat}
      (h : Integer.Spells 0b1 7 octets n) : WellFormed ⟨.indexed, octets⟩
  | withIndexing {octets : List UInt8}
      (h : IsField 0b01 6 octets) : WellFormed ⟨.withIndexing, octets⟩
  | withoutIndexing {octets : List UInt8}
      (h : IsField 0b0000 4 octets) : WellFormed ⟨.withoutIndexing, octets⟩
  | neverIndexed {octets : List UInt8}
      (h : IsField 0b0001 4 octets) : WellFormed ⟨.neverIndexed, octets⟩
  | sizeUpdate {octets : List UInt8} {n : Nat}
      (h : Integer.Spells 0b001 5 octets n) : WellFormed ⟨.sizeUpdate, octets⟩

variable {kind : Kind} {octets : List UInt8}

/-- The kinds that are no literals have one rule, and those that are have
another. -/
theorem wellFormed_iff : WellFormed ⟨kind, octets⟩
    ↔ (kind.isLiteral = false
        ∧ ∃ n, Integer.Spells kind.mark kind.integerBits octets n)
      ∨ (kind.isLiteral = true
        ∧ IsField kind.mark kind.integerBits octets) := by
  constructor
  · intro h
    cases h with
    | indexed h | sizeUpdate h => exact .inl ⟨rfl, _, h⟩
    | withIndexing h | withoutIndexing h | neverIndexed h => exact .inr ⟨rfl, h⟩
  · rintro (⟨hkind, n, h⟩ | ⟨hkind, h⟩)
    · cases kind with
      | indexed => exact .indexed h
      | sizeUpdate => exact .sizeUpdate h
      | withIndexing | withoutIndexing | neverIndexed => cases hkind
    · cases kind with
      | indexed | sizeUpdate => cases hkind
      | withIndexing => exact .withIndexing h
      | withoutIndexing => exact .withoutIndexing h
      | neverIndexed => exact .neverIndexed h

end Representation

section Extent

variable {kind : Kind} {mark n taken : Nat} {front octets : List UInt8}
variable {r : Representation}

/-- A field starts with its mark. -/
theorem IsField.exists_head {bits : Nat} (h : IsField mark bits octets) :
    ∃ first back, octets = first :: back ∧ first.toNat / 2 ^ bits = mark := by
  cases h with
  | named hindex hn hvalue =>
      obtain ⟨first, back, rfl, hmark⟩ := hindex.exists_head
      exact ⟨first, _, List.cons_append .., hmark⟩
  | unnamed hindex hname hvalue =>
      obtain ⟨first, back, rfl, hmark⟩ := hindex.exists_head
      exact ⟨first, _, List.cons_append .., hmark⟩

/-- The first octet of a representation tells its kind. -/
theorem Representation.WellFormed.exists_head (h : r.WellFormed) :
    ∃ first back, r.octets = first :: back ∧ Kind.ofOctet first = r.kind := by
  simp only [Kind.ofOctet_eq_iff]
  obtain ⟨kind, octets⟩ := r
  rcases Representation.wellFormed_iff.mp h with ⟨-, n, hspells⟩ | ⟨-, hfield⟩
  · exact hspells.exists_head
  · exact hfield.exists_head

theorem Representation.WellFormed.octets_ne_nil (h : r.WellFormed) :
    r.octets ≠ [] := by
  obtain ⟨first, back, heq, -⟩ := h.exists_head
  rw [heq]
  exact List.cons_ne_nil _ _

theorem IsField.extentAs_append (hkind : kind.isLiteral = true)
    (h : IsField mark kind.integerBits front) (rest : List UInt8) :
    extentAs? kind (front ++ rest) = some front.length := by
  unfold extentAs?
  cases h with
  | @named index value n hindex hn hvalue =>
      have hread := hindex.decode_append (value ++ rest)
      simp only [List.append_assoc, hread, hkind, Option.bind_eq_bind,
        Option.bind_some, Bool.not_true, Bool.false_eq_true, if_false, hn,
        List.drop_left, hvalue.extent_append, List.length_append]
  | @unnamed index name value hindex hname hvalue =>
      have hread := hindex.decode_append (name ++ (value ++ rest))
      have hdrop : (index ++ (name ++ (value ++ rest))).drop
          (index.length + name.length) = value ++ rest := by
        rw [← List.append_assoc]
        exact List.drop_left' List.length_append
      simp only [List.append_assoc, hread, hkind, Option.bind_eq_bind,
        Option.bind_some, Bool.not_true, Bool.false_eq_true, if_false, if_true,
        List.drop_left, hname.extent_append, hdrop, hvalue.extent_append,
        List.length_append, Nat.add_assoc]

/-- A representation is split off at its end, whatever follows. -/
theorem Representation.WellFormed.extent_append (h : r.WellFormed)
    (rest : List UInt8) :
    extent? (r.octets ++ rest) = some (r.kind, r.octets.length) := by
  obtain ⟨first, back, heq, hkind⟩ := h.exists_head
  have has : extentAs? r.kind (r.octets ++ rest) = some r.octets.length := by
    obtain ⟨kind, octets⟩ := r
    rcases wellFormed_iff.mp h with ⟨hplain, n, hspells⟩ | ⟨hliteral, hfield⟩
    · have hread := hspells.decode_append rest
      simp only [extentAs?, hread, hplain, Option.bind_eq_bind,
        Option.bind_some, Bool.not_false, if_true]
    · exact hfield.extentAs_append hliteral rest
  rw [heq] at has ⊢
  rw [List.cons_append] at has ⊢
  unfold extent?
  dsimp only
  rw [hkind, has]
  rfl

theorem isField_of_extentAs {first : UInt8} {octets : List UInt8}
    (hkind : kind.isLiteral = true)
    (h : extentAs? kind (first :: octets) = some taken) :
    ∃ front rest, first :: octets = front ++ rest ∧ taken = front.length
      ∧ IsField (first.toNat / 2 ^ kind.integerBits) kind.integerBits
        front := by
  unfold extentAs? at h
  obtain ⟨⟨n, k⟩, hindex, h⟩ := Option.bind_eq_some_iff.mp h
  obtain ⟨index, rest, heq, rfl, hspells⟩ := Integer.spells_of_decode hindex
  simp only [hkind, Bool.not_true, Bool.false_eq_true, if_false, heq,
    List.drop_left, Option.bind_eq_bind] at h
  split at h
  case isTrue hzero =>
    obtain ⟨k, hname, h⟩ := Option.bind_eq_some_iff.mp h
    obtain ⟨m, hvalue, h⟩ := Option.bind_eq_some_iff.mp h
    cases h
    obtain ⟨name, rest, rfl, rfl, hnamed⟩ := Literal.wellFormed_of_extent hname
    rw [← List.append_assoc, List.drop_left' List.length_append] at hvalue
    obtain ⟨value, rest, rfl, rfl, hvalued⟩ :=
      Literal.wellFormed_of_extent hvalue
    subst hzero
    refine ⟨index ++ (name ++ value), rest, ?_, ?_,
      .unnamed hspells hnamed hvalued⟩
    · simp only [heq, List.append_assoc]
    · simp only [List.length_append, Nat.add_assoc]
  case isFalse hn =>
    obtain ⟨m, hvalue, h⟩ := Option.bind_eq_some_iff.mp h
    cases h
    obtain ⟨value, rest, rfl, rfl, hvalued⟩ :=
      Literal.wellFormed_of_extent hvalue
    refine ⟨index ++ value, rest, ?_, ?_, .named hspells hn hvalued⟩
    · rw [heq, List.append_assoc]
    · rw [List.length_append]

/-- What is split off is a representation. -/
theorem wellFormed_of_extent (h : extent? octets = some (kind, taken)) :
    ∃ front rest, octets = front ++ rest ∧ taken = front.length
      ∧ Representation.WellFormed ⟨kind, front⟩ := by
  cases octets with
  | nil => cases h
  | cons first octets =>
      obtain ⟨k, has, heq⟩ := Option.map_eq_some_iff.mp h
      cases heq
      have hmark := Kind.ofOctet_eq_iff.mp (rfl : Kind.ofOctet first = _)
      cases hkind : (Kind.ofOctet first).isLiteral with
      | true =>
          obtain ⟨front, rest, heq, hlength, hfield⟩ :=
            isField_of_extentAs hkind has
          rw [hmark] at hfield
          exact ⟨front, rest, heq, hlength,
            Representation.wellFormed_iff.mpr (.inr ⟨hkind, hfield⟩)⟩
      | false =>
          unfold extentAs? at has
          obtain ⟨⟨n, m⟩, hread, htaken⟩ := Option.bind_eq_some_iff.mp has
          simp only [hkind, Bool.not_false, if_true] at htaken
          cases htaken
          obtain ⟨front, rest, heq, hlength, hspells⟩ :=
            Integer.spells_of_decode hread
          rw [hmark] at hspells
          exact ⟨front, rest, heq, hlength,
            Representation.wellFormed_iff.mpr (.inl ⟨hkind, n, hspells⟩)⟩

/-- The reader splits off what the grammar allows at the front of a
string, and nothing else. -/
theorem extent?_eq_some_iff : extent? octets = some (kind, taken)
    ↔ ∃ front rest, octets = front ++ rest ∧ taken = front.length
      ∧ Representation.WellFormed ⟨kind, front⟩ := by
  constructor
  · exact wellFormed_of_extent
  · rintro ⟨front, rest, rfl, rfl, h⟩
    exact h.extent_append rest

/-- No representation is the beginning of another one. -/
theorem Representation.WellFormed.eq_of_append_eq {q : Representation}
    {rest rest' : List UInt8} (hr : r.WellFormed) (hq : q.WellFormed)
    (h : r.octets ++ rest = q.octets ++ rest') : r = q ∧ rest = rest' := by
  have hextent := hr.extent_append rest
  rw [h, hq.extent_append] at hextent
  obtain ⟨hkind, hlength⟩ := Prod.mk.inj (Option.some.inj hextent)
  obtain ⟨hoctets, hrest⟩ := List.append_inj h hlength.symm
  refine ⟨?_, hrest⟩
  obtain ⟨kind, octets⟩ := r
  obtain ⟨kind', octets'⟩ := q
  cases hkind
  cases hoctets
  rfl

end Extent

end Http2.Hpack
