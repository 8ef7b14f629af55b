/-
Field representations: the pieces that a header block is made of.

The first octet tells the kind of a piece (`Kind.ofOctet`), and integers
and lengths tell where it ends (`extent?`). Splitting a block needs no
table and decodes nothing. `Scanner` walks over the pieces of a block;
at the first octet string that is no representation it reports one error
and ends.
-/
import Http2.Error
import Http2.Hpack.Literal

namespace Http2.Hpack

/-- The kinds of field representations. -/
inductive Kind where
  /-- A field that stands in a table. -/
  | indexed
  /-- A literal field that is added to the dynamic table. -/
  | withIndexing
  /-- A literal field that is not added. -/
  | withoutIndexing
  /-- A literal field that no one on the way may add. -/
  | neverIndexed
  /-- A new bound for the dynamic table, which is no field. -/
  | sizeUpdate
  deriving DecidableEq, Repr

namespace Kind

/-- The kind that a first octet announces. -/
def ofOctet (first : UInt8) : Kind :=
  if 0x80 ≤ first.toNat then indexed
  else if 0x40 ≤ first.toNat then withIndexing
  else if 0x20 ≤ first.toNat then sizeUpdate
  else if 0x10 ≤ first.toNat then neverIndexed
  else withoutIndexing

/-- How many bits of the first octet belong to its integer. -/
def integerBits : Kind → Nat
  | indexed => 7
  | withIndexing => 6
  | sizeUpdate => 5
  | neverIndexed | withoutIndexing => 4

/-- Whether strings follow the integer. -/
def isLiteral : Kind → Bool
  | indexed | sizeUpdate => false
  | withIndexing | neverIndexed | withoutIndexing => true

end Kind

/-- How many octets the string literal at the front takes. -/
def literalExtent? (octets : List UInt8) : Option Nat := do
  let (length, taken) ← Integer.decode 7 octets
  if ((octets.drop taken).take length).length = length
  then some (taken + length) else none

/-- How many octets a representation of a known kind takes. A literal
whose index is 0 has a name of its own. -/
def extentAs? (kind : Kind) (octets : List UInt8) : Option Nat := do
  let (index, taken) ← Integer.decode kind.integerBits octets
  if !kind.isLiteral then some taken
  else if index = 0 then
    let name ← literalExtent? (octets.drop taken)
    let value ← literalExtent? (octets.drop (taken + name))
    some (taken + name + value)
  else
    let value ← literalExtent? (octets.drop taken)
    some (taken + value)

/-- The kind of the representation at the front of a string and how many
octets it takes. -/
def extent? : List UInt8 → Option (Kind × Nat)
  | [] => none
  | first :: octets =>
    let kind := Kind.ofOctet first
    (extentAs? kind (first :: octets)).map fun taken => (kind, taken)

theorem extentAs?_pos {kind : Kind} {octets : List UInt8} {taken : Nat}
    (h : extentAs? kind octets = some taken) : 0 < taken := by
  simp only [extentAs?, Option.bind_eq_bind, Option.bind_eq_some_iff] at h
  obtain ⟨⟨index, n⟩, hn, h⟩ := h
  have hpos := Integer.taken_pos hn
  dsimp only at h
  split at h
  · cases h
    exact hpos
  · split at h
    · simp only [Option.bind_eq_some_iff] at h
      obtain ⟨name, -, value, -, h⟩ := h
      cases h
      omega
    · simp only [Option.bind_eq_some_iff] at h
      obtain ⟨value, -, h⟩ := h
      cases h
      omega

/-- A representation takes at least one octet. -/
theorem extent?_pos {octets : List UInt8} {kind : Kind} {taken : Nat}
    (h : extent? octets = some (kind, taken)) : 0 < taken := by
  unfold extent? at h
  split at h
  · cases h
  · obtain ⟨n, hn, heq⟩ := Option.map_eq_some_iff.mp h
    cases heq
    exact extentAs?_pos hn

/-- One piece of a header block, still encoded. -/
structure Representation where
  kind : Kind
  octets : List UInt8
  deriving DecidableEq, Repr

/-- A walk over the representations of a block: what is still ahead, and
whether the walk was given up. -/
structure Scanner where
  rest : List UInt8
  failed : Bool := false
  deriving DecidableEq

namespace Scanner

/-- Gives the walk up. -/
def abandon (s : Scanner) : Scanner := { s with failed := true }

/-- A bound on the steps that are left. -/
def fuel (s : Scanner) : Nat := if s.failed then 0 else s.rest.length

@[simp] theorem fuel_abandon (s : Scanner) : s.abandon.fuel = 0 := rfl

/-- The next piece, or the error that ends the walk; nothing at the
end. -/
def next? (s : Scanner) : Option (Except Error Representation × Scanner) :=
  if s.failed || s.rest.isEmpty then none
  else match extent? s.rest with
    | some (kind, taken) =>
      some (.ok ⟨kind, s.rest.take taken⟩,
        { s with rest := s.rest.drop taken })
    | none => some (.error .compression, s.abandon)

theorem fuel_of_next? {s after : Scanner} {item : Except Error Representation}
    (h : s.next? = some (item, after)) : after.fuel < s.fuel := by
  unfold next? at h
  split at h
  · cases h
  · rename_i hgo
    have hfailed : s.failed = false := by
      cases hf : s.failed <;> simp_all
    have hrest : 0 < s.rest.length := by
      cases hr : s.rest <;> simp_all
    split at h
    · rename_i kind taken hext
      have hpos := extent?_pos hext
      cases h
      simp only [fuel, hfailed, List.length_drop]
      simp only [Bool.false_eq_true, if_false]
      omega
    · cases h
      simp [fuel, abandon, hfailed, hrest]

/-- Everything that a walk yields. -/
def toList (s : Scanner) : List (Except Error Representation) :=
  match _h : s.next? with
  | none => []
  | some (item, after) => item :: after.toList
termination_by s.fuel
decreasing_by exact fuel_of_next? _h

end Scanner

end Http2.Hpack
