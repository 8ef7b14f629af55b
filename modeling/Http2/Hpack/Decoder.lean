/-
Decompressing header fields.

One representation at a time is turned into at most one field
(`decodeFirst?`); a size update yields none. A name is looked up before
the value is read and before the table changes, and a representation
that fails to decode changes nothing. `decode` goes on to the end of a
string and reports the table it arrives at, also when it fails.
-/
import Http2.Hpack.Representation
import Http2.Hpack.Table

namespace Http2.Hpack

/-- What a decoded representation amounts to: a field unless it is a
size update, the octets it takes, and the table behind it. -/
structure Decoded where
  field : Option Field
  taken : Nat
  table : Table

namespace Table

/-- A literal field whose index has `bits` bits in the first octet. -/
def decodeLiteral? (t : Table) (bits : Nat) (octets : List UInt8) :
    Option (Field × Nat) := do
  let (index, taken) ← Integer.decode bits octets
  if index = 0 then
    let (name, nameTaken) ← Literal.decode (octets.drop taken)
    let (value, valueTaken) ← Literal.decode (octets.drop (taken + nameTaken))
    some (⟨name, value⟩, taken + nameTaken + valueTaken)
  else
    let known ← t.lookup? index
    let (value, valueTaken) ← Literal.decode (octets.drop taken)
    some (⟨known.name, value⟩, taken + valueTaken)

/-- Decodes a representation of a known kind. -/
def decodeAs? (t : Table) (kind : Kind) (octets : List UInt8) :
    Option Decoded :=
  match kind with
  | .indexed => do
    let (index, taken) ← Integer.decode 7 octets
    let field ← t.lookup? index
    some ⟨some field, taken, t⟩
  | .withIndexing => do
    let (field, taken) ← t.decodeLiteral? 6 octets
    some ⟨some field, taken, t.insert field⟩
  | .withoutIndexing | .neverIndexed => do
    let (field, taken) ← t.decodeLiteral? 4 octets
    some ⟨some field, taken, t⟩
  | .sizeUpdate => do
    let (maxSize, taken) ← Integer.decode 5 octets
    some ⟨none, taken, t.resize maxSize⟩

/-- Decodes the representation at the front of a string. -/
def decodeFirst? (t : Table) : List UInt8 → Option Decoded
  | [] => none
  | first :: octets => t.decodeAs? (Kind.ofOctet first) (first :: octets)

theorem decodeLiteral?_pos {t : Table} {bits : Nat} {octets : List UInt8}
    {field : Field} {taken : Nat}
    (h : t.decodeLiteral? bits octets = some (field, taken)) : 0 < taken := by
  simp only [decodeLiteral?, Option.bind_eq_bind, Option.bind_eq_some_iff] at h
  obtain ⟨⟨index, n⟩, hn, h⟩ := h
  have hpos := Integer.taken_pos hn
  dsimp only at h
  split at h
  · simp only [Option.bind_eq_some_iff] at h
    obtain ⟨_, -, _, -, h⟩ := h
    cases h
    omega
  · simp only [Option.bind_eq_some_iff] at h
    obtain ⟨_, -, _, -, h⟩ := h
    cases h
    omega

/-- A decoded representation takes at least one octet. -/
theorem decodeFirst?_pos {t : Table} {octets : List UInt8} {d : Decoded}
    (h : t.decodeFirst? octets = some d) : 0 < d.taken := by
  unfold decodeFirst? at h
  split at h
  · cases h
  · unfold decodeAs? at h
    split at h <;>
      simp only [Option.bind_eq_bind, Option.bind_eq_some_iff] at h
    · obtain ⟨⟨_, _⟩, hn, _, -, h⟩ := h
      cases h
      exact Integer.taken_pos hn
    · obtain ⟨⟨_, _⟩, hn, h⟩ := h
      cases h
      exact decodeLiteral?_pos hn
    · obtain ⟨⟨_, _⟩, hn, h⟩ := h
      cases h
      exact decodeLiteral?_pos hn
    · obtain ⟨⟨_, _⟩, hn, h⟩ := h
      cases h
      exact decodeLiteral?_pos hn
    · obtain ⟨⟨_, _⟩, hn, h⟩ := h
      cases h
      exact Integer.taken_pos hn

/-- The fields of a whole string, or nothing if some representation in
it fails to decode, with the table behind what was decoded. -/
def decode (t : Table) (octets : List UInt8) : Option (List Field) × Table :=
  if octets.isEmpty then (some [], t)
  else
    match _h : t.decodeFirst? octets with
    | none => (none, t)
    | some d =>
      let (fields, table) := d.table.decode (octets.drop d.taken)
      (fields.map (d.field.toList ++ ·), table)
termination_by octets.length
decreasing_by
  have hpos := decodeFirst?_pos _h
  have hlen : octets ≠ [] := by
    intro hnil
    simp_all
  have := List.length_pos_iff.mpr hlen
  simp only [List.length_drop]
  omega

end Table

end Http2.Hpack
