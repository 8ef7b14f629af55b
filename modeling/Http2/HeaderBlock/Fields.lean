/-
Decoding a header block field by field.

`Fields` is a walk that decodes only as far as it is asked to. It holds
what is ahead of it and the dynamic table behind it, and every step
hands back both, so a walk that is left early leaves the table in the
middle of the block. A representation that cannot be split off or
decoded is reported once and ends the walk; the table stays as the
representations in front of it left it.
-/
import Http2.HeaderBlock
import Http2.Hpack.Decoder

namespace Http2.HeaderBlock

/-- A walk over the fields of a block. -/
structure Fields where
  scanner : Hpack.Scanner
  table : Hpack.Table

/-- The walk over all fields of a block with a given table. -/
def fields (b : HeaderBlock) (table : Hpack.Table) : Fields :=
  ⟨b.representations, table⟩

namespace Fields

/-- The next field, or the error that ends the walk; nothing at the
end. Size updates on the way change the table and yield nothing. -/
def next (s : Fields) : Option (Except Error Field) × Fields :=
  match _h : s.scanner.next? with
  | none => (none, s)
  | some (.error e, after) => (some (.error e), ⟨after, s.table⟩)
  | some (.ok representation, after) =>
    match s.table.decode representation.octets with
    | (none, table) => (some (.error .compression), ⟨after.abandon, table⟩)
    | (some decoded, table) =>
      match decoded.getLast? with
      | some field => (some (.ok field), ⟨after, table⟩)
      | none => next ⟨after, table⟩
termination_by s.scanner.fuel
decreasing_by exact Hpack.Scanner.fuel_of_next? _h

/-- A step that yields something brings the end nearer. -/
theorem fuel_of_next {s after : Fields} {item : Except Error Field}
    (h : s.next = (some item, after)) :
    after.scanner.fuel < s.scanner.fuel := by
  fun_induction next s with
  | case1 => cases h
  | case2 s e later hn =>
    cases h
    exact Hpack.Scanner.fuel_of_next? hn
  | case3 s r later hn table hd =>
    cases h
    exact Nat.zero_lt_of_lt (Hpack.Scanner.fuel_of_next? hn)
  | case4 s r later hn decoded table hd field hf =>
    cases h
    exact Hpack.Scanner.fuel_of_next? hn
  | case5 s r later hn decoded table hd hf ih =>
    exact Nat.lt_trans (ih h) (Hpack.Scanner.fuel_of_next? hn)

/-- At most `n` steps: what they yield, and the walk behind them. -/
def take : (n : Nat) → Fields → List (Except Error Field) × Fields
  | 0, s => ([], s)
  | n + 1, s =>
    match s.next with
    | (none, after) => ([], after)
    | (some item, after) =>
      let (items, rest) := take n after
      (item :: items, rest)

/-- All steps. -/
def drain (s : Fields) : List (Except Error Field) × Fields :=
  match _h : s.next with
  | (none, after) => ([], after)
  | (some item, after) =>
    let (items, rest) := after.drain
    (item :: items, rest)
termination_by s.scanner.fuel
decreasing_by exact fuel_of_next _h

/-- Hands every field to `consume` in wire order, up to the first error
if there is one. -/
def fold {σ : Type} (consume : σ → Field → σ) (state : σ) (s : Fields) :
    σ × Option Error × Fields :=
  match _h : s.next with
  | (none, after) => (state, none, after)
  | (some (.error e), after) => (state, some e, after)
  | (some (.ok field), after) => after.fold consume (consume state field)
termination_by s.scanner.fuel
decreasing_by exact fuel_of_next _h

end Fields

end Http2.HeaderBlock
