/-
One step of decoding, and what it makes of a walk.

The next step of a walk is decided by what stands ahead of it: nothing, no
representation, or a representation and what decoding it gives
(`next_append_eq`). Draining a block, taking some fields of it and handing
them to a consumer all go on behind the next step.
-/
import Http2.HeaderBlock.Fields
import Http2.Proofs.HeaderBlock.Splitting

namespace Http2.HeaderBlock.Fields

open Hpack

variable {t t' : Table} {r : Representation} {f : Field} {ds : List Field}
variable {octets rest : List UInt8}

-- ================================================================ one step

theorem next_nil (t : Table) :
    next ⟨⟨[], false⟩, t⟩ = (none, ⟨⟨[], false⟩, t⟩) := by
  rw [next]
  rfl

theorem next_failed (octets : List UInt8) (t : Table) :
    next ⟨⟨octets, true⟩, t⟩ = (none, ⟨⟨octets, true⟩, t⟩) := by
  rw [next]
  rfl

theorem next_of_stuck (h : Stuck octets) (t : Table) :
    next ⟨⟨octets, false⟩, t⟩
      = (some (.error .compression), ⟨⟨octets, true⟩, t⟩) := by
  have hnext := Scanner.next?_of_stuck h
  rw [next]
  split
  case h_1 hnone =>
    rw [hnext] at hnone
    cases hnone
  case h_2 e after herror =>
    rw [hnext] at herror
    cases herror
    rfl
  case h_3 piece after hpiece =>
    rw [hnext] at hpiece
    cases hpiece

/-- At a representation, what decoding it gives decides on the step. -/
theorem next_append_eq (hr : r.WellFormed) (t : Table) (rest : List UInt8) :
    next ⟨⟨r.octets ++ rest, false⟩, t⟩
      = match t.decode r.octets with
        | (none, t') => (some (.error .compression), ⟨⟨rest, true⟩, t'⟩)
        | (some ds, t') =>
          match ds.getLast? with
          | some f => (some (.ok f), ⟨⟨rest, false⟩, t'⟩)
          | none => next ⟨⟨rest, false⟩, t'⟩ := by
  have hnext := Scanner.next?_append hr rest
  rw [next]
  split
  case h_1 hnone =>
    rw [hnext] at hnone
    cases hnone
  case h_2 e after herror =>
    rw [hnext] at herror
    cases herror
  case h_3 piece after hpiece =>
    rw [hnext] at hpiece
    cases hpiece
    rfl

theorem next_of_undecodable (hr : r.WellFormed)
    (h : t.decode r.octets = (none, t')) (rest : List UInt8) :
    next ⟨⟨r.octets ++ rest, false⟩, t⟩
      = (some (.error .compression), ⟨⟨rest, true⟩, t'⟩) := by
  rw [next_append_eq hr, h]

/-- A representation that decodes to a field yields it. -/
theorem next_of_field (hr : r.WellFormed)
    (h : t.decode r.octets = (some ds, t')) (hf : ds.getLast? = some f)
    (rest : List UInt8) :
    next ⟨⟨r.octets ++ rest, false⟩, t⟩
      = (some (.ok f), ⟨⟨rest, false⟩, t'⟩) := by
  rw [next_append_eq hr, h]
  simp only [hf]

/-- A representation that decodes to no field is passed over. -/
theorem next_of_no_field (hr : r.WellFormed)
    (h : t.decode r.octets = (some ds, t')) (hf : ds.getLast? = none)
    (rest : List UInt8) :
    next ⟨⟨r.octets ++ rest, false⟩, t⟩ = next ⟨⟨rest, false⟩, t'⟩ := by
  rw [next_append_eq hr, h]
  simp only [hf]

-- ============================================================= whole walks

theorem drain_of_next_none {s after : Fields} (h : s.next = (none, after)) :
    s.drain = ([], after) := by
  rw [drain]
  split
  case h_1 hnone =>
    rw [h] at hnone
    cases hnone
    rfl
  case h_2 hsome =>
    rw [h] at hsome
    cases hsome

theorem drain_of_next_some {s after : Fields} {item : Except Error Field}
    (h : s.next = (some item, after)) :
    s.drain = (item :: after.drain.1, after.drain.2) := by
  rw [drain]
  split
  case h_1 hnone =>
    rw [h] at hnone
    cases hnone
  case h_2 hsome =>
    rw [h] at hsome
    cases hsome
    rfl

theorem fold_of_next_none {σ : Type} (consume : σ → Field → σ) (state : σ)
    {s after : Fields} (h : s.next = (none, after)) :
    s.fold consume state = (state, none, after) := by
  rw [fold]
  split
  case h_1 hnone =>
    rw [h] at hnone
    cases hnone
    rfl
  case h_2 hsome | h_3 hsome =>
    rw [h] at hsome
    cases hsome

theorem fold_of_next_error {σ : Type} (consume : σ → Field → σ) (state : σ)
    {s after : Fields} {e : Error} (h : s.next = (some (.error e), after)) :
    s.fold consume state = (state, some e, after) := by
  rw [fold]
  split
  case h_1 hnone =>
    rw [h] at hnone
    cases hnone
  case h_2 hsome =>
    rw [h] at hsome
    cases hsome
    rfl
  case h_3 hsome =>
    rw [h] at hsome
    cases hsome

theorem fold_of_next_ok {σ : Type} (consume : σ → Field → σ) (state : σ)
    {s after : Fields} (h : s.next = (some (.ok f), after)) :
    s.fold consume state = after.fold consume (consume state f) := by
  rw [fold]
  split
  case h_1 hnone =>
    rw [h] at hnone
    cases hnone
  case h_2 hsome =>
    rw [h] at hsome
    cases hsome
  case h_3 hsome =>
    rw [h] at hsome
    cases hsome
    rfl

/-- Walks with the same next step drain alike. -/
theorem drain_congr {s s' : Fields} (h : s.next = s'.next) :
    s.drain = s'.drain := by
  rcases hnext : s'.next with ⟨item, after⟩
  cases item with
  | none => rw [drain_of_next_none (h.trans hnext), drain_of_next_none hnext]
  | some item =>
    rw [drain_of_next_some (h.trans hnext), drain_of_next_some hnext]

theorem take_congr {s s' : Fields} (h : s.next = s'.next) (n : Nat) :
    take (n + 1) s = take (n + 1) s' := by
  rw [take, take, h]

theorem take_of_next_some {s after : Fields} {item : Except Error Field}
    (h : s.next = (some item, after)) (n : Nat) :
    take (n + 1) s = (item :: (take n after).1, (take n after).2) := by
  rw [take, h]

end Http2.HeaderBlock.Fields
