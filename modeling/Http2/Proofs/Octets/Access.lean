/-
Lookups that check every step.

A reader that has made sure of its bounds once looks octets up without
asking again. Such lookups are spelled out here in the small, and each
step that cannot be taken has its fault: an index or a range that is not
there, a copy into a place of another length, a difference below zero,
and an octet that is there but does not belong to what is being read.

What octets are taken from is left open: `gather` takes them one by one
from anything that has an index, so one lemma (`gather_eq`) serves lists
and buffers. An iterator is called again and again; if none of its calls
has a fault, then no run of calls has one, and a run yields the first
items of the iterator's list (`calls_eq`).
-/
import Http2.Octets.BigEndian
import Http2.Proofs.Octets.Pieces

namespace Http2

/-- What is wrong with a step of a lookup. -/
inductive Fault where
  /-- An index or a range beyond the octets that there are. -/
  | outOfRange
  /-- A copy into a place of another length. -/
  | lengthMismatch
  /-- A difference below zero. -/
  | underflow
  /-- Octets that are there but belong to something else. -/
  | foreign
  deriving DecidableEq, Repr

/-- A lookup, which has a fault or yields something. -/
abbrev Access := Except Fault

namespace Access

theorem ok_bind {α β : Type} (a : α) (next : α → Access β) :
    ((.ok a : Access α) >>= next) = next a := rfl

-- ========================================================= single steps

/-- The octet at an index. -/
def octetAt (octets : List UInt8) (i : Nat) : Access UInt8 :=
  match octets[i]? with
  | some octet => .ok octet
  | none => .error .outOfRange

/-- The octets in `[start, stop)`. -/
def rangeOf (octets : List UInt8) (start stop : Nat) : Access (List UInt8) :=
  if start ≤ stop ∧ stop ≤ octets.length then
    .ok ((octets.drop start).take (stop - start))
  else .error .outOfRange

/-- Octets in a place that is `width` octets wide. -/
def copy (width : Nat) (octets : List UInt8) : Access (List UInt8) :=
  if octets.length = width then .ok octets else .error .lengthMismatch

/-- What is left of `a` without `b`. -/
def difference (a b : Nat) : Access Nat :=
  if b ≤ a then .ok (a - b) else .error .underflow

theorem octetAt_eq_ok_iff {octets : List UInt8} {i : Nat} {octet : UInt8} :
    octetAt octets i = .ok octet ↔ octets[i]? = some octet := by
  unfold octetAt
  split <;> simp_all

theorem rangeOf_of_le {octets : List UInt8} {start stop : Nat}
    (hle : start ≤ stop) (hstop : stop ≤ octets.length) :
    rangeOf octets start stop = .ok ((octets.drop start).take (stop - start)) :=
  if_pos ⟨hle, hstop⟩

/-- Everything from an index on. -/
theorem rangeOf_length {octets : List UInt8} {start : Nat}
    (h : start ≤ octets.length) :
    rangeOf octets start octets.length = .ok (octets.drop start) := by
  rw [rangeOf_of_le h (Nat.le_refl _), ← List.length_drop, List.take_length]

theorem copy_of_length {octets : List UInt8} {width : Nat}
    (h : octets.length = width) : copy width octets = .ok octets :=
  if_pos h

theorem difference_of_le {a b : Nat} (h : b ≤ a) :
    difference a b = .ok (a - b) :=
  if_pos h

-- ============================================================== numbers

/-- Octets from an index on, one by one. -/
def gather (octet : Nat → Access UInt8) : (start width : Nat) →
    Access (List UInt8)
  | _, 0 => .ok []
  | start, width + 1 => do
    let first ← octet start
    let others ← gather octet (start + 1) width
    return first :: others

/-- The number that is spelled from an index on. -/
def number (octet : Nat → Access UInt8) (start width : Nat) : Access Nat := do
  let octets ← gather octet start width
  return BigEndian.decode octets

/-- Octets that can be had one by one can be had together. -/
theorem gather_eq {octet : Nat → Access UInt8} {octets : List UInt8}
    {start : Nat} (h : ∀ i o, octets[i]? = some o → octet (start + i) = .ok o) :
    gather octet start octets.length = .ok octets := by
  induction octets generalizing start with
  | nil => rfl
  | cons first others ih =>
      have hfirst : octet start = .ok first := h 0 first rfl
      have hothers : gather octet (start + 1) others.length = .ok others := by
        apply ih
        intro i o hi
        rw [Nat.add_assoc, Nat.add_comm 1]
        exact h (i + 1) o hi
      rw [List.length_cons, gather, hfirst, ok_bind, hothers, ok_bind]
      rfl

theorem number_eq {octet : Nat → Access UInt8} {octets : List UInt8}
    {start : Nat} (h : ∀ i o, octets[i]? = some o → octet (start + i) = .ok o) :
    number octet start octets.length = .ok (BigEndian.decode octets) := by
  rw [number, gather_eq h]
  rfl

/-- A number in a list of octets. -/
theorem number_octetAt {octets : List UInt8} {start width : Nat}
    (h : start + width ≤ octets.length) :
    number (octetAt octets) start width
      = .ok (BigEndian.decode ((octets.drop start).take width)) := by
  have hwidth : ((octets.drop start).take width).length = width := by
    rw [List.length_take, List.length_drop]
    omega
  have hnumber := @number_eq (octetAt octets) ((octets.drop start).take width)
    start
  rw [hwidth] at hnumber
  apply hnumber
  intro i o hi
  rw [List.getElem?_take] at hi
  split at hi
  case isTrue =>
    rw [List.getElem?_drop] at hi
    exact octetAt_eq_ok_iff.mpr hi
  case isFalse => cases hi

-- ============================================================ iterators

variable {σ ι : Type} {next : σ → Access (Option (ι × σ))} {items : σ → List ι}

/-- At most so many calls of an iterator, one behind the other. -/
def calls (next : σ → Access (Option (ι × σ))) : (count : Nat) → σ →
    Access (List ι)
  | 0, _ => .ok []
  | count + 1, s => do
    match ← next s with
    | none => return []
    | some (item, after) =>
      let others ← calls next count after
      return item :: others

/-- No call has a fault, whatever the iterator has come to, and each takes
the first item off the list of those to come. -/
def Lists (next : σ → Access (Option (ι × σ))) (items : σ → List ι) : Prop :=
  ∀ s, (next s = .ok none ∧ items s = [])
    ∨ ∃ item after, next s = .ok (some (item, after))
      ∧ items s = item :: items after

/-- If no call has a fault, a run of calls has none either. -/
theorem calls_eq (h : Lists next items) (count : Nat) (s : σ) :
    calls next count s = .ok ((items s).take count) := by
  induction count generalizing s with
  | zero => rfl
  | succ count ih =>
      rcases h s with ⟨hnext, hitems⟩ | ⟨item, after, hnext, hitems⟩
      · rw [calls, hnext, hitems]
        rfl
      · rw [calls, hnext, ok_bind, hitems, List.take_succ_cons]
        dsimp only
        rw [ih after]
        rfl

end Access

end Http2
