/-
Integers in header blocks.

An integer starts in the low bits of an octet whose high bits say
something else. If it does not fit below the all-ones pattern of those
bits, the rest follows in octets of seven bits each, least significant
first, the top bit telling that more follow. A reader takes at most
four such octets, and accepts needless ones as long as they are no more
than that.
-/
namespace Http2.Hpack.Integer

/-- How many octets may follow the first one. -/
def maxContinuation : Nat := 4

/-- The seven bit octets of a number, least significant first. -/
def encodeContinuation (n : Nat) : List UInt8 :=
  if n < 128 then [.ofNat n]
  else .ofNat (n % 128 + 128) :: encodeContinuation (n / 128)

/-- A number behind the given high bits, with `bits` bits left for it in
the first octet. -/
def encode (bits high n : Nat) : List UInt8 :=
  if n < 1 <<< bits - 1 then [.ofNat (high + n)]
  else .ofNat (high + (1 <<< bits - 1))
    :: encodeContinuation (n - (1 <<< bits - 1))

/-- The number that seven bit octets spell and how many of them it
takes, if it ends within `room` octets. -/
def decodeContinuation : (room : Nat) → List UInt8 → Option (Nat × Nat)
  | 0, _ => none
  | _, [] => none
  | room + 1, octet :: octets =>
    if octet.toNat < 128 then some (octet.toNat, 1)
    else (decodeContinuation room octets).map fun (n, taken) =>
      (octet.toNat - 128 + 128 * n, taken + 1)

/-- The number at the front of a string and how many octets it takes.
The high bits of the first octet are ignored. -/
def decode (bits : Nat) : List UInt8 → Option (Nat × Nat)
  | [] => none
  | first :: octets =>
    let low := first.toNat % 1 <<< bits
    if low < 1 <<< bits - 1 then some (low, 1)
    else (decodeContinuation maxContinuation octets).map fun (n, taken) =>
      (1 <<< bits - 1 + n, taken + 1)

/-- A decoded integer takes at least one octet. -/
theorem taken_pos {bits : Nat} {octets : List UInt8} {n taken : Nat}
    (h : decode bits octets = some (n, taken)) : 0 < taken := by
  unfold decode at h
  split at h
  · cases h
  · dsimp only at h
    split at h
    · cases h
      exact Nat.zero_lt_one
    · obtain ⟨⟨m, k⟩, -, heq⟩ := Option.map_eq_some_iff.mp h
      cases heq
      exact Nat.succ_pos k

end Http2.Hpack.Integer
