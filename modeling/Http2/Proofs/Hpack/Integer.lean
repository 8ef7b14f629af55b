/-
Which integers of a header block are read, and that reading them overflows
nowhere.

An integer that does not fit into its first octet goes on in digits to the
base of 128. The last of them is the first octet whose top bit is clear, and
it must be one of the next four (`decode_isSome_iff`). What is read is what
the digits say (`decode_long`), so five octets and numbers below
`2 ^ bits - 1 + 2 ^ 28` are the most there can be. Among the shortest
encodings just those of larger numbers are turned down (`decode_encode_eq`).

`Integer.look` reads an integer at a position of a block with all its
arithmetic in words (`Exact`): a mask of 16 bits, a shift that grows by seven
in 32 bits, positions and values in 64 bits. It counts upwards from the least
significant digit and asks how far it has come before it shifts. That is early
enough: no step overflows, and what it comes to is what `decode` says
(`look_eq`).
-/
import Mathlib.Data.Nat.Digits.Defs
import Mathlib.Tactic.Ring
import Http2.Error
import Http2.Proofs.Hpack.Grammar

namespace Http2.Hpack

-- ================================================================= words

/-- What is wrong with a step of an arithmetic in words. -/
inductive Overflow where
  /-- A sum that is no word. -/
  | sum
  /-- A shift by the whole width or more, or of bits that get lost. -/
  | shift
  deriving DecidableEq, Repr

/-- A result that is a word, or an overflow. -/
abbrev Exact := Except Overflow

namespace Exact

/-- The sum of two words of a width. -/
def add (width a b : Nat) : Exact Nat :=
  if a + b < 2 ^ width then .ok (a + b) else .error .sum

/-- A word of a width shifted to the left. -/
def shiftLeft (width a places : Nat) : Exact Nat :=
  if places < width ∧ a <<< places < 2 ^ width then .ok (a <<< places)
  else .error .shift

theorem ok_bind {α β : Type} (a : α) (next : α → Exact β) :
    ((.ok a : Exact α) >>= next) = next a := rfl

theorem add_of_lt {width a b : Nat} (h : a + b < 2 ^ width) :
    add width a b = .ok (a + b) :=
  if_pos h

theorem shiftLeft_of_lt {width a places : Nat} (hplaces : places < width)
    (h : a * 2 ^ places < 2 ^ width) :
    shiftLeft width a places = .ok (a * 2 ^ places) := by
  rw [shiftLeft, Nat.shiftLeft_eq, if_pos ⟨hplaces, h⟩]

end Exact

namespace Integer

open Exact

-- ========================================================= step by step

/-- Goes on with an integer of which `value` has been read, at the octets
from `position` on. Their digits count from the bit `shift` on. -/
def follow : (octets : List UInt8) → (position shift value : Nat) →
    Exact (Except Error (Nat × Nat))
  | [], _, _, _ => .ok (.error .compression)
  | octet :: octets, position, shift, value => do
    let position ← add 64 position 1
    if 21 < shift then return .error .compression
    else
      let digit ← shiftLeft 64 (octet &&& 0x7f).toNat shift
      let value ← add 64 value digit
      let shift ← add 32 shift 7
      if octet &&& 0x80 = 0 then return .ok (value, position)
      else follow octets position shift value

/-- Reads the integer at a position: its value and the position behind it. -/
def look (bits : Nat) (octets : List UInt8) (position : Nat) :
    Exact (Except Error (Nat × Nat)) := do
  let above ← shiftLeft 16 1 bits
  let mask := UInt8.ofNat (above - 1)
  match octets.drop position with
  | [] => return .error .compression
  | first :: others =>
    let low := (first &&& mask).toNat
    let position ← add 64 position 1
    if low < mask.toNat then return .ok (low, position)
    else follow others position 0 low

/-- What a reader of a block is told: the value and the position behind it, or
that there is none. -/
def answer (position : Nat) : Option (Nat × Nat) → Except Error (Nat × Nat)
  | some (n, taken) => .ok (n, position + taken)
  | none => .error .compression

theorem toNat_and_mask {bits : Nat} (hbits : bits ≤ 8) (octet : UInt8) :
    (octet &&& UInt8.ofNat (2 ^ bits - 1)).toNat = octet.toNat % 2 ^ bits := by
  have hle : 2 ^ bits ≤ 2 ^ 8 := Nat.pow_le_pow_right (by decide) hbits
  have hpos := Nat.two_pow_pos bits
  have hmask : (UInt8.ofNat (2 ^ bits - 1)).toNat = 2 ^ bits - 1 := by
    rw [UInt8.toNat_ofNat']
    omega
  rw [UInt8.toNat_and, hmask, Nat.and_two_pow_sub_one_eq_mod]

theorem and_topBit_eq_zero_iff (octet : UInt8) :
    octet &&& 0x80 = 0 ↔ octet.toNat < 128 := by
  have hall : ∀ n : Fin 256, UInt8.ofFin n &&& 0x80 = 0 ↔ n.val < 128 := by
    decide +kernel
  exact hall octet.toFin

/-- One of the first four digits is added without an overflow. The numbers
that are added up stay far below the largest word. -/
theorem follow_cons {octet : UInt8} {octets : List UInt8}
    {position read value : Nat} (hread : read < maxContinuation)
    (hvalue : value < 2 ^ 8 + 128 ^ read) (hspace : position + 1 < 2 ^ 64) :
    follow (octet :: octets) position (7 * read) value
      = if octet.toNat < 128 then
          .ok (.ok (value + octet.toNat % 128 * 128 ^ read, position + 1))
        else follow octets (position + 1) (7 * (read + 1))
          (value + octet.toNat % 128 * 128 ^ read) := by
  have hfew : read ≤ 3 := Nat.le_of_lt_succ hread
  have hscale : 128 ^ read = 2 ^ (7 * read) := by rw [Nat.pow_mul]
  have hbound : 128 ^ read ≤ 128 ^ 3 := Nat.pow_le_pow_right (by decide) hfew
  have hdigit : (octet &&& 0x7f).toNat = octet.toNat % 128 :=
    @toNat_and_mask 7 (by decide) octet
  have hmul : octet.toNat % 128 * 128 ^ read ≤ 127 * 128 ^ read :=
    Nat.mul_le_mul_right _ (Nat.le_of_lt_succ (Nat.mod_lt _ (by decide)))
  have hfits : octet.toNat % 128 * 128 ^ read < 2 ^ 64 := by omega
  have hshifted : shiftLeft 64 (octet.toNat % 128) (7 * read)
      = .ok (octet.toNat % 128 * 128 ^ read) := by
    rw [hscale] at hfits ⊢
    exact shiftLeft_of_lt (by omega) hfits
  rw [follow, add_of_lt hspace, ok_bind, if_neg (by omega), hdigit, hshifted,
    ok_bind, add_of_lt (by omega), ok_bind, add_of_lt (by omega), ok_bind]
  simp only [and_topBit_eq_zero_iff]
  rfl

/-- What `follow` reads is what `decodeContinuation` does: it asks for the
place of a digit before it adds it, and the fifth one has no place. -/
theorem follow_eq {octets : List UInt8} {position read value : Nat}
    (hread : read ≤ maxContinuation) (hvalue : value < 2 ^ 8 + 128 ^ read)
    (hspace : position + octets.length < 2 ^ 64) :
    follow octets position (7 * read) value
      = .ok (answer position
          ((decodeContinuation (maxContinuation - read) octets).map
            fun (n, taken) => (value + n * 128 ^ read, taken))) := by
  induction octets generalizing position read value with
  | nil => cases maxContinuation - read <;> rfl
  | cons octet octets ih =>
      rw [List.length_cons] at hspace
      rcases Nat.eq_or_lt_of_le hread with rfl | hless
      · rw [Nat.sub_self, follow, add_of_lt (by omega)]
        rfl
      · have hroom : maxContinuation - read
            = maxContinuation - (read + 1) + 1 := by omega
        rw [follow_cons hless hvalue (by omega), hroom, decodeContinuation]
        split
        case isTrue hlast =>
          rw [Nat.mod_eq_of_lt hlast]
          rfl
        case isFalse hmore =>
          have hlt := octet.toNat_lt
          have hdigit : octet.toNat % 128 = octet.toNat - 128 := by omega
          have hmul : (octet.toNat - 128) * 128 ^ read ≤ 127 * 128 ^ read :=
            Nat.mul_le_mul_right _ (by omega)
          rw [hdigit, ih hless (by omega) (by omega), Option.map_map]
          congr 1
          cases decodeContinuation (maxContinuation - (read + 1)) octets with
          | none => rfl
          | some found =>
              obtain ⟨n, taken⟩ := found
              have hvalue : value + (octet.toNat - 128) * 128 ^ read
                  + n * 128 ^ (read + 1)
                  = value + (octet.toNat - 128 + 128 * n) * 128 ^ read := by
                ring
              have hplace : position + 1 + taken = position + (taken + 1) := by
                omega
              simp only [Option.map_some, answer, Function.comp, hvalue, hplace]

/-- What is read in words is what is read: no step overflows. -/
theorem look_eq {bits : Nat} (hbits : bits ≤ 8) {octets : List UInt8}
    (hsize : octets.length < 2 ^ 64) (position : Nat) :
    look bits octets position
      = .ok (answer position (decode bits (octets.drop position))) := by
  have hle : 2 ^ bits ≤ 2 ^ 8 := Nat.pow_le_pow_right (by decide) hbits
  have hpos := Nat.two_pow_pos bits
  have hmask : (UInt8.ofNat (2 ^ bits - 1)).toNat = 2 ^ bits - 1 := by
    rw [UInt8.toNat_ofNat']
    omega
  rw [look, shiftLeft_of_lt (by omega) (by omega), ok_bind, Nat.one_mul]
  cases hahead : octets.drop position with
  | nil => rfl
  | cons first others =>
      have hlength := congrArg List.length hahead
      rw [List.length_drop, List.length_cons] at hlength
      simp only [toNat_and_mask hbits, hmask,
        add_of_lt (show position + 1 < 2 ^ 64 by omega), ok_bind, decode_cons]
      split
      case isTrue => rfl
      case isFalse hfull =>
        have hlow := Nat.mod_lt first.toNat hpos
        have hread := @follow_eq others (position + 1) 0
          (first.toNat % 2 ^ bits) (Nat.zero_le _) (by omega) (by omega)
        rw [Nat.mul_zero] at hread
        rw [hread, Nat.sub_zero]
        congr 1
        cases decodeContinuation maxContinuation others with
        | none => rfl
        | some found =>
            obtain ⟨n, taken⟩ := found
            simp only [Option.map_some, answer, Nat.pow_zero, Nat.mul_one]
            congr 2 <;> omega

-- ============================================================== the digits

/-- The digits to the base of 128 that octets spell, least significant
first. -/
def digits (octets : List UInt8) : List Nat := octets.map (·.toNat % 128)

theorem Continues.eq_ofDigits {octets : List UInt8} {n : Nat}
    (h : Continues octets n) : n = Nat.ofDigits 128 (digits octets) := by
  induction h with
  | @last octet hlast =>
      rw [digits, List.map_singleton, Nat.ofDigits_singleton,
        Nat.mod_eq_of_lt hlast]
  | @more octet octets n hmore hrest ih =>
      have hlt := octet.toNat_lt
      have hdigit : octet.toNat % 128 = octet.toNat - 128 := by omega
      rw [digits, List.map_cons, Nat.ofDigits_cons, hdigit, ih]
      rfl

/-- Digits are below a power of their base. -/
theorem Continues.lt {octets : List UInt8} {n : Nat} (h : Continues octets n) :
    n < 128 ^ octets.length := by
  have hdigit : ∀ d ∈ digits octets, d < 128 := by
    intro d hd
    obtain ⟨octet, -, rfl⟩ := List.mem_map.mp hd
    exact Nat.mod_lt _ (by decide)
  have hlt := Nat.ofDigits_lt_base_pow_length (by decide) hdigit
  rw [digits, List.length_map] at hlt
  rw [h.eq_ofDigits]
  exact hlt

/-- Octets with their top bit set and one with a clear top bit are digits of
a number. -/
theorem continues_digits {more : List UInt8} {last : UInt8}
    (hmore : ∀ octet ∈ more, 128 ≤ octet.toNat) (hlast : last.toNat < 128) :
    Continues (more ++ [last])
      (Nat.ofDigits 128 (digits (more ++ [last]))) := by
  have hcontinues : ∃ n, Continues (more ++ [last]) n := by
    induction more with
    | nil => exact ⟨_, .last hlast⟩
    | cons octet more ih =>
        obtain ⟨hfirst, hothers⟩ := List.forall_mem_cons.mp hmore
        obtain ⟨n, hn⟩ := ih hothers
        exact ⟨_, .more hfirst hn⟩
  obtain ⟨n, hn⟩ := hcontinues
  rwa [← hn.eq_ofDigits]

/-- Digits end with the first octet whose top bit is clear. -/
theorem decodeContinuation_isSome_iff {room : Nat} {octets : List UInt8} :
    (decodeContinuation room octets).isSome
      ↔ ∃ octet ∈ octets.take room, octet.toNat < 128 := by
  induction room generalizing octets with
  | zero => simp [decodeContinuation]
  | succ room ih =>
      cases octets with
      | nil => simp [decodeContinuation]
      | cons octet octets =>
          rw [decodeContinuation, List.take_succ_cons]
          split
          case isTrue hlast =>
            exact iff_of_true rfl ⟨octet, List.mem_cons_self, hlast⟩
          case isFalse hmore =>
            rw [Option.isSome_map, ih]
            simp only [List.mem_cons, exists_eq_or_imp, hmore, false_or]

-- ========================================================== what is read

variable {bits position n taken : Nat} {octets : List UInt8} {first : UInt8}

theorem decode_isSome_iff : (decode bits (octets.drop position)).isSome
    ↔ ∃ first, octets[position]? = some first
      ∧ (first.toNat % 2 ^ bits < 2 ^ bits - 1
        ∨ ∃ octet ∈ (octets.drop (position + 1)).take 4,
          octet.toNat < 128) := by
  rw [← List.head?_drop, ← List.tail_drop]
  cases octets.drop position with
  | nil => simp [decode]
  | cons first others =>
      simp only [List.head?_cons, Option.some.injEq, exists_eq_left',
        List.tail_cons, decode_cons]
      split
      case isTrue hlow => simp [hlow]
      case isFalse hfull =>
        rw [Option.isSome_map, decodeContinuation_isSome_iff,
          or_iff_right hfull]
        rfl

/-- An integer that fits into its first octet. -/
theorem decode_short (hfirst : octets[position]? = some first)
    (hlow : first.toNat % 2 ^ bits < 2 ^ bits - 1) :
    decode bits (octets.drop position) = some (first.toNat % 2 ^ bits, 1) := by
  obtain ⟨hin, rfl⟩ := List.getElem?_eq_some_iff.mp hfirst
  rw [List.drop_eq_getElem_cons hin, decode_cons, if_pos hlow]

/-- An integer that does not fit and goes on in digits. -/
theorem decode_long {more rest : List UInt8} {last : UInt8}
    (hsplit : octets.drop position = first :: (more ++ last :: rest))
    (hfull : 2 ^ bits - 1 ≤ first.toNat % 2 ^ bits) (hroom : more.length < 4)
    (hmore : ∀ octet ∈ more, 128 ≤ octet.toNat) (hlast : last.toNat < 128) :
    decode bits (octets.drop position)
      = some (2 ^ bits - 1 + Nat.ofDigits 128 (digits (more ++ [last])),
        more.length + 2) := by
  have hroom' : (more ++ [last]).length ≤ maxContinuation := by
    rw [List.length_append]
    exact hroom
  have hdigits := (continues_digits hmore hlast).decode_append hroom' rest
  rw [List.append_assoc, List.singleton_append] at hdigits
  rw [hsplit, decode_cons, if_neg (by omega), hdigits, Option.map_some,
    List.length_append]
  rfl

/-- What is read takes at most five octets, all of them there, and is not
large. -/
theorem bounds_of_decode
    (h : decode bits (octets.drop position) = some (n, taken)) :
    taken ≤ 5 ∧ position + taken ≤ octets.length
      ∧ n ≤ 2 ^ bits - 1 + (2 ^ 28 - 1) := by
  cases hahead : octets.drop position with
  | nil =>
      rw [hahead] at h
      cases h
  | cons first others =>
      have hlength := congrArg List.length hahead
      rw [List.length_drop, List.length_cons] at hlength
      rw [hahead] at h
      obtain ⟨front, rest, heq, rfl, hspells⟩ := spells_of_decode h
      have htaken := congrArg List.length heq
      rw [List.length_cons, List.length_append] at htaken
      cases hspells with
      | short hn hfirst =>
          rw [List.length_singleton] at htaken ⊢
          omega
      | @long first octets m hfirst hrest hroom =>
          have hlt : m < 128 ^ 4 := Nat.lt_of_lt_of_le hrest.lt
            (Nat.pow_le_pow_right (by decide) hroom)
          rw [List.length_cons] at htaken ⊢
          omega

-- ======================================================= what is written

/-- A number that needs more digits than there is room for is not read. -/
theorem decodeContinuation_encode_of_le {room : Nat} (h : 128 ^ room ≤ n)
    (rest : List UInt8) :
    decodeContinuation room (encodeContinuation n ++ rest) = none := by
  induction room generalizing n with
  | zero => rfl
  | succ room ih =>
      have hpos : 0 < 128 ^ room := Nat.pow_pos (by decide)
      rw [Nat.pow_succ] at h
      have hmore : ¬ n < 128 := by omega
      have hoctet : (UInt8.ofNat (n % 128 + 128)).toNat = n % 128 + 128 := by
        rw [UInt8.toNat_ofNat']
        omega
      have hrest : 128 ^ room ≤ n / 128 :=
        (Nat.le_div_iff_mul_le (by decide)).mpr h
      unfold encodeContinuation
      rw [if_neg hmore, List.cons_append, decodeContinuation, hoctet,
        if_neg (by omega), ih hrest]
      rfl

/-- The shortest encoding of a number is read as that number if it is not too
large, and not read otherwise. -/
theorem decode_encode_eq {high : Nat} (hhigh : high % 2 ^ bits = 0)
    (hroom : high + 2 ^ bits ≤ 256) (n : Nat) (rest : List UInt8) :
    decode bits (encode bits high n ++ rest)
      = if n ≤ 2 ^ bits - 1 + (2 ^ 28 - 1)
        then some (n, (encode bits high n).length) else none := by
  have hpos := Nat.two_pow_pos bits
  have hlargest : 128 ^ maxContinuation = 2 ^ 28 := rfl
  split
  case isTrue hle => exact decode_encode hhigh hroom (by omega) rest
  case isFalse hbeyond =>
    have hfull : (UInt8.ofNat (high + (2 ^ bits - 1))).toNat % 2 ^ bits
        = 2 ^ bits - 1 := by
      have hoctet : (UInt8.ofNat (high + (2 ^ bits - 1))).toNat
          = high + (2 ^ bits - 1) := by
        rw [UInt8.toNat_ofNat']
        omega
      rw [hoctet, Nat.add_mod, hhigh, Nat.zero_add, Nat.mod_mod,
        Nat.mod_eq_of_lt (by omega)]
    have hnone := @decodeContinuation_encode_of_le (n - (2 ^ bits - 1))
      maxContinuation (by omega) rest
    rw [encode_eq, if_neg (by omega), List.cons_append, decode_cons, hfull,
      if_neg (Nat.lt_irrefl _), hnone]
    rfl

-- ============================================================== the result

/-- Integers are read up to four octets behind the first one. At every
position of a block one is read if and only if there is an octet and either
the low bits of it are not all ones or one of the next four octets has a clear
top bit. It is the number in these low bits, or the all-ones pattern and the
digits up to that octet. It ends right behind them, within five octets and
within the block, and its value is bounded; so reading it in words overflows
nowhere. The shortest encoding of a number, whatever the high bits of its first
octet and whatever follows, is read as that number up to the same bound, and
is turned down beyond. -/
theorem decode_within_four (hbits : bits ≤ 8) (octets : List UInt8)
    (position : Nat) :
    ((decode bits (octets.drop position)).isSome
        ↔ ∃ first, octets[position]? = some first
          ∧ (first.toNat % 2 ^ bits < 2 ^ bits - 1
            ∨ ∃ octet ∈ (octets.drop (position + 1)).take 4,
              octet.toNat < 128))
      ∧ (∀ first, octets[position]? = some first →
          first.toNat % 2 ^ bits < 2 ^ bits - 1 →
          decode bits (octets.drop position)
            = some (first.toNat % 2 ^ bits, 1))
      ∧ (∀ first more last rest,
          octets.drop position = first :: (more ++ last :: rest) →
          2 ^ bits - 1 ≤ first.toNat % 2 ^ bits → more.length < 4 →
          (∀ octet ∈ more, 128 ≤ octet.toNat) → last.toNat < 128 →
          decode bits (octets.drop position)
            = some (2 ^ bits - 1 + Nat.ofDigits 128 (digits (more ++ [last])),
              more.length + 2))
      ∧ (∀ n taken, decode bits (octets.drop position) = some (n, taken) →
          taken ≤ 5 ∧ position + taken ≤ octets.length
            ∧ n ≤ 2 ^ bits - 1 + (2 ^ 28 - 1))
      ∧ (octets.length < 2 ^ 64 → look bits octets position
          = .ok (answer position (decode bits (octets.drop position))))
      ∧ ∀ high n front rest, high % 2 ^ bits = 0 → high + 2 ^ bits ≤ 256 →
          decode bits ((front ++ encode bits high n ++ rest).drop front.length)
            = if n ≤ 2 ^ bits - 1 + (2 ^ 28 - 1)
              then some (n, (encode bits high n).length) else none := by
  refine ⟨decode_isSome_iff, ?_, ?_, ?_, ?_, ?_⟩
  · intro first hfirst hlow
    exact decode_short hfirst hlow
  · intro first more last rest hsplit hfull hroom hmore hlast
    exact decode_long hsplit hfull hroom hmore hlast
  · intro n taken h
    exact bounds_of_decode h
  · intro hsize
    exact look_eq hbits hsize position
  · intro high n front rest hhigh hroom
    rw [List.append_assoc, List.drop_left' rfl]
    exact decode_encode_eq hhigh hroom n rest

/-- The number 1337 behind an octet with other high bits, and the smallest
number that is turned down. -/
theorem decode_within_four_1337 :
    decode 5 ([0, 0xff, 0x9a, 0x0a, 7].drop 1) = some (1337, 3)
      ∧ look 5 [0, 0xff, 0x9a, 0x0a, 7] 1 = .ok (.ok (1337, 4))
      ∧ decode 5 (([9] ++ encode 5 0xe0 (2 ^ 28 + 31) ++ [7]).drop 1)
        = none := by
  obtain ⟨-, -, hlong, -, hlook, -⟩ :=
    @decode_within_four 5 (by decide) [0, 0xff, 0x9a, 0x0a, 7] 1
  obtain ⟨-, -, -, -, -, hencoded⟩ := @decode_within_four 5 (by decide) [] 0
  have hread : decode 5 ([0, 0xff, 0x9a, 0x0a, 7].drop 1) = some (1337, 3) :=
    hlong 0xff [0x9a] 0x0a [7] rfl (by decide) (by decide)
      (List.forall_mem_singleton.mpr (by decide)) (by decide)
  refine ⟨hread, ?_, ?_⟩
  · rw [hlook (by decide), hread]
    rfl
  · exact hencoded 0xe0 (2 ^ 28 + 31) [9] [7] (by decide) (by decide)

end Integer

end Http2.Hpack
