/-
The same frame below other bounds.

Reading goes through four stages (`Stages`): there must be room for the
header, the header must keep its rules, there must be room for the payload,
and the payload must keep its rules. The bound has a part in the first and
in the third stage alone. So one outcome tells those below other bounds
(`Stages.settled`): a frame that is found below one bound is found below all
that it does not reach across and waited for below the others, and octets
that are turned down stay so when the bound is raised. Each way of reading is
such a run of stages (`read_truncated`).
-/
import Http2.Proofs.Frame.Locality

namespace Http2

variable {α : Type}

-- ================================================================ stages

/-- Reading at an offset, by stages. What the header and the payload come to
is the same below every bound. -/
structure Stages (α : Type) where
  offset : Nat
  header : Except Error Unit
  stop : Nat
  payload : Except Error α
  holdsHeader : offset + Header.width ≤ stop

/-- The stages in their order, below a bound. -/
def Stages.run (s : Stages α) (size maxLimit : Nat) : Except Error α := do
  requireRoom size s.offset maxLimit Header.width
  s.header
  requireEnd s.stop maxLimit
  s.payload

/-- What the outcome below one bound tells about the others. A frame that is
found is the same below every bound that it does not reach across. Below the
others it is waited for, and until its header is there, for the end of the
header. Whatever is malformed is so in the same way below every larger
bound. -/
structure Settled (read : Nat → Except Error α) (limit : α → Nat)
    (size offset maxLimit : Nat) : Prop where
  found : ∀ a, read maxLimit = .ok a →
    (∀ m, limit a ≤ m → m ≤ size → read m = .ok a)
      ∧ (∀ m, offset + Header.width ≤ m → m < limit a →
        read m = .error (.bufferOverrun (limit a) m))
      ∧ (∀ m, m < offset + Header.width →
        read m = .error (.bufferOverrun (offset + Header.width) m))
      ∧ ∀ m, size < m → read m = .error (.bufferOverrun m size)
  malformed : ∀ type reason,
    read maxLimit = .error (.malformedFrame type reason) →
    ∀ m, maxLimit ≤ m → m ≤ size →
      read m = .error (.malformedFrame type reason)

namespace Stages

variable {s : Stages α} {size maxLimit m : Nat} {a : α}

/-- A run that yields something has gone through all stages. -/
theorem run_eq_ok_iff :
    s.run size maxLimit = .ok a
      ↔ requireRoom size s.offset maxLimit Header.width = .ok ()
        ∧ s.header = .ok () ∧ s.stop ≤ maxLimit ∧ s.payload = .ok a := by
  rw [run]
  constructor
  · intro h
    obtain ⟨_, hroom, h⟩ := bind_eq_ok_iff.mp h
    obtain ⟨_, hheader, h⟩ := bind_eq_ok_iff.mp h
    obtain ⟨_, hend, hpayload⟩ := bind_eq_ok_iff.mp h
    exact ⟨hroom, hheader, requireEnd_eq_ok_iff.mp hend, hpayload⟩
  · rintro ⟨hroom, hheader, hend, hpayload⟩
    rw [hroom, hheader, requireEnd_of_le hend]
    exact hpayload

/-- With room for the header, there is still the rest to be read. -/
theorem run_of_room
    (hroom : requireRoom size s.offset maxLimit Header.width = .ok ()) :
    s.run size maxLimit
      = s.header >>= fun _ => requireEnd s.stop maxLimit >>= fun _ =>
        s.payload := by
  rw [run, hroom]
  rfl

/-- A run that finds something malformed has had room for the header. -/
theorem room_of_run_malformed {type : FrameType} {reason : Malformed}
    (h : s.run size maxLimit = .error (.malformedFrame type reason)) :
    requireRoom size s.offset maxLimit Header.width = .ok () := by
  rw [run] at h
  rw [requireRoom_eq] at h ⊢
  split at h
  case isFalse => cases h
  case isTrue =>
    split at h
    case isFalse => cases h
    case isTrue hsize hspace =>
      rw [if_pos hsize, if_pos hspace]
      cases hend : requireEnd (s.offset + Header.width) maxLimit with
      | ok u => rfl
      | error e =>
          obtain ⟨-, rfl⟩ := requireEnd_eq_error_iff.mp hend
          rw [hend] at h
          cases h

/-- One outcome tells those below the other bounds. -/
theorem settled (s : Stages α) {limit : α → Nat}
    (hlimit : ∀ a, s.payload = .ok a → limit a = s.stop) (size maxLimit : Nat) :
    Settled (s.run size) limit size s.offset maxLimit where
  found := by
    intro a hok
    obtain ⟨hroom, hheader, -, hpayload⟩ := run_eq_ok_iff.mp hok
    obtain ⟨hmax, hspace, hle⟩ := requireRoom_eq_ok_iff.mp hroom
    have hholds := s.holdsHeader
    rw [hlimit a hpayload]
    refine ⟨?whole, ?payload, ?header, ?outside⟩
    case whole =>
      intro m hstop hm
      exact run_eq_ok_iff.mpr ⟨requireRoom_eq_ok_iff.mpr
        ⟨hm, hspace, Nat.le_trans hholds hstop⟩, hheader, hstop, hpayload⟩
    case payload =>
      intro m hm hcut
      -- a frame that is found ends inside the buffer, and `m` before it
      have hm' : m ≤ size := by
        obtain ⟨-, -, hend, -⟩ := run_eq_ok_iff.mp hok
        omega
      rw [run_of_room (requireRoom_eq_ok_iff.mpr ⟨hm', hspace, hm⟩), hheader,
        requireEnd_of_lt hcut]
      rfl
    case header =>
      intro m hcut
      have hm : m ≤ size := by omega
      rw [run, requireRoom_eq, if_pos hm, if_pos hspace, requireEnd_of_lt hcut]
      rfl
    case outside =>
      intro m hm
      rw [run, requireRoom_eq, if_neg (Nat.not_le_of_lt hm)]
      rfl
  malformed := by
    intro type reason hno m hle hm
    have hroom := room_of_run_malformed hno
    obtain ⟨-, hspace, hfits⟩ := requireRoom_eq_ok_iff.mp hroom
    rw [run_of_room hroom] at hno
    rw [run_of_room (requireRoom_eq_ok_iff.mpr
      ⟨hm, hspace, Nat.le_trans hfits hle⟩)]
    cases hheader : s.header with
    | error e =>
        rw [hheader] at hno
        exact hno
    | ok u =>
        rw [hheader] at hno
        cases hend : requireEnd s.stop maxLimit with
        | error e =>
            obtain ⟨-, rfl⟩ := requireEnd_eq_error_iff.mp hend
            rw [hend] at hno
            cases hno
        | ok u =>
            rw [hend] at hno
            have hstop := requireEnd_eq_ok_iff.mp hend
            rw [requireEnd_of_le (Nat.le_trans hstop hle)]
            exact hno

end Stages

-- ========================================================= ways of reading

namespace RawFrame

open Http2.Frame

variable (buffer : Buffer) (offset : Nat)

/-- Room for the header is all that locating a frame asks for. -/
theorem locate_eq_unchecked (maxLimit : Nat) :
    locate buffer offset maxLimit
      = requireRoom buffer.size offset maxLimit Header.width >>= fun _ =>
        .ok (unchecked buffer offset).raw := by
  rw [locate_eq_runAll, ← requireRoom_eq_runAll]
  rfl

/-- Without a look at the payload, neither header nor payload can break a
rule. -/
def stages : Stages RawFrame where
  offset := offset
  header := .ok ()
  stop := (unchecked buffer offset).raw.limit
  payload := .ok (unchecked buffer offset).raw
  holdsHeader := add_le_limit buffer offset

theorem read_eq_run :
    read buffer offset = (stages buffer offset).run buffer.size := by
  funext maxLimit
  rw [read, locate_eq_unchecked, bind_assoc]
  rfl

theorem settled_read (maxLimit : Nat) :
    Settled (read buffer offset) limit buffer.size offset maxLimit := by
  rw [read_eq_run]
  apply (stages buffer offset).settled
  intro f hf
  cases hf
  rfl

end RawFrame

namespace Frame

open RawFrame

variable (buffer : Buffer) (offset : Nat)

/-- The stages of a frame whose header, before it has to keep the rules of
its type, is put to a check of its own. -/
def stages (check : Except Error Unit) : Stages Frame where
  offset := offset
  header := do
    check
    (unchecked buffer offset).raw.requireScope
    (unchecked buffer offset).raw.requireLength
  stop := (unchecked buffer offset).raw.limit
  payload := do
    let payload ← (unchecked buffer offset).raw.readPayload
    return ⟨(unchecked buffer offset).raw, payload⟩
  holdsHeader := add_le_limit buffer offset

theorem run_stages (check : Except Error Unit) (maxLimit : Nat) :
    (stages buffer offset check).run buffer.size maxLimit
      = RawFrame.locate buffer offset maxLimit >>= fun raw =>
        check >>= fun _ => ofRaw raw maxLimit := by
  rw [locate_eq_unchecked, bind_assoc, Stages.run]
  simp only [stages, ofRaw, bind_assoc]
  rfl

theorem settled_run (check : Except Error Unit) (maxLimit : Nat) :
    Settled ((stages buffer offset check).run buffer.size) (·.raw.limit)
      buffer.size offset maxLimit := by
  apply (stages buffer offset check).settled
  intro f hf
  obtain ⟨payload, -, hf⟩ := bind_eq_ok_iff.mp hf
  cases hf
  rfl

theorem read_eq_run :
    read buffer offset = (stages buffer offset (.ok ())).run buffer.size := by
  funext maxLimit
  exact (run_stages buffer offset (.ok ()) maxLimit).symm

/-- The type that is asked for is one more check on the header. -/
theorem readAs_eq_run (type : FrameType) :
    readAs type buffer offset
      = (stages buffer offset
        ((unchecked buffer offset).raw.requireType type)).run buffer.size := by
  funext maxLimit
  rw [run_stages, readAs, locate_eq_unchecked, bind_assoc, bind_assoc]
  rfl

-- =============================================================== the result

/-- Raising or lowering the bound, whichever way the frame is read. A frame
that is found is found below every bound that it does not reach across and
waited for below the others. What is turned down stays so below every
larger bound. -/
theorem read_truncated (maxLimit : Nat) :
    Settled (RawFrame.read buffer offset) RawFrame.limit buffer.size offset
        maxLimit
      ∧ Settled (Frame.read buffer offset) (·.raw.limit) buffer.size offset
        maxLimit
      ∧ ∀ type, Settled (Frame.readAs type buffer offset) (·.raw.limit)
        buffer.size offset maxLimit := by
  refine ⟨settled_read buffer offset maxLimit, ?any, ?given⟩
  case any =>
    rw [read_eq_run]
    exact settled_run ..
  case given =>
    intro type
    rw [readAs_eq_run]
    exact settled_run ..

/-- A padded PUSH_PROMISE frame with an octet behind it, and a PING frame
whose length is malformed from the end of its header on. -/
theorem read_truncated_pushPromise :
    (∃ f, readAs .pushPromise
          (.ofList [0, 0, 6, 5, 8, 0, 0, 0, 1, 1, 0, 0, 0, 2, 0, 7]) 0 15
        = .ok f
      ∧ readAs .pushPromise
          (.ofList [0, 0, 6, 5, 8, 0, 0, 0, 1, 1, 0, 0, 0, 2, 0, 7]) 0 16
        = .ok f
      ∧ readAs .pushPromise
          (.ofList [0, 0, 6, 5, 8, 0, 0, 0, 1, 1, 0, 0, 0, 2, 0, 7]) 0 14
        = .error (.bufferOverrun 15 14)
      ∧ readAs .pushPromise
          (.ofList [0, 0, 6, 5, 8, 0, 0, 0, 1, 1, 0, 0, 0, 2, 0, 7]) 0 8
        = .error (.bufferOverrun 9 8))
    ∧ read (.ofList [0, 0, 7, 6, 0, 0, 0, 0, 0, 1, 2]) 0 9
      = .error (.malformedFrame .ping (.invalidLength 7))
    ∧ read (.ofList [0, 0, 7, 6, 0, 0, 0, 0, 0, 1, 2]) 0 11
      = .error (.malformedFrame .ping (.invalidLength 7)) := by
  refine ⟨?promise, ?ping⟩
  case promise =>
    obtain ⟨-, -, hgiven⟩ := read_truncated
      (.ofList [0, 0, 6, 5, 8, 0, 0, 0, 1, 1, 0, 0, 0, 2, 0, 7]) 0 15
    have hread := readAs_eq_of_isOk (show (readAs .pushPromise
      (.ofList [0, 0, 6, 5, 8, 0, 0, 0, 1, 1, 0, 0, 0, 2, 0, 7]) 0 15).isOk by
        decide +kernel)
    have hlimit : (unchecked
        (.ofList [0, 0, 6, 5, 8, 0, 0, 0, 1, 1, 0, 0, 0, 2, 0, 7])
        0).raw.limit = 15 := by
      decide +kernel
    obtain ⟨hwhole, hcut, hhead, -⟩ := (hgiven .pushPromise).found _ hread
    rw [hlimit] at hwhole hcut
    exact ⟨_, hread, hwhole 16 (by decide) (by decide),
      hcut 14 (by decide) (by decide), hhead 8 (by decide)⟩
  case ping =>
    obtain ⟨-, hany, -⟩ := read_truncated
      (.ofList [0, 0, 7, 6, 0, 0, 0, 0, 0, 1, 2]) 0 9
    have hno : read (.ofList [0, 0, 7, 6, 0, 0, 0, 0, 0, 1, 2]) 0 9
        = .error (.malformedFrame .ping (.invalidLength 7)) := by
      rfl
    exact ⟨hno, hany.malformed _ _ hno 11 (by decide) (by decide)⟩

end Frame

end Http2
