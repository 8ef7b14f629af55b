/-
Walking over frames that lie back to back in a buffer.

A walk stands where the next frame starts, which is also how many octets
have been read. It ends at the end of the buffer or at the first frame
that is refused, and then stays where that frame starts.
-/
import Http2.Frame

namespace Http2.Frame

/-- Accepted frames keep the offset they are asked for. -/
theorem offset_of_read {buffer : Buffer} {offset maxLimit : Nat} {f : Frame}
    (h : read buffer offset maxLimit = .ok f) : f.raw.offset = offset := by
  unfold read at h
  cases hp : RawFrame.locate buffer offset maxLimit with
  | error e => simp [hp, bind, Except.bind] at h
  | ok raw =>
    have hraw : raw.offset = offset := by
      unfold RawFrame.locate at hp
      cases hc : requireRoom buffer.size offset maxLimit Header.width with
      | error e => simp [hc, bind, Except.bind] at hp
      | ok u =>
        simp [hc, bind, Except.bind, pure, Except.pure] at hp
        rw [← hp]
    simp only [hp, bind, Except.bind, ofRaw] at h
    split at h
    · cases h
    · split at h
      · cases h
      · split at h
        · cases h
        · split at h
          · cases h
          · cases h
            exact hraw

/-- A walk over the frames of a buffer. -/
structure Walk where
  buffer : Buffer
  offset : Nat := 0
  failed : Bool := false

namespace Walk

/-- How much is still ahead. -/
def fuel (w : Walk) : Nat := if w.failed then 0 else w.buffer.size - w.offset

/-- The next frame, or the error that ends the walk; nothing at the
end. -/
def next? (w : Walk) : Option (Except Error Frame × Walk) :=
  if w.failed || w.buffer.size ≤ w.offset then none
  else match Frame.read w.buffer w.offset w.buffer.size with
    | .ok frame => some (.ok frame, { w with offset := frame.raw.limit })
    | .error e => some (.error e, { w with failed := true })

theorem fuel_of_next? {w after : Walk} {item : Except Error Frame}
    (h : w.next? = some (item, after)) : after.fuel < w.fuel := by
  unfold next? at h
  split at h
  · cases h
  · rename_i hgo
    simp only [Bool.or_eq_true, decide_eq_true_eq, not_or,
      Bool.not_eq_true] at hgo
    obtain ⟨hfailed, hroom⟩ := hgo
    split at h
    · rename_i frame hread
      have hoffset := offset_of_read hread
      cases h
      simp only [fuel, hfailed, RawFrame.limit, RawFrame.payloadStart,
        Header.width, hoffset, Bool.false_eq_true, if_false]
      omega
    · cases h
      simp only [fuel, hfailed, if_true, Bool.false_eq_true, if_false]
      omega

/-- Everything that a walk yields, each item with the walk behind it. -/
def steps (w : Walk) : List (Except Error Frame × Walk) :=
  match _h : w.next? with
  | none => []
  | some (item, after) => (item, after) :: after.steps
termination_by w.fuel
decreasing_by exact fuel_of_next? _h

/-- The frames and the error, if any, that a walk yields. -/
def toList (w : Walk) : List (Except Error Frame) := w.steps.map (·.1)

/-- Where a walk stands after all its steps. -/
def last (w : Walk) : Walk := (w.steps.getLast?.map (·.2)).getD w

end Walk

end Http2.Frame
