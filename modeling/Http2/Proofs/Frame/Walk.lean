/-
The runs of a walk.

A walk takes frames one behind the other (`Takes`) until it stops: at the
end of the buffer, or in front of a frame that is refused (`Stops`).
Everything that can be asked about a walk as a whole follows from its run
(`exists_takes`, `Run`).

A run is carried over from a buffer to any other buffer in which it
stands (`takes_shift`), with every frame moved by the distance. That
covers a buffer that grows and one whose first frames are cut off; in
the latter case the end is carried over too (`toList_shift`).
-/
import Mathlib.Data.List.Forall2
import Http2.Frame.Walk
import Http2.Proofs.Frame.Relocation

namespace Http2.Frame.Walk

-- ================================================================= runs

/-- From `w` on the walk takes these frames and then stands at the walk
behind them. -/
inductive Takes : Walk → List Frame → Walk → Prop
  | nothing (w : Walk) : Takes w [] w
  | frame {w next stop : Walk} {f : Frame} {fs : List Frame}
      (h : w.next? = some (.ok f, next)) (rest : Takes next fs stop) :
      Takes w (f :: fs) stop

/-- The walk ends where it stands: at the end of the buffer, or with an
error. -/
inductive Stops (w : Walk) : Option Error → Prop
  | done (h : w.next? = none) : Stops w none
  | refused {e : Error}
      (h : w.next? = some (.error e, { w with failed := true })) :
      Stops w (some e)

/-- The walk takes these frames and then ends at an offset. -/
structure Run (w : Walk) (frames : List Frame) (stop : Nat)
    (failure : Option Error) : Prop where
  toList_eq : w.toList = frames.map .ok ++ failure.toList.map .error
  offset_last : w.last.offset = stop

theorem toList_of_next?_none {w : Walk} (h : w.next? = none) :
    w.toList = [] := by
  rw [toList, steps]
  split
  case h_1 => rfl
  case h_2 item after hnext =>
    rw [h] at hnext
    cases hnext

theorem steps_of_next?_some {w after : Walk} {item : Except Error Frame}
    (h : w.next? = some (item, after)) :
    w.steps = (item, after) :: after.steps := by
  rw [steps]
  split
  case h_1 hnext =>
    rw [h] at hnext
    cases hnext
  case h_2 hnext =>
    rw [h] at hnext
    cases hnext
    rfl

theorem last_of_next?_none {w : Walk} (h : w.next? = none) : w.last = w := by
  have hsteps : w.steps = [] := List.map_eq_nil_iff.mp (toList_of_next?_none h)
  rw [last, hsteps]
  rfl

theorem last_of_next?_some {w after : Walk} {item : Except Error Frame}
    (h : w.next? = some (item, after)) : w.last = after.last := by
  rw [last, last, steps_of_next?_some h]
  cases hsteps : after.steps with
  | nil => rfl
  | cons s rest =>
      rw [List.getLast?_cons_cons,
        List.getLast?_eq_some_getLast (List.cons_ne_nil s rest)]
      rfl

theorem next?_of_failed {w : Walk} (h : w.failed = true) : w.next? = none := by
  rw [next?, h]
  rfl

/-- What a walk yields from where it ends. -/
theorem Stops.run {w : Walk} {failure : Option Error} (h : w.Stops failure) :
    w.Run [] w.offset failure := by
  cases h with
  | done h =>
      exact ⟨toList_of_next?_none h, congrArg offset (last_of_next?_none h)⟩
  | refused h =>
      have hend := next?_of_failed (w := { w with failed := true }) rfl
      refine ⟨?_, ?_⟩
      · rw [toList, steps_of_next?_some h, List.map_cons]
        exact congrArg _ (toList_of_next?_none hend)
      · rw [last_of_next?_some h, last_of_next?_none hend]

/-- A frame taken comes in front of everything behind it. -/
theorem Run.cons {w next : Walk} {f : Frame} {fs : List Frame} {stop : Nat}
    {failure : Option Error} (h : w.next? = some (.ok f, next))
    (hrun : next.Run fs stop failure) : w.Run (f :: fs) stop failure where
  toList_eq := by
    rw [toList, steps_of_next?_some h, List.map_cons]
    exact congrArg _ hrun.toList_eq
  offset_last := by
    rw [last_of_next?_some h, hrun.offset_last]

/-- A walk that takes frames and then ends has just that run. -/
theorem Takes.run {w stop : Walk} {fs : List Frame} {failure : Option Error}
    (h : w.Takes fs stop) (hstop : stop.Stops failure) :
    w.Run fs stop.offset failure := by
  induction h with
  | nothing w => exact hstop.run
  | frame h rest ih => exact .cons h (ih hstop)

/-- What a walk yields when some of its frames are taken already. -/
theorem Takes.toList_eq {w mid : Walk} {fs : List Frame}
    (h : w.Takes fs mid) : w.toList = fs.map .ok ++ mid.toList := by
  induction h with
  | nothing w => rfl
  | frame h rest ih =>
      rw [toList, steps_of_next?_some h, List.map_cons, List.map_cons,
        List.cons_append, ← ih]
      rfl

/-- One more frame is taken. -/
theorem Takes.snoc {w mid stop : Walk} {fs : List Frame} {f : Frame}
    (h : w.Takes fs mid) (hnext : mid.next? = some (.ok f, stop)) :
    w.Takes (fs ++ [f]) stop := by
  induction h with
  | nothing w => exact .frame hnext (.nothing stop)
  | frame h rest ih => exact .frame h (ih hnext)

/-- Every walk ends. -/
theorem exists_takes (w : Walk) :
    ∃ fs stop failure, w.Takes fs stop ∧ stop.Stops failure := by
  fun_induction steps w with
  | case1 w hnext => exact ⟨[], w, none, .nothing w, .done hnext⟩
  | case2 w item after hnext ih =>
      cases item with
      | ok f =>
          obtain ⟨fs, stop, failure, htakes, hstop⟩ := ih
          exact ⟨f :: fs, stop, failure, .frame hnext htakes, hstop⟩
      | error e =>
          have hafter : after = { w with failed := true } := by
            unfold next? at hnext
            split at hnext
            · cases hnext
            · split at hnext <;> cases hnext
              rfl
          rw [hafter] at hnext
          exact ⟨[], w, some e, .nothing w, .refused hnext⟩

/-- The error that a walk ends with, if it ends with one. -/
def failure? (w : Walk) : Option Error :=
  match w.toList.getLast? with
  | some (.error e) => some e
  | _ => none

/-- The frames that a walk yields. -/
def frames (w : Walk) : List Frame := w.toList.filterMap Except.toOption

theorem Run.failure?_eq {w : Walk} {fs : List Frame} {stop : Nat}
    {failure : Option Error} (h : w.Run fs stop failure) :
    w.failure? = failure := by
  rw [failure?, h.toList_eq]
  cases failure with
  | none =>
      rw [Option.toList_none, List.map_nil, List.append_nil, List.getLast?_map]
      cases fs.getLast? <;> rfl
  | some e => simp

theorem Run.frames_eq {w : Walk} {fs : List Frame} {stop : Nat}
    {failure : Option Error} (h : w.Run fs stop failure) : w.frames = fs := by
  have hok : (Except.toOption : Except Error Frame → Option Frame)
      ∘ Except.ok = some := rfl
  rw [frames, h.toList_eq, List.filterMap_append, List.filterMap_map, hok,
    List.filterMap_some]
  cases failure <;> simp [Except.toOption]

-- =============================================================== reading

/-- A walk that goes on has not failed and has octets ahead of it. -/
theorem room_of_next?_some {w next : Walk} {item : Except Error Frame}
    (h : w.next? = some (item, next)) :
    w.failed = false ∧ w.offset < w.buffer.size := by
  unfold next? at h
  split at h
  case isTrue => cases h
  case isFalse hgo =>
    rw [Bool.or_eq_true, decide_eq_true_eq, not_or, Bool.not_eq_true] at hgo
    exact ⟨hgo.1, Nat.lt_of_not_le hgo.2⟩

/-- A walk that has octets ahead of it goes on with what it reads. -/
theorem next?_of_room {w : Walk} (hfailed : w.failed = false)
    (hroom : w.offset < w.buffer.size) :
    w.next? = match read w.buffer w.offset w.buffer.size with
      | .ok f => some (.ok f, { w with offset := f.raw.limit })
      | .error e => some (.error e, { w with failed := true }) := by
  have hgo : (w.failed || decide (w.buffer.size ≤ w.offset)) = false := by
    rw [hfailed, Bool.false_or, decide_eq_false_iff_not]
    omega
  rw [next?, hgo]
  rfl

/-- A walk that has not failed ends at the end of the buffer. -/
theorem next?_eq_none_iff {w : Walk} (hfailed : w.failed = false) :
    w.next? = none ↔ w.buffer.size ≤ w.offset := by
  constructor
  · intro hnone
    by_cases hroom : w.offset < w.buffer.size
    case neg => exact Nat.le_of_not_lt hroom
    case pos =>
      rw [next?_of_room hfailed hroom] at hnone
      split at hnone <;> cases hnone
  · intro hend
    rw [next?, decide_eq_true hend, Bool.or_true]
    rfl

theorem read_of_next?_ok {w next : Walk} {f : Frame}
    (h : w.next? = some (.ok f, next)) :
    read w.buffer w.offset w.buffer.size = .ok f
      ∧ next = { w with offset := f.raw.limit } := by
  obtain ⟨hfailed, hroom⟩ := room_of_next?_some h
  rw [next?_of_room hfailed hroom] at h
  split at h <;> cases h
  case h_1 hread => exact ⟨hread, rfl⟩

theorem read_of_next?_error {w next : Walk} {e : Error}
    (h : w.next? = some (.error e, next)) :
    read w.buffer w.offset w.buffer.size = .error e := by
  obtain ⟨hfailed, hroom⟩ := room_of_next?_some h
  rw [next?_of_room hfailed hroom] at h
  split at h <;> cases h
  case h_2 hread => exact hread

/-- A walk never leaves its buffer. -/
theorem Takes.offset_le {w stop : Walk} {fs : List Frame} (h : w.Takes fs stop)
    (hw : w.offset ≤ w.buffer.size) : stop.offset ≤ w.buffer.size := by
  induction h with
  | nothing w => exact hw
  | frame hnext rest ih =>
      obtain ⟨hread, rfl⟩ := read_of_next?_ok hnext
      exact ih (limit_le_of_read hread).1

-- ==================================================== carrying a run over

variable {p b : Buffer} {distance offset : Nat}

/-- A frame that is taken in a part of a buffer is taken in the
buffer. -/
theorem next?_shift (h : p.StandsIn b distance)
    (hspace : p.size + distance + 9 ≤ 2 ^ 64) {f : Frame} {next : Walk}
    (hnext : next? ⟨p, offset, false⟩ = some (.ok f, next)) :
    next = ⟨p, f.raw.limit, false⟩
      ∧ ∃ g, next? ⟨b, offset + distance, false⟩
          = some (.ok g, ⟨b, f.raw.limit + distance, false⟩)
        ∧ Moved distance f g := by
  obtain ⟨hread, rfl⟩ := read_of_next?_ok hnext
  have hroom : offset < p.size := (room_of_next?_some hnext).2
  have hsize := h.size_le
  have hitem := read_shift h (Nat.le_refl p.size)
    (show offset + distance + 9 < 2 ^ 64 by omega)
  rw [show read p offset p.size = .ok f from hread] at hitem
  generalize hthere : read b (offset + distance) (p.size + distance)
    = outcome at hitem
  cases hitem with
  | @ok _ g hmoved =>
      have hwhole := (read_of_le (show p.size + distance ≤ b.size by omega)
        (Nat.le_refl b.size)
        (show offset + distance + 9 < 2 ^ 64 by omega)).1 g hthere
      refine ⟨rfl, g, ?_, hmoved⟩
      rw [next?_of_room rfl (show offset + distance < b.size by omega)]
      simp only [hwhole, hmoved.limit]

/-- The frames that are taken in a part of a buffer are taken in the
buffer. -/
theorem takes_shift (h : p.StandsIn b distance)
    (hspace : p.size + distance + 9 ≤ 2 ^ 64) {fs : List Frame} {w : Walk}
    (htakes : Takes ⟨p, offset, false⟩ fs w) :
    ∃ o gs, w = ⟨p, o, false⟩
      ∧ Takes ⟨b, offset + distance, false⟩ gs ⟨b, o + distance, false⟩
      ∧ List.Forall₂ (Moved distance) fs gs := by
  generalize hstart : (⟨p, offset, false⟩ : Walk) = start at htakes
  induction htakes generalizing offset with
  | nothing w =>
      subst hstart
      exact ⟨offset, [], rfl, .nothing _, .nil⟩
  | frame hnext rest ih =>
      subst hstart
      obtain ⟨rfl, g, hthere, hmoved⟩ := next?_shift h hspace hnext
      obtain ⟨o, gs, hstop, htakes, hall⟩ := ih rfl
      exact ⟨o, g :: gs, hstop, .frame hthere htakes, .cons hmoved hall⟩

/-- An error that ends the walk over a part of a buffer is met in the
buffer, if the bound is kept. -/
theorem read_shift_of_next?_error (h : p.StandsIn b distance)
    (hspace : p.size + distance + 9 ≤ 2 ^ 64) {e : Error} {next : Walk}
    (hnext : next? ⟨p, offset, false⟩ = some (.error e, next)) :
    offset < p.size ∧ read b (offset + distance) (p.size + distance)
      = .error (e.shift distance) := by
  have hroom : offset < p.size := (room_of_next?_some hnext).2
  have hread : read p offset p.size = .error e := read_of_next?_error hnext
  have hitem := read_shift h (Nat.le_refl p.size)
    (show offset + distance + 9 < 2 ^ 64 by omega)
  rw [hread] at hitem
  refine ⟨hroom, ?_⟩
  generalize read b (offset + distance) (p.size + distance) = outcome at hitem
  cases hitem
  rfl

/-- The walk over the last octets of a buffer yields what the walk over
the buffer yields from there on. -/
theorem toList_shift (h : p.StandsIn b distance)
    (hend : p.size + distance = b.size) (hspace : b.size + 9 ≤ 2 ^ 64) :
    List.Forall₂ (ItemMoved distance) (toList ⟨p, offset, false⟩)
      (toList ⟨b, offset + distance, false⟩) := by
  obtain ⟨fs, w, failure, htakes, hstop⟩ := exists_takes ⟨p, offset, false⟩
  obtain ⟨o, gs, rfl, hthere, hall⟩ := takes_shift h (by omega) htakes
  have hstops : Stops ⟨b, o + distance, false⟩
      (failure.map (·.shift distance)) := by
    cases hstop with
    | done hnone =>
        have hout : p.size ≤ o := (next?_eq_none_iff rfl).mp hnone
        refine .done ((next?_eq_none_iff rfl).mpr ?_)
        show b.size ≤ o + distance
        omega
    | refused hnext =>
        obtain ⟨hroom, hread⟩ := read_shift_of_next?_error h (by omega)
          hnext
        rw [hend] at hread
        refine .refused ?_
        rw [next?_of_room rfl (show o + distance < b.size by omega)]
        simp only [hread]
  rw [(htakes.run hstop).toList_eq, (hthere.run hstops).toList_eq]
  refine List.rel_append ?_ ?_
  · rw [List.forall₂_map_left_iff, List.forall₂_map_right_iff]
    exact hall.imp fun _ _ => .ok
  · cases failure with
    | none => exact .nil
    | some e => exact .cons (.error e) .nil

end Http2.Frame.Walk
