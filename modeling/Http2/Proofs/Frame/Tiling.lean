/-
The calls of a walk over a buffer.

A receiver calls for one item after the other and asks in between how much
is read. `afterCalls` is the walk behind a number of calls, and `item?` the
answer to the next one. Both are told by the run of the walk: the answers
are its items and then nothing (`item?_eq_getElem?`), and the walk stands at
the limit of the last frame it has taken (`Takes.offset_afterCalls`).

The frames of a run lie back to back (`Takes.frame_bounds`), and every one
of them has a header, so there are not many of them and the run ends. What
it ends with, if not with the buffer, is an error about the octets
(`aboutOctets_of_read_error`).
-/
import Http2.Proofs.Frame.Chunking

namespace Http2.Frame

-- ====================================================== what errors say

/-- An error that says something about octets: they end too early, or they
break a rule. That they are of another type than was asked for does not
count, nor does anything that is said about arguments. -/
inductive AboutOctets : Error → Prop
  | overrun (limit maxLimit : Nat) : AboutOctets (.bufferOverrun limit maxLimit)
  | malformed (type : FrameType) {reason : Malformed}
      (h : ∀ code, reason ≠ .unexpectedType code) :
      AboutOctets (.malformedFrame type reason)

/-- What is read up to a bound inside the buffer is turned down for what
its octets are. -/
theorem aboutOctets_of_read_error {buffer : Buffer} {offset maxLimit : Nat}
    {e : Error} (hmax : maxLimit ≤ buffer.size) (hspace : offset + 9 < 2 ^ 64)
    (h : read buffer offset maxLimit = .error e) : AboutOctets e := by
  have hverdict := verdict_read hmax hspace
  rw [h] at hverdict
  cases hverdict with
  | headerCutOff hcut => exact .overrun _ _
  | payloadCutOff hroom hheader hcut => exact .overrun _ _
  | headerMalformed hroom hheader =>
      obtain ⟨reason, heq, hasked⟩ := malformed_of_headerChecks hheader
      cases heq
      exact .malformed _ hasked
  | payloadMalformed hroom hheader hend hpayload =>
      obtain ⟨reason, heq, hasked⟩ := malformed_of_payloadChecks hpayload
      cases heq
      exact .malformed _ hasked

-- ======================================================= back to back

/-- Where frames that lie back to back from `start` on end. -/
def endFrom (start : Nat) (fs : List Frame) : Nat :=
  (fs.getLast?.map (·.raw.limit)).getD start

theorem endFrom_cons (start : Nat) (f : Frame) (fs : List Frame) :
    endFrom start (f :: fs) = endFrom f.raw.limit fs := by
  rw [endFrom, endFrom, List.getLast?_cons]
  cases fs.getLast? <;> rfl

/-- A frame that is read starts where it was looked for, has room for its
header, and ends inside the buffer. -/
theorem place_of_read {buffer : Buffer} {offset maxLimit : Nat} {f : Frame}
    (h : read buffer offset maxLimit = .ok f) :
    f.raw.buffer = buffer ∧ f.raw.offset = offset ∧ offset + 9 ≤ f.raw.limit
      ∧ f.raw.limit ≤ buffer.size := by
  obtain ⟨hlimit, hmax⟩ := limit_le_of_read h
  obtain ⟨-, rfl⟩ := read_eq_ok_iff.mp h
  exact ⟨rfl, rfl, Nat.le_add_right _ _, Nat.le_trans hlimit hmax⟩

namespace Walk

variable {w stop : Walk} {fs : List Frame} {failure : Option Error}

/-- Where a walk stands behind the frames that it takes. -/
theorem Takes.stop_eq (h : w.Takes fs stop) :
    stop = { w with offset := endFrom w.offset fs } := by
  induction h with
  | nothing w => rfl
  | frame hnext rest ih =>
      obtain ⟨-, rfl⟩ := read_of_next?_ok hnext
      rw [ih, endFrom_cons]

/-- Every frame that a walk takes starts where those in front of it end,
has room for its header, and ends inside the buffer. -/
theorem Takes.frame_bounds (h : w.Takes fs stop) {i : Nat} {f : Frame}
    (hi : fs[i]? = some f) :
    f.raw.buffer = w.buffer ∧ f.raw.offset = endFrom w.offset (fs.take i)
      ∧ f.raw.offset + 9 ≤ f.raw.limit ∧ f.raw.limit ≤ w.buffer.size := by
  induction h generalizing i with
  | nothing w => cases hi
  | frame hnext rest ih =>
      obtain ⟨hread, rfl⟩ := read_of_next?_ok hnext
      cases i with
      | zero =>
          cases hi
          obtain ⟨hbuffer, hoffset, hwidth, hinside⟩ := place_of_read hread
          exact ⟨hbuffer, hoffset, hoffset ▸ hwidth, hinside⟩
      | succ i =>
          rw [List.take_succ_cons, endFrom_cons]
          exact ih hi

/-- The octets of the frames that a walk takes are those between where it
starts and where it stands then. -/
theorem Takes.flatMap_octets (h : w.Takes fs stop) :
    w.offset + 9 * fs.length ≤ stop.offset
      ∧ fs.flatMap (·.raw.octets) = w.buffer.slice w.offset stop.offset := by
  induction h with
  | nothing w => exact ⟨Nat.le_refl _, (w.buffer.slice_self _).symm⟩
  | @frame w next stop f fs hnext rest ih =>
      obtain ⟨hread, rfl⟩ := read_of_next?_ok hnext
      obtain ⟨hbuffer, hoffset, hwidth, -⟩ := place_of_read hread
      obtain ⟨hlength, hoctets⟩ := ih
      have hlength : f.raw.limit + 9 * fs.length ≤ stop.offset := hlength
      have hfirst : f.raw.octets = w.buffer.slice w.offset f.raw.limit := by
        rw [RawFrame.octets, hbuffer, hoffset]
      refine ⟨?_, ?_⟩
      · rw [List.length_cons]
        omega
      · rw [List.flatMap_cons, hoctets, hfirst]
        exact w.buffer.slice_append (by omega) (by omega)

/-- A walk that has not failed ends without an error if and only if there
is nothing left to read. -/
theorem Stops.failure_eq_none_iff (h : w.Stops failure)
    (hfailed : w.failed = false) (hoffset : w.offset ≤ w.buffer.size) :
    failure = none ↔ w.offset = w.buffer.size := by
  cases h with
  | done hnone =>
      have hend := (next?_eq_none_iff hfailed).mp hnone
      exact ⟨fun _ => Nat.le_antisymm hoffset hend, fun _ => rfl⟩
  | refused hnext =>
      have hroom := (room_of_next?_some hnext).2
      exact ⟨nofun, fun hend => absurd hend (Nat.ne_of_lt hroom)⟩

-- ================================================================ calls

/-- The walk behind a call. -/
def advance (w : Walk) : Walk := (w.next?.map (·.2)).getD w

/-- The walk behind a number of calls. -/
def afterCalls (w : Walk) : Nat → Walk
  | 0 => w
  | n + 1 => w.advance.afterCalls n

/-- What the call after a number of calls yields. -/
def item? (w : Walk) (n : Nat) : Option (Except Error Frame) :=
  (w.afterCalls n).next?.map (·.1)

theorem advance_of_next?_none (h : w.next? = none) : w.advance = w := by
  rw [advance, h]
  rfl

theorem advance_of_next?_some {after : Walk} {item : Except Error Frame}
    (h : w.next? = some (item, after)) : w.advance = after := by
  rw [advance, h]
  rfl

/-- A walk that yields nothing stays as it is. -/
theorem afterCalls_of_next?_none (h : w.next? = none) (n : Nat) :
    w.afterCalls n = w := by
  induction n with
  | zero => rfl
  | succ n ih => rw [afterCalls, advance_of_next?_none h, ih]

theorem afterCalls_add (w : Walk) (n m : Nat) :
    w.afterCalls (n + m) = (w.afterCalls n).afterCalls m := by
  induction n generalizing w with
  | zero => rw [Nat.zero_add, afterCalls]
  | succ n ih => rw [Nat.succ_add, afterCalls, afterCalls, ih]

/-- Calling again and again yields the items of the walk and then
nothing. -/
theorem item?_eq_getElem? (w : Walk) (n : Nat) : w.item? n = w.toList[n]? := by
  induction n generalizing w with
  | zero =>
      rw [item?, afterCalls]
      cases hnext : w.next? with
      | none => rw [toList_of_next?_none hnext]; rfl
      | some step => rw [toList, steps_of_next?_some hnext]; rfl
  | succ n ih =>
      have hnext : w.item? (n + 1) = w.advance.item? n := rfl
      rw [hnext, ih]
      cases hnext : w.next? with
      | none =>
          rw [advance_of_next?_none hnext, toList_of_next?_none hnext]
          rfl
      | some step =>
          rw [advance_of_next?_some hnext, toList, toList,
            steps_of_next?_some hnext]
          rfl

/-- Behind a number of calls a walk stands at the limit of the last frame
that it has taken until then. -/
theorem Takes.offset_afterCalls (h : w.Takes fs stop)
    (hstop : stop.Stops failure) (n : Nat) :
    (w.afterCalls n).offset = endFrom w.offset (fs.take n) := by
  induction h generalizing n with
  | nothing w =>
      rw [List.take_nil]
      show (w.afterCalls n).offset = w.offset
      cases hstop with
      | done hnone => rw [afterCalls_of_next?_none hnone]
      | refused hnext =>
          cases n with
          | zero => rfl
          | succ n =>
              rw [afterCalls, advance_of_next?_some hnext,
                afterCalls_of_next?_none (next?_of_failed rfl)]
  | frame hnext rest ih =>
      cases n with
      | zero => rfl
      | succ n =>
          obtain ⟨-, rfl⟩ := read_of_next?_ok hnext
          rw [afterCalls, advance_of_next?_some hnext, ih hstop n,
            List.take_succ_cons, endFrom_cons]

-- =========================================================== the result

/-- The walk over a buffer of any octets. It yields finitely many items,
frames and then one error or none. Every frame is in the buffer, starts
where those in front of it end, and has a header. Each call yields the next
item, and the walk then stands at the limit of the last frame taken; once a
call has yielded nothing, all that follow do, and the walk stands still. It
ends without an error if and only if the frames are the whole buffer. An
error is that of reading where the frames end, and it is about the octets
there. -/
theorem walk_tiles {buffer : Buffer} (hsize : buffer.size < 2 ^ 63) :
    (through buffer).toList = (through buffer).frames.map .ok
        ++ (through buffer).failure?.toList.map .error
      ∧ 9 * (through buffer).frames.length ≤ buffer.size
      ∧ (∀ (i : Nat) (f : Frame), (through buffer).frames[i]? = some f →
          f.raw.buffer = buffer
            ∧ f.raw.offset = endFrom 0 ((through buffer).frames.take i)
            ∧ f.raw.offset + 9 ≤ f.raw.limit ∧ f.raw.limit ≤ buffer.size)
      ∧ (∀ n, (through buffer).item? n = (through buffer).toList[n]?
          ∧ ((through buffer).afterCalls n).offset
            = endFrom 0 ((through buffer).frames.take n))
      ∧ (∀ n, (through buffer).item? n = none →
          ∀ m, (through buffer).item? (n + m) = none
            ∧ (through buffer).afterCalls (n + m)
              = (through buffer).afterCalls n)
      ∧ ((through buffer).failure? = none
          ↔ (through buffer).frames.flatMap (·.raw.octets) = buffer.toList)
      ∧ ∀ e, (through buffer).failure? = some e →
          read buffer (endFrom 0 (through buffer).frames) buffer.size
              = .error e
            ∧ AboutOctets e := by
  obtain ⟨fs, stop, failure, htakes, hstop⟩ := exists_takes (through buffer)
  have hrun := htakes.run hstop
  rw [hrun.failure?_eq, hrun.frames_eq]
  have hwhere : stop = ⟨buffer, endFrom 0 fs, false⟩ := htakes.stop_eq
  obtain ⟨hlength, hoctets⟩ := htakes.flatMap_octets
  have hinside : stop.offset ≤ buffer.size := htakes.offset_le (Nat.zero_le _)
  refine ⟨hrun.toList_eq, ?short, fun i f hi => htakes.frame_bounds hi,
    ?calls, ?fused, ?whole, ?error⟩
  case short =>
    have hlength : 0 + 9 * fs.length ≤ stop.offset := hlength
    omega
  case calls =>
    intro n
    exact ⟨item?_eq_getElem? _ n, htakes.offset_afterCalls hstop n⟩
  case fused =>
    intro n hnone m
    have hstill : (through buffer).afterCalls (n + m)
        = (through buffer).afterCalls n := by
      rw [afterCalls_add]
      exact afterCalls_of_next?_none (Option.map_eq_none_iff.mp hnone) m
    refine ⟨?_, hstill⟩
    rw [item?, hstill]
    exact hnone
  case whole =>
    have hfailed : stop.failed = false := by rw [hwhere]
    have hbuffer : stop.buffer = buffer := by rw [hwhere]
    rw [hstop.failure_eq_none_iff hfailed (hbuffer ▸ hinside), hoctets, hbuffer]
    constructor
    · intro hend
      rw [hend]
      show buffer.slice 0 buffer.size = buffer.toList
      rw [Buffer.slice_eq, List.drop_zero, Nat.sub_zero, ← Buffer.length_toList,
        List.take_length]
    · intro hall
      have hcount := congrArg List.length hall
      rw [show (through buffer).buffer = buffer from rfl,
        Buffer.length_slice hinside, Buffer.length_toList] at hcount
      exact hcount
  case error =>
    intro e he
    subst he
    cases hstop with
    | refused hnext =>
        have hread := read_of_next?_error hnext
        rw [hwhere] at hread hinside
        have hinside : endFrom 0 fs ≤ buffer.size := hinside
        exact ⟨hread,
          aboutOctets_of_read_error (Nat.le_refl _) (by omega) hread⟩

/-- A frame of an unknown type and a PING frame without a payload. -/
theorem walk_tiles_empty_ping :
    (Buffer.ofList [0, 0, 0, 10, 0, 0, 0, 0, 0, 0, 0, 0, 6, 0, 0, 0, 0, 0]).size
        < 2 ^ 63
      ∧ (through (.ofList [0, 0, 0, 10, 0, 0, 0, 0, 0, 0, 0, 0, 6, 0, 0, 0, 0,
          0])).toList[1]?
        = some (.error (.malformedFrame .ping (.invalidLength 0)))
      ∧ ∀ m, (through (.ofList [0, 0, 0, 10, 0, 0, 0, 0, 0, 0, 0, 0, 6, 0, 0, 0,
          0, 0])).item? (2 + m) = none
        ∧ ((through (.ofList [0, 0, 0, 10, 0, 0, 0, 0, 0, 0, 0, 0, 6, 0, 0, 0,
          0, 0])).afterCalls (2 + m)).offset = 9 := by
  have hsize : (Buffer.ofList [0, 0, 0, 10, 0, 0, 0, 0, 0, 0, 0, 0, 6, 0, 0, 0,
      0, 0]).size < 2 ^ 63 := by
    decide
  obtain ⟨-, -, -, hcalls, hfused, -, -⟩ := walk_tiles hsize
  refine ⟨hsize, (hcalls 1).1.symm.trans rfl, ?_⟩
  intro m
  obtain ⟨hnone, hstill⟩ := hfused 2 rfl m
  refine ⟨hnone, ?_⟩
  rw [hstill]
  rfl

end Walk

end Http2.Frame
