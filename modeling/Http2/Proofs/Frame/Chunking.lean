/-
Walking over frames while they come in.

A receiver that has only the first octets of a stream walks over what it
has, and goes on when more octets are there. `walk_of_chunk` says that
this amounts to walking over the whole stream: frames are never revised,
a frame that is rejected stays rejected, and a frame that is cut off is
waited for, with an end that is known from the start.
-/
import Http2.Proofs.Frame.Walk

namespace Http2.Frame.Walk

/-- The walk over all frames of a buffer. -/
def through (buffer : Buffer) : Walk := { buffer }

variable {P B : Buffer}

/-- A frame that a walk yields is one of those it takes. -/
theorem Run.getElem?_ok {w : Walk} {fs : List Frame} {stop : Nat}
    {failure : Option Error} (hrun : w.Run fs stop failure) {i : Nat}
    {f : Frame} (hi : w.toList[i]? = some (.ok f)) : fs[i]? = some f := by
  rw [hrun.toList_eq, List.getElem?_append] at hi
  split at hi
  case isTrue =>
    obtain ⟨g, hg, hok⟩ := Option.map_eq_some_iff.mp
      (List.getElem?_map.symm.trans hi)
    cases hok
    exact hg
  case isFalse =>
    obtain ⟨e, -, he⟩ := List.mem_map.mp (List.mem_of_getElem? hi)
    cases he

/-- The frames of a walk come first in what it yields. -/
theorem Takes.getElem?_ok {w mid : Walk} {fs : List Frame}
    (htakes : w.Takes fs mid) {i : Nat} {f : Frame} (hi : fs[i]? = some f) :
    w.toList[i]? = some (.ok f) := by
  have hlt : i < (fs.map (Except.ok (ε := Error))).length := by
    rw [List.length_map]
    exact (List.getElem?_eq_some_iff.mp hi).1
  rw [htakes.toList_eq, List.getElem?_append_left hlt, List.getElem?_map, hi]
  rfl

/-- A frame that is malformed in the first octets of a buffer is so in
the whole. -/
theorem stops_of_malformed {P B : Buffer} (h : P.StandsIn B 0)
    (hspace : P.size + 9 ≤ 2 ^ 64) {o : Nat} {type : FrameType}
    {reason : Malformed}
    (hstop : Stops ⟨P, o, false⟩ (some (.malformedFrame type reason))) :
    Stops ⟨B, o, false⟩ (some (.malformedFrame type reason)) := by
  cases hstop with
  | refused hnext =>
      have hsize := h.size_le
      obtain ⟨hroom, hread⟩ := read_shift_of_next?_error h hspace hnext
      have hwhole := (read_of_le (show P.size ≤ B.size by omega)
        (Nat.le_refl B.size) (show o + 9 < 2 ^ 64 by omega)).2 _ _ hread
      refine .refused ?_
      rw [next?_of_room rfl (show o < B.size by omega)]
      simp only [hwhole]

/-- A frame that is cut off in the first octets of a buffer is cut off as
long as the buffer does not reach its end. -/
theorem stops_of_overrun {P Q : Buffer} (h : P.StandsIn Q 0)
    (hspace : P.size + 9 ≤ 2 ^ 64) {o limit bound : Nat}
    (hstop : Stops ⟨P, o, false⟩ (some (.bufferOverrun limit bound)))
    (hshort : Q.size < limit) :
    Stops ⟨Q, o, false⟩ (some (.bufferOverrun limit Q.size)) := by
  cases hstop with
  | refused hnext =>
      have hsize := h.size_le
      obtain ⟨hroom, hread⟩ := read_shift_of_next?_error h hspace hnext
      obtain ⟨-, -, hlonger⟩ := read_of_overrun (show P.size ≤ Q.size by omega)
        (show o + 9 < 2 ^ 64 by omega) hread
      have hwhole := hlonger Q.size (by omega) hshort (Nat.le_refl Q.size)
      refine .refused ?_
      rw [next?_of_room rfl (show o < Q.size by omega)]
      simp only [hwhole, Nat.add_zero]

/-- The walk over the first octets `P` of a buffer `B`. Every frame that
it yields is yielded by the walk over `B` at the same position. If it
ends with a malformed frame, so does the walk over `B`, at the same place
and with the same error. The rest of what the walk over `B` yields is
what the octets from there on yield on their own. If it ends with a frame
that is cut off and would end at `limit`, the walk over any buffer that
starts with `P` and is shorter than `limit` ends there with the same
frame. -/
theorem walk_of_chunk {P B : Buffer} (hchunk : P.toList <+: B.toList)
    (hsize : B.size < 2 ^ 63) :
    (∀ (i : Nat) (f : Frame), (through P).toList[i]? = some (Except.ok f) →
        ∃ g : Frame, (through B).toList[i]? = some (Except.ok g) ∧ Moved 0 f g)
      ∧ (∀ type reason,
          (through P).failure? = some (.malformedFrame type reason) →
          (through B).failure? = some (.malformedFrame type reason)
            ∧ (through B).last.offset = (through P).last.offset
            ∧ (through B).toList.length = (through P).toList.length)
      ∧ List.Forall₂ (ItemMoved (through P).last.offset)
          (through (.ofList (B.toList.drop (through P).last.offset))).toList
          ((through B).toList.drop (through P).frames.length)
      ∧ ∀ limit bound,
          (through P).failure? = some (.bufferOverrun limit bound) →
          ∀ Q : Buffer, P.toList <+: Q.toList → Q.size < limit →
            (through Q).failure? = some (.bufferOverrun limit Q.size)
              ∧ (through Q).last.offset = (through P).last.offset := by
  have hstands : P.StandsIn B 0 := .of_front hchunk
  have hspace : P.size + 9 ≤ 2 ^ 64 := by
    have := hstands.size_le
    omega
  obtain ⟨fs, stop, failure, htakes, hstop⟩ := exists_takes (through P)
  have hrun := htakes.run hstop
  obtain ⟨o, gs, rfl, hthere, hall⟩ := takes_shift hstands hspace htakes
  have hlast : (through P).last.offset = o := hrun.offset_last
  rw [hlast, hrun.failure?_eq, hrun.frames_eq]
  refine ⟨?_, ?_, ?_, ?_⟩
  · intro i f hi
    have hf := hrun.getElem?_ok hi
    obtain ⟨hlt, rfl⟩ := List.getElem?_eq_some_iff.mp hf
    have hlt' : i < gs.length := hall.length_eq ▸ hlt
    exact ⟨gs[i], hthere.getElem?_ok (List.getElem?_eq_getElem hlt'),
      hall.get hlt hlt'⟩
  · intro type reason hfailure
    rw [hfailure] at hstop hrun
    have hrunB := hthere.run (stops_of_malformed hstands hspace hstop)
    refine ⟨hrunB.failure?_eq, hrunB.offset_last, ?_⟩
    have hlength := hall.length_eq
    show ({ buffer := B } : Walk).toList.length = _
    rw [hrunB.toList_eq, hrun.toList_eq, List.length_append, List.length_append,
      List.length_map, List.length_map, List.length_map, ← hlength]
  · have ho : o ≤ B.size := hthere.offset_le (Nat.zero_le _)
    have hrest : (Buffer.ofList (B.toList.drop o)).size + o = B.size := by
      rw [← Buffer.length_toList, Buffer.toList_ofList, List.length_drop,
        Buffer.length_toList]
      omega
    have htail := @toList_shift _ B o 0 (.of_drop B ho) hrest (by omega)
    have hcount : fs.length = (gs.map (Except.ok (ε := Error))).length := by
      rw [List.length_map, hall.length_eq]
    rw [Nat.zero_add] at htail
    show List.Forall₂ _ _ (({ buffer := B } : Walk).toList.drop fs.length)
    rw [hthere.toList_eq, List.drop_left' hcount.symm]
    exact htail
  · intro limit bound hfailure Q hQ hshort
    rw [hfailure] at hstop
    have hstandsQ : P.StandsIn Q 0 := .of_front hQ
    obtain ⟨q, hs, hq, hthereQ, -⟩ := takes_shift hstandsQ hspace htakes
    cases hq
    have hrunQ := hthereQ.run (stops_of_overrun hstandsQ hspace hstop hshort)
    exact ⟨hrunQ.failure?_eq, hrunQ.offset_last⟩

/-- A WINDOW_UPDATE frame is there and two octets of the next frame:
until the header of that frame is complete, the walk waits for its end. -/
theorem walk_of_chunk_update :
    (Buffer.ofList [0, 0, 4, 8, 0, 0, 0, 0, 0, 0, 0, 0, 5, 0, 0]).toList
        <+: (Buffer.ofList [0, 0, 4, 8, 0, 0, 0, 0, 0, 0, 0, 0, 5, 0, 0, 8,
          6]).toList
      ∧ (Buffer.ofList [0, 0, 4, 8, 0, 0, 0, 0, 0, 0, 0, 0, 5, 0, 0, 8, 6]).size
        < 2 ^ 63
      ∧ ∀ Q : Buffer,
          [0, 0, 4, 8, 0, 0, 0, 0, 0, 0, 0, 0, 5, 0, 0] <+: Q.toList →
          Q.size < 22 →
            (through Q).failure? = some (.bufferOverrun 22 Q.size)
              ∧ (through Q).last.offset = 13 := by
  have hchunk : (Buffer.ofList [0, 0, 4, 8, 0, 0, 0, 0, 0, 0, 0, 0, 5, 0,
      0]).toList
      <+: (Buffer.ofList [0, 0, 4, 8, 0, 0, 0, 0, 0, 0, 0, 0, 5, 0, 0, 8,
        6]).toList := by
    decide
  refine ⟨hchunk, by decide, ?_⟩
  intro Q hQ hshort
  have hfirst : (through (.ofList [0, 0, 4, 8, 0, 0, 0, 0, 0, 0, 0, 0, 5, 0,
      0])).next?
      = some (.ok (unchecked (.ofList [0, 0, 4, 8, 0, 0, 0, 0, 0, 0, 0, 0, 5, 0,
        0]) 0), ⟨.ofList [0, 0, 4, 8, 0, 0, 0, 0, 0, 0, 0, 0, 5, 0, 0], 13,
          false⟩) := rfl
  have hsecond : next? ⟨.ofList [0, 0, 4, 8, 0, 0, 0, 0, 0, 0, 0, 0, 5, 0, 0],
      13, false⟩
      = some (.error (.bufferOverrun 22 15),
        ⟨.ofList [0, 0, 4, 8, 0, 0, 0, 0, 0, 0, 0, 0, 5, 0, 0], 13, true⟩) :=
    rfl
  have hrun := (Takes.frame hfirst (.nothing _)).run (.refused hsecond)
  have hwait := (walk_of_chunk hchunk (by decide)).2.2.2 22 15
    hrun.failure?_eq Q hQ hshort
  rw [hrun.offset_last] at hwait
  exact hwait

end Http2.Frame.Walk
