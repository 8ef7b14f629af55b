/-
Streams of frames: what is laid down in a row is walked over in a row.

A stream is built in one buffer, each frame starting where the previous
one ends. A later builder leaves the earlier frames alone, since all of
them stand in front of its window. So the octets up to the last limit
are the frames one behind the other, and the walk over them finds each
frame as it was handed out by its builder (`walk_stream`).

The induction is over the frames, from the first to the last. What it
carries along is the walk over the octets so far, which takes every
frame and stands at the limit of the last one.
-/
import Http2.Proofs.Frame.Built
import Http2.Proofs.Frame.Chunking
import Http2.Proofs.Frame.Editing

namespace Http2.Frame

open Builder Walk

/-- A buffer in which frames have been laid down one behind the other,
with the limit of the last one. Every frame is remembered with its type
as its builder has handed it out. -/
inductive Stream : Buffer → Nat → List (FrameType × Frame) → Prop
  | empty (buffer : Buffer) : Stream buffer 0 []
  | frame {buffer : Buffer} {limit maxLimit : Nat} {type : FrameType}
      {built : List (FrameType × Frame)} {b b' : Builder} {f : Frame}
      (before : Stream buffer limit built)
      (hstart : Builder.start type buffer limit maxLimit = .ok b)
      (hedits : Edited b b') (hbuild : b'.build = .ok f) :
      Stream b'.buffer b'.limit (built ++ [(type, f)])

/-- The octets of a buffer up to an address. -/
def upTo (buffer : Buffer) (limit : Nat) : Buffer :=
  .ofList (buffer.toList.take limit)

section Window

variable {b : Builder} {d : Draft} {front back : List UInt8}

theorem toList_upTo (h : b.LaysDown d front back) :
    (upTo b.buffer b.limit).toList = front ++ d.encode := by
  obtain ⟨room, -, hbuffer⟩ := h.buffer_eq
  have hlength : (front ++ d.encode).length = b.limit := by
    rw [List.length_append, h.limit_eq]
  rw [upTo, Buffer.toList_ofList, hbuffer, List.append_assoc _ room,
    List.take_left' hlength]

theorem size_upTo (h : b.LaysDown d front back) :
    (upTo b.buffer b.limit).size = b.limit := by
  rw [← Buffer.length_toList, toList_upTo h, List.length_append, h.limit_eq]

/-- What is read below the limit of a built frame is that frame. -/
theorem read_upTo (h : b.LaysDown d front back) (hd : d.WellFormed) {f : Frame}
    (hok : b.build = .ok f) (hspace : front.length + 9 < 2 ^ 64) :
    ∃ g, read (upTo b.buffer b.limit) b.offset b.limit = .ok g
      ∧ g.raw.limit = b.limit ∧ g.payload.type = b.type ∧ Moved 0 f g := by
  obtain ⟨hread, -, -, hlimit, htype⟩ := h.build hd hok
  have hitem := read_shift (.of_take b.buffer b.limit)
    (show b.limit ≤ (upTo b.buffer b.limit).size from
      Nat.le_of_eq (size_upTo h).symm)
    (show b.offset + 0 + 9 < 2 ^ 64 by rw [h.offset_eq]; exact hspace)
  have hthere : read b.buffer (b.offset + 0) (b.limit + 0) = .ok f := hread
  rw [hthere] at hitem
  generalize hhere : read (.ofList (b.buffer.toList.take b.limit)) b.offset
    b.limit = outcome at hitem
  cases hitem with
  | @ok g _ hmoved =>
      refine ⟨g, hhere, ?_, ?_, hmoved.symm⟩
      · rw [hmoved.symm.limit, hlimit, Nat.add_zero]
      · rw [hmoved.symm.payload, Payload.type_map, htype, h.type_eq]

end Window

-- =============================================================== the walk

/-- A frame that has been built and the frame that is found in its
place. -/
def Found (entry : FrameType × Frame) (g : Frame) : Prop :=
  g.payload.type = entry.1 ∧ Moved 0 entry.2 g

theorem found_moved {built : List (FrameType × Frame)} {gs hs : List Frame}
    (hfound : List.Forall₂ Found built gs)
    (hmoved : List.Forall₂ (Moved 0) gs hs) : List.Forall₂ Found built hs := by
  induction hfound generalizing hs with
  | nil =>
      cases hmoved
      exact .nil
  | cons h rest ih =>
      cases hmoved with
      | cons hgh hrest =>
          refine .cons ⟨?_, h.2.trans hgh⟩ (ih hrest)
          rw [hgh.payload, Payload.type_map, h.1]

/-- The walk takes all frames of a stream and comes to its limit. -/
theorem takes_stream {buffer : Buffer} {limit : Nat}
    {built : List (FrameType × Frame)} (h : Stream buffer limit built) :
    limit ≤ buffer.size
      ∧ ∃ gs, Takes (through (upTo buffer limit)) gs
          ⟨upTo buffer limit, limit, false⟩
        ∧ List.Forall₂ Found built gs := by
  induction h with
  | empty buffer => exact ⟨Nat.zero_le _, [], .nothing _, .nil⟩
  | @frame buffer limit maxLimit type built b b' f before hstart hedits hbuild
      ih =>
      obtain ⟨hlimit, gs, htakes, hall⟩ := ih
      obtain ⟨d, htype, hlays, hwell⟩ := (start_laysDown hstart).edited
        (.blank type) hedits
      have hfront : (buffer.toList.take limit).length = limit := by
        rw [List.length_take, Buffer.length_toList]
        omega
      have hspace : limit + 9 < 2 ^ 64 := by
        obtain ⟨hroom, -⟩ := start_eq_ok_iff.mp hstart
        obtain ⟨-, hspace, -⟩ := requireRoom_eq_ok_iff.mp hroom
        simp only [addressSpace, Header.width] at hspace
        omega
      -- the frames so far are taken in the longer stream as well
      have hstands :
          (upTo buffer limit).StandsIn (upTo b'.buffer b'.limit) 0 := by
        refine .of_front ?_
        rw [toList_upTo hlays, upTo, Buffer.toList_ofList]
        exact List.prefix_append _ _
      have hsize : (upTo buffer limit).size = limit := by
        rw [← Buffer.length_toList, upTo, Buffer.toList_ofList, hfront]
      obtain ⟨o, gs', hstop, hthere, hmoved⟩ := takes_shift hstands
        (by rw [hsize]; omega) htakes
      cases hstop
      -- and one more frame is taken behind them
      have hoffset : b'.offset = limit := hlays.offset_eq.trans hfront
      have hwindow := hlays.limit_eq
      rw [Draft.length_encode, hfront] at hwindow
      obtain ⟨g, hread, hend, hgtype, hfg⟩ := read_upTo hlays hwell hbuild
        (by rw [hfront]; exact hspace)
      have hnext : next? ⟨upTo b'.buffer b'.limit, limit, false⟩
          = some (.ok g, ⟨upTo b'.buffer b'.limit, b'.limit, false⟩) := by
        have hbound : (upTo b'.buffer b'.limit).size = b'.limit :=
          size_upTo hlays
        rw [hoffset] at hread
        rw [next?_of_room rfl (show limit < (upTo b'.buffer b'.limit).size by
          omega)]
        simp only [hbound, hread, hend]
      refine ⟨?_, gs' ++ [g], hthere.snoc hnext, ?_⟩
      · obtain ⟨room, -, hbuffer⟩ := hlays.buffer_eq
        have hcount := congrArg List.length hbuffer
        simp only [List.length_append, Buffer.length_toList] at hcount
        have := hlays.limit_eq
        omega
      · refine List.rel_append ?_ (.cons ⟨?_, hfg⟩ .nil)
        · exact found_moved hall hmoved
        · rw [hgtype, hlays.type_eq, htype]
          rfl

/-- The walk over a stream yields exactly the frames that were built, in
order and each of its type, and ends at the limit of the last one. -/
theorem walk_stream {buffer : Buffer} {limit : Nat}
    {built : List (FrameType × Frame)} (h : Stream buffer limit built) :
    List.Forall₂ (fun entry item => ∃ g, item = .ok g ∧ Found entry g) built
        (through (upTo buffer limit)).toList
      ∧ (through (upTo buffer limit)).last.offset = limit := by
  obtain ⟨hlimit, gs, htakes, hall⟩ := takes_stream h
  have hend : Stops ⟨upTo buffer limit, limit, false⟩ none := by
    refine .done ((next?_eq_none_iff rfl).mpr ?_)
    show (upTo buffer limit).size ≤ limit
    rw [← Buffer.length_toList, upTo, Buffer.toList_ofList, List.length_take]
    exact Nat.min_le_left _ _
  have hrun := htakes.run hend
  refine ⟨?_, hrun.offset_last⟩
  rw [hrun.toList_eq, Option.toList_none, List.map_nil, List.append_nil,
    List.forall₂_map_right_iff]
  exact hall.imp fun _ g h => ⟨g, rfl, h⟩

/-- A DATA frame and a WINDOW_UPDATE frame behind it. -/
theorem walk_stream_data_update :
    ∃ built, Stream (.ofList [0, 0, 1, 0, 0, 0, 0, 0, 1, 5, 0, 0, 4, 8, 0, 0, 0,
        0, 0, 0, 0, 0, 7]) 23 built
      ∧ built.map Prod.fst = [.data, .windowUpdate]
      ∧ List.Forall₂ (fun entry item => ∃ g, item = .ok g ∧ Found entry g) built
        (through (upTo (.ofList [0, 0, 1, 0, 0, 0, 0, 0, 1, 5, 0, 0, 4, 8, 0, 0,
          0, 0, 0, 0, 0, 0, 7]) 23)).toList := by
  have hstart : Builder.start .data (.ofList (List.replicate 23 9)) 0 12
      = .ok ⟨.data, .ofList ([0, 0, 0, 0, 0, 0, 0, 0, 0]
        ++ List.replicate 14 9), 0, 9, 12, 0⟩ := rfl
  have happend : Builder.edit ⟨.data, .ofList ([0, 0, 0, 0, 0, 0, 0, 0, 0]
      ++ List.replicate 14 9), 0, 9, 12, 0⟩ {} (.append [5])
      = .ok (⟨.data, .ofList ([0, 0, 1, 0, 0, 0, 0, 0, 0, 5]
        ++ List.replicate 13 9), 0, 10, 12, 0⟩, {}) := rfl
  have hstream : Builder.edit ⟨.data, .ofList ([0, 0, 1, 0, 0, 0, 0, 0, 0, 5]
      ++ List.replicate 13 9), 0, 10, 12, 0⟩ {} (.streamId 1)
      = .ok (⟨.data, .ofList ([0, 0, 1, 0, 0, 0, 0, 0, 1, 5]
        ++ List.replicate 13 9), 0, 10, 12, 0⟩, {}) := rfl
  have hbuild : Builder.build ⟨.data, .ofList ([0, 0, 1, 0, 0, 0, 0, 0, 1, 5]
      ++ List.replicate 13 9), 0, 10, 12, 0⟩
      = .ok (unchecked (.ofList ([0, 0, 1, 0, 0, 0, 0, 0, 1, 5]
        ++ List.replicate 13 9)) 0) := rfl
  have hfirst := Stream.frame (.empty _) hstart
    (.edit (.edit (.refl _) rfl happend) rfl hstream) hbuild
  have hstart' : Builder.start .windowUpdate
      (.ofList ([0, 0, 1, 0, 0, 0, 0, 0, 1, 5] ++ List.replicate 13 9)) 10 23
      = .ok ⟨.windowUpdate, .ofList [0, 0, 1, 0, 0, 0, 0, 0, 1, 5, 0, 0, 4, 8,
        0, 0, 0, 0, 0, 0, 0, 0, 0], 10, 23, 23, 0⟩ := rfl
  have hincrement : Builder.edit ⟨.windowUpdate, .ofList [0, 0, 1, 0, 0, 0, 0,
      0, 1, 5, 0, 0, 4, 8, 0, 0, 0, 0, 0, 0, 0, 0, 0], 10, 23, 23, 0⟩ {}
      (.windowSizeIncrement 7)
      = .ok (⟨.windowUpdate, .ofList [0, 0, 1, 0, 0, 0, 0, 0, 1, 5, 0, 0, 4, 8,
        0, 0, 0, 0, 0, 0, 0, 0, 7], 10, 23, 23, 0⟩, {}) := rfl
  have hbuild' : Builder.build ⟨.windowUpdate, .ofList [0, 0, 1, 0, 0, 0, 0, 0,
      1, 5, 0, 0, 4, 8, 0, 0, 0, 0, 0, 0, 0, 0, 7], 10, 23, 23, 0⟩
      = .ok (unchecked (.ofList [0, 0, 1, 0, 0, 0, 0, 0, 1, 5, 0, 0, 4, 8, 0, 0,
        0, 0, 0, 0, 0, 0, 7]) 10) := rfl
  have hsecond := Stream.frame hfirst hstart'
    (.edit (.refl _) rfl hincrement) hbuild'
  exact ⟨_, hsecond, rfl, (walk_stream hsecond).1⟩

end Http2.Frame
