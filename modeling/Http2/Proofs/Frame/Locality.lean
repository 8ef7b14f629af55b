/-
A frame is told by its own octets.

There are three ways to read: a header and its payload as they stand
(`RawFrame.read`), a frame of any type (`Frame.read`) and a frame of a
given type (`Frame.readAs`). Each of them is `IsLocal`: it gives the same
where the same octets stand further on, up to the distance
(`Displaced`), and a frame that is found is found below any bound that it
does not reach across. What follows from that (`LocalAt`) holds for all
three (`read_local`): a frame is the same in the slice up to its bound,
and it stays the same whatever is done to the octets around it.
-/
import Http2.HeaderBlock.Fields
import Http2.Proofs.Frame.Built
import Http2.Proofs.Frame.Ignored

namespace Http2

-- =============================================================== outcomes

variable {α : Type}

/-- Two outcomes of reading, the second one `distance` addresses further
on: results that are related, the same complaint about the frame, or an
overrun of which both addresses are moved. -/
inductive Displaced (distance : Nat) (moved : α → α → Prop) :
    Except Error α → Except Error α → Prop
  | ok {a b : α} (h : moved a b) : Displaced distance moved (.ok a) (.ok b)
  | malformed (type : FrameType) (reason : Malformed) :
      Displaced distance moved (.error (.malformedFrame type reason))
        (.error (.malformedFrame type reason))
  | overrun (limit maxLimit : Nat) :
      Displaced distance moved (.error (.bufferOverrun limit maxLimit))
        (.error (.bufferOverrun (limit + distance) (maxLimit + distance)))

/-- Something that must end in front of a bound, and so must it further
on. -/
theorem Displaced.requireEnd_bind {distance limit maxLimit : Nat}
    {moved : α → α → Prop} {here there : Except Error α}
    (h : limit ≤ maxLimit → Displaced distance moved here there) :
    Displaced distance moved (requireEnd limit maxLimit >>= fun _ => here)
      (requireEnd (limit + distance) (maxLimit + distance)
        >>= fun _ => there) := by
  by_cases hend : limit ≤ maxLimit
  case pos =>
    rw [requireEnd_of_le hend, requireEnd_of_le (Nat.add_le_add_right hend _)]
    exact h hend
  case neg =>
    have hlt := Nat.lt_of_not_le hend
    rw [requireEnd_of_lt hlt, requireEnd_of_lt (Nat.add_lt_add_right hlt _)]
    exact .overrun limit maxLimit

/-- What is read below a bound is told by the octets up to the bound, and
a result is told by the octets up to its own limit. -/
def LocalAt (read : Buffer → Nat → Nat → Except Error α) (limit : α → Nat)
    (moved : Nat → α → α → Prop) (buffer : Buffer) (offset maxLimit : Nat) :
    Prop :=
  Displaced offset (moved offset)
      (read (.ofList (buffer.slice offset maxLimit)) 0 (maxLimit - offset))
      (read buffer offset maxLimit)
    ∧ ∀ a, read buffer offset maxLimit = .ok a →
      ∀ other : Buffer, other.size = buffer.size →
        (∀ i, offset ≤ i → i < limit a → other.octet? i = buffer.octet? i) →
        ∃ b, read other offset maxLimit = .ok b ∧ moved 0 a b

/-- A way of reading that looks at no octet but those up to the limit of
what it finds. -/
structure IsLocal (read : Buffer → Nat → Nat → Except Error α)
    (limit : α → Nat) (moved : Nat → α → α → Prop) : Prop where
  /-- The same is read where the same octets stand. -/
  shift {p b : Buffer} {distance offset maxLimit : Nat} :
    p.StandsIn b distance → maxLimit ≤ p.size → offset + distance + 9 < 2 ^ 64 →
    Displaced distance (moved distance) (read p offset maxLimit)
      (read b (offset + distance) (maxLimit + distance))
  /-- What is found ends in front of the bound. -/
  limit_le {buffer : Buffer} {offset maxLimit : Nat} {a : α} :
    read buffer offset maxLimit = .ok a →
    offset ≤ limit a ∧ limit a ≤ maxLimit
  /-- It is found below any such bound. -/
  rebound {buffer : Buffer} {offset maxLimit : Nat} {a : α} :
    read buffer offset maxLimit = .ok a → ∀ bound, limit a ≤ bound →
    bound ≤ buffer.size → read buffer offset bound = .ok a
  /-- Two results are the same if both are a third one, moved. -/
  cancel {distance : Nat} {a b c : α} :
    moved distance a b → moved distance a c → moved 0 b c

section Local

variable {read : Buffer → Nat → Nat → Except Error α} {limit : α → Nat}
variable {moved : Nat → α → α → Prop}
variable {buffer other : Buffer} {offset maxLimit : Nat} {a : α}

/-- The slice up to the bound is read alike. -/
theorem IsLocal.read_slice (h : IsLocal read limit moved)
    (hspace : offset + 9 < 2 ^ 64) (hle : offset ≤ maxLimit)
    (hmax : maxLimit ≤ buffer.size) :
    Displaced offset (moved offset)
      (read (.ofList (buffer.slice offset maxLimit)) 0 (maxLimit - offset))
      (read buffer offset maxLimit) := by
  have hsize : (Buffer.ofList (buffer.slice offset maxLimit)).size
      = maxLimit - offset := by
    rw [← Buffer.length_toList, Buffer.toList_ofList, Buffer.length_slice hmax]
  have hshift : Displaced offset (moved offset)
      (read (.ofList (buffer.slice offset maxLimit)) 0 (maxLimit - offset))
      (read buffer (0 + offset) (maxLimit - offset + offset)) :=
    h.shift (.of_slice buffer hle hmax) (Nat.le_of_eq hsize.symm) (by omega)
  rwa [Nat.zero_add, Nat.sub_add_cancel hle] at hshift

/-- What is found is found in every buffer with its octets. -/
theorem IsLocal.found_of_agree (h : IsLocal read limit moved)
    (hspace : offset + 9 < 2 ^ 64) (hmax : maxLimit ≤ buffer.size)
    (hread : read buffer offset maxLimit = .ok a)
    (hsize : other.size = buffer.size)
    (hagree : ∀ i, offset ≤ i → i < limit a →
      other.octet? i = buffer.octet? i) :
    ∃ b, read other offset maxLimit = .ok b ∧ moved 0 a b := by
  obtain ⟨hstart, hend⟩ := h.limit_le hread
  have hinside := Nat.le_trans hend hmax
  have hroom : limit a ≤ other.size := by
    rw [hsize]
    exact hinside
  -- the octets of the frame alone, which stand in both buffers
  have hhere : Displaced offset (moved offset) _
      (read buffer offset (limit a)) :=
    h.read_slice hspace hstart hinside
  have hthere : Displaced offset (moved offset) _
      (read other offset (limit a)) :=
    h.read_slice hspace hstart hroom
  rw [Buffer.slice_congr hagree] at hthere
  rw [h.rebound hread (limit a) (Nat.le_refl _) hinside] at hhere
  generalize read (.ofList (buffer.slice offset (limit a))) 0
    (limit a - offset) = alone at hhere hthere
  generalize hfound : read other offset (limit a) = found at hthere
  cases hhere with
  | @ok q _ hqa =>
      cases hthere with
      | @ok _ b hqb =>
          obtain ⟨-, hlimit⟩ := h.limit_le hfound
          refine ⟨b, ?_, h.cancel hqa hqb⟩
          exact h.rebound hfound maxLimit (Nat.le_trans hlimit hend)
            (by rw [hsize]; exact hmax)

theorem IsLocal.localAt (h : IsLocal read limit moved)
    (hsize : buffer.size < 2 ^ 63) (hle : offset ≤ maxLimit)
    (hmax : maxLimit ≤ buffer.size) :
    LocalAt read limit moved buffer offset maxLimit := by
  have hspace : offset + 9 < 2 ^ 64 := by omega
  refine ⟨h.read_slice hspace hle hmax, ?_⟩
  intro a hread other hother hagree
  exact h.found_of_agree hspace hmax hread hother hagree

end Local

-- =========================================================== what is said

/-- A header block and the same one `distance` addresses further on. -/
structure HeaderBlock.Moved (distance : Nat) (a b : HeaderBlock) : Prop where
  offset : b.offset = a.offset + distance
  limit : b.limit = a.limit + distance
  octets : b.octets = a.octets
  representations : b.representations = a.representations
  fields : b.fields = a.fields

/-- A header with its payload and the same one `distance` addresses
further on. -/
structure RawFrame.Moved (distance : Nat) (f g : RawFrame) : Prop where
  offset : g.offset = f.offset + distance
  limit : g.limit = f.limit + distance
  header : g.header = f.header
  octets : g.octets = f.octets
  payload : g.payload = f.payload

/-- A frame and the same one `distance` addresses further on, with all
that can be asked of it. -/
structure Frame.Relocated (distance : Nat) (f g : Frame) : Prop where
  raw : RawFrame.Moved distance f.raw g.raw
  payload : g.payload = f.payload.map (·.shift distance)
  contents : g.contents = f.contents
  block : Option.Rel (HeaderBlock.Moved distance) f.block? g.block?

namespace HeaderBlock

variable {distance : Nat} {a b c : HeaderBlock}

theorem Moved.of_octets (hoffset : b.offset = a.offset + distance)
    (hlimit : b.limit = a.limit + distance) (hoctets : b.octets = a.octets) :
    Moved distance a b where
  offset := hoffset
  limit := hlimit
  octets := hoctets
  representations := by rw [HeaderBlock.representations, hoctets]; rfl
  fields := by
    funext t
    rw [HeaderBlock.fields, HeaderBlock.representations, hoctets]
    rfl

theorem Moved.cancel (hb : Moved distance a b) (hc : Moved distance a c) :
    Moved 0 b c :=
  .of_octets (hc.offset.trans hb.offset.symm) (hc.limit.trans hb.limit.symm)
    (hc.octets.trans hb.octets.symm)

end HeaderBlock

namespace RawFrame

variable {distance : Nat} {f g h : RawFrame}

/-- The payload is what follows the header. -/
theorem payload_eq_drop (f : RawFrame) :
    f.payload = f.octets.drop Header.width :=
  (Buffer.drop_slice ..).symm

theorem Moved.of_octets (hoffset : g.offset = f.offset + distance)
    (hlimit : g.limit = f.limit + distance) (hheader : g.header = f.header)
    (hoctets : g.octets = f.octets) : Moved distance f g where
  offset := hoffset
  limit := hlimit
  header := hheader
  octets := hoctets
  payload := by rw [payload_eq_drop, payload_eq_drop, hoctets]

theorem Moved.cancel (hg : Moved distance f g) (hh : Moved distance f h) :
    Moved 0 g h :=
  .of_octets (hh.offset.trans hg.offset.symm) (hh.limit.trans hg.limit.symm)
    (hh.header.trans hg.header.symm) (hh.octets.trans hg.octets.symm)

end RawFrame

namespace Frame

variable {distance : Nat} {f g h : Frame}

/-- The header block moves with its frame. -/
theorem Moved.block (hm : Moved distance f g) :
    Option.Rel (HeaderBlock.Moved distance) f.block? g.block? := by
  have hf := f.block?_contents
  have hg := g.block?_contents
  have hspan : g.payload.block? = f.payload.block?.map (·.shift distance) := by
    rw [hm.payload]
    cases f.payload <;> rfl
  rw [hm.contents, ← hf] at hg
  unfold block? at hg ⊢
  rw [hspan] at hg ⊢
  cases hb : f.payload.block? with
  | none => exact .none
  | some s =>
      rw [hb] at hg
      exact .some (.of_octets rfl rfl (Option.some.inj hg))

/-- A frame that is moved says the same as before. -/
theorem Moved.relocated (hm : Moved distance f g) : Relocated distance f g where
  raw := .of_octets hm.offset hm.limit hm.header hm.octets
  payload := hm.payload
  contents := hm.contents
  block := hm.block

theorem Relocated.moved (hr : Relocated distance f g) : Moved distance f g where
  offset := hr.raw.offset
  limit := hr.raw.limit
  header := hr.raw.header
  payload := hr.payload
  contents := hr.contents
  octets := hr.raw.octets

theorem Moved.cancel (hg : Moved distance f g) (hh : Moved distance f h) :
    Moved 0 g h where
  offset := hh.offset.trans hg.offset.symm
  limit := hh.limit.trans hg.limit.symm
  header := hh.header.trans hg.header.symm
  payload := by
    rw [hh.payload, ← hg.payload]
    exact (Payload.map_id g.payload).symm
  contents := hh.contents.trans hg.contents.symm
  octets := hh.octets.trans hg.octets.symm

end Frame

-- ========================================================= the three ways

namespace RawFrame

open Http2.Frame Check

variable {buffer p b : Buffer} {offset maxLimit distance : Nat} {f : RawFrame}

/-- Below a bound that lies inside the buffer, a frame is located if there
is room for its header. -/
theorem locate_eq_of_le (hmax : maxLimit ≤ buffer.size)
    (hspace : offset + 9 < 2 ^ 64) :
    locate buffer offset maxLimit
      = requireEnd (offset + 9) maxLimit >>= fun _ =>
        .ok (unchecked buffer offset).raw := by
  rw [locate_eq_runAll, runAll_regionChecks_of_le hmax hspace]
  rfl

/-- Without a look at the payload, a frame is read if it ends in front of
the bound. -/
theorem read_eq_of_le (hmax : maxLimit ≤ buffer.size)
    (hspace : offset + 9 < 2 ^ 64) :
    read buffer offset maxLimit
      = requireEnd (offset + 9) maxLimit >>= fun _ =>
        requireEnd (unchecked buffer offset).raw.limit maxLimit >>= fun _ =>
        .ok (unchecked buffer offset).raw := by
  rw [read, locate_eq_of_le hmax hspace, bind_assoc]
  rfl

/-- A frame that is read is the one that stands there. -/
theorem bounds_of_read (h : read buffer offset maxLimit = .ok f) :
    f = (unchecked buffer offset).raw ∧ f.limit ≤ maxLimit
      ∧ offset + 9 < 2 ^ 64 := by
  obtain ⟨raw, hraw, hread⟩ := bind_eq_ok_iff.mp h
  rw [locate_eq_runAll, check_eq_ok_iff] at hraw
  obtain ⟨hregion, rfl⟩ := hraw
  obtain ⟨hend, rfl⟩ := check_eq_ok_iff.mp hread
  rw [← requireRoom_eq_runAll, requireRoom_eq_ok_iff] at hregion
  exact ⟨rfl, requireEnd_eq_ok_iff.mp hend, hregion.2.1⟩

/-- A frame holds its header. -/
theorem add_le_limit (buffer : Buffer) (offset : Nat) :
    offset + 9 ≤ (unchecked buffer offset).raw.limit :=
  Nat.le_add_right _ _

theorem read_rebound (h : read buffer offset maxLimit = .ok f) (bound : Nat)
    (hlimit : f.limit ≤ bound) (hbound : bound ≤ buffer.size) :
    read buffer offset bound = .ok f := by
  obtain ⟨rfl, -, hspace⟩ := bounds_of_read h
  have hroom : offset + 9 ≤ bound :=
    Nat.le_trans (add_le_limit ..) hlimit
  rw [read_eq_of_le hbound hspace, requireEnd_of_le hroom,
    requireEnd_of_le hlimit]
  rfl

theorem displaced_read (h : p.StandsIn b distance) (hmax : maxLimit ≤ p.size)
    (hspace : offset + distance + 9 < 2 ^ 64) :
    Displaced distance (Moved distance) (read p offset maxLimit)
      (read b (offset + distance) (maxLimit + distance)) := by
  have hsize := h.size_le
  rw [read_eq_of_le hmax (by omega), read_eq_of_le (by omega) hspace,
    Nat.add_right_comm]
  apply Displaced.requireEnd_bind
  intro hroom
  rw [unchecked_shift h (Nat.le_trans hroom hmax), limit_moveTo]
  apply Displaced.requireEnd_bind
  intro hend
  have hinside : (unchecked p offset).raw.limit ≤ p.size :=
    Nat.le_trans hend hmax
  exact .ok (.of_octets rfl (limit_moveTo ..) rfl (octets_moveTo h hinside))

/-- A header and its payload as they stand are told by their octets. -/
theorem isLocal_read : IsLocal read limit Moved where
  shift := displaced_read
  limit_le h := by
    obtain ⟨rfl, hlimit, -⟩ := bounds_of_read h
    exact ⟨Nat.le_of_add_right_le (add_le_limit ..), hlimit⟩
  rebound := read_rebound
  cancel := Moved.cancel

end RawFrame

namespace Frame

open Check RawFrame

variable {buffer p b : Buffer} {offset maxLimit distance : Nat} {f : Frame}
variable {type : FrameType}

theorem displaced_read (h : p.StandsIn b distance) (hmax : maxLimit ≤ p.size)
    (hspace : offset + distance + 9 < 2 ^ 64) :
    Displaced distance (Relocated distance) (read p offset maxLimit)
      (read b (offset + distance) (maxLimit + distance)) := by
  have hshift := Frame.read_shift h hmax hspace
  have hverdict := verdict_read hmax (show offset + 9 < 2 ^ 64 by omega)
  generalize read p offset maxLimit = here at hshift hverdict ⊢
  generalize read b (offset + distance) (maxLimit + distance) = there
    at hshift ⊢
  cases hshift with
  | ok hmoved => exact .ok hmoved.relocated
  | error e =>
      cases hverdict with
      | headerCutOff | payloadCutOff => exact .overrun _ _
      | headerMalformed | payloadMalformed => exact .malformed _ _

/-- A frame that is read is read below any bound that it does not reach
across. -/
theorem read_rebound (h : read buffer offset maxLimit = .ok f) (bound : Nat)
    (hlimit : f.raw.limit ≤ bound) (hbound : bound ≤ buffer.size) :
    read buffer offset bound = .ok f := by
  obtain ⟨hrun, -⟩ := read_eq_ok_iff.mp h
  obtain ⟨-, -, -, hspace⟩ := bounds_of_runAll hrun
  obtain ⟨rfl, haccepted⟩ := accepted_of_read h
  have hroom : offset + 9 ≤ bound :=
    Nat.le_trans (add_le_limit ..) hlimit
  exact read_of_verdict hbound hspace (.accepted hroom hlimit haccepted)

theorem bounds_of_read (h : read buffer offset maxLimit = .ok f) :
    offset ≤ f.raw.limit ∧ f.raw.limit ≤ maxLimit := by
  obtain ⟨rfl, -⟩ := accepted_of_read h
  obtain ⟨hlimit, -⟩ := limit_le_of_read h
  exact ⟨Nat.le_of_add_right_le (add_le_limit ..), hlimit⟩

theorem Relocated.cancel {f g h : Frame} (hg : Relocated distance f g)
    (hh : Relocated distance f h) : Relocated 0 g h :=
  (hg.moved.cancel hh.moved).relocated

/-- Frames of any type are told by their octets. -/
theorem isLocal_read : IsLocal read (·.raw.limit) Relocated where
  shift := displaced_read
  limit_le := bounds_of_read
  rebound := read_rebound
  cancel := Relocated.cancel

/-- With room for the header, the type is checked before anything else. -/
theorem readAs_eq_of_le (hmax : maxLimit ≤ buffer.size)
    (hspace : offset + 9 < 2 ^ 64) :
    readAs type buffer offset maxLimit
      = requireEnd (offset + 9) maxLimit >>= fun _ =>
        (unchecked buffer offset).raw.requireType type >>= fun _ =>
        read buffer offset maxLimit := by
  rw [readAs, read, locate_eq_of_le hmax hspace]
  by_cases hroom : offset + 9 ≤ maxLimit
  · rw [requireEnd_of_le hroom]
    rfl
  · rw [requireEnd_of_lt (by omega)]
    rfl

theorem displaced_readAs (h : p.StandsIn b distance) (hmax : maxLimit ≤ p.size)
    (hspace : offset + distance + 9 < 2 ^ 64) :
    Displaced distance (Relocated distance) (readAs type p offset maxLimit)
      (readAs type b (offset + distance) (maxLimit + distance)) := by
  have hsize := h.size_le
  rw [readAs_eq_of_le hmax (by omega), readAs_eq_of_le (by omega) hspace,
    Nat.add_right_comm offset]
  apply Displaced.requireEnd_bind
  intro hroom
  rw [unchecked_shift h (Nat.le_trans hroom hmax)]
  unfold requireType
  rw [type_moveTo]
  by_cases htype : (unchecked p offset).raw.type = type
  case pos =>
    rw [if_pos htype, if_pos htype]
    exact displaced_read h hmax hspace
  case neg =>
    rw [if_neg htype, if_neg htype]
    exact .malformed _ _

theorem readAs_rebound (h : readAs type buffer offset maxLimit = .ok f)
    (bound : Nat) (hlimit : f.raw.limit ≤ bound)
    (hbound : bound ≤ buffer.size) :
    readAs type buffer offset bound = .ok f := by
  obtain ⟨hread, htype⟩ := read_of_readAs h
  have hread' := read_rebound hread bound hlimit hbound
  obtain ⟨hrun, -⟩ := read_eq_ok_iff.mp hread'
  obtain ⟨-, -, hroom, hspace⟩ := bounds_of_runAll hrun
  obtain ⟨rfl, -⟩ := accepted_of_read hread
  have hsame : (unchecked buffer offset).raw.type = type :=
    (type_interpret _).symm.trans htype
  rw [readAs_eq_of_le hbound hspace, requireEnd_of_le hroom, requireType,
    if_pos hsame]
  exact hread'

/-- Frames of a given type are told by their octets. -/
theorem isLocal_readAs (type : FrameType) :
    IsLocal (readAs type) (·.raw.limit) Relocated where
  shift := displaced_readAs
  limit_le h := bounds_of_read (read_of_readAs h).1
  rebound := readAs_rebound
  cancel := Relocated.cancel

-- =============================================================== the result

/-- A frame is told by its own octets, whichever way it is read. The
slice up to the bound, read from its start, gives the same frame with all
places moved by the offset, the same complaint, or the same overrun with
both addresses moved. A frame that is found is found again in any buffer
of the same size in which its own octets stand, and says the same. -/
theorem read_local (hsize : buffer.size < 2 ^ 63) (hle : offset ≤ maxLimit)
    (hmax : maxLimit ≤ buffer.size) :
    LocalAt RawFrame.read RawFrame.limit RawFrame.Moved buffer offset maxLimit
      ∧ LocalAt Frame.read (·.raw.limit) Frame.Relocated buffer offset maxLimit
      ∧ ∀ type, LocalAt (Frame.readAs type) (·.raw.limit) Frame.Relocated buffer
        offset maxLimit :=
  ⟨RawFrame.isLocal_read.localAt hsize hle hmax,
    Frame.isLocal_read.localAt hsize hle hmax,
    fun type => (Frame.isLocal_readAs type).localAt hsize hle hmax⟩

/-- A padded HEADERS frame between octets that differ in two buffers. -/
theorem read_local_headers :
    Buffer.size (.ofList [7, 0, 0, 3, 1, 8, 0, 0, 0, 1, 1, 0x82, 0, 7]) < 2 ^ 63
    ∧ Displaced 1 (Relocated 1)
      (read (.ofList [0, 0, 3, 1, 8, 0, 0, 0, 1, 1, 0x82, 0, 7]) 0 13)
      (read (.ofList [7, 0, 0, 3, 1, 8, 0, 0, 0, 1, 1, 0x82, 0, 7]) 1 14)
    ∧ ∃ f g,
      read (.ofList [7, 0, 0, 3, 1, 8, 0, 0, 0, 1, 1, 0x82, 0, 7]) 1 14 = .ok f
      ∧ read (.ofList [2, 0, 0, 3, 1, 8, 0, 0, 0, 1, 1, 0x82, 0, 4]) 1 14
        = .ok g
      ∧ Relocated 0 f g := by
  have hsize : Buffer.size
      (.ofList [7, 0, 0, 3, 1, 8, 0, 0, 0, 1, 1, 0x82, 0, 7]) < 2 ^ 63 := by
    decide
  obtain ⟨-, ⟨hslice, hfound⟩, -⟩ :=
    read_local hsize (show 1 ≤ 14 by decide) (show 14 ≤ _ by decide)
  obtain ⟨f, hf⟩ := exists_eq_ok_of_isOk (show (read (.ofList
    [7, 0, 0, 3, 1, 8, 0, 0, 0, 1, 1, 0x82, 0, 7]) 1 14).isOk by decide +kernel)
  have hlimit : f.raw.limit = 13 := by
    obtain ⟨rfl, -⟩ := accepted_of_read hf
    decide +kernel
  have hagree : ∀ i, i < 13 → 1 ≤ i →
      Buffer.octet? (.ofList [2, 0, 0, 3, 1, 8, 0, 0, 0, 1, 1, 0x82, 0, 4]) i
      = Buffer.octet?
        (.ofList [7, 0, 0, 3, 1, 8, 0, 0, 0, 1, 1, 0x82, 0, 7]) i := by
    decide +kernel
  obtain ⟨g, hg, hrelocated⟩ := hfound f hf
    (.ofList [2, 0, 0, 3, 1, 8, 0, 0, 0, 1, 1, 0x82, 0, 4]) (by decide)
    (fun i hstart hend => hagree i (hlimit ▸ hend) hstart)
  exact ⟨hsize, hslice, f, g, hf, hg, hrelocated⟩

end Frame

end Http2
