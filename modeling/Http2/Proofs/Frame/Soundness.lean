/-
What holds of a builder after every call, refused or not.

How much padding a frame has is told by the builder, by a flag, by the pad
length in front of the payload, by the length field and by where the frame
ends. The calls that all edits are made of (`Action`) change these one after
the other, and a call may be refused in between. `Sound` says how they agree.

A call that is refused for want of room or for a reserved bit
(`Recoverable`) leaves a builder that can be used further. It has changed
nothing, or it has added a pad length and no padding, which is a frame like
any other. A payload that is too long is another matter: that is noticed when
the content has been written over the padding.

What the octets stand for is a draft all along (`Regular`), so each call
needs only what is known of its octets and of its refusals.
-/
import Http2.Proofs.Frame.Refusal

namespace Http2.Frame

-- ================================================================== drafts

/-- The payload of the draft fits the length field, the flag tells of its
padding, and behind the pad length there are at least `fixed` octets. -/
structure Draft.Regular (d : Draft) (fixed : Nat) : Prop where
  length_le : d.payload.length ≤ Header.maxLength
  padded : Flag.padded.isSet d.flags = d.padding.isSome
  fixed_le : fixed ≤ d.fields.length + d.content.length

namespace Draft.Regular

variable {d : Draft} {fixed : Nat} {octets : List UInt8}

theorem start (type : FrameType) (hfixed : fixed ≤ Header.maxLength) :
    ({ type, fields := List.replicate fixed 0 } : Draft).Regular fixed where
  length_le := by
    rw [Draft.payload_of_none rfl, List.append_nil, List.length_replicate]
    exact hfixed
  padded := show Flag.padded.isSet 0 = false by decide
  fixed_le := by
    rw [List.length_replicate]
    exact Nat.le_add_right _ _

theorem setFlag (h : d.Regular fixed) {flag : Flag} (hflag : flag ≠ .padded) :
    (d.setFlag flag).Regular fixed where
  length_le := h.length_le
  padded := by
    have hother : (Flag.padded.mask == flag.mask) = false := by
      cases flag <;> first | rfl | exact absurd rfl hflag
    show Flag.padded.isSet (d.flags ||| flag.mask) = d.padding.isSome
    rw [Flag.isSet_or_mask, hother, Bool.or_false, h.padded]
  fixed_le := h.fixed_le

theorem setStreamId (h : d.Regular fixed) (id : UInt32) :
    ({ d with streamId := id } : Draft).Regular fixed :=
  ⟨h.length_le, h.padded, h.fixed_le⟩

theorem append (h : d.Regular fixed)
    (hfits : (d.append octets).payload.length ≤ Header.maxLength) :
    (d.append octets).Regular fixed where
  length_le := hfits
  padded := h.padded
  fixed_le := by
    have hle := h.fixed_le
    simp only [Draft.append, List.length_append]
    omega

/-- Octets in front of the fields. -/
theorem insert (h : d.Regular fixed)
    (hfits : ({ d with fields := octets ++ d.fields } : Draft).payload.length
      ≤ Header.maxLength) :
    ({ d with fields := octets ++ d.fields } : Draft).Regular fixed where
  length_le := hfits
  padded := h.padded
  fixed_le := by
    have hle := h.fixed_le
    simp only [List.length_append]
    omega

theorem setPadding (h : d.Regular fixed) {padding : UInt8}
    (hfits : (d.setPadding padding).payload.length ≤ Header.maxLength) :
    (d.setPadding padding).Regular fixed where
  length_le := hfits
  padded := by
    show Flag.padded.isSet (d.flags ||| Flag.padded.mask) = true
    rw [Flag.isSet_or_mask, beq_self_eq_true, Bool.or_true]
  fixed_le := h.fixed_le

end Draft.Regular

-- ================================================================= writers

/-- A builder of another kind that goes on writing in a buffer from `start`
up to `bound` and tells where it has stopped. It keeps to these octets, and
what it refuses it has not written. -/
structure Writer where
  write : (buffer : Buffer) → (start bound : Nat) →
    Except (Refused Buffer) (Buffer × Nat)
  refused : ∀ {buffer start bound r}, write buffer start bound = .error r →
    r.left = buffer
  written : ∀ {buffer buffer' start bound stop}, start ≤ bound →
    bound ≤ buffer.size → write buffer start bound = .ok (buffer', stop) →
    ∃ content room, stop = start + content.length
      ∧ bound = stop + room.length
      ∧ buffer'.toList = buffer.toList.take start ++ content ++ room
        ++ buffer.toList.drop bound

/-- A block builder that refuses a field is left as it was. -/
theorem left_of_field_refused {block : HeaderBlock.Builder}
    {table : Hpack.Table} {f : Field}
    {r : Refused (HeaderBlock.Builder × Hpack.Table)}
    (hno : block.field table f = .error r) : r.left.1 = block := by
  obtain ⟨q, happend, rfl⟩ := Attempt.within_eq_error_iff.mp hno
  rcases Attempt.guarded_eq_error_iff.mp happend
    with ⟨e, -, rfl⟩ | ⟨-, hdone⟩
  · rfl
  · cases hdone

/-- A header field is written by a block builder, which begins a block where
the content ends. -/
def Writer.field (table : Hpack.Table) (f : Field) : Writer where
  write buffer start bound :=
    match HeaderBlock.Builder.start buffer start bound with
    | .error e => .error ⟨e, buffer⟩
    | .ok block =>
      match block.field table f with
      | .error r => .error ⟨r.error, r.left.1.buffer⟩
      | .ok (block, _) => .ok (block.buffer, block.limit)
  refused := by
    intro buffer start bound r hno
    split at hno
    case h_1 e hstart =>
      cases hno
      rfl
    case h_2 block hstart =>
      split at hno
      case h_2 block' table' hfield => cases hno
      case h_1 q hfield =>
        obtain ⟨-, rfl⟩ := HeaderBlock.Builder.start_eq_ok_iff.mp hstart
        cases hno
        rw [left_of_field_refused hfield]
  written := by
    intro buffer buffer' start bound stop hle hbound hok
    split at hok
    case h_1 e hstart => cases hok
    case h_2 block hstart =>
      split at hok
      case h_1 r hfield => cases hok
      case h_2 block' table' hfield =>
        cases hok
        obtain ⟨happend, -⟩ := HeaderBlock.Builder.field_eq_ok_iff.mp hfield
        have hlays := (HeaderBlock.Builder.start_laysDown hstart).append happend
        obtain ⟨room, hroom, hbuffer⟩ := hlays.buffer_eq
        obtain ⟨-, rfl⟩ := HeaderBlock.Builder.start_eq_ok_iff.mp hstart
        obtain ⟨-, rfl⟩ := HeaderBlock.Builder.append_eq_ok_iff.mp happend
        exact ⟨_, room, rfl, hroom, hbuffer⟩

namespace Builder

variable {b b' : Builder} {d : Draft} {front back octets : List UInt8}
variable {fixed : Nat}

/-- Lends the octets behind the content to a writer, as far as they are not
needed for the padding, and goes on where the writer has stopped. -/
def lend (b : Builder) (w : Writer) : Attempt Builder :=
  match w.write b.buffer b.contentEnd (b.maxLimit - b.padding) with
  | .error r => .error ⟨r.error, { b with buffer := r.left }⟩
  | .ok (buffer, stop) => { b with buffer }.endContentAt stop

/-- What a writer has written is content. -/
theorem LaysDown.lend (h : b.LaysDown d front back) {w : Writer}
    (hok : b.lend w = .ok b') :
    ∃ octets, b'.LaysDown (d.append octets) front back
      ∧ (d.append octets).payload.length ≤ Header.maxLength := by
  obtain ⟨room, hroom, hbuffer⟩ := h.buffer_eq
  have hend := h.contentEnd_eq
  have hpadding := h.contentEnd_add_padding
  have hsize := h.maxLimit_le_size
  unfold Builder.lend at hok
  split at hok
  case h_1 r hwrite => cases hok
  case h_2 buffer stop hwrite =>
    obtain ⟨octets, free, hstop, hbound, hwritten⟩ :=
      w.written (by omega) (by omega) hwrite
    have hbody : (d.append octets).body.length
        = d.body.length + octets.length := d.length_body_append octets
    -- in front of the window nothing has changed
    have hfront : b.buffer.toList.take b.contentEnd
        = front ++ BigEndian.encode Header.lengthWidth d.payload.length ++ d.tag
          ++ d.body := by
      have hsplit : b.buffer.toList
          = (front ++ BigEndian.encode Header.lengthWidth d.payload.length
            ++ d.tag ++ d.body)
            ++ (List.replicate d.padLength 0 ++ room ++ back) := by
        rw [hbuffer, Draft.encode_eq, Draft.payload]
        simp only [List.append_assoc]
      rw [hsplit]
      exact List.take_left' ((length_tag_append (BigEndian.length_encode _ _)
        front d).trans hend.symm)
    -- behind it there is room for the padding, and then what was there
    have hback : ∃ last, last.length = b.padding
        ∧ b.buffer.toList.drop (b.maxLimit - b.padding) = last ++ back := by
      have hlength : (front ++ d.encode ++ room).length = b.maxLimit := by
        rw [List.length_append, List.length_append, ← h.limit_eq, hroom]
      refine ⟨(front ++ d.encode ++ room).drop (b.maxLimit - b.padding), ?_, ?_⟩
      · rw [List.length_drop]
        omega
      · rw [hbuffer, List.drop_append_of_le_length (by omega)]
    obtain ⟨last, hlast, hdrop⟩ := hback
    have hholds : ({ b with buffer } : Builder).Holds (d.append octets) front
        back := by
      refine ⟨h.type_eq, h.offset_eq, h.padding_eq,
        BigEndian.encode Header.lengthWidth d.payload.length, free ++ last,
        BigEndian.length_encode _ _, ?_, ?_⟩
      · show b.maxLimit = _
        rw [hbody, List.length_append]
        omega
      · show buffer.toList = _
        rw [hwritten, hfront, hdrop]
        simp only [Draft.body, Draft.append, Draft.tag, List.append_assoc]
    have hstop' : stop = front.length + 9 + (d.append octets).body.length := by
      rw [hstop, hend, hbody, Nat.add_assoc _ d.body.length]
    rw [hstop'] at hok
    exact ⟨octets, hholds.endContentAt hok⟩

/-- Adding a header field lends the octets to a block builder. -/
theorem addField_eq_lend (b : Builder) (table : Hpack.Table) (f : Field) :
    (b.addField table f).error? = (b.lend (.field table f)).error?
      ∧ (b.addField table f).state.1 = (b.lend (.field table f)).state := by
  unfold addField Builder.lend Writer.field
  dsimp only
  cases HeaderBlock.Builder.start b.buffer b.contentEnd (b.maxLimit - b.padding)
    with
  | error e => exact ⟨rfl, rfl⟩
  | ok block =>
      dsimp only
      cases block.field table f with
      | error r => exact ⟨rfl, rfl⟩
      | ok written =>
          dsimp only
          cases endContentAt { b with buffer := written.1.buffer }
            written.1.limit <;> exact ⟨rfl, rfl⟩

-- ================================================================= actions

/-- The calls that edits are made of. Only `setPadding` sets the flag that
tells of padding. -/
inductive Action where
  /-- Sets a flag. Several flags are set one after the other. -/
  | setFlag (flag : Flag) (hflag : flag ≠ .padded)
  | setStreamId (id : UInt32)
  /-- Adds octets behind the content. -/
  | append (octets : List UInt8)
  /-- Adds octets in front of the fields. -/
  | insert (octets : List UInt8)
  | setPadding (padding : UInt8)
  /-- Lets another builder add content. -/
  | lend (writer : Writer)

/-- Makes a call. -/
def act (b : Builder) : Action → Attempt Builder
  | .setFlag flag _ => .ok (b.setFlag flag)
  | .setStreamId id => b.setStreamId id
  | .append octets => b.append octets
  | .insert octets => b.insert b.fieldsStart octets
  | .setPadding padding => b.setPadding padding
  | .lend writer => b.lend writer

/-- The reasons for which a call can be refused and the builder still be
used. -/
inductive Recoverable : Error → Prop
  | overrun (limit maxLimit : Nat) : Recoverable (.bufferOverrun limit maxLimit)
  | reservedBit : Recoverable (.invalidArgument .reservedStreamBit)

/-- The builder after calls, each of which is made on what the one before has
left, whether that was refused or not. -/
def actAll (b : Builder) : List Action → Builder
  | [] => b
  | a :: as => (b.act a).state.actAll as

/-- Why calls were refused, for those that were. -/
def refusals (b : Builder) : List Action → List Error
  | [] => []
  | a :: as => (b.act a).error?.toList ++ (b.act a).state.refusals as

-- ================================================================= one call

/-- What a builder has written is a regular draft. -/
def Regular (b : Builder) (fixed : Nat) : Prop :=
  ∃ d front back, b.LaysDown d front back ∧ d.Regular fixed

/-- A growing call that is refused for a recoverable reason has not changed
anything. -/
theorem Refuses.left_eq {written : Builder} {limit : Nat} {r : Refused Builder}
    (h : b.Refuses written limit r) (hrec : Recoverable r.error) :
    r.left = b := by
  cases h with
  | overrun hlimit => rfl
  | tooLong hlimit hlength => cases hrec

theorem LaysDown.fieldsStart_of_padded (h : b.LaysDown d front back)
    (hpadded : Flag.padded.isSet d.flags = d.padding.isSome) :
    b.fieldsStart = front.length + 9 + d.padding.toList.length := by
  rw [fieldsStart, h.has_eq, hpadded, h.payloadStart_eq]
  cases d.padding <;> rfl

theorem Regular.append (h : b.Regular fixed) (hok : b.append octets = .ok b') :
    b'.Regular fixed := by
  obtain ⟨d, front, back, hlays, hd⟩ := h
  obtain ⟨hlays', hfits⟩ := hlays.append hok
  exact ⟨_, _, _, hlays', hd.append hfits⟩

theorem Regular.insert (h : b.Regular fixed)
    (hok : b.insert b.fieldsStart octets = .ok b') : b'.Regular fixed := by
  obtain ⟨d, front, back, hlays, hd⟩ := h
  have hbody : d.body = d.padding.toList ++ (d.fields ++ d.content) :=
    List.append_assoc _ _ _
  have hbody' : ({ d with fields := octets ++ d.fields } : Draft).body
      = d.padding.toList ++ octets ++ (d.fields ++ d.content) := by
    simp only [Draft.body, List.append_assoc]
  obtain ⟨hlays', hfits⟩ := hlays.insert hbody hbody' rfl rfl rfl
    (hlays.fieldsStart_of_padded hd.padded) hok
  exact ⟨_, _, _, hlays', hd.insert hfits⟩

theorem Regular.lend (h : b.Regular fixed) {w : Writer}
    (hok : b.lend w = .ok b') : b'.Regular fixed := by
  obtain ⟨d, front, back, hlays, hd⟩ := h
  obtain ⟨octets, hlays', hfits⟩ := hlays.lend hok
  exact ⟨_, _, _, hlays', hd.append hfits⟩

/-- A writer that refuses has not written, and one that does not leaves room
for the padding. -/
theorem Regular.lend_refused (h : b.Regular fixed) {w : Writer}
    {r : Refused Builder} (hno : b.lend w = .error r)
    (hrec : Recoverable r.error) : r.left = b := by
  obtain ⟨d, front, back, hlays, -⟩ := h
  obtain ⟨room, hroom, -⟩ := hlays.buffer_eq
  have hpadding := hlays.contentEnd_add_padding
  have hsize := hlays.maxLimit_le_size
  unfold Builder.lend at hno
  split at hno
  case h_1 q hwrite =>
    cases hno
    rw [w.refused hwrite]
  case h_2 buffer stop hwrite =>
    obtain ⟨octets, free, hstop, hbound, -⟩ :=
      w.written (by omega) (by omega) hwrite
    have hfits : stop + b.padding ≤ b.maxLimit := by omega
    have hrefused : b.Refuses { b with buffer } (stop + b.padding) r :=
      refused_of_written hfits rfl rfl hno
    exact hrefused.left_eq hrec

/-- If there is a pad length, the padding is changed or stays as it is. -/
theorem LaysDown.regular_resizePadding (h : b.LaysDown d front back)
    (hd : d.Regular fixed) {old new : UInt8} (hsome : d.padding = some old)
    (hrec : ∀ e, (b.resizePadding new).error? = some e → Recoverable e) :
    (b.resizePadding new).state.Regular fixed := by
  cases hcall : b.resizePadding new with
  | ok b' =>
      obtain ⟨hlays, hfits⟩ := h.resizePadding hsome hcall
      refine ⟨_, _, _, hlays, hfits, ?_, hd.fixed_le⟩
      show Flag.padded.isSet d.flags = true
      rw [hd.padded, hsome]
      rfl
  | error r =>
      rw [hcall] at hrec
      have hleft := (resizePadding_refused hcall).left_eq (hrec r.error rfl)
      rw [← hleft] at h
      exact ⟨d, front, back, h, hd⟩

/-- A first padding is two calls. If the second one is refused, the frame has
a pad length and no padding. -/
theorem Regular.setPadding (h : b.Regular fixed) {padding : UInt8}
    (hrec : ∀ e, (b.setPadding padding).error? = some e → Recoverable e) :
    (b.setPadding padding).state.Regular fixed := by
  obtain ⟨d, front, back, hlays, hd⟩ := h
  unfold Builder.setPadding at hrec ⊢
  rw [hlays.has_eq, hd.padded] at hrec ⊢
  cases hpadding : d.padding with
  | some old =>
      rw [hpadding] at hrec
      exact hlays.regular_resizePadding hd hpadding hrec
  | none =>
      rw [hpadding] at hrec
      simp only [Option.isSome_none, Bool.false_eq_true, if_false] at hrec ⊢
      cases hfirst : b.addPadLength with
      | ok b₁ =>
          rw [hfirst] at hrec
          obtain ⟨hlays₁, hfits⟩ := hlays.addPadLength hpadding hfirst
          exact hlays₁.regular_resizePadding (hd.setPadding hfits) rfl hrec
      | error r =>
          rw [hfirst] at hrec
          have hleft := (hlays.addPadLength_refused hpadding hfirst).left_eq
            (hrec r.error rfl)
          rw [← hleft] at hlays
          exact ⟨d, front, back, hlays, hd⟩

/-- A call that changes nothing if it is refused. -/
theorem Regular.state (h : b.Regular fixed) {call : Attempt Builder}
    (hok : ∀ b', call = .ok b' → b'.Regular fixed)
    (hno : ∀ r, call = .error r → Recoverable r.error → r.left = b)
    (hrec : ∀ e, call.error? = some e → Recoverable e) :
    call.state.Regular fixed := by
  cases hcall : call with
  | ok b' => exact hok b' hcall
  | error r =>
      rw [hcall] at hrec
      show r.left.Regular fixed
      rw [hno r hcall (hrec r.error rfl)]
      exact h

/-- Whatever is called, and whether it is refused or not, the draft stays
regular. -/
theorem Regular.act (h : b.Regular fixed) {a : Action}
    (hrec : ∀ e, (b.act a).error? = some e → Recoverable e) :
    (b.act a).state.Regular fixed := by
  cases a with
  | setFlag flag hflag =>
      obtain ⟨d, front, back, hlays, hd⟩ := h
      exact ⟨_, _, _, hlays.setFlag flag, hd.setFlag hflag⟩
  | setStreamId id =>
      refine h.state ?_ ?_ hrec
      · intro b' hok
        obtain ⟨d, front, back, hlays, hd⟩ := h
        obtain ⟨-, hset⟩ := Attempt.guarded_eq_ok_iff.mp hok
        cases hset
        exact ⟨_, _, _, hlays.setStreamId id, hd.setStreamId id⟩
      · intro r hno hreason
        rcases Attempt.guarded_eq_error_iff.mp hno
          with ⟨e, -, rfl⟩ | ⟨-, hdone⟩
        · rfl
        · cases hdone
  | append octets =>
      exact h.state (fun b' hok => h.append hok)
        (fun r hno hreason => (append_refused hno).left_eq hreason) hrec
  | insert octets =>
      exact h.state (fun b' hok => h.insert hok)
        (fun r hno hreason => (insert_refused hno).left_eq hreason) hrec
  | setPadding padding => exact h.setPadding hrec
  | lend writer =>
      exact h.state (fun b' hok => h.lend hok)
        (fun r hno hreason => h.lend_refused hno hreason) hrec

/-- So it stays regular over any run of calls. -/
theorem Regular.actAll {as : List Action} (h : b.Regular fixed)
    (hrec : ∀ e ∈ b.refusals as, Recoverable e) :
    (b.actAll as).Regular fixed := by
  induction as generalizing b with
  | nil => exact h
  | cons a as ih =>
      rw [refusals, List.forall_mem_append] at hrec
      obtain ⟨hfirst, hothers⟩ := hrec
      refine ih (h.act fun e he => hfirst e ?_) hothers
      rw [he]
      exact List.mem_singleton_self e

theorem startWith_regular {type : FrameType} {buffer : Buffer}
    {offset maxLimit : Nat} (hfixed : fixed ≤ Header.maxLength)
    (hstart : startWith type fixed buffer offset maxLimit = .ok b) :
    b.Regular fixed :=
  ⟨_, _, _, startWith_laysDown hstart, .start type hfixed⟩

-- ============================================================ the invariant

/-- Limit, bound, length field, flag, pad length, padding and the octets of
the padding agree, and behind the header there are at least `fixed` octets in
front of the padding. -/
structure Sound (b : Builder) (fixed : Nat) : Prop where
  fixed_le : b.offset + Header.width + fixed ≤ b.limit - b.padding
  limit_le : b.limit ≤ b.maxLimit
  maxLimit_le : b.maxLimit ≤ b.buffer.size
  length_eq : Header.lengthAt? b.buffer b.offset
    = some (b.limit - b.offset - Header.width)
  length_le : b.limit - b.offset - Header.width ≤ Header.maxLength
  padded : b.has .padded = true →
    (∃ octet, b.buffer.octet? (b.offset + Header.width) = some octet
      ∧ octet.toNat = b.padding)
    ∧ Header.width + 1 + b.padding ≤ b.limit - b.offset
  unpadded : b.has .padded = false → b.padding = 0
  zeros : b.buffer.slice (b.limit - b.padding) b.limit
    = List.replicate b.padding 0

theorem LaysDown.lengthAt?_eq (h : b.LaysDown d front back)
    (hlength : d.payload.length ≤ Header.maxLength) :
    Header.lengthAt? b.buffer b.offset = some d.payload.length := by
  obtain ⟨room, hroom, hbuffer⟩ := h.buffer_eq
  have hsplit : b.buffer.toList
      = front ++ BigEndian.encode Header.lengthWidth d.payload.length
        ++ (d.tag ++ d.payload ++ room ++ back) := by
    rw [hbuffer, Draft.encode_eq]
    simp only [List.append_assoc]
  have hslice : b.buffer.slice b.offset (b.offset + Header.lengthWidth)
      = BigEndian.encode Header.lengthWidth d.payload.length :=
    Buffer.slice_of_append hsplit h.offset_eq.symm
      (by rw [BigEndian.length_encode])
  have hin : b.offset + Header.lengthWidth ≤ b.buffer.size := by
    have hlimit := h.limit_eq
    have hsize := h.maxLimit_le_size
    rw [Draft.length_encode] at hlimit
    rw [h.offset_eq, Header.lengthWidth]
    omega
  have hlt : d.payload.length < 256 ^ Header.lengthWidth :=
    Nat.lt_of_le_of_lt hlength (by decide)
  rw [Header.lengthAt?, Buffer.number?, if_pos hin, hslice,
    BigEndian.decode_encode hlt]

theorem LaysDown.slice_padding (h : b.LaysDown d front back) :
    b.buffer.slice b.contentEnd b.limit = List.replicate b.padding 0 := by
  obtain ⟨room, hroom, hbuffer⟩ := h.buffer_eq
  have hsplit : b.buffer.toList
      = (front ++ BigEndian.encode Header.lengthWidth d.payload.length ++ d.tag
          ++ d.body) ++ List.replicate b.padding 0 ++ (room ++ back) := by
    rw [hbuffer, Draft.encode_eq, Draft.payload, h.padding_eq]
    simp only [List.append_assoc]
  refine Buffer.slice_of_append hsplit ?_ ?_
  · rw [length_tag_append (BigEndian.length_encode _ _), h.contentEnd_eq]
  · rw [List.length_replicate, h.contentEnd_add_padding]

theorem Regular.sound (h : b.Regular fixed) : b.Sound fixed := by
  obtain ⟨d, front, back, hlays, hd⟩ := h
  obtain ⟨room, hroom, -⟩ := hlays.buffer_eq
  have hoffset := hlays.offset_eq
  have hlimit := hlays.limit_eq
  have hwidth : Header.width = 9 := rfl
  have hlength : b.limit - b.offset - Header.width = d.payload.length := by
    rw [Draft.length_encode] at hlimit
    omega
  have hbody : d.body.length
      = d.padding.toList.length + d.fields.length + d.content.length := by
    rw [Draft.body, List.length_append, List.length_append]
  have hend : b.limit - b.padding = front.length + 9 + d.body.length :=
    hlays.contentEnd_eq
  have hadd := hlays.contentEnd_add_padding
  rw [contentEnd] at hadd
  have hfixed := hd.fixed_le
  refine ⟨by omega, by omega, hlays.maxLimit_le_size, ?_, ?_, ?_, ?_,
    hlays.slice_padding⟩
  · rw [hlength]
    exact hlays.lengthAt?_eq hd.length_le
  · rw [hlength]
    exact hd.length_le
  · intro hpadded
    rw [hlays.has_eq, hd.padded, Option.isSome_iff_exists] at hpadded
    obtain ⟨padding, hsome⟩ := hpadded
    refine ⟨⟨padding, hlays.octet?_payloadStart hsome, ?_⟩, ?_⟩
    · rw [hlays.padding_eq, Draft.padLength, hsome]
      rfl
    · rw [hsome, Option.toList_some, List.length_singleton] at hbody
      omega
  · intro hunpadded
    rw [hlays.has_eq, hd.padded, Option.isSome_eq_false_iff,
      Option.isNone_iff_eq_none] at hunpadded
    exact hlays.padding_eq_zero hunpadded

end Builder

end Http2.Frame
