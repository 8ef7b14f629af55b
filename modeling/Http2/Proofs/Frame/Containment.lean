/-
What a builder does stays in its window, also when it fails.

A refused call leaves everything as it was, unless the payload gets too
long: then it has written behind the header and no further than the bound
(`Leaves`). The header itself is written last. So there is always a header
at the front of the window and room for its payload behind it (`Heads`),
and nothing outside of the window ever changes. A call that is made of
several calls leaves the frame of those that succeeded; so does a first
padding, with its pad length in place.
-/
import Http2.Proofs.Frame.Fitting

namespace Http2.Frame

variable {d d₁ : Draft} {front back octets : List UInt8} {buffer : Buffer}
variable {maxLimit : Nat}

-- =============================================================== the header

/-- The header of the draft stands at the front of a window that ends at
`maxLimit`, and there is room for its payload, whatever is written
there. -/
def Draft.Heads (d : Draft) (buffer : Buffer) (maxLimit : Nat)
    (front back : List UInt8) : Prop :=
  ∃ rest, maxLimit = front.length + 9 + rest.length
    ∧ d.payload.length ≤ rest.length
    ∧ buffer.toList = front ++ d.header.encode ++ rest ++ back

namespace Draft.Heads

/-- What is written behind the header and before the bound leaves the
header alone. -/
theorem write {start : Nat} (h : d.Heads buffer maxLimit front back)
    (hstart : front.length + 9 ≤ start)
    (hend : start + octets.length ≤ maxLimit) :
    d.Heads (buffer.write start octets) maxLimit front back := by
  obtain ⟨rest, hmax, hroom, hbuffer⟩ := h
  obtain ⟨skip, rfl⟩ := Nat.exists_eq_add_of_le hstart
  have hsplit : buffer.toList
      = (front ++ d.header.encode ++ rest.take skip)
        ++ (rest.drop skip).take octets.length
        ++ (rest.drop (skip + octets.length) ++ back) := by
    have hrest : rest = rest.take skip
        ++ (rest.drop skip).take octets.length
        ++ rest.drop (skip + octets.length) := by
      rw [List.append_assoc, ← List.drop_drop, List.take_append_drop,
        List.take_append_drop]
    rw [hbuffer]
    refine (congrArg (fun rest => front ++ d.header.encode ++ rest ++ back)
      hrest).trans ?_
    simp only [List.append_assoc]
  have hplace : (front ++ d.header.encode ++ rest.take skip).length
      = front.length + 9 + skip := by
    simp only [List.length_append, Header.length_encode, Header.width,
      List.length_take]
    omega
  have hlength : ((rest.drop skip).take octets.length).length
      = octets.length := by
    rw [List.length_take, List.length_drop]
    omega
  have hwrite := Buffer.toList_write_of_append hsplit hplace hlength
  refine ⟨rest.take skip ++ octets ++ rest.drop (skip + octets.length), ?_, ?_,
    ?_⟩
  · simp only [List.length_append, List.length_take, List.length_drop]
    omega
  · simp only [List.length_append, List.length_take, List.length_drop]
    omega
  · rw [hwrite]
    simp only [List.append_assoc]

/-- The frame that is read at the front of the window has that header. -/
theorem read (h : d.Heads buffer maxLimit front back) (hd : d.WellFormed)
    (hspace : front.length + Header.width < addressSpace) :
    RawFrame.read buffer front.length maxLimit
      = .ok ⟨buffer, front.length, d.header⟩ := by
  obtain ⟨rest, hmax, hroom, hbuffer⟩ := h
  have hsize := congrArg List.length hbuffer
  simp only [List.length_append, Header.length_encode, Buffer.length_toList]
    at hsize
  have hwidth : Header.width = 9 := rfl
  have hheader : buffer.slice front.length (front.length + Header.width)
      = d.header.encode :=
    Buffer.slice_of_append (hbuffer.trans (List.append_assoc _ _ _)) rfl
      (by rw [Header.length_encode])
  have hlocate : RawFrame.locate buffer front.length maxLimit
      = .ok ⟨buffer, front.length, d.header⟩ := by
    refine check_eq_ok_iff.mpr ⟨requireRoom_eq_ok_iff.mpr ?_, ?_⟩
    · omega
    · rw [hheader, Header.decode_encode hd.length_le hd.stream_lt]
  refine bind_eq_ok_iff.mpr ⟨_, hlocate,
    check_eq_ok_iff.mpr ⟨requireEnd_eq_ok_iff.mpr ?_, rfl⟩⟩
  show front.length + Header.width + d.payload.length ≤ maxLimit
  omega

/-- Two buffers with the same in front of a window and behind it agree
outside of the window. -/
theorem octet?_eq (h : d.Heads buffer maxLimit front back) {other : Buffer}
    {between : List UInt8} (hother : other.toList = front ++ between ++ back)
    (hlength : (front ++ between).length = maxLimit) {i : Nat}
    (hi : i < front.length ∨ maxLimit ≤ i) :
    buffer.octet? i = other.octet? i := by
  obtain ⟨rest, hmax, -, hbuffer⟩ := h
  rw [List.append_assoc front d.header.encode] at hbuffer
  rw [← Buffer.getElem?_toList, ← Buffer.getElem?_toList, hother, hbuffer]
  rcases hi with hfront | hback
  · rw [List.append_assoc, List.append_assoc front between,
      List.getElem?_append_left hfront, List.getElem?_append_left hfront]
  · have hlength' : (front ++ (d.header.encode ++ rest)).length = maxLimit := by
      simp only [List.length_append, Header.length_encode, Header.width]
      omega
    rw [List.getElem?_append_right (by omega),
      List.getElem?_append_right (by omega), hlength, hlength']

end Draft.Heads

/-- The pad length of a first padding in front of the payload. -/
theorem Draft.encode_setPadding_zero (hnone : d.padding = none) :
    (d.setPadding 0).encode
      = Header.encode { d.header with
          length := d.header.length + 1
          flags := d.header.flags ||| Flag.padded.mask } ++ 0 :: d.payload := by
  have hpayload : (d.setPadding 0).payload = 0 :: d.payload := by
    rw [Draft.payload_of_none hnone]
    show [0] ++ d.fields ++ d.content ++ [] = _
    rw [List.append_nil]
    rfl
  rw [Draft.encode, Draft.header, hpayload]
  rfl

-- ============================================================= refused calls

namespace Builder

variable {b b' : Builder} {table : Hpack.Table} {limit : Nat}

theorem LaysDown.heads (h : b.LaysDown d front back) :
    d.Heads b.buffer b.maxLimit front back := by
  obtain ⟨room, hroom, hbuffer⟩ := h.buffer_eq
  have hlimit := h.limit_eq
  rw [Draft.length_encode] at hlimit
  refine ⟨d.payload ++ room, ?_, ?_, ?_⟩
  · rw [List.length_append]
    omega
  · rw [List.length_append]
    exact Nat.le_add_right _ _
  · rw [hbuffer, Draft.encode]
    simp only [List.append_assoc]

/-- A refused call leaves the builder as it was, or if the payload is too
long at least the header. -/
def Leaves (b : Builder) (d : Draft) (front back : List UInt8)
    (r : Refused Builder) : Prop :=
  r.left = b ∨ r.error = .invalidArgument .payloadTooLong
    ∧ d.Heads r.left.buffer b.maxLimit front back

theorem Leaves.heads {r : Refused Builder} (h : b.Leaves d front back r)
    (hlays : b.LaysDown d front back) :
    d.Heads r.left.buffer b.maxLimit front back := by
  rcases h with hsame | ⟨-, hheads⟩
  · rw [hsame]
    exact hlays.heads
  · exact hheads

/-- Calls that write behind the header leave it alone. -/
theorem LaysDown.leaves_of_refuses (h : b.LaysDown d front back)
    {start : Nat} {written : Builder} {r : Refused Builder}
    (hno : b.Refuses written limit r)
    (hwritten : written.buffer = b.buffer.write start octets)
    (hstart : b.payloadStart ≤ start) (hend : start + octets.length ≤ limit) :
    b.Leaves d front back r := by
  cases hno with
  | overrun hlimit => exact .inl rfl
  | tooLong hlimit hlength =>
      refine .inr ⟨rfl, ?_⟩
      rw [h.payloadStart_eq] at hstart
      show d.Heads written.buffer _ _ _
      rw [hwritten]
      exact h.heads.write hstart (by omega)

theorem LaysDown.leaves_of_insert (h : b.LaysDown d front back)
    {start : Nat} (hstart : b.payloadStart ≤ start) (hle : start ≤ b.contentEnd)
    {r : Refused Builder} (hno : b.insert start octets = .error r) :
    b.Leaves d front back r := by
  have hsize := h.maxLimit_le_size
  have hend := h.contentEnd_add_padding
  obtain ⟨room, hroom, -⟩ := h.buffer_eq
  have hlength : (b.buffer.slice start b.contentEnd).length
      = b.contentEnd - start := Buffer.length_slice (by omega)
  refine h.leaves_of_refuses (insert_refused hno) rfl hstart ?_
  rw [List.length_append, hlength]
  omega

theorem LaysDown.leaves_of_append (h : b.LaysDown d front back)
    {r : Refused Builder} (hno : b.append octets = .error r) :
    b.Leaves d front back r := by
  rw [append_eq_insert] at hno
  exact h.leaves_of_insert h.payloadStart_le_contentEnd (Nat.le_refl _) hno

theorem LaysDown.leaves_of_addField (h : b.LaysDown d front back) {f : Field}
    {r : Refused (Builder × Hpack.Table)}
    (hno : b.addField table f = .error r) :
    b.Leaves d front back ⟨r.error, r.left.1⟩ := by
  rcases h.addField_refused hno with hrefused | ⟨-, rfl⟩
  · exact h.leaves_of_refuses hrefused rfl h.payloadStart_le_contentEnd
      (Nat.le_add_right _ _)
  · exact .inl rfl

theorem LaysDown.leaves_of_addSetting (h : b.LaysDown d front back)
    {known : Setting} {value : UInt32} {r : Refused Builder}
    (hno : b.addSetting known value = .error r) : b.Leaves d front back r := by
  unfold addSetting at hno
  split at hno
  case isTrue =>
    obtain rfl := Except.error.inj hno
    exact .inl rfl
  case isFalse =>
    split at hno
    case isTrue => exact h.leaves_of_append hno
    case isFalse =>
      obtain rfl := Except.error.inj hno
      exact .inl rfl

theorem LaysDown.leaves_of_setPriority (h : b.LaysDown d front back)
    (hd : d.WellFormed) {standing : Priority} {r : Refused Builder}
    (hno : b.setPriority standing = .error r) : b.Leaves d front back r := by
  rcases setPriority_refused hno with ⟨-, rfl⟩ | ⟨-, -, hinsert⟩
  · exact .inl rfl
  · have hfields := h.fieldsStart_eq hd
    have hend := h.contentEnd_eq
    have hbody : d.padding.toList.length ≤ d.body.length := by
      rw [Draft.body, List.append_assoc, List.length_append]
      exact Nat.le_add_right _ _
    refine h.leaves_of_insert ?_ ?_ hinsert
    · rw [h.payloadStart_eq, hfields]
      exact Nat.le_add_right _ _
    · omega

theorem LaysDown.leaves_of_addPadLength (h : b.LaysDown d front back)
    (hnone : d.padding = none) {r : Refused Builder}
    (hno : b.addPadLength = .error r) : b.Leaves d front back r :=
  h.leaves_of_insert (Nat.le_refl _) h.payloadStart_le_contentEnd
    (h.insert_of_addPadLength hnone hno)

theorem LaysDown.leaves_of_resizePadding (h : b.LaysDown d front back)
    {old new : UInt8} (hsome : d.padding = some old) {r : Refused Builder}
    (hno : b.resizePadding new = .error r) : b.Leaves d front back r := by
  refine h.leaves_of_refuses (resizePadding_refused hno) rfl (Nat.le_refl _) ?_
  have hbody : d.body.length = 1 + (d.fields ++ d.content).length := by
    rw [Draft.body, hsome, List.append_assoc, List.length_append]
    rfl
  rw [h.payloadStart_eq, h.contentEnd_eq, hbody, List.length_singleton]
  omega

/-- A refused padding leaves the builder like any other call, or it is a
first one and leaves the padded frame with no padding like any other
call. -/
theorem LaysDown.leaves_of_setPadding (h : b.LaysDown d front back)
    (hd : d.WellFormed) {padding : UInt8} {r : Refused Builder}
    (hno : b.setPadding padding = .error r) :
    b.Leaves d front back r
      ∨ d.padding = none ∧ ∃ b₁, b.addPadLength = .ok b₁
        ∧ b₁.Leaves (d.setPadding 0) front back r := by
  rcases h.setPadding_refused hd hno
    with ⟨old, hsome, hresize⟩ | ⟨hnone, hfirst | ⟨b₁, hfirst, hresize⟩⟩
  · exact .inl (h.leaves_of_resizePadding hsome hresize)
  · exact .inl (h.leaves_of_addPadLength hnone hfirst)
  · obtain ⟨hlays, -⟩ := h.addPadLength hnone hfirst
    exact .inr ⟨hnone, b₁, hfirst, hlays.leaves_of_resizePadding rfl hresize⟩

end Builder

/-- Whether an edit stands for several calls. -/
def Edit.isRun : Edit → Bool
  | fields _ | settings _ => true
  | _ => false

namespace Builder

variable {b b' : Builder} {table : Hpack.Table} {e : Edit}

/-- Of the edits that are one call only padding is a special case. -/
theorem LaysDown.leaves_of_edit (h : b.LaysDown d front back)
    (hd : d.WellFormed) (hrun : e.isRun = false) (hpadding : e.padding? = none)
    {r : Refused (Builder × Hpack.Table)} (hno : b.edit table e = .error r) :
    b.Leaves d front back ⟨r.error, r.left.1⟩ := by
  cases e with
  | endStream | endHeaders | errorCode | opaqueData => cases hno
  | padding => cases hpadding
  | fields | settings => cases hrun
  | streamId id | promisedStreamId id | lastStreamId id =>
      obtain ⟨q, hset, rfl⟩ := Attempt.within_eq_error_iff.mp hno
      rcases Attempt.guarded_eq_error_iff.mp hset
        with ⟨cause, -, rfl⟩ | ⟨-, hdone⟩
      · exact .inl rfl
      · cases hdone
  | acknowledge =>
      obtain ⟨q, hset, rfl⟩ := Attempt.within_eq_error_iff.mp hno
      unfold Builder.acknowledge at hset
      split at hset
      case isTrue =>
        obtain rfl := Except.error.inj hset
        exact .inl rfl
      case isFalse => cases hset
  | windowSizeIncrement increment =>
      obtain ⟨q, hset, rfl⟩ := Attempt.within_eq_error_iff.mp hno
      unfold setIncrement at hset
      split at hset
      case isTrue =>
        obtain rfl := Except.error.inj hset
        exact .inl rfl
      case isFalse => cases hset
  | payload octets =>
      obtain ⟨q, hset, rfl⟩ := Attempt.within_eq_error_iff.mp hno
      unfold Builder.setPayload at hset
      split at hset
      case isTrue => cases hset
      case isFalse =>
        obtain rfl := Except.error.inj hset
        exact .inl rfl
  | append octets =>
      obtain ⟨q, happend, rfl⟩ := Attempt.within_eq_error_iff.mp hno
      exact h.leaves_of_append happend
  | priority standing =>
      obtain ⟨q, hset, rfl⟩ := Attempt.within_eq_error_iff.mp hno
      exact h.leaves_of_setPriority hd hset
  | field f => exact h.leaves_of_addField hno
  | setting known value =>
      obtain ⟨q, hadd, rfl⟩ := Attempt.within_eq_error_iff.mp hno
      exact h.leaves_of_addSetting hadd

end Builder

-- ========================================================== several calls

/-- The draft `d₁` can be written, and it has the type and the stream of
`d` and its flags but for the one that tells of padding. -/
structure Draft.Kept (d d₁ : Draft) : Prop where
  wellFormed : d₁.WellFormed
  type_eq : d₁.type = d.type
  streamId_eq : d₁.streamId = d.streamId
  flags_eq : d₁.flags &&& ~~~Flag.padded.mask = d.flags &&& ~~~Flag.padded.mask

namespace Draft.Kept

theorem refl (hd : d.WellFormed) : d.Kept d := ⟨hd, rfl, rfl, rfl⟩

theorem append (h : d.Kept d₁)
    (hfits : (d₁.append octets).payload.length ≤ Header.maxLength) :
    d.Kept (d₁.append octets) :=
  ⟨h.wellFormed.append hfits, h.type_eq, h.streamId_eq, h.flags_eq⟩

theorem setPadding {padding : UInt8} (h : (d.setPadding padding).WellFormed) :
    d.Kept (d.setPadding padding) where
  wellFormed := h
  type_eq := rfl
  streamId_eq := rfl
  flags_eq := by
    have hall : ∀ n : Fin 256,
        (UInt8.ofFin n ||| Flag.padded.mask) &&& ~~~Flag.padded.mask
          = UInt8.ofFin n &&& ~~~Flag.padded.mask := by
      decide +kernel
    exact hall d.flags.toFin

end Draft.Kept

namespace Builder

variable {b b' : Builder} {table : Hpack.Table} {e : Edit}

/-- If calls append in a row and one of them is refused, the frame is left with
what those before it have appended. -/
theorem LaysDown.heads_of_chain {σ ι : Type} {call : σ → ι → Attempt σ}
    (view : σ → Builder)
    (happends : ∀ s i s', call s i = .ok s' →
      ∃ octets, (view s).append octets = .ok (view s'))
    (hleaves : ∀ s i r d, (view s).LaysDown d front back →
      call s i = .error r →
      (view s).Leaves d front back ⟨r.error, view r.left⟩)
    {s : σ} {is : List ι} {r : Refused σ} (h : (view s).LaysDown d front back)
    (hd : d.WellFormed) (hno : Attempt.chain call s is = .error r) :
    ∃ d₁, d.Kept d₁
      ∧ d₁.Heads (view r.left).buffer (view s).maxLimit front back := by
  have hstep : ∀ s₁ i s₂,
      (∃ d₁, d.Kept d₁ ∧ (view s₁).LaysDown d₁ front back
        ∧ (view s₁).maxLimit = (view s).maxLimit) →
      call s₁ i = .ok s₂ →
      ∃ d₁, d.Kept d₁ ∧ (view s₂).LaysDown d₁ front back
        ∧ (view s₂).maxLimit = (view s).maxLimit := by
    rintro s₁ i s₂ ⟨d₁, hkept, hlays, hmax⟩ hok
    obtain ⟨octets, happend⟩ := happends s₁ i s₂ hok
    obtain ⟨hlays', hfits⟩ := hlays.append happend
    exact ⟨_, hkept.append hfits, hlays', (maxLimit_append happend).trans hmax⟩
  obtain ⟨s₁, i, ⟨d₁, hkept, hlays, hmax⟩, hlast⟩ :=
    Attempt.exists_kept_of_chain_eq_error hstep ⟨d, .refl hd, h, rfl⟩ hno
  exact ⟨d₁, hkept, hmax ▸ (hleaves s₁ i r d₁ hlays hlast).heads hlays⟩

/-- Fields that are refused leave the frame with those before them. -/
theorem LaysDown.heads_of_addFields (h : b.LaysDown d front back)
    (hd : d.WellFormed) {fs : List Field}
    {r : Refused (Builder × Hpack.Table)}
    (hno : b.addFields table fs = .error r) :
    ∃ d₁, d.Kept d₁ ∧ d₁.Heads r.left.1.buffer b.maxLimit front back := by
  rw [addFields_eq_chain] at hno
  refine heads_of_chain Prod.fst ?_ ?_ h hd hno
  · intro s f s' hok
    exact ⟨_, (addField_eq_ok hok).1⟩
  · intro s f r d hlays hfirst
    exact hlays.leaves_of_addField hfirst

/-- Parameters that are refused leave the frame with those before them. -/
theorem LaysDown.heads_of_addSettings (h : b.LaysDown d front back)
    (hd : d.WellFormed) {settings : List (Setting × UInt32)}
    {r : Refused Builder} (hno : b.addSettings settings = .error r) :
    ∃ d₁, d.Kept d₁ ∧ d₁.Heads r.left.buffer b.maxLimit front back := by
  rw [addSettings_eq_chain] at hno
  refine heads_of_chain id ?_ ?_ h hd hno
  · intro s setting s' hok
    exact ⟨_, append_of_addSetting hok⟩
  · intro s setting r d hlays hfirst
    exact hlays.leaves_of_addSetting hfirst

/-- Whatever is refused, there is a header at the front of the window. -/
theorem LaysDown.heads_of_refused (h : b.LaysDown d front back)
    (hd : d.WellFormed) (happlies : e.appliesTo d.type)
    {r : Refused (Builder × Hpack.Table)} (hno : b.edit table e = .error r) :
    ∃ d₁, d.Kept d₁ ∧ d₁.Heads r.left.1.buffer b.maxLimit front back := by
  by_cases hrun : e.isRun
  case pos =>
    cases e with
    | fields map => exact h.heads_of_addFields hd hno
    | settings record =>
        obtain ⟨q, hadd, rfl⟩ := Attempt.within_eq_error_iff.mp hno
        exact h.heads_of_addSettings hd hadd
    | _ => cases hrun
  case neg =>
    have hrun : e.isRun = false := Bool.eq_false_iff.mpr hrun
    cases hpadding : e.padding? with
    | none =>
        exact ⟨d, .refl hd, (h.leaves_of_edit hd hrun hpadding hno).heads h⟩
    | some padding =>
        cases e <;> cases hpadding
        obtain ⟨q, hset, rfl⟩ := Attempt.within_eq_error_iff.mp hno
        rcases h.leaves_of_setPadding hd hset
          with hleaves | ⟨hnone, b₁, hfirst, hleaves⟩
        · exact ⟨d, .refl hd, hleaves.heads h⟩
        · obtain ⟨hlays, hfits⟩ := h.addPadLength hnone hfirst
          have hheads := hleaves.heads hlays
          rw [maxLimit_addPadLength hfirst] at hheads
          exact ⟨_, .setPadding (hd.setPadding hfits happlies), hheads⟩

-- ============================================================= first padding

/-- A first padding whose pad length fits, whether its octets do or
not. -/
structure TakesPadLength (b : Builder) (e : Edit) : Prop where
  isPadding : e.padding?.isSome
  unpadded : b.has .padded = false
  window : b.limit + 1 ≤ b.maxLimit
  length : b.length + 1 ≤ Header.maxLength

theorem LaysDown.padding_eq_none (h : b.LaysDown d front back)
    (hd : d.WellFormed) (hunpadded : b.has .padded = false) :
    d.padding = none := by
  rw [h.has_padded hd] at hunpadded
  exact Option.isSome_eq_false_iff.mp hunpadded |> Option.isNone_iff_eq_none.mp

/-- If the pad length fits and the padding does not, the frame is left with
the pad length. -/
theorem LaysDown.left_of_takesPadLength (h : b.LaysDown d front back)
    (hd : d.WellFormed) (htakes : b.TakesPadLength e)
    {r : Refused (Builder × Hpack.Table)} (hno : b.edit table e = .error r)
    (hshort : r.error ≠ .invalidArgument .payloadTooLong) :
    b.addPadLength = .ok r.left.1 := by
  obtain ⟨hpadding, hunpadded, hwindow, hlength⟩ := htakes
  have hnone := h.padding_eq_none hd hunpadded
  have hzero := h.padding_eq_zero hnone
  have hend := h.contentEnd_add_padding
  cases e with
  | padding octets =>
      obtain ⟨q, hset, rfl⟩ := Attempt.within_eq_error_iff.mp hno
      rcases h.setPadding_refused hd hset
        with ⟨old, hsome, -⟩ | ⟨-, hfirst | ⟨b₁, hfirst, hresize⟩⟩
      · rw [hnone] at hsome
        cases hsome
      · cases h.addPadLength_refused hnone hfirst with
        | overrun hlimit => omega
        | tooLong hlimit hlong => exact absurd rfl hshort
      · obtain ⟨hlays, -⟩ := h.addPadLength hnone hfirst
        rcases hlays.leaves_of_resizePadding rfl hresize
          with hsame | ⟨hlong, -⟩
        · rw [hfirst, hsame]
        · exact absurd hlong hshort
  | _ => cases hpadding

/-- All other refusals for reasons other than the length of the payload
leave the buffer as it was. -/
theorem LaysDown.buffer_of_refused (h : b.LaysDown d front back)
    (hd : d.WellFormed) (happlies : e.appliesTo d.type)
    (hrun : e.isRun = false) {r : Refused (Builder × Hpack.Table)}
    (hno : b.edit table e = .error r)
    (hshort : r.error ≠ .invalidArgument .payloadTooLong)
    (hnot : ¬ b.TakesPadLength e) : r.left.1.buffer = b.buffer := by
  cases hpadding : e.padding? with
  | none =>
      rcases h.leaves_of_edit hd hrun hpadding hno with hsame | ⟨hlong, -⟩
      · exact congrArg Builder.buffer hsame
      · exact absurd hlong hshort
  | some padding =>
      cases e <;> cases hpadding
      obtain ⟨q, hset, rfl⟩ := Attempt.within_eq_error_iff.mp hno
      rcases h.leaves_of_setPadding hd hset
        with (hsame | ⟨hlong, -⟩) | ⟨hnone, b₁, hfirst, -⟩
      · exact congrArg Builder.buffer hsame
      · exact absurd hlong hshort
      · obtain ⟨hlays, hfits⟩ := h.addPadLength hnone hfirst
        obtain ⟨hwindow, hlength⟩ :=
          hlays.limit_fits (hd.setPadding hfits happlies)
        have hend := h.contentEnd_addPadLength hnone hfirst
        have hlimit := h.contentEnd_add_padding
        have hlimit₁ := hlays.contentEnd_add_padding
        have hzero := h.padding_eq_zero hnone
        have hzero₁ : b₁.padding = 0 := hlays.padding_eq
        have hstart := h.payloadStart_le_contentEnd
        have hstart₁ : b₁.payloadStart = b.payloadStart := by
          rw [hlays.payloadStart_eq, h.payloadStart_eq]
        rw [maxLimit_addPadLength hfirst] at hwindow
        refine absurd ⟨rfl, ?_, by omega, ?_⟩ hnot
        · rw [h.has_padded hd, hnone]
          rfl
        · rw [Builder.length]
          omega

-- =============================================================== the result

/-- The window of a builder as it was started, and what was there. -/
theorem exists_window {type : FrameType} {buffer : Buffer}
    {offset maxLimit : Nat}
    (hstart : start type buffer offset maxLimit = .ok b) :
    (buffer.toList.take offset).length = offset
      ∧ offset + Header.width < addressSpace
      ∧ ∃ between, buffer.toList = buffer.toList.take offset ++ between
          ++ buffer.toList.drop maxLimit
        ∧ (buffer.toList.take offset ++ between).length = maxLimit := by
  obtain ⟨hroom, -⟩ := start_eq_ok_iff.mp hstart
  obtain ⟨hmax, hspace, hle⟩ := requireRoom_eq_ok_iff.mp hroom
  have hfront : (buffer.toList.take offset).length = offset := by
    rw [List.length_take, Buffer.length_toList]
    omega
  obtain ⟨between, hlength, hrest⟩ :=
    buffer.exists_drop_eq (show offset ≤ maxLimit by omega) hmax
  refine ⟨hfront, by omega, between, ?_, ?_⟩
  · rw [List.append_assoc, ← hrest, List.take_append_drop]
  · rw [List.length_append, hfront, hlength]

/-- Calls keep to their window, and refused calls keep what they can.
Whatever a call on a builder comes to, the octets outside of the window
stay as they were before the frame was started. A call that is refused,
for anything but the length of the payload, leaves the buffer as it was,
unless it is a run of calls or a first padding whose pad length fits; that
leaves the frame with the pad length in front of its payload and the
header to match. And after any refusal a frame can be read in the window,
of the same type and stream and with the same flags but for the one that
tells of padding. -/
theorem edit_contained {type : FrameType} {buffer : Buffer}
    {offset maxLimit : Nat} {b b' : Builder} {rs : List Request}
    (hstart : start type buffer offset maxLimit = .ok b)
    (happlies : ∀ r ∈ rs, r.edit.appliesTo type) (hgrant : b.grant rs = .ok b')
    (table : Hpack.Table) (e : Edit) (he : e.appliesTo type) :
    (∀ i, i < offset ∨ maxLimit ≤ i →
      b'.buffer.octet? i = buffer.octet? i
      ∧ (b'.edit table e).state.1.buffer.octet? i = buffer.octet? i)
    ∧ ∀ r, b'.edit table e = .error r →
      (e.isRun = false → r.error ≠ .invalidArgument .payloadTooLong →
        (¬ b'.TakesPadLength e → r.left.1.buffer = b'.buffer)
        ∧ (b'.TakesPadLength e → ∃ header payload,
          b'.octets = Header.encode header ++ payload
          ∧ r.left.1.octets = Header.encode { header with
              length := header.length + 1
              flags := header.flags ||| Flag.padded.mask } ++ 0 :: payload
          ∧ header.length = payload.length))
      ∧ ∃ f f', RawFrame.read b'.buffer offset maxLimit = .ok f
        ∧ RawFrame.read r.left.1.buffer offset maxLimit = .ok f'
        ∧ f'.header.typeCode = f.header.typeCode
        ∧ f'.header.streamId = f.header.streamId
        ∧ f'.header.flags &&& ~~~Flag.padded.mask
          = f.header.flags &&& ~~~Flag.padded.mask := by
  have hmeets := granted_meets hstart happlies hgrant
  obtain ⟨hoffset, hmax⟩ := window_granted hstart happlies hgrant
  obtain ⟨hfront, hspace, between, hbuffer, hbetween⟩ := exists_window hstart
  have he' : e.appliesTo (Draft.requested type rs).type := by
    rw [Draft.type_requested]
    exact he
  have hheads := hmeets.lays.heads
  rw [hmax] at hheads
  -- whatever the outcome, there is a header at the front of the window
  have hafter : ∃ d₁ : Draft, d₁.Heads (b'.edit table e).state.1.buffer maxLimit
      (buffer.toList.take offset) (buffer.toList.drop maxLimit) := by
    cases hedit : b'.edit table e with
    | ok s =>
        obtain ⟨hlays, -, -⟩ := hmeets.lays.edit hmeets.wellFormed he' hedit
        have hheads' := hlays.heads
        rw [maxLimit_edit hedit, hmax] at hheads'
        exact ⟨_, hheads'⟩
    | error r =>
        obtain ⟨d₁, -, hheads'⟩ :=
          hmeets.lays.heads_of_refused hmeets.wellFormed he' hedit
        rw [hmax] at hheads'
        exact ⟨d₁, hheads'⟩
  refine ⟨?outside, ?refused⟩
  case outside =>
    intro i hi
    rw [← hfront] at hi
    obtain ⟨d₁, hheads'⟩ := hafter
    exact ⟨hheads.octet?_eq hbuffer hbetween hi,
      hheads'.octet?_eq hbuffer hbetween hi⟩
  case refused =>
    intro r hno
    refine ⟨?kept, ?frame⟩
    case kept =>
      intro hrun hshort
      refine ⟨?_, ?_⟩
      · intro hnot
        exact hmeets.lays.buffer_of_refused hmeets.wellFormed he' hrun hno
          hshort hnot
      · intro htakes
        have hnone :=
          hmeets.lays.padding_eq_none hmeets.wellFormed htakes.unpadded
        have hfirst := hmeets.lays.left_of_takesPadLength hmeets.wellFormed
          htakes hno hshort
        obtain ⟨hlays, -⟩ := hmeets.lays.addPadLength hnone hfirst
        refine ⟨_, _, hmeets.lays.octets_eq, ?_, rfl⟩
        rw [hlays.octets_eq, Draft.encode_setPadding_zero hnone]
    case frame =>
      obtain ⟨d₁, hkept, hheads'⟩ :=
        hmeets.lays.heads_of_refused hmeets.wellFormed he' hno
      rw [hmax] at hheads'
      have hread := hheads.read hmeets.wellFormed (by omega)
      have hread' := hheads'.read hkept.wellFormed (by omega)
      rw [hfront] at hread hread'
      exact ⟨_, _, hread, hread', congrArg FrameType.code hkept.type_eq,
        hkept.streamId_eq, hkept.flags_eq⟩

/-- A DATA frame in a window that has room for a pad length and for no
padding. -/
theorem edit_contained_padding :
    ∃ b b' r, start .data (.ofList (List.replicate 14 9)) 1 13 = .ok b
      ∧ b.grant [⟨.append [1, 2], {}⟩] = .ok b'
      ∧ b'.edit {} (.padding 1) = .error r
      ∧ b'.octets = [0, 0, 2, 0, 0, 0, 0, 0, 0, 1, 2]
      ∧ r.left.1.octets.drop 9 = [0, 1, 2]
      ∧ r.left.1.buffer.octet? 13 = some 9
      ∧ ∃ f, RawFrame.read r.left.1.buffer 1 13 = .ok f := by
  have hstart : start .data (.ofList (List.replicate 14 9)) 1 13
      = .ok ⟨.data, .ofList [9, 0, 0, 0, 0, 0, 0, 0, 0, 0, 9, 9, 9, 9], 1, 10,
        13, 0⟩ := rfl
  obtain ⟨b', hgrant⟩ := exists_eq_ok_of_isOk (show (grant ⟨.data, .ofList [9,
      0, 0, 0, 0, 0, 0, 0, 0, 0, 9, 9, 9, 9], 1, 10, 13, 0⟩
    [⟨.append [1, 2], {}⟩]).isOk = true by decide +kernel)
  have hmeets := granted_meets hstart (by decide) hgrant
  have hoctets : b'.octets = [0, 0, 2, 0, 0, 0, 0, 0, 0, 1, 2] :=
    hmeets.lays.octets_eq.trans (by decide +kernel)
  have hlimit : b'.limit = 12 := hmeets.lays.limit_eq.trans (by decide +kernel)
  obtain ⟨hoffset, hmax⟩ := window_granted hstart (by decide) hgrant
  have htakes : b'.TakesPadLength (.padding 1) := by
    refine ⟨rfl, (hmeets.lays.has_eq .padded).trans (by decide), ?_, ?_⟩
    · omega
    · rw [length, payloadStart, hlimit, hoffset]
      decide
  obtain ⟨houtside, hrefused⟩ :=
    edit_contained hstart (by decide) hgrant {} (.padding 1) rfl
  -- the padding is too long for the window, but not for the length field
  obtain ⟨r, hno⟩ : ∃ r, b'.edit {} (.padding 1) = .error r := by
    cases hedit : b'.edit {} (.padding 1) with
    | error r => exact ⟨r, rfl⟩
    | ok s =>
        obtain ⟨hlays, hwell, -⟩ :=
          hmeets.lays.edit hmeets.wellFormed (by rfl) hedit
        have hwindow := (hlays.hasRoom hwell).window
        rw [hlays.offset_eq, maxLimit_edit hedit, hmax] at hwindow
        exact absurd hwindow (by decide +kernel)
  have hshort : r.error ≠ .invalidArgument .payloadTooLong := by
    have hgrowth : b'.growth? {} (.padding 1) = some 1 := by
      rw [growth?, htakes.unpadded]
      rfl
    have hend : b'.limitAfter (.padding 1) 1 = 14 := by
      rw [limitAfter, contentEnd, hlimit, hmeets.lays.padding_eq]
      decide
    have hover : b'.Overfull 14 r.error := by
      rw [← hend]
      refine hmeets.lays.overfull_of_edit hmeets.wellFormed (hmax ▸ by decide)
        (by rfl) (show Edit.Legal (.padding 1) from trivial) ?_ hgrowth hno
      intro htype
      cases htype
    generalize r.error = cause at hover
    cases hover with
    | window =>
        intro hlong
        cases hlong
    | length hlong =>
        rw [payloadStart, hoffset] at hlong
        exact absurd hlong (by decide)
  obtain ⟨hkept, f, f', -, hread, -⟩ := hrefused r hno
  obtain ⟨header, payload, hbefore, hafter, -⟩ := (hkept rfl hshort).2 htakes
  have hdrop : ∀ (header : Header) (payload : List UInt8),
      (header.encode ++ payload).drop 9 = payload := fun header payload =>
    List.drop_left' (show header.encode.length = 9 from header.length_encode)
  have hpayload : [1, 2] = payload := by
    have hbehind := congrArg (List.drop 9) hbefore
    rwa [hoctets, hdrop] at hbehind
  refine ⟨_, b', r, hstart, hgrant, hno, hoctets, ?_, ?_, f', hread⟩
  · rw [hafter, hdrop, hpayload]
  · have hbehind := (houtside 13 (.inr (Nat.le_refl _))).2
    rw [hno] at hbehind
    exact hbehind.trans (by decide +kernel)

end Builder

end Http2.Frame
