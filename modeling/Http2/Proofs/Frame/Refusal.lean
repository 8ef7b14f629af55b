/-
Why calls are refused, and what they leave behind.

There are two ways for a frame to outgrow its place, and they are noticed
at different times (`Refuses`). That its end lies behind the bound is
noticed before anything is written. That its payload is too long for the
length field is noticed when the content is written already, but before
the header tells of it. A first padding is two calls in one, so it can be
refused with its pad length in place (`setPadding_refused`).
-/
import Http2.Proofs.Frame.Room

namespace Http2.Frame.Builder

variable {b b' : Builder} {d : Draft} {front back : List UInt8}
variable {table : Hpack.Table} {limit start : Nat} {octets : List UInt8}

/-- A call that makes the frame end at `limit` is refused: with the builder
as it was if that is behind the bound, and with `written` in its place if
the payload is too long. -/
inductive Refuses (b written : Builder) (limit : Nat) : Refused Builder → Prop
  | overrun {stop bound : Nat} (hlimit : b.maxLimit < limit) :
      Refuses b written limit ⟨.bufferOverrun stop bound, b⟩
  | tooLong (hlimit : limit ≤ b.maxLimit)
      (hlength : Header.maxLength < limit - b.payloadStart) :
      Refuses b written limit ⟨.invalidArgument .payloadTooLong, written⟩

-- ============================================================= growing calls

theorem requireLength_eq_error_iff {length : Nat} {e : Error} :
    requireLength length = .error e
      ↔ Header.maxLength < length ∧ e = .invalidArgument .payloadTooLong := by
  unfold requireLength
  split
  case isTrue hle => exact ⟨nofun, fun h => absurd h.1 (by omega)⟩
  case isFalse hlong =>
    constructor
    · intro h
      exact ⟨by omega, (Except.error.inj h).symm⟩
    · rintro ⟨-, rfl⟩
      rfl

theorem endContentAt_refused {contentEnd : Nat} {r : Refused Builder}
    (hno : b.endContentAt contentEnd = .error r) :
    b.Refuses b (contentEnd + b.padding) r := by
  rcases Attempt.guarded_eq_error_iff.mp hno
    with ⟨e, hend, rfl⟩ | ⟨hend, hno⟩
  · obtain ⟨hlimit, rfl⟩ := requireEnd_eq_error_iff.mp hend
    exact .overrun hlimit
  · rcases Attempt.guarded_eq_error_iff.mp hno
      with ⟨e, hfits, rfl⟩ | ⟨-, hdone⟩
    · obtain ⟨hlength, rfl⟩ := requireLength_eq_error_iff.mp hfits
      exact .tooLong (requireEnd_eq_ok_iff.mp hend) hlength
    · cases hdone

/-- The bound is checked before anything is written, so only the length of
the payload is left to be refused. -/
theorem refused_of_written {written : Builder} {contentEnd : Nat}
    {r : Refused Builder} (hlimit : contentEnd + written.padding ≤ b.maxLimit)
    (hmax : written.maxLimit = b.maxLimit)
    (hstart : written.payloadStart = b.payloadStart)
    (hno : written.endContentAt contentEnd = .error r) :
    b.Refuses written (contentEnd + written.padding) r := by
  cases endContentAt_refused hno with
  | overrun hlt =>
      rw [hmax] at hlt
      exact absurd hlimit (Nat.not_le_of_lt hlt)
  | tooLong hle hlength =>
      rw [hstart] at hlength
      exact .tooLong hlimit hlength

theorem insert_refused {r : Refused Builder}
    (hno : b.insert start octets = .error r) :
    b.Refuses (b.overwrite start (octets ++ b.buffer.slice start b.contentEnd))
      (b.contentEnd + octets.length + b.padding) r := by
  rcases Attempt.guarded_eq_error_iff.mp hno
    with ⟨e, hend, rfl⟩ | ⟨hend, hno⟩
  · obtain ⟨hlimit, rfl⟩ := requireEnd_eq_error_iff.mp hend
    exact .overrun hlimit
  · exact refused_of_written (requireEnd_eq_ok_iff.mp hend)
      (maxLimit_overwrite ..) (payloadStart_overwrite ..) hno

theorem append_refused {r : Refused Builder}
    (hno : b.append octets = .error r) :
    b.Refuses (b.overwrite b.contentEnd octets)
      (b.contentEnd + octets.length + b.padding) r := by
  rw [append_eq_insert] at hno
  have hrefused := insert_refused hno
  rwa [Buffer.slice_self, List.append_nil] at hrefused

/-- The frame as it stands fits. -/
theorem LaysDown.limit_fits (h : b.LaysDown d front back) (hd : d.WellFormed) :
    b.limit ≤ b.maxLimit ∧ b.limit - b.payloadStart ≤ Header.maxLength := by
  obtain ⟨room, hroom, -⟩ := h.buffer_eq
  have hlimit := h.limit_eq
  have hstart := h.payloadStart_eq
  have hlength := hd.length_le
  rw [Draft.length_encode] at hlimit
  omega

-- ====================================================== the nested builder

/-- Adding a field is appending its representation, with the table beside
it. If both are refused, the nested builder tells an end and a bound that
leave the padding out. -/
theorem LaysDown.append_eq_addField (h : b.LaysDown d front back)
    (hspace : b.contentEnd < addressSpace) (table : Hpack.Table) (f : Field) :
    (b.append (table.encode f).1).within (·, (table.encode f).2)
      = (b.addField table f).mapError fun r =>
        ⟨r.error.shift b.padding, r.left⟩ := by
  have hsize := h.maxLimit_le_size
  have hend := h.contentEnd_add_padding
  obtain ⟨room, hroom, -⟩ := h.buffer_eq
  have hstart : HeaderBlock.Builder.start b.buffer b.contentEnd
      (b.maxLimit - b.padding)
      = .ok ⟨b.buffer, b.contentEnd, b.contentEnd, b.maxLimit - b.padding⟩ :=
    HeaderBlock.Builder.start_eq_ok_iff.mpr
      ⟨requireRoom_eq_ok_iff.mpr (by omega), rfl⟩
  unfold addField Builder.append
  simp only [hstart, HeaderBlock.Builder.field, HeaderBlock.Builder.append]
  by_cases hfits : b.contentEnd + (table.encode f).1.length + b.padding
      ≤ b.maxLimit
  case pos =>
    rw [requireEnd_of_le hfits, requireEnd_of_le (show b.contentEnd
      + (table.encode f).1.length ≤ b.maxLimit - b.padding by omega)]
    simp only [Attempt.guarded, Attempt.within]
    -- the rest of both calls is to end the content
    generalize hlast :
      (b.overwrite b.contentEnd (table.encode f).1).endContentAt
        (b.contentEnd + (table.encode f).1.length) = outcome
    have hnested : Builder.endContentAt { b with
        buffer := b.buffer.write b.contentEnd (table.encode f).1 }
        (b.contentEnd + (table.encode f).1.length) = outcome := hlast
    rw [hnested]
    cases outcome with
    | ok b₁ => rfl
    | error q =>
        cases endContentAt_refused hlast with
        | overrun hlimit => exact absurd hfits (Nat.not_le_of_lt hlimit)
        | tooLong hlimit hlength => rfl
  case neg =>
    have hbound : b.maxLimit - b.padding + b.padding = b.maxLimit := by omega
    rw [requireEnd_of_lt (Nat.lt_of_not_le hfits), requireEnd_of_lt (show
      b.maxLimit - b.padding < b.contentEnd + (table.encode f).1.length by
        omega)]
    simp only [Attempt.guarded, Attempt.refuse, Attempt.within, Except.mapError,
      Error.shift, hbound]

/-- A field is refused together with its representation. The table knows
the field all the same. -/
theorem LaysDown.append_eq_error (h : b.LaysDown d front back)
    (hspace : b.contentEnd < addressSpace) {f : Field}
    {r : Refused (Builder × Hpack.Table)}
    (hno : b.addField table f = .error r) :
    ∃ q, b.append (table.encode f).1 = .error q
      ∧ r.error.shift b.padding = q.error
      ∧ r.left = (q.left, (table.encode f).2) := by
  have hsame := h.append_eq_addField hspace table f
  simp only [hno, Except.mapError] at hsame
  obtain ⟨q, happend, hrefused⟩ := Attempt.within_eq_error_iff.mp hsame
  obtain ⟨herror, hleft⟩ := Refused.mk.inj hrefused
  exact ⟨q, happend, herror, hleft⟩

/-- A field at an address that is no 64 bit number is refused before it is
encoded. -/
theorem LaysDown.addField_of_unaddressable (h : b.LaysDown d front back)
    (hspace : addressSpace ≤ b.contentEnd) (table : Hpack.Table) (f : Field) :
    b.addField table f
      = .refuse (b, table) (.invalidArgument .offsetOverflows) := by
  have hsize := h.maxLimit_le_size
  have hstart : HeaderBlock.Builder.start b.buffer b.contentEnd
      (b.maxLimit - b.padding)
      = .error (.invalidArgument .offsetOverflows) := by
    rw [HeaderBlock.Builder.start, requireRoom_eq, if_pos (by omega),
      if_neg (by omega)]
    rfl
  unfold addField
  simp only [hstart]

/-- A field is refused like its representation. An address that is no
64 bit number is refused before. -/
theorem LaysDown.addField_refused (h : b.LaysDown d front back) {f : Field}
    {r : Refused (Builder × Hpack.Table)}
    (hno : b.addField table f = .error r) :
    b.Refuses (b.overwrite b.contentEnd (table.encode f).1)
        (b.contentEnd + (table.encode f).1.length + b.padding)
        ⟨r.error, r.left.1⟩
      ∨ addressSpace ≤ b.contentEnd
        ∧ r = ⟨.invalidArgument .offsetOverflows, (b, table)⟩ := by
  by_cases hspace : b.contentEnd < addressSpace
  case neg =>
    have hspace : addressSpace ≤ b.contentEnd := Nat.le_of_not_lt hspace
    rw [h.addField_of_unaddressable hspace] at hno
    exact .inr ⟨hspace, (Except.error.inj hno).symm⟩
  case pos =>
    obtain ⟨q, happend, herror, hleft⟩ := h.append_eq_error hspace hno
    have hrefused := append_refused happend
    rw [hleft]
    generalize r.error = cause at herror
    left
    cases hrefused with
    | overrun hlimit =>
        cases cause <;> cases herror
        exact .overrun hlimit
    | tooLong hlimit hlength =>
        cases cause <;> cases herror
        exact .tooLong hlimit hlength

-- ================================================================== padding

theorem resizePadding_refused {padding : UInt8} {r : Refused Builder}
    (hno : b.resizePadding padding = .error r) :
    b.Refuses { b.overwrite b.payloadStart [padding] with
      padding := padding.toNat } (b.contentEnd + padding.toNat) r := by
  rcases Attempt.guarded_eq_error_iff.mp hno
    with ⟨e, hend, rfl⟩ | ⟨hend, hno⟩
  · obtain ⟨hlimit, rfl⟩ := requireEnd_eq_error_iff.mp hend
    exact .overrun hlimit
  · have hmax : ({ b.overwrite b.payloadStart [padding] with
        padding := padding.toNat } : Builder).maxLimit = b.maxLimit :=
      maxLimit_overwrite b b.payloadStart [padding]
    have hstart : ({ b.overwrite b.payloadStart [padding] with
        padding := padding.toNat } : Builder).payloadStart = b.payloadStart :=
      payloadStart_overwrite b b.payloadStart [padding]
    exact refused_of_written (requireEnd_eq_ok_iff.mp hend) hmax hstart hno

/-- A pad length is refused like any other octet. -/
theorem LaysDown.insert_of_addPadLength (h : b.LaysDown d front back)
    (hnone : d.padding = none) {r : Refused Builder}
    (hno : b.addPadLength = .error r) :
    b.insert b.payloadStart [0] = .error r := by
  rw [h.addPadLength_eq hnone] at hno
  rcases Attempt.andThen_eq_error_iff.mp hno with hinsert | ⟨b₁, -, hdone⟩
  · exact hinsert
  · cases hdone

theorem LaysDown.addPadLength_refused (h : b.LaysDown d front back)
    (hnone : d.padding = none) {r : Refused Builder}
    (hno : b.addPadLength = .error r) :
    b.Refuses (b.overwrite b.payloadStart
        (0 :: b.buffer.slice b.payloadStart b.contentEnd)) (b.contentEnd + 1)
      r := by
  have hrefused := insert_refused (h.insert_of_addPadLength hnone hno)
  rwa [h.padding_eq_zero hnone] at hrefused

/-- The pad length moves the content by one octet. -/
theorem LaysDown.contentEnd_addPadLength (h : b.LaysDown d front back)
    (hnone : d.padding = none) (hok : b.addPadLength = .ok b') :
    b'.contentEnd = b.contentEnd + 1 := by
  obtain ⟨hlays, -⟩ := h.addPadLength hnone hok
  have hbody := d.length_body_setPadding 0
  rw [hnone] at hbody
  rw [hlays.contentEnd_eq, h.contentEnd_eq, hbody]
  rfl

/-- A padding is refused when it is exchanged for another, when the pad
length is added, or with the pad length added when it is given its
length. -/
theorem LaysDown.setPadding_refused (h : b.LaysDown d front back)
    (hd : d.WellFormed) {padding : UInt8} {r : Refused Builder}
    (hno : b.setPadding padding = .error r) :
    (∃ old, d.padding = some old ∧ b.resizePadding padding = .error r)
      ∨ d.padding = none ∧ (b.addPadLength = .error r
        ∨ ∃ b₁, b.addPadLength = .ok b₁
          ∧ b₁.resizePadding padding = .error r) := by
  rw [Builder.setPadding, h.has_padded hd] at hno
  cases hpadding : d.padding with
  | some old =>
      rw [hpadding] at hno
      exact .inl ⟨old, rfl, hno⟩
  | none =>
      rw [hpadding] at hno
      rcases Attempt.andThen_eq_error_iff.mp hno
        with hfirst | ⟨b₁, hfirst, hresize⟩
      · exact .inr ⟨rfl, .inl hfirst⟩
      · exact .inr ⟨rfl, .inr ⟨b₁, hfirst, hresize⟩⟩

-- ================================================================= priority

/-- Priority fields are refused for their values, or for want of room if
they are added to a HEADERS frame. -/
theorem setPriority_refused {priority : Priority} {r : Refused Builder}
    (hno : b.setPriority priority = .error r) :
    reservedBit ≤ priority.streamDependency.toNat
        ∧ r = ⟨.invalidArgument .reservedStreamBit, b⟩
      ∨ b.type = .headers ∧ b.has .priority = false
        ∧ b.insert b.fieldsStart priority.encode = .error r := by
  rcases Attempt.guarded_eq_error_iff.mp hno
    with ⟨e, hbit, rfl⟩ | ⟨-, hno⟩
  · obtain ⟨hreserved, rfl⟩ := requireStreamId_eq_error_iff.mp hbit
    exact .inl ⟨hreserved, rfl⟩
  · split at hno
    case isFalse => cases hno
    case isTrue hfirst =>
      rw [Bool.and_eq_true, decide_eq_true_eq, Bool.not_eq_true'] at hfirst
      rcases Attempt.andThen_eq_error_iff.mp hno
        with hinsert | ⟨b₁, -, hdone⟩
      · exact .inr ⟨hfirst.1, hfirst.2, hinsert⟩
      · cases hdone

end Http2.Frame.Builder
