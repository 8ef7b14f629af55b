/-
Builders refuse what does not fit, and nothing else.

An edit that makes a frame longer adds octets in front of the padding
(`growth?`), so where the frame ends after it is known before it is made
(`limitAfter`). If the end lies within the bound and the payload is not
too long for the length field, the edit is made and the frame ends there;
otherwise it is refused for the one or the other (`Overfull`). A lowered
padding always fits, and what it gives up is there for content again.
-/
import Http2.Proofs.Frame.Refusal

namespace Http2.Frame

namespace Edit

variable {e : Edit}

/-- Whether an edit adds octets behind the content, given or encoded. -/
def isAppend : Edit → Bool
  | append _ | field _ => true
  | _ => false

theorem legal_of_isAppend (h : e.isAppend) : e.Legal := by
  cases e with
  | append | field => trivial
  | _ => cases h

/-- To SETTINGS frames only parameters are added. -/
theorem type_ne_settings_of_isAppend {type : FrameType} (h : e.isAppend)
    (happlies : e.appliesTo type) : type ≠ .settings := by
  rintro rfl
  cases e with
  | append | field => cases happlies
  | _ => cases h

end Edit

namespace Builder

variable {b b' : Builder} {d : Draft} {front back : List UInt8}
variable {table : Hpack.Table} {e : Edit} {n limit limit' : Nat}

-- ============================================================ where it ends

/-- How many octets an edit adds in front of the padding, if it is one
that makes the frame longer. A first padding adds the pad length. -/
def growth? (b : Builder) (table : Hpack.Table) : Edit → Option Nat
  | .append octets => some octets.length
  | .field f => some (table.encode f).1.length
  | .setting _ _ => some Parameter.width
  | .priority _ =>
    if b.type = .headers && !b.has .priority then some Priority.width else none
  | .padding _ => some (if b.has .padded then 0 else 1)
  | _ => none

/-- Where the frame ends after an edit that adds `growth` octets, with the
padding that is in force then. -/
def limitAfter (b : Builder) (e : Edit) (growth : Nat) : Nat :=
  b.contentEnd + growth + (e.padding?.map UInt8.toNat).getD b.padding

theorem LaysDown.length_append (h : b.LaysDown d front back)
    (octets : List UInt8) :
    b.payloadStart + (d.append octets).payload.length
      = b.contentEnd + octets.length + b.padding := by
  have hend := h.contentEnd_eq
  have hstart := h.payloadStart_eq
  have hpadLength : (d.append octets).padLength = d.padLength := rfl
  rw [Draft.length_payload, d.length_body_append, hpadLength, h.padding_eq]
  omega

theorem LaysDown.length_setPriority (h : b.LaysDown d front back)
    (hd : d.WellFormed) (htype : d.type = .headers)
    (hunset : Flag.priority.isSet d.flags = false) (standing : Priority) :
    b.payloadStart + (d.setPriority standing).payload.length
      = b.contentEnd + Priority.width + b.padding := by
  have hend := h.contentEnd_eq
  have hstart := h.payloadStart_eq
  rw [Draft.length_payload, hd.length_body_setPriority htype hunset,
    Priority.length_encode, d.padLength_setPriority, h.padding_eq]
  omega

/-- The pad length counts when it is added, and the padding in its new
length. -/
theorem LaysDown.length_setPadding (h : b.LaysDown d front back)
    (hd : d.WellFormed) (padding : UInt8) :
    b.payloadStart + (d.setPadding padding).payload.length
      = b.contentEnd + (if b.has .padded then 0 else 1) + padding.toNat := by
  have hend := h.contentEnd_eq
  have hstart := h.payloadStart_eq
  have hpadLength : (d.setPadding padding).padLength = padding.toNat := rfl
  rw [Draft.length_payload, d.length_body_setPadding, hpadLength,
    h.has_padded hd]
  omega

/-- The payload after an edit that makes the frame longer ends where the
frame is to end. -/
theorem LaysDown.length_edit (h : b.LaysDown d front back)
    (hd : d.WellFormed) (hgrowth : b.growth? table e = some n) :
    b.payloadStart + (d.edit table e).1.payload.length = b.limitAfter e n := by
  cases e with
  | append octets =>
      obtain rfl := Option.some.inj hgrowth
      exact h.length_append octets
  | field f =>
      obtain rfl := Option.some.inj hgrowth
      exact h.length_append (table.encode f).1
  | setting known value =>
      obtain rfl := Option.some.inj hgrowth
      have hlength := h.length_append (Parameter.announce known value).encode
      rwa [Parameter.length_encode] at hlength
  | priority standing =>
      simp only [growth?] at hgrowth
      split at hgrowth
      case isFalse => cases hgrowth
      case isTrue hfirst =>
        obtain rfl := Option.some.inj hgrowth
        rw [h.type_eq, h.has_eq, Bool.and_eq_true, decide_eq_true_eq,
          Bool.not_eq_true'] at hfirst
        exact h.length_setPriority hd hfirst.1 hfirst.2 standing
  | padding octets =>
      obtain rfl := Option.some.inj hgrowth
      exact h.length_setPadding hd octets
  | _ => cases hgrowth

-- ============================================================= what is refused

/-- A frame that is to end at `limit` does not fit: into the window, or its
payload into the length field. -/
inductive Overfull (b : Builder) (limit : Nat) : Error → Prop
  | window {stop bound : Nat} (h : b.maxLimit < limit) :
      Overfull b limit (.bufferOverrun stop bound)
  | length (h : Header.maxLength < limit - b.payloadStart) :
      Overfull b limit (.invalidArgument .payloadTooLong)

theorem Refuses.overfull {written : Builder} {r : Refused Builder}
    (h : b.Refuses written limit r) (hle : limit ≤ limit') :
    b.Overfull limit' r.error := by
  cases h with
  | overrun hlimit => exact .window (Nat.lt_of_lt_of_le hlimit hle)
  | tooLong hlimit hlength =>
      exact .length (Nat.lt_of_lt_of_le hlength (Nat.sub_le_sub_right hle _))

/-- What fits depends on the window only. -/
theorem Overfull.of_window {b₁ : Builder} {cause : Error}
    (h : b₁.Overfull limit cause) (hmax : b₁.maxLimit = b.maxLimit)
    (hstart : b₁.payloadStart = b.payloadStart) : b.Overfull limit cause := by
  cases h with
  | window hlimit => exact .window (hmax ▸ hlimit)
  | length hlength => exact .length (hstart ▸ hlength)

/-- A first padding does not fit if its pad length does not, or the padding
behind it. -/
theorem LaysDown.overfull_of_setPadding (h : b.LaysDown d front back)
    (hd : d.WellFormed) {padding : UInt8} {r : Refused Builder}
    (hno : b.setPadding padding = .error r) :
    b.Overfull (b.contentEnd + (if b.has .padded then 0 else 1)
      + padding.toNat) r.error := by
  rw [h.has_padded hd]
  rcases h.setPadding_refused hd hno
    with ⟨old, hsome, hresize⟩ | ⟨hnone, hfirst | ⟨b₁, hfirst, hresize⟩⟩
  · rw [hsome]
    exact (resizePadding_refused hresize).overfull (Nat.le_refl _)
  · rw [hnone]
    exact (h.addPadLength_refused hnone hfirst).overfull
      (Nat.le_add_right _ _)
  · rw [hnone]
    obtain ⟨hlays, -⟩ := h.addPadLength hnone hfirst
    have hend := h.contentEnd_addPadLength hnone hfirst
    have hstart : b₁.payloadStart = b.payloadStart := by
      rw [hlays.payloadStart_eq, h.payloadStart_eq]
    have hrefused := resizePadding_refused hresize
    rw [hend] at hrefused
    exact (hrefused.overfull (Nat.le_refl _)).of_window
      (maxLimit_addPadLength hfirst) hstart

/-- An edit that makes the frame longer and has legal values is refused
only if the frame does not fit after it. -/
theorem LaysDown.overfull_of_edit (h : b.LaysDown d front back)
    (hd : d.WellFormed) (hspace : b.maxLimit < addressSpace)
    (happlies : e.appliesTo d.type) (hlegal : e.Legal)
    (hunset : d.type = .settings → b.has .ack = false)
    (hgrowth : b.growth? table e = some n)
    {r : Refused (Builder × Hpack.Table)} (hno : b.edit table e = .error r) :
    b.Overfull (b.limitAfter e n) r.error := by
  cases e with
  | append octets =>
      obtain rfl := Option.some.inj hgrowth
      obtain ⟨q, happend, rfl⟩ := Attempt.within_eq_error_iff.mp hno
      exact (append_refused happend).overfull (Nat.le_refl _)
  | field f =>
      obtain rfl := Option.some.inj hgrowth
      rcases h.addField_refused hno with hrefused | ⟨hfar, rfl⟩
      · exact hrefused.overfull (Nat.le_refl _)
      · have hlimit := h.limit_eq
        have hend := h.contentEnd_eq
        obtain ⟨room, hroom, -⟩ := h.buffer_eq
        rw [Draft.length_encode, Draft.length_payload] at hlimit
        omega
  | setting known value =>
      obtain rfl := Option.some.inj hgrowth
      obtain ⟨q, hadd, rfl⟩ := Attempt.within_eq_error_iff.mp hno
      have htype : d.type = .settings := beq_iff_eq.mp happlies
      have hhas : ¬ b.has .ack := by
        rw [hunset htype]
        nofun
      have hallows : known.allows value := hlegal
      rw [addSetting, if_neg hhas, if_pos hallows] at hadd
      have hrefused := append_refused hadd
      rw [Parameter.length_encode] at hrefused
      exact hrefused.overfull (Nat.le_refl _)
  | priority standing =>
      obtain ⟨q, hset, rfl⟩ := Attempt.within_eq_error_iff.mp hno
      simp only [growth?] at hgrowth
      split at hgrowth
      case isFalse => cases hgrowth
      case isTrue =>
        obtain rfl := Option.some.inj hgrowth
        rcases setPriority_refused hset with ⟨hbit, -⟩ | ⟨-, -, hinsert⟩
        · exact absurd hlegal (Nat.not_lt_of_le hbit)
        · have hrefused := insert_refused hinsert
          rw [Priority.length_encode] at hrefused
          exact hrefused.overfull (Nat.le_refl _)
  | padding octets =>
      obtain rfl := Option.some.inj hgrowth
      obtain ⟨q, hset, rfl⟩ := Attempt.within_eq_error_iff.mp hno
      exact h.overfull_of_setPadding hd hset
  | _ => cases hgrowth

-- ================================================================= what fits

theorem LaysDown.limit_of_edit (h : b.LaysDown d front back)
    (hd : d.WellFormed) (happlies : e.appliesTo d.type)
    (hgrowth : b.growth? table e = some n) {table' : Hpack.Table}
    (hok : b.edit table e = .ok (b', table')) :
    b'.limit = b.limitAfter e n := by
  obtain ⟨hlays, -, -⟩ := h.edit hd happlies hok
  rw [hlays.limit_eq, Draft.length_encode, ← h.length_edit hd hgrowth,
    h.payloadStart_eq, Nat.add_assoc]

/-- An edit that makes the frame longer and has legal values is made just
if the frame fits after it. -/
theorem LaysDown.edit_iff_fits (h : b.LaysDown d front back)
    (hd : d.WellFormed) (hspace : b.maxLimit < addressSpace)
    (happlies : e.appliesTo d.type) (hlegal : e.Legal)
    (hunset : d.type = .settings → b.has .ack = false)
    (hgrowth : b.growth? table e = some n) :
    (∃ b' table', b.edit table e = .ok (b', table'))
      ↔ b.limitAfter e n ≤ b.maxLimit
        ∧ b.limitAfter e n - b.payloadStart ≤ Header.maxLength := by
  constructor
  · rintro ⟨b', table', hok⟩
    obtain ⟨hlays, hwell, -⟩ := h.edit hd happlies hok
    have hroom := hlays.hasRoom hwell
    have hlength := h.length_edit hd hgrowth
    have hwindow := hroom.window
    have hfits := hroom.length
    have hstart := h.payloadStart_eq
    rw [hlays.offset_eq, Draft.length_encode, maxLimit_edit hok] at hwindow
    omega
  · rintro ⟨hwindow, hfits⟩
    cases hedit : b.edit table e with
    | ok s => exact ⟨s.1, s.2, rfl⟩
    | error r =>
        have hover :=
          h.overfull_of_edit hd hspace happlies hlegal hunset hgrowth hedit
        generalize r.error = cause at hover
        cases hover with
        | window hlt => exact absurd hwindow (Nat.not_le_of_lt hlt)
        | length hlong => exact absurd hfits (Nat.not_le_of_lt hlong)

-- ================================================================ a whole run

theorem growth?_of_isAppend (b : Builder) (table : Hpack.Table)
    (h : e.isAppend) : b.growth? table e = some (e.content table).length := by
  cases e with
  | append | field => rfl
  | _ => cases h

theorem limitAfter_of_isAppend (h : b.LaysDown d front back) (he : e.isAppend)
    (n : Nat) : b.limitAfter e n = b.limit + n := by
  have hnone : e.padding? = none := by
    cases e <;> first | rfl | cases he
  have hend := h.contentEnd_add_padding
  rw [limitAfter, hnone, Option.map_none, Option.getD_none]
  omega

/-- As many octets are added as there is room for, in any number of
calls. -/
theorem Meets.exists_grant_append {type : FrameType} {done more : List Request}
    (h : b.Meets type done front back) (hspace : b.maxLimit < addressSpace)
    (happlies : ∀ r ∈ more, r.edit.appliesTo type)
    (happend : ∀ r ∈ more, r.edit.isAppend)
    (hwindow : b.limit + (Request.content more).length ≤ b.maxLimit)
    (hlength : b.limit + (Request.content more).length - b.payloadStart
      ≤ Header.maxLength) :
    ∃ b', b.grant more = .ok b' := by
  induction more generalizing b done with
  | nil => exact ⟨b, rfl⟩
  | cons r more ih =>
      obtain ⟨hr, hmore⟩ := List.forall_mem_cons.mp happlies
      obtain ⟨hadds, hadd⟩ := List.forall_mem_cons.mp happend
      have hcontent : (Request.content (r :: more)).length
          = (r.edit.content r.table).length
            + (Request.content more).length := by
        rw [Request.content, List.flatMap_cons, List.length_append]
        rfl
      rw [hcontent] at hwindow hlength
      have hgrowth := growth?_of_isAppend b r.table hadds
      have hend := limitAfter_of_isAppend h.lays hadds
        (r.edit.content r.table).length
      have hr' : r.edit.appliesTo (Draft.requested type done).type := by
        rw [Draft.type_requested]
        exact hr
      have hunset : (Draft.requested type done).type = .settings →
          b.has .ack = false := fun htype =>
        absurd htype (Edit.type_ne_settings_of_isAppend hadds hr')
      obtain ⟨b₁, table', hok⟩ := (h.lays.edit_iff_fits h.wellFormed hspace hr'
        (Edit.legal_of_isAppend hadds) hunset hgrowth).mpr (by omega)
      have hmax := maxLimit_edit hok
      have hlimit := h.lays.limit_of_edit h.wellFormed hr' hgrowth hok
      have hmeets := h.edit hr hok
      have hstart : b₁.payloadStart = b.payloadStart := by
        rw [hmeets.lays.payloadStart_eq, h.lays.payloadStart_eq]
      obtain ⟨b', hok'⟩ := ih hmeets (hmax ▸ hspace) hmore hadd
        (by omega) (by omega)
      exact ⟨b', grant_cons_eq_ok_iff.mpr ⟨b₁, table', hok, hok'⟩⟩

/-- A padding that is no longer than the one in force always fits. The
content stays where it is, and the frame ends as much earlier as the
padding is shorter. -/
theorem LaysDown.exists_lower_padding (h : b.LaysDown d front back)
    (hd : d.WellFormed) (hspace : b.maxLimit < addressSpace)
    (hpadded : b.has .padded) {padding : UInt8}
    (hle : padding.toNat ≤ b.padding) (table : Hpack.Table) :
    ∃ b', b.edit table (.padding padding) = .ok (b', table)
      ∧ b'.contentEnd = b.contentEnd
      ∧ b'.limit + b.padding = b.limit + padding.toNat := by
  have hsome : d.padding.isSome := by
    rwa [h.has_padded hd] at hpadded
  have happlies : (Edit.padding padding).appliesTo d.type := hd.paddable hsome
  have hgrowth : b.growth? table (.padding padding) = some 0 := by
    rw [growth?, if_pos hpadded]
  have hunset : d.type = .settings → b.has .ack = false := by
    intro htype
    rw [htype] at happlies
    cases happlies
  have hlimit : b.limitAfter (.padding padding) 0
      = b.contentEnd + padding.toNat := rfl
  have hend := h.contentEnd_add_padding
  obtain ⟨hwindow, hlength⟩ := h.limit_fits hd
  obtain ⟨b', table', hok⟩ := (h.edit_iff_fits hd hspace happlies trivial hunset
    hgrowth).mpr (by omega)
  obtain ⟨hlays, hwell, rfl⟩ := h.edit hd happlies hok
  have hlimit' := h.limit_of_edit hd happlies hgrowth hok
  have hpadding' : b'.padding = padding.toNat := hlays.padding_eq
  have hend' := hlays.contentEnd_add_padding
  refine ⟨b', hok, ?_, ?_⟩
  · omega
  · omega

/-- What the padding gives up can be filled with content. -/
theorem Meets.exists_grant_of_lowered {type : FrameType}
    {rs more : List Request} (h : b.Meets type rs front back)
    (hspace : b.maxLimit < addressSpace) (hpadded : b.has .padded)
    {padding : UInt8}
    (hok : b.edit table (.padding padding) = .ok (b', table))
    (hlimit : b'.limit + b.padding = b.limit + padding.toNat)
    (happlies : ∀ r ∈ more, r.edit.appliesTo type)
    (happend : ∀ r ∈ more, r.edit.isAppend)
    (hfreed : (Request.content more).length + padding.toNat ≤ b.padding) :
    ∃ b'', b'.grant more = .ok b'' := by
  have hpaddable : (Edit.padding padding).appliesTo type := by
    rw [h.lays.has_padded h.wellFormed] at hpadded
    rw [← Draft.type_requested type rs]
    exact h.wellFormed.paddable hpadded
  have hmeets := @Meets.edit _ _ _ _ _ _ ⟨.padding padding, table⟩ _ h
    hpaddable hok
  have hmax := maxLimit_edit hok
  have hstart : b'.payloadStart = b.payloadStart := by
    rw [hmeets.lays.payloadStart_eq, h.lays.payloadStart_eq]
  obtain ⟨hwindow, hlength⟩ := h.lays.limit_fits h.wellFormed
  exact hmeets.exists_grant_append (hmax ▸ hspace) happlies happend (by omega)
    (by omega)

-- =============================================================== the result

/-- Builders refuse exactly what does not fit. A frame is started just if
its header and the fields of its type lie within the bound and the bound
within the buffer. From then on, a call that makes the frame longer
succeeds just if the frame ends within the bound after it and its payload
fits the length field; the frame then ends there, and otherwise one of the
two is the reason of the refusal, the bound whenever the length field has
room. To lower the padding always succeeds, and what is given up can be
filled with content. -/
theorem grows_iff_fits (type : FrameType) (buffer : Buffer)
    (offset maxLimit : Nat) :
    ((∃ b, start type buffer offset maxLimit = .ok b)
      ↔ maxLimit ≤ buffer.size
        ∧ offset + (Header.width + type.fixedLength) < addressSpace
        ∧ offset + (Header.width + type.fixedLength) ≤ maxLimit)
    ∧ ∀ (b b' : Builder) (rs : List Request), maxLimit < addressSpace →
      start type buffer offset maxLimit = .ok b →
      (∀ r ∈ rs, r.edit.appliesTo type) → b.grant rs = .ok b' →
      (∀ (table : Hpack.Table) (e : Edit) (n : Nat), e.appliesTo type →
        e.Legal → (type = .settings → b'.has .ack = false) →
        b'.growth? table e = some n →
        ((∃ b'' table', b'.edit table e = .ok (b'', table'))
          ↔ b'.limitAfter e n ≤ maxLimit
            ∧ b'.limitAfter e n - (offset + Header.width) ≤ Header.maxLength)
        ∧ (∀ b'' table', b'.edit table e = .ok (b'', table') →
          b''.limit = b'.limitAfter e n)
        ∧ ∀ r, b'.edit table e = .error r →
          ((∃ stop bound, r.error = .bufferOverrun stop bound)
            ∨ r.error = .invalidArgument .payloadTooLong)
          ∧ (b'.limitAfter e n - (offset + Header.width) ≤ Header.maxLength →
            ∃ stop bound, r.error = .bufferOverrun stop bound))
      ∧ ∀ (padding : UInt8) (table : Hpack.Table), b'.has .padded →
        padding.toNat ≤ b'.padding →
        ∃ b'', b'.edit table (.padding padding) = .ok (b'', table)
          ∧ b''.contentEnd = b'.contentEnd
          ∧ b''.limit + b'.padding = b'.limit + padding.toNat
          ∧ ∀ more : List Request, (∀ r ∈ more, r.edit.appliesTo type) →
            (∀ r ∈ more, r.edit.isAppend) →
            (Request.content more).length + padding.toNat ≤ b'.padding →
            ∃ b₃, b''.grant more = .ok b₃ := by
  refine ⟨?started, ?_⟩
  case started =>
    constructor
    · rintro ⟨b, hok⟩
      exact requireRoom_eq_ok_iff.mp (start_eq_ok_iff.mp hok).1
    · intro hroom
      exact ⟨_, start_eq_ok_iff.mpr ⟨requireRoom_eq_ok_iff.mpr hroom, rfl⟩⟩
  intro b b' rs hspace hstart happlies hgrant
  have hmeets := granted_meets hstart happlies hgrant
  obtain ⟨hoffset, hmax⟩ := window_granted hstart happlies hgrant
  have hstarts : b'.payloadStart = offset + Header.width := by
    rw [payloadStart, hoffset]
  refine ⟨?grow, ?lower⟩
  case grow =>
    intro table e n he hlegal hunset hgrowth
    have he' : e.appliesTo (Draft.requested type rs).type := by
      rw [Draft.type_requested]
      exact he
    rw [← Draft.type_requested type rs] at hunset
    rw [← hmax] at hspace ⊢
    rw [← hstarts]
    refine ⟨?_, ?_, ?_⟩
    · exact hmeets.lays.edit_iff_fits hmeets.wellFormed hspace he' hlegal hunset
        hgrowth
    · intro b'' table' hok
      exact hmeets.lays.limit_of_edit hmeets.wellFormed he' hgrowth hok
    · intro r hno
      have hover := hmeets.lays.overfull_of_edit hmeets.wellFormed hspace he'
        hlegal hunset hgrowth hno
      generalize r.error = cause at hover
      cases hover with
      | window hlimit => exact ⟨.inl ⟨_, _, rfl⟩, fun _ => ⟨_, _, rfl⟩⟩
      | length hlong =>
          exact ⟨.inr rfl, fun hfits => absurd hfits (Nat.not_le_of_lt hlong)⟩
  case lower =>
    intro padding table hpadded hle
    rw [← hmax] at hspace
    obtain ⟨b'', hok, hend, hlimit⟩ := hmeets.lays.exists_lower_padding
      hmeets.wellFormed hspace hpadded hle table
    refine ⟨b'', hok, hend, hlimit, ?_⟩
    intro more hmore happend hfreed
    exact hmeets.exists_grant_of_lowered hspace hpadded hok hlimit hmore
      happend hfreed

/-- A DATA frame that fills its window: there is no room for another octet
until the padding is lowered. -/
theorem grows_iff_fits_data :
    ∃ b b', start .data (.ofList (List.replicate 16 9)) 1 15 = .ok b
      ∧ b.grant [⟨.append [1, 2], {}⟩, ⟨.padding 2, {}⟩] = .ok b'
      ∧ b'.growth? {} (.append [3]) = some 1
      ∧ (¬ ∃ b'' table', b'.edit {} (.append [3]) = .ok (b'', table'))
      ∧ (∃ r, b'.edit {} (.append [3]) = .error r
        ∧ ∃ stop bound, r.error = .bufferOverrun stop bound)
      ∧ ∃ b'', b'.edit {} (.padding 0) = .ok (b'', {})
        ∧ ∃ b₃, b''.grant [⟨.append [3, 4], {}⟩] = .ok b₃ := by
  have hstart : start .data (.ofList (List.replicate 16 9)) 1 15
      = .ok ⟨.data, .ofList [9, 0, 0, 0, 0, 0, 0, 0, 0, 0, 9, 9, 9, 9, 9, 9], 1,
        10, 15, 0⟩ := rfl
  obtain ⟨b', hgrant⟩ := exists_eq_ok_of_isOk (show (grant ⟨.data, .ofList [9,
      0, 0, 0, 0, 0, 0, 0, 0, 0, 9, 9, 9, 9, 9, 9], 1, 10, 15, 0⟩
    [⟨.append [1, 2], {}⟩, ⟨.padding 2, {}⟩]).isOk = true by decide +kernel)
  have hlays := (granted_meets hstart (by decide) hgrant).lays
  have hlimit : b'.limit = 15 := hlays.limit_eq.trans (by decide +kernel)
  have hpadding : b'.padding = 2 := hlays.padding_eq.trans (by decide)
  have hpadded : b'.has .padded := (hlays.has_eq .padded).trans (by decide)
  obtain ⟨-, hall⟩ := grows_iff_fits .data (.ofList (List.replicate 16 9)) 1 15
  obtain ⟨hgrow, hlower⟩ := hall _ b' _ (by decide) hstart (by decide) hgrant
  obtain ⟨hiff, -, hrefused⟩ :=
    hgrow {} (.append [3]) 1 rfl trivial nofun rfl
  rw [limitAfter_of_isAppend hlays rfl, hlimit] at hiff hrefused
  have hfull : ¬ ∃ b'' table', b'.edit {} (.append [3]) = .ok (b'', table') :=
    fun hok => absurd (hiff.mp hok).1 (by decide)
  obtain ⟨b'', hok, -, -, hfreed⟩ := hlower 0 {} hpadded (by simp [hpadding])
  refine ⟨_, b', hstart, hgrant, rfl, hfull, ?_, b'', hok, ?_⟩
  · cases hedit : b'.edit {} (.append [3]) with
    | ok s => exact absurd ⟨s.1, s.2, hedit⟩ hfull
    | error r => exact ⟨r, rfl, (hrefused r hedit).2 (by decide)⟩
  · refine hfreed _ (by decide) (by decide) ?_
    rw [hpadding]
    decide

end Builder

end Http2.Frame
