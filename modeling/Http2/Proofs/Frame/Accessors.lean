/-
The accessors of a frame, step by step.

A view of a frame keeps the storage and the two ends of the frame, and
looks up what it is asked for. `Region` is what it keeps, and its
functions are the accessors with every index, range, copy and difference
written out (`Access`). They stay inside the frame: an octet of the storage
in front of the offset or from the limit on is foreign to them, even though
it is there.

None of this is checked again when an accessor is called. So each lemma
below rests on a check that was made when the frame was read: the bounds
of the frame for the header, the length that a type must have for its
fields, the room beside the padding for what lies in front of it. The
accessors of an accepted frame have no fault, and what they yield is what
the frame was read as (`Accepted.region_contents`, `Accepted.faultless`).

Two accessors are iterators: over the parameters of a SETTINGS frame and
over the representations of a header block. Their calls have no fault on
any octets.
-/
import Http2.Proofs.Frame.Canonical
import Http2.Proofs.HeaderBlock.Splitting
import Http2.Proofs.Octets.Access

namespace Http2

open Access

-- ============================================================= iterators

/-- The next parameter: none once fewer octets are left than a parameter
takes, otherwise its identifier, its value and what is behind. -/
def Parameters.call (ps : Parameters) :
    Access (Option (Parameter × Parameters)) :=
  if ps.octets.length < Parameter.width then return none
  else do
    let ident ← number (octetAt ps.octets) 0 2
    let value ← number (octetAt ps.octets) 2 4
    let rest ← rangeOf ps.octets Parameter.width ps.octets.length
    return some (⟨.ofNat ident, .ofNat value⟩, ⟨rest⟩)

/-- Taking a parameter has no fault. -/
theorem Parameters.call_eq (ps : Parameters) : ps.call = .ok ps.next? := by
  have hwidth : Parameter.width = 6 := rfl
  unfold call next?
  by_cases hshort : ps.octets.length < Parameter.width
  · have hfront :
        (ps.octets.take Parameter.width).length < Parameter.width := by
      rw [List.length_take]
      omega
    rw [if_pos hshort, if_pos hfront]
    rfl
  · have hfront :
        ¬ (ps.octets.take Parameter.width).length < Parameter.width := by
      rw [List.length_take]
      omega
    rw [if_neg hshort, if_neg hfront, number_octetAt (by omega),
      number_octetAt (by omega), rangeOf_length (by omega)]
    have hident : (ps.octets.drop 0).take 2
        = (ps.octets.take Parameter.width).take 2 := by
      rw [List.drop_zero, List.take_take]
      rfl
    have hvalue : (ps.octets.drop 2).take 4
        = ((ps.octets.take Parameter.width).drop 2).take 4 := by
      rw [List.drop_take, List.take_take]
      rfl
    rw [hident, hvalue]
    rfl

/-- The calls take one parameter after the other. -/
theorem Parameters.lists_call : Lists Parameters.call Parameters.toList := by
  intro ps
  rw [ps.call_eq]
  cases hnext : ps.next? with
  | none => exact .inl ⟨rfl, toList_of_next?_none hnext⟩
  | some found => exact .inr ⟨_, _, rfl, toList_of_next?_some hnext⟩

namespace Hpack

/-- A representation does not take more octets than there are. -/
theorem taken_le_of_extentAs {first : UInt8} {others : List UInt8} {taken : Nat}
    (h : extentAs? (Kind.ofOctet first) (first :: others) = some taken) :
    taken ≤ (first :: others).length := by
  have hextent : extent? (first :: others)
      = some (Kind.ofOctet first, taken) := by
    rw [extent?, h]
    rfl
  obtain ⟨front, rest, heq, rfl, -⟩ := extent?_eq_some_iff.mp hextent
  rw [heq, List.length_append]
  exact Nat.le_add_right _ _

/-- A walk over the representations of a block that keeps the whole block
and its place in it. -/
structure Cursor where
  octets : List UInt8
  position : Nat := 0
  failed : Bool := false

namespace Cursor

/-- The walk with what is ahead of it alone. -/
def scanner (c : Cursor) : Scanner := ⟨c.octets.drop c.position, c.failed⟩

/-- The next piece: the first octet tells the kind, the kind where the
piece ends. -/
def call (c : Cursor) :
    Access (Option (Except Error Representation × Cursor)) :=
  if c.failed || decide (c.octets.length ≤ c.position) then return none
  else do
    let first ← octetAt c.octets c.position
    let kind := Kind.ofOctet first
    match extentAs? kind (c.octets.drop c.position) with
    | none => return some (.error .compression, { c with failed := true })
    | some taken =>
      let stop := c.position + taken
      let piece ← rangeOf c.octets c.position stop
      return some (.ok ⟨kind, piece⟩, { c with position := stop })

/-- A call has no fault. It yields what the walk does, and leads to where
the walk goes on. -/
theorem call_eq (c : Cursor) :
    ∃ answer, c.call = .ok answer
      ∧ c.scanner.next? = answer.map fun a => (a.1, a.2.scanner) := by
  unfold call Scanner.next?
  have hrest : c.scanner.rest = c.octets.drop c.position := rfl
  have hfailed : c.scanner.failed = c.failed := rfl
  rw [hrest, hfailed]
  cases hahead : c.octets.drop c.position with
  | nil =>
      have hend : c.octets.length ≤ c.position :=
        List.drop_eq_nil_iff.mp hahead
      rw [decide_eq_true hend, Bool.or_true]
      exact ⟨none, rfl, by rw [List.isEmpty_nil, Bool.or_true]; rfl⟩
  | cons first others =>
      have hlength := congrArg List.length hahead
      rw [List.length_drop, List.length_cons] at hlength
      have hmore : ¬ c.octets.length ≤ c.position := by omega
      rw [decide_eq_false hmore, Bool.or_false, List.isEmpty_cons,
        Bool.or_false]
      cases c.failed with
      | true => exact ⟨none, rfl, rfl⟩
      | false =>
          have hfirst : octetAt c.octets c.position = .ok first := by
            rw [octetAt_eq_ok_iff, ← List.head?_drop, hahead]
            rfl
          -- the walk asks for the first octet within `extent?`, a call has
          -- looked it up before
          have hextent : extent? (first :: others)
              = (extentAs? (Kind.ofOctet first) (first :: others)).map
                fun taken => (Kind.ofOctet first, taken) := rfl
          simp only [Bool.false_eq_true, if_false, hfirst, hextent, bind,
            Except.bind]
          cases htaken : extentAs? (Kind.ofOctet first) (first :: others) with
          | none => exact ⟨_, rfl, by rw [← hahead]; rfl⟩
          | some taken =>
              have hinside := taken_le_of_extentAs htaken
              rw [List.length_cons] at hinside
              dsimp only
              rw [rangeOf_of_le (Nat.le_add_right _ _) (by omega),
                Nat.add_sub_cancel_left, hahead]
              refine ⟨_, rfl, ?_⟩
              show some (_, Scanner.mk ((first :: others).drop taken) false) = _
              rw [← hahead, List.drop_drop]
              rfl

/-- The calls split off one piece after the other. -/
theorem lists_call : Lists call fun c => c.scanner.toList := by
  intro c
  obtain ⟨answer, hcall, hnext⟩ := c.call_eq
  cases answer with
  | none => exact .inl ⟨hcall, Scanner.toList_of_next?_none hnext⟩
  | some found =>
      exact .inr ⟨_, _, hcall, Scanner.toList_of_next?_some hnext⟩

end Cursor

end Hpack

/-- The priority that octets spell: four for a number, one for the
weight. -/
def Priority.look (octets : List UInt8) : Access Priority := do
  let dependency ← number (octetAt octets) 0 4
  let weight ← octetAt octets 4
  return { streamDependency := maskStreamId dependency
           exclusive := decide (reservedBit ≤ dependency)
           weight := weight }

theorem Priority.look_eq {octets : List UInt8} (h : octets.length = width) :
    look octets = .ok (decode octets) := by
  have hwidth : width = 5 := rfl
  have hweight : octetAt octets 4 = .ok (octets.getD 4 0) := by
    rw [octetAt_eq_ok_iff, List.getD_eq_getElem?_getD,
      List.getElem?_eq_getElem (by omega), Option.getD_some]
  rw [look, number_octetAt (by omega), hweight, List.drop_zero]
  rfl

/-- How many octets a header block takes. -/
def HeaderBlock.lookSize (b : HeaderBlock) : Access Nat :=
  difference b.limit b.offset

-- ============================================================ accessors

/-- What a view of a frame keeps: the storage, and where in it the frame
lies. -/
structure Region where
  buffer : Buffer
  offset : Nat
  limit : Nat

namespace Region

/-- The octet at an address, which must be one of the frame's. -/
def octet (r : Region) (i : Nat) : Access UInt8 :=
  match r.buffer.octet? i with
  | none => .error .outOfRange
  | some octet =>
    if r.offset ≤ i ∧ i < r.limit then .ok octet else .error .foreign

/-- The octets in `[start, stop)`, which must be the frame's. -/
def range (r : Region) (start stop : Nat) : Access (List UInt8) :=
  if start ≤ stop ∧ stop ≤ r.buffer.size then
    if r.offset ≤ start ∧ stop ≤ r.limit then .ok (r.buffer.slice start stop)
    else .error .foreign
  else .error .outOfRange

/-- The octets in a span, which must be the frame's. -/
def part (r : Region) (s : Span) : Access (List UInt8) := r.range s.start s.stop

/-- Where the payload starts. -/
def payloadStart (r : Region) : Nat := r.offset + Header.width

/-- The payload length in the header. -/
def length (r : Region) : Access Nat :=
  number r.octet r.offset Header.lengthWidth

/-- The type octet of the header. -/
def typeCode (r : Region) : Access UInt8 :=
  r.octet (r.offset + Header.typeOffset)

/-- The flags octet of the header. -/
def flags (r : Region) : Access UInt8 := r.octet (r.offset + Header.flagsOffset)

/-- Whether a flag is set in the header. -/
def has (r : Region) (flag : Flag) : Access Bool := do
  let flags ← r.flags
  return flag.isSet flags

/-- The stream identifier of the header. -/
def streamId (r : Region) : Access UInt32 := do
  let field ← number r.octet (r.offset + Header.streamIdOffset)
    Header.streamIdWidth
  return maskStreamId field

/-- How many octets the frame takes. -/
def size (r : Region) : Access Nat := difference r.limit r.offset

/-- The octets of the frame. -/
def octets (r : Region) : Access (List UInt8) := r.range r.offset r.limit

/-- The octets of the payload. -/
def payload (r : Region) : Access (List UInt8) := r.range r.payloadStart r.limit

/-- A number of four octets in the payload. -/
def field (r : Region) (start : Nat) : Access Nat :=
  number r.octet (r.payloadStart + start) 4

/-- The pad length, which is the first octet of a padded payload. -/
def padding (r : Region) : Access (Option UInt8) := do
  if ← r.has .padded then
    let payload ← r.payload
    let padding ← octetAt payload 0
    return some padding
  else return none

/-- What is left of the payload without pad length and padding. -/
def content (r : Region) : Access Span := do
  if ← r.has .padded then
    let padding ← r.octet r.payloadStart
    let stop ← difference r.limit padding.toNat
    return ⟨r.payloadStart + 1, stop⟩
  else return ⟨r.payloadStart, r.limit⟩

/-- What the payload of a DATA frame says. -/
def data (r : Region) : Access (Payload (List UInt8)) := do
  let content ← r.content
  let padding ← r.padding
  let data ← r.part content
  return .data padding data

/-- What the payload of a HEADERS frame says. -/
def headers (r : Region) : Access (Payload (List UInt8)) := do
  let content ← r.content
  let padding ← r.padding
  if ← r.has .priority then
    let start := content.start + Priority.width
    let fields ← r.range content.start start
    let standing ← Priority.look fields
    let block ← r.range start content.stop
    return .headers padding (some standing) block
  else
    let block ← r.part content
    return .headers padding none block

/-- What the payload of a PUSH_PROMISE frame says. -/
def pushPromise (r : Region) : Access (Payload (List UInt8)) := do
  let content ← r.content
  let padding ← r.padding
  let start := content.start + FrameType.pushPromise.fixedLength
  let promised ← number r.octet content.start 4
  let block ← r.range start content.stop
  return .pushPromise padding (maskStreamId promised) block

/-- What the payload of a GOAWAY frame says. -/
def goAway (r : Region) : Access (Payload (List UInt8)) := do
  let last ← r.field 0
  let code ← r.field 4
  let payload ← r.payload
  let debugData ← rangeOf payload FrameType.goAway.fixedLength payload.length
  return .goAway (maskStreamId last) (.ofNat code) debugData

/-- What the payload of a frame of a type says. -/
def contents (r : Region) : FrameType → Access (Payload (List UInt8))
  | .data => r.data
  | .headers => r.headers
  | .priority => do
    let payload ← r.payload
    let standing ← Priority.look payload
    return .priority standing
  | .rstStream => do
    let code ← r.field 0
    return .rstStream (.ofNat code)
  | .settings => do
    let payload ← r.payload
    return .settings ⟨payload⟩
  | .pushPromise => r.pushPromise
  | .ping => do
    let payload ← r.payload
    let octets ← copy FrameType.ping.fixedLength payload
    return .ping octets
  | .goAway => r.goAway
  | .windowUpdate => do
    let increment ← r.field 0
    return .windowUpdate (maskStreamId increment)
  | .continuation => do
    let block ← r.payload
    return .continuation block
  | .unrecognized => do
    let payload ← r.payload
    return .unrecognized payload

/-- The octets of a header block of the frame. -/
def blockOctets (r : Region) (b : HeaderBlock) : Access (List UInt8) :=
  r.range b.offset b.limit

variable {r : Region}

/-- Octets of the frame can be looked up. -/
theorem octet_eq (hinside : r.limit ≤ r.buffer.size) {i : Nat}
    (hstart : r.offset ≤ i) (hstop : i < r.limit) :
    r.octet i = .ok ((r.buffer.octet? i).getD 0) := by
  obtain ⟨octet, hoctet⟩ :=
    Buffer.exists_octet? (Nat.lt_of_lt_of_le hstop hinside)
  rw [Region.octet, hoctet]
  exact if_pos ⟨hstart, hstop⟩

/-- Ranges of the frame can be looked up. -/
theorem range_eq (hinside : r.limit ≤ r.buffer.size) {start stop : Nat}
    (hstart : r.offset ≤ start) (hle : start ≤ stop) (hstop : stop ≤ r.limit) :
    r.range start stop = .ok (r.buffer.slice start stop) := by
  rw [range, if_pos ⟨hle, Nat.le_trans hstop hinside⟩, if_pos ⟨hstart, hstop⟩]

/-- Numbers of the frame can be looked up. -/
theorem number_octet (hinside : r.limit ≤ r.buffer.size) {start width : Nat}
    (hstart : r.offset ≤ start) (hstop : start + width ≤ r.limit) :
    number r.octet start width
      = .ok (BigEndian.decode (r.buffer.slice start (start + width))) := by
  have hlength : (r.buffer.slice start (start + width)).length = width := by
    rw [Buffer.length_slice (Nat.le_trans hstop hinside),
      Nat.add_sub_cancel_left]
  have hnumber :=
    @number_eq r.octet (r.buffer.slice start (start + width)) start
  rw [hlength] at hnumber
  apply hnumber
  intro i o hi
  have hlt : i < width := by
    obtain ⟨hlt, -⟩ := List.getElem?_eq_some_iff.mp hi
    rwa [hlength] at hlt
  rw [Buffer.getElem?_slice _ (by omega)] at hi
  rw [octet_eq hinside (by omega) (by omega), hi, Option.getD_some]

end Region

namespace RawFrame

/-- What a view of the frame keeps. -/
def region (f : RawFrame) : Region := ⟨f.buffer, f.offset, f.limit⟩

variable {f : RawFrame}

-- ============================================================ the header

/-- The header of a frame is told again by its accessors. -/
structure TellsHeader (f : RawFrame) : Prop where
  length : f.region.length = .ok f.length
  typeCode : f.region.typeCode = .ok f.header.typeCode
  flags : f.region.flags = .ok f.header.flags
  has : ∀ flag, f.region.has flag = .ok (f.has flag)
  streamId : f.region.streamId = .ok f.header.streamId

/-- A header that was read where the frame starts can be read there
again. -/
theorem tellsHeader (hinside : f.limit ≤ f.buffer.size)
    (hread : f.header = .readAt f.buffer f.offset) : f.TellsHeader := by
  have hsize : f.region.limit ≤ f.region.buffer.size := hinside
  have hlimit : f.region.limit = f.region.offset + 9 + f.length := rfl
  have hend : f.offset + 9 ≤ f.buffer.size :=
    Nat.le_trans (Nat.le_add_right _ f.length) hinside
  have hlengthWidth : Header.lengthWidth = 3 := rfl
  have htypeOffset : Header.typeOffset = 3 := rfl
  have hflagsOffset : Header.flagsOffset = 4 := rfl
  have hidOffset : Header.streamIdOffset = 5 := rfl
  have hidWidth : Header.streamIdWidth = 4 := rfl
  have hflags : f.region.flags = .ok f.header.flags := by
    rw [Region.flags, Region.octet_eq hsize (by omega) (by omega), hread]
    rfl
  refine ⟨?_, ?_, hflags, ?_, ?_⟩
  · have hlength : f.length = (Header.lengthAt? f.buffer f.offset).getD 0 :=
      congrArg Header.length hread
    rw [Region.length, Region.number_octet hsize (Nat.le_refl _) (by omega),
      hlength, Header.lengthAt?, Buffer.number?, if_pos (by omega)]
    rfl
  · rw [Region.typeCode, Region.octet_eq hsize (by omega) (by omega), hread]
    rfl
  · intro flag
    rw [Region.has, hflags]
    rfl
  · have hid : f.header.streamId
        = (Header.streamIdAt? f.buffer f.offset).getD 0 :=
      congrArg Header.streamId hread
    rw [Region.streamId, Region.number_octet hsize (by omega) (by omega), hid,
      Header.streamIdAt?, Buffer.number?, if_pos (by omega)]
    rfl

-- =========================================================== the payload

theorem region_size (f : RawFrame) : f.region.size = .ok f.size :=
  difference_of_le (Nat.le_trans (Nat.le_add_right _ _)
    (Nat.le_add_right f.payloadStart _))

theorem region_octets (hinside : f.limit ≤ f.buffer.size) :
    f.region.octets = .ok f.octets :=
  Region.range_eq hinside (Nat.le_refl _) (Nat.le_trans (Nat.le_add_right _ _)
    (Nat.le_add_right f.payloadStart _)) (Nat.le_refl _)

theorem region_payload (hinside : f.limit ≤ f.buffer.size) :
    f.region.payload = .ok f.payload :=
  Region.range_eq hinside (Nat.le_add_right _ _)
    (Nat.le_add_right f.payloadStart _) (Nat.le_refl _)

/-- A span between the header and the end of the frame can be looked
up. -/
theorem region_range (hinside : f.limit ≤ f.buffer.size) {start stop : Nat}
    (hstart : f.payloadStart ≤ start) (hle : start ≤ stop)
    (hstop : stop ≤ f.limit) :
    f.region.range start stop = .ok (f.buffer.slice start stop) :=
  Region.range_eq hinside (Nat.le_trans (Nat.le_add_right _ _) hstart) hle hstop

/-- A number that the payload is long enough for can be looked up. -/
theorem region_field (hinside : f.limit ≤ f.buffer.size) {start : Nat}
    (hlength : start + 4 ≤ f.length) :
    f.region.field start = .ok (f.number start 4) := by
  have hlimit : f.region.limit = f.region.payloadStart + f.length := rfl
  have hoffset : f.region.offset ≤ f.region.payloadStart := Nat.le_add_right _ _
  rw [Region.field, Region.number_octet hinside (by omega) (by omega)]
  rfl

/-- A padded frame has room for the pad length, its fields and the
padding. -/
theorem Accepted.padded_room (hf : f.Accepted)
    (hpaddable : f.type.definedFlags.contains .padded)
    (hpadded : f.has .padded = true) :
    f.payloadStart + 1 + f.fieldsLength + f.paddingLength ≤ f.limit := by
  have hbounds := content_bounds (hf.paddingChecks hpaddable)
  have hcontent : f.content
      = ⟨f.payloadStart + 1, f.limit - f.paddingLength⟩ := if_pos hpadded
  rw [hcontent] at hbounds
  obtain ⟨-, hroom, -⟩ := hbounds
  dsimp only at hroom
  omega

/-- The pad length of a padded frame is there. -/
theorem Accepted.region_padding (hf : f.Accepted) (htells : f.TellsHeader)
    (hpaddable : f.type.definedFlags.contains .padded) :
    f.region.padding = .ok f.padding := by
  rw [Region.padding, htells.has]
  cases hpadded : f.has .padded with
  | false =>
      rw [padding, hpadded]
      rfl
  | true =>
      obtain ⟨octet, hoctet, hpadding, -⟩ := hf.padding_eq hpaddable hpadded
      have hroom := hf.padded_room hpaddable hpadded
      have hfirst : octetAt f.payload 0 = .ok octet := by
        have hpayload : f.payload = f.buffer.slice f.payloadStart f.limit := rfl
        rw [octetAt_eq_ok_iff, hpayload, Buffer.slice_cons hoctet (by omega)]
        rfl
      rw [region_payload hf.inside, hpadding]
      simp only [ok_bind, if_true, hfirst]
      rfl

/-- The padding of an accepted frame is not longer than the frame. -/
theorem Accepted.region_content (hf : f.Accepted) (htells : f.TellsHeader)
    (hpaddable : f.type.definedFlags.contains .padded) :
    f.region.content = .ok f.content := by
  rw [Region.content, htells.has, content]
  cases hpadded : f.has .padded with
  | false => rfl
  | true =>
      obtain ⟨octet, hoctet, -, hlength⟩ := hf.padding_eq hpaddable hpadded
      have hroom := hf.padded_room hpaddable hpadded
      have hfirst : f.region.octet f.region.payloadStart = .ok octet := by
        have hstart : f.region.offset ≤ f.region.payloadStart :=
          Nat.le_add_right _ _
        have hend : f.region.payloadStart < f.region.limit := by
          show f.payloadStart < f.limit
          omega
        have hsame : f.region.buffer.octet? f.region.payloadStart
            = some octet := hoctet
        rw [Region.octet_eq hf.inside hstart hend, hsame, Option.getD_some]
      have hstop : difference f.region.limit octet.toNat
          = .ok (f.limit - f.paddingLength) := by
        rw [← hlength]
        exact difference_of_le (show f.paddingLength ≤ f.limit by omega)
      simp only [ok_bind, if_true, hfirst, hstop]
      rfl

variable (hf : f.Accepted) (htells : f.TellsHeader)

include hf

/-- The fields in front of the content, and the content, can be looked
up. -/
theorem Accepted.region_content_ranges
    (hpaddable : f.type.definedFlags.contains .padded) :
    f.region.range f.content.start (f.content.start + f.fieldsLength)
        = .ok (f.contentFront f.fieldsLength)
      ∧ f.region.range (f.content.start + f.fieldsLength) f.content.stop
        = .ok (f.buffer.part (f.contentFrom f.fieldsLength)) := by
  obtain ⟨hstart, hle, hstop⟩ := content_bounds (hf.paddingChecks hpaddable)
  constructor
  · exact region_range hf.inside hstart (Nat.le_add_right _ _)
      (Nat.le_trans hle hstop)
  · exact region_range hf.inside (Nat.le_trans hstart (Nat.le_add_right _ _))
      hle hstop

/-- There are as many octets in front of the content as the fields
take. -/
theorem Accepted.length_contentFront
    (hpaddable : f.type.definedFlags.contains .padded) :
    (f.contentFront f.fieldsLength).length = f.fieldsLength := by
  have hlength := hf.length_slice_fields (Nat.le_refl f.fieldsLength)
  rwa [hf.inner_eq_content hpaddable] at hlength

include htells

theorem Accepted.region_data (ht : f.type = .data) :
    f.region.data = .ok (.data f.padding (f.buffer.part f.content)) := by
  have hpaddable : f.type.definedFlags.contains .padded := by rw [ht]; rfl
  obtain ⟨-, hdata⟩ := hf.region_content_ranges hpaddable
  have hfields : f.fieldsLength = 0 := by rw [fieldsLength, ht]; rfl
  rw [hfields] at hdata
  have hdata : f.region.part f.content = .ok (f.buffer.part f.content) := hdata
  rw [Region.data, hf.region_content htells hpaddable, ok_bind,
    hf.region_padding htells hpaddable, ok_bind, hdata]
  rfl

theorem Accepted.region_headers (ht : f.type = .headers) :
    f.region.headers
      = .ok (if f.has .priority then
          .headers f.padding (some (.decode (f.contentFront 5)))
            (f.buffer.part (f.contentFrom 5))
        else .headers f.padding none (f.buffer.part f.content)) := by
  have hpaddable : f.type.definedFlags.contains .padded := by rw [ht]; rfl
  obtain ⟨hfields, hblock⟩ := hf.region_content_ranges hpaddable
  have hlength := hf.length_contentFront hpaddable
  rw [fieldsLength, if_pos ht] at hfields hblock hlength
  rw [Region.headers, hf.region_content htells hpaddable, ok_bind,
    hf.region_padding htells hpaddable, ok_bind, htells.has, ok_bind]
  by_cases hpriority : f.has .priority
  case pos =>
    rw [if_pos hpriority] at hfields hblock hlength
    rw [if_pos hpriority, if_pos hpriority]
    dsimp only
    rw [hfields, ok_bind, Priority.look_eq hlength, ok_bind, hblock]
    rfl
  case neg =>
    rw [if_neg hpriority] at hblock
    have hblock : f.region.part f.content = .ok (f.buffer.part f.content) :=
      hblock
    rw [if_neg hpriority, if_neg hpriority, hblock]
    rfl

theorem Accepted.region_pushPromise (ht : f.type = .pushPromise) :
    f.region.pushPromise
      = .ok (.pushPromise f.padding
          (maskStreamId (BigEndian.decode (f.contentFront 4)))
          (f.buffer.part (f.contentFrom 4))) := by
  have hpaddable : f.type.definedFlags.contains .padded := by rw [ht]; rfl
  obtain ⟨-, hblock⟩ := hf.region_content_ranges hpaddable
  obtain ⟨hstart, hle, hstop⟩ := content_bounds (hf.paddingChecks hpaddable)
  have hfields : f.fieldsLength = 4 := by rw [fieldsLength, ht]; rfl
  rw [hfields] at hblock hle
  have hpromised : Access.number f.region.octet f.content.start 4
      = .ok (BigEndian.decode (f.contentFront 4)) :=
    Region.number_octet (r := f.region) hf.inside
      (Nat.le_trans (Nat.le_add_right _ _) hstart) (Nat.le_trans hle hstop)
  rw [Region.pushPromise, hf.region_content htells hpaddable, ok_bind,
    hf.region_padding htells hpaddable, ok_bind]
  dsimp only [FrameType.fixedLength]
  rw [hpromised, ok_bind, hblock]
  rfl

omit htells

theorem Accepted.region_goAway (ht : f.type = .goAway) :
    f.region.goAway
      = .ok (.goAway (maskStreamId (f.number 0 4)) (.ofNat (f.number 4 4))
          (f.buffer.part (f.spanFrom 8))) := by
  have hfixed := hf.fixedLength_le
  rw [ht] at hfixed
  have hfixed : 8 ≤ f.length := hfixed
  have hlength : f.payload.length = f.length := length_payload hf.inside
  have hdebug : rangeOf f.payload 8 f.payload.length
      = .ok (f.buffer.part (f.spanFrom 8)) := by
    rw [rangeOf_length (by omega), payload_eq_slice, Buffer.drop_slice]
    rfl
  rw [Region.goAway, region_field hf.inside (by omega), ok_bind,
    region_field hf.inside (by omega), ok_bind, region_payload hf.inside,
    ok_bind]
  dsimp only [FrameType.fixedLength]
  rw [hdebug]
  rfl

include htells

/-- What an accepted frame says can be looked up without a fault, and it
is what the frame was read as. -/
theorem Accepted.region_contents :
    f.region.contents f.type = .ok f.whole.contents := by
  have hpayload := region_payload hf.inside
  have hlength : f.payload.length = f.length := length_payload hf.inside
  have hfixed := hf.fixedLength_le
  have hexact := hf.length_eq
  show _ = Except.ok (f.interpret.map f.buffer.part)
  unfold interpret
  cases ht : f.type <;> rw [ht] at hfixed hexact <;>
    simp only [Region.contents]
  case data => exact hf.region_data htells ht
  case headers =>
    rw [hf.region_headers htells ht]
    split <;> rfl
  case pushPromise => exact hf.region_pushPromise htells ht
  case goAway => exact hf.region_goAway ht
  case priority =>
    rw [hpayload, ok_bind,
      Priority.look_eq (hlength.trans (hexact (by decide)))]
    rfl
  case ping =>
    rw [hpayload, ok_bind, copy_of_length (hlength.trans (hexact (by decide)))]
    rfl
  case rstStream | windowUpdate =>
    rw [region_field hf.inside hfixed]
    rfl
  case settings | continuation | unrecognized =>
    rw [hpayload]
    rfl

end RawFrame

-- =========================================================== all of them

/-- No accessor of a frame has a fault, and each yields what the frame was
read as. The iterators may be called as often as one likes. -/
structure Frame.Faultless (f : Frame) : Prop where
  header : f.raw.TellsHeader
  size : f.raw.region.size = .ok f.raw.size
  octets : f.raw.region.octets = .ok f.raw.octets
  payload : f.raw.region.payload = .ok f.raw.payload
  padding : f.raw.type.definedFlags.contains .padded →
    f.raw.region.padding = .ok f.payload.padding?
  contents : f.raw.region.contents f.raw.type = .ok f.contents
  part : ∀ s, f.payload.part? = some s →
    f.raw.region.part s = .ok (f.raw.buffer.part s)
  parameters : ∀ ps, f.contents = .settings ps → ∀ count,
    calls Parameters.call count ps = .ok (ps.toList.take count)
  block : ∀ b, f.block? = some b →
    b.lookSize = .ok b.size
      ∧ f.raw.region.blockOctets b = .ok b.octets
      ∧ ∀ count, calls Hpack.Cursor.call count ⟨b.octets, 0, false⟩
        = .ok (b.representations.toList.take count)

namespace RawFrame

open Http2.Frame

variable {f : RawFrame}

/-- A header block is the part of free length of its frame. -/
theorem part?_of_block? {α : Type} {p : Payload α} {block : α}
    (h : p.block? = some block) : p.part? = some block := by
  cases p <;> cases h <;> rfl

theorem Accepted.faultless (hf : f.Accepted)
    (hread : f.header = .readAt f.buffer f.offset) : f.whole.Faultless := by
  have htells := tellsHeader hf.inside hread
  have hparts : ∀ s, f.interpret.part? = some s → s.start ≤ s.stop
      ∧ f.region.range s.start s.stop = .ok (f.buffer.part s) := by
    intro s hs
    obtain ⟨hstart, hle, hstop⟩ := hf.inner_bounds
    rw [hf.part_eq hs]
    exact ⟨hle, region_range hf.inside
      (Nat.le_trans hstart (Nat.le_add_right _ _)) hle hstop⟩
  refine ⟨htells, region_size f, region_octets hf.inside,
    region_payload hf.inside, ?_, hf.region_contents htells,
    fun s hs => (hparts s hs).2, fun ps _ => ?_, fun b hb => ?_⟩
  · intro hpaddable
    have hpadding : f.whole.payload.padding? = f.padding :=
      (padding?_interpret f).trans (if_pos hpaddable)
    rw [hpadding]
    exact hf.region_padding htells hpaddable
  · exact fun count => calls_eq Parameters.lists_call count ps
  · obtain ⟨s, hs, rfl⟩ := Option.map_eq_some_iff.mp hb
    obtain ⟨hle, hrange⟩ := hparts s (part?_of_block? hs)
    exact ⟨difference_of_le hle, hrange, fun count =>
      calls_eq Hpack.Cursor.lists_call count _⟩

end RawFrame

end Http2
