/-
Frames whose payload is not looked at.

`RawFrame.locate` reads a header and no more. The rules that a header can
break on its own are here too: the type that is asked for
(`requireType`), the stream that the type demands (`requireScope`) and the
payload length that it allows (`requireLength`). What is checked against
the octets of the payload is in `Http2.Frame`.
-/
import Http2.Frame.Header
import Http2.Octets.Hex
import Http2.Octets.Span

namespace Http2

/-- A frame known by its header alone. -/
structure RawFrame where
  buffer : Buffer
  offset : Nat
  header : Header

namespace RawFrame

/-- The frame whose header stands at `offset`. The payload may reach
beyond `maxLimit`. -/
def locate (buffer : Buffer) (offset maxLimit : Nat) :
    Except Error RawFrame := do
  requireRoom buffer.size offset maxLimit Header.width
  let header := buffer.slice offset (offset + Header.width)
  return ⟨buffer, offset, .decode header⟩

-- ============================================================ accessors

/-- The number of octets of the payload. -/
def length (f : RawFrame) : Nat := f.header.length

/-- The type of the frame. -/
def type (f : RawFrame) : FrameType := f.header.type

/-- Whether a flag is set. -/
def has (f : RawFrame) (flag : Flag) : Bool := flag.isSet f.header.flags

/-- Where the payload starts. -/
def payloadStart (f : RawFrame) : Nat := f.offset + Header.width

/-- Where the frame ends. -/
def limit (f : RawFrame) : Nat := f.payloadStart + f.length

/-- The number of octets of the frame. -/
def size (f : RawFrame) : Nat := f.limit - f.offset

/-- The octets of the frame. -/
def octets (f : RawFrame) : List UInt8 := f.buffer.slice f.offset f.limit

/-- Where the payload stands. -/
def payloadSpan (f : RawFrame) : Span := ⟨f.payloadStart, f.limit⟩

/-- The octets of the payload. -/
def payload (f : RawFrame) : List UInt8 := f.buffer.part f.payloadSpan

/-- A number in the payload. -/
def number (f : RawFrame) (start width : Nat) : Nat :=
  let start := f.payloadStart + start
  BigEndian.decode (f.buffer.slice start (start + width))

-- =============================================================== rules

/-- The complaint that the frame breaks a rule of its type. -/
def malformed (f : RawFrame) (reason : Malformed) : Error :=
  .malformedFrame f.type reason

/-- The frame must have the expected type. -/
def requireType (f : RawFrame) (expected : FrameType) : Except Error Unit :=
  if f.type = expected then .ok ()
  else .error (.malformedFrame expected (.unexpectedType f.header.typeCode))

/-- The frame must name stream 0, or must not, as its type demands. -/
def requireScope (f : RawFrame) : Except Error Unit :=
  if f.type.isConnectionScoped && f.header.streamId != 0 then
    .error (f.malformed (.streamIdMustBeZero f.header.streamId))
  else if f.type.isStreamScoped && f.header.streamId == 0 then
    .error (f.malformed .streamIdMustBeNonZero)
  else .ok ()

/-- Whether the payload length is one that the type allows. The types
that may be padded are not restricted here. -/
def hasLegalLength (f : RawFrame) : Bool :=
  match f.type with
  | .priority | .rstStream | .ping | .windowUpdate =>
    f.length == f.type.fixedLength
  | .goAway => f.type.fixedLength ≤ f.length
  | .settings => f.length % Parameter.width == 0
  | _ => true

/-- The payload length must be legal. That of a SETTINGS acknowledgement
must be zero, which is told apart from any other illegal length. -/
def requireLength (f : RawFrame) : Except Error Unit :=
  if f.type = .settings && f.has .ack && f.length != 0 then
    .error (f.malformed .ackWithPayload)
  else if f.hasLegalLength then .ok ()
  else .error (f.malformed (.invalidLength f.length))

/-- The frame at `offset`, whatever its type and payload. -/
def read (buffer : Buffer) (offset maxLimit : Nat) : Except Error RawFrame := do
  let f ← locate buffer offset maxLimit
  requireEnd f.limit maxLimit
  return f

-- ============================================================== padding

/-- The pad length octet, if the payload has a first octet. -/
def padLength? (f : RawFrame) : Option UInt8 :=
  if f.length = 0 then none else f.buffer.octet? f.payloadStart

/-- The padding of a frame whose type may be padded. -/
def padding (f : RawFrame) : Option UInt8 :=
  if f.has .padded then f.padLength? else none

/-- What is left of the payload without pad length and padding. It must
hold `least` octets. A payload that has no room for the pad length
itself has an illegal length; one that the padding covers too much of
has an illegal padding. -/
def contentSpan (f : RawFrame) (least : Nat) : Except Error Span :=
  if f.has .padded then
    match f.padLength? with
    | none => .error (f.malformed (.invalidLength 0))
    | some padding =>
      if 1 + least + padding.toNat ≤ f.length then
        .ok ⟨f.payloadStart + 1, f.limit - padding.toNat⟩
      else .error (f.malformed (.invalidPadding padding))
  else if least ≤ f.length then .ok f.payloadSpan
  else .error (f.malformed (.invalidLength f.length))

-- ================================================================ words

/-- The header in words. -/
def describe (f : RawFrame) : String :=
  f.type.name ++ s!" frame <length={f.length}, type=0x"
    ++ Hex.render [f.header.typeCode] ++ ", flags=0x"
    ++ Hex.render [f.header.flags] ++ s!", id={f.header.streamId}>"

/-- The bounds and the header in words, field by field. -/
def describeFields (f : RawFrame) : String :=
  s!"RawFrame \x7b offset: {f.offset}, limit: {f.limit}, type: "
    ++ f.type.name ++ s!", flags: {f.header.flags}, "
    ++ s!"stream_id: {f.header.streamId} \x7d"

end RawFrame

end Http2
