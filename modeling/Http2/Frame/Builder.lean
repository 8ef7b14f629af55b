/-
Frames under construction.

A builder lays a frame down in a window of a buffer and keeps it whole:
after every call the octets in `[offset, limit)` are a frame whose
length field is right. Padding always stays at the end of the payload.
Content goes in front of it, either behind what is there (`append`) or
in front of all of it (`insert`), and every call that moves the end of
the content writes the padding anew (`endContentAt`).

A refused call tells what it leaves behind. Checks come before writing
but for one: that the payload fits its length field is noticed only when
the content is written already.
-/
import Http2.Attempt
import Http2.Frame

namespace Http2.Frame

/-- A frame of a given type that is written up to `limit`. Nothing may
be written from `maxLimit` on, and the last `padding` octets are
padding. -/
structure Builder where
  type : FrameType
  buffer : Buffer
  offset : Nat
  limit : Nat
  maxLimit : Nat
  padding : Nat := 0

namespace Builder

/-- The frame of a type with no flags, stream 0, and zeros in the fields
that every frame of the type has. -/
def blank (type : FrameType) : List UInt8 :=
  Header.encode ⟨type.fixedLength, type.code, 0, 0⟩
    ++ List.replicate type.fixedLength 0

/-- Starts a frame at `offset`. -/
def start (type : FrameType) (buffer : Buffer) (offset maxLimit : Nat) :
    Except Error Builder := do
  let width := Header.width + type.fixedLength
  requireRoom buffer.size offset maxLimit width
  return {
    type
    buffer := buffer.write offset (blank type)
    offset
    limit := offset + width
    maxLimit }

-- ============================================================ accessors

/-- The octets of the frame as it stands. -/
def octets (b : Builder) : List UInt8 := b.buffer.slice b.offset b.limit

/-- Where the payload starts. -/
def payloadStart (b : Builder) : Nat := b.offset + Header.width

/-- The number of octets of the payload, padding included. -/
def length (b : Builder) : Nat := b.limit - b.payloadStart

/-- Where the content ends and the padding starts. -/
def contentEnd (b : Builder) : Nat := b.limit - b.padding

/-- The flags octet as it stands. -/
def flags (b : Builder) : UInt8 :=
  (Header.flagsAt? b.buffer b.offset).getD 0

/-- Whether a flag is set. -/
def has (b : Builder) (flag : Flag) : Bool := flag.isSet b.flags

/-- Where the fields of the type start: behind the pad length if there
is one. -/
def fieldsStart (b : Builder) : Nat :=
  b.payloadStart + if b.has .padded then 1 else 0

-- ============================================================== writing

/-- Overwrites octets of the frame. -/
def overwrite (b : Builder) (start : Nat) (octets : List UInt8) : Builder :=
  { b with buffer := b.buffer.write start octets }

/-- Sets a flag. -/
def setFlag (b : Builder) (flag : Flag) : Builder :=
  b.overwrite (b.offset + Header.flagsOffset) [b.flags ||| flag.mask]

/-- Sets the stream identifier. -/
def setStreamId (b : Builder) (id : UInt32) : Attempt Builder :=
  .guarded b (requireStreamId id)
    (.ok (b.overwrite (b.offset + Header.streamIdOffset)
      (BigEndian.encode Header.streamIdWidth id.toNat)))

/-- Overwrites a field of the type with a 32 bit number. -/
def setField (b : Builder) (start : Nat) (value : UInt32) : Builder :=
  b.overwrite (b.fieldsStart + start) (BigEndian.encode 4 value.toNat)

/-- The payload length must fit the length field. -/
def requireLength (length : Nat) : Except Error Unit :=
  if length ≤ Header.maxLength then .ok ()
  else .error (.invalidArgument .payloadTooLong)

/-- Makes the content end at `contentEnd`, with the padding and the
length field to match. -/
def endContentAt (b : Builder) (contentEnd : Nat) : Attempt Builder :=
  let limit := contentEnd + b.padding
  let length := limit - b.payloadStart
  .guarded b (requireEnd limit b.maxLimit) <|
  .guarded b (requireLength length) <|
  .ok ({ b with limit }
    |>.overwrite contentEnd (List.replicate b.padding 0)
    |>.overwrite b.offset (BigEndian.encode Header.lengthWidth length))

/-- Adds octets behind the content. -/
def append (b : Builder) (octets : List UInt8) : Attempt Builder :=
  let contentEnd := b.contentEnd + octets.length
  .guarded b (requireEnd (contentEnd + b.padding) b.maxLimit)
    ((b.overwrite b.contentEnd octets).endContentAt contentEnd)

/-- Adds octets at an address inside the content and moves what is
behind it further on. -/
def insert (b : Builder) (start : Nat) (octets : List UInt8) :
    Attempt Builder :=
  let contentEnd := b.contentEnd + octets.length
  let behind := b.buffer.slice start b.contentEnd
  .guarded b (requireEnd (contentEnd + b.padding) b.maxLimit)
    ((b.overwrite start (octets ++ behind)).endContentAt contentEnd)

-- ============================================================== padding

/-- Makes the frame a padded one, with padding of no octets. -/
def addPadLength (b : Builder) : Attempt Builder :=
  ({ b with padding := 0 }.insert b.payloadStart [0]).andThen fun b =>
    .ok (b.setFlag .padded)

/-- Changes the number of padding octets of a padded frame. -/
def resizePadding (b : Builder) (padding : UInt8) : Attempt Builder :=
  let padded := { b.overwrite b.payloadStart [padding] with
    padding := padding.toNat }
  .guarded b (requireEnd (b.contentEnd + padding.toNat) b.maxLimit)
    (padded.endContentAt b.contentEnd)

/-- Pads the frame. The pad length goes in front of everything written
so far; a later call only changes it. -/
def setPadding (b : Builder) (padding : UInt8) : Attempt Builder :=
  (if b.has .padded then .ok b else b.addPadLength).andThen
    (·.resizePadding padding)

-- ================================================================= end

/-- The frame that has been written. -/
def build (b : Builder) : Except Error Frame :=
  Frame.readAs b.type b.buffer b.offset b.limit

end Builder

end Http2.Frame
