/-
Frames with their payload.

`Frame.read` reads the frame at an offset, and `Frame.readAs` the same
but of a given type. Checks come in a fixed order: what the header alone
breaks comes first, then whether the frame lies inside its bound, and
only then what the payload breaks. So a frame that is not there yet in
full is never taken for a malformed one on account of octets that are
missing.
-/
import Http2.Frame.Payload
import Http2.Frame.Raw
import Http2.HeaderBlock

namespace Http2

/-- A frame and what its payload says. -/
structure Frame where
  raw : RawFrame
  payload : Payload Span

namespace RawFrame

/-- The last part of a payload, from a number of octets on. -/
def spanFrom (f : RawFrame) (start : Nat) : Span :=
  ⟨f.payloadStart + start, f.limit⟩

/-- The payload of a DATA frame. -/
def readData (f : RawFrame) : Except Error (Payload Span) := do
  let data ← f.contentSpan 0
  return .data f.padding data

/-- The payload of a HEADERS frame. -/
def readHeaders (f : RawFrame) : Except Error (Payload Span) := do
  if f.has .priority then
    let ⟨start, stop⟩ ← f.contentSpan Priority.width
    let block := start + Priority.width
    let priority := Priority.decode (f.buffer.slice start block)
    return .headers f.padding (some priority) ⟨block, stop⟩
  else
    let block ← f.contentSpan 0
    return .headers f.padding none block

/-- The payload of a PUSH_PROMISE frame. -/
def readPushPromise (f : RawFrame) : Except Error (Payload Span) := do
  let ⟨start, stop⟩ ← f.contentSpan FrameType.pushPromise.fixedLength
  let block := start + FrameType.pushPromise.fixedLength
  let promised := BigEndian.decode (f.buffer.slice start block)
  return .pushPromise f.padding (maskStreamId promised) ⟨block, stop⟩

/-- The payload of a SETTINGS frame. The first illegal parameter decides
what is complained about. -/
def readSettings (f : RawFrame) : Except Error (Payload Span) :=
  let parameters : Parameters := ⟨f.payload⟩
  match parameters.find? fun p => !p.isLegal with
  | some p => .error (f.malformed (.invalidSetting p))
  | none => .ok (.settings parameters)

/-- The payload of a frame that lies inside its buffer and has a legal
length. -/
def readPayload (f : RawFrame) : Except Error (Payload Span) :=
  match f.type with
  | .data => f.readData
  | .headers => f.readHeaders
  | .priority => .ok (.priority (Priority.decode f.payload))
  | .rstStream => .ok (.rstStream (.ofNat (f.number 0 4)))
  | .settings => f.readSettings
  | .pushPromise => f.readPushPromise
  | .ping => .ok (.ping f.payload)
  | .goAway =>
    .ok (.goAway (maskStreamId (f.number 0 4)) (.ofNat (f.number 4 4))
      (f.spanFrom FrameType.goAway.fixedLength))
  | .windowUpdate => .ok (.windowUpdate (maskStreamId (f.number 0 4)))
  | .continuation => .ok (.continuation f.payloadSpan)
  | .unrecognized => .ok (.unrecognized f.payloadSpan)

end RawFrame

namespace Frame

/-- The frame with a given header, unless it breaks a rule. -/
def ofRaw (raw : RawFrame) (maxLimit : Nat) : Except Error Frame := do
  raw.requireScope
  raw.requireLength
  requireEnd raw.limit maxLimit
  let payload ← raw.readPayload
  return ⟨raw, payload⟩

/-- The frame at `offset`, which must end at or before `maxLimit`. -/
def read (buffer : Buffer) (offset maxLimit : Nat) : Except Error Frame := do
  let raw ← RawFrame.locate buffer offset maxLimit
  ofRaw raw maxLimit

/-- The frame at `offset`, which must be of the expected type. -/
def readAs (expected : FrameType) (buffer : Buffer) (offset maxLimit : Nat) :
    Except Error Frame := do
  let raw ← RawFrame.locate buffer offset maxLimit
  raw.requireType expected
  ofRaw raw maxLimit

/-- What the payload says, with its parts looked up. -/
def contents (f : Frame) : Payload (List UInt8) :=
  f.payload.map f.raw.buffer.part

/-- The header block, for the types that carry one. -/
def block? (f : Frame) : Option HeaderBlock :=
  f.payload.block?.map (HeaderBlock.ofSpan f.raw.buffer)

end Frame

end Http2
