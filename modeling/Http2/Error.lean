/-
What can go wrong with a frame, and what to tell the peer about it.

Errors are causes. Their wording lives in `Error.message` alone, and the
code to report in `Error.code`: a length that is illegal for the type is
a frame size error, an oversized flow control window a flow control
error, and all other malformed frames are protocol errors.
-/
import Http2.ErrorCode
import Http2.FrameType
import Http2.Settings.Parameter

namespace Http2

/-- The structural rule that a frame breaks. -/
inductive Malformed where
  /-- The type octet does not name the expected type. -/
  | unexpectedType (code : UInt8)
  /-- A frame for the whole connection names a stream. -/
  | streamIdMustBeZero (id : UInt32)
  /-- A frame for a stream names none. -/
  | streamIdMustBeNonZero
  /-- The payload length is not legal for the type. -/
  | invalidLength (length : Nat)
  /-- The padding leaves no room for the rest of the payload. -/
  | invalidPadding (padding : UInt8)
  /-- A SETTINGS acknowledgement has a payload. -/
  | ackWithPayload
  /-- A known parameter has an illegal value. -/
  | invalidSetting (parameter : Parameter)
  deriving DecidableEq, Repr

/-- The argument that a call may not be given. -/
inductive IllegalArgument where
  | offsetOverflows
  | reservedStreamBit
  | payloadTooLong
  | ackNotEmpty
  | settingOutOfRange
  | pingPayloadLength
  | windowSizeIncrement
  | initialWindowSize
  | maxFrameSize
  deriving DecidableEq, Repr

/-- Why a call was turned down. -/
inductive Error where
  /-- Something would end at `limit`, behind the accessible bound. -/
  | bufferOverrun (limit maxLimit : Nat)
  /-- The octets are no frame of the given type. -/
  | malformedFrame (type : FrameType) (reason : Malformed)
  /-- An argument lies outside the legal domain. -/
  | invalidArgument (argument : IllegalArgument)
  /-- A header block cannot be decompressed. -/
  | compression
  deriving DecidableEq, Repr

namespace Malformed

/-- The rule in words. -/
def describe : Malformed → String
  | unexpectedType code => s!"UnexpectedType({code})"
  | streamIdMustBeZero id => s!"StreamIdMustBeZero({id})"
  | streamIdMustBeNonZero => "StreamIdMustBeNonZero"
  | invalidLength length => s!"InvalidLength({length})"
  | invalidPadding padding => s!"InvalidPadding({padding})"
  | ackWithPayload => "AckWithPayload"
  | invalidSetting ⟨ident, value⟩ =>
    s!"InvalidSetting \x7b ident: {ident}, value: {value} \x7d"

end Malformed

namespace IllegalArgument

/-- The complaint in words. -/
def describe : IllegalArgument → String
  | offsetOverflows => "offset overflows"
  | reservedStreamBit =>
    "the reserved stream identifier bit must not be set"
  | payloadTooLong => "the payload exceeds the 24 bit length field"
  | ackNotEmpty => "a SETTINGS acknowledgement must be empty"
  | settingOutOfRange => "the value is out of range for the setting"
  | pingPayloadLength => "a PING payload must be 8 bytes long"
  | windowSizeIncrement =>
    "the window size increment must be within 1 and 2^31-1"
  | initialWindowSize => "the initial window size exceeds 2^31-1"
  | maxFrameSize => "the max frame size must be within 2^14 and 2^24-1"

end IllegalArgument

namespace Error

/-- The error in words. -/
def message : Error → String
  | bufferOverrun limit maxLimit =>
    s!"buffer overrun (limit: {limit}, max limit: {maxLimit})"
  | malformedFrame type reason =>
    "malformed " ++ type.name ++ " frame: " ++ reason.describe
  | invalidArgument argument => "invalid argument: " ++ argument.describe
  | compression => "HPACK compression error"

/-- The code that a connection reports to its peer. -/
def code : Error → ErrorCode
  | bufferOverrun _ _ => .internalError
  | malformedFrame _ reason =>
    match reason with
    | .invalidLength _ | .ackWithPayload => .frameSizeError
    | .invalidSetting ⟨ident, _⟩ =>
      if ident = Setting.initialWindowSize.code then .flowControlError
      else .protocolError
    | _ => .protocolError
  | invalidArgument _ => .internalError
  | compression => .compressionError

end Error

end Http2
