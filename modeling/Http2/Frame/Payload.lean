/-
What the payload of a frame says.

There is one constructor for each type. Parts of free length, such as
data and header blocks, are of a type `α`: a frame taken from a buffer
says where they stand (`Payload Span`), and `Payload.map` turns that
into what they are (`Payload (List UInt8)`), which no longer depends on
any address.
-/
import Http2.FrameType
import Http2.Priority
import Http2.Settings.Parameter

namespace Http2

/-- The payload of a frame by type, with parts of free length `α`.
Padding is `none` for a frame that is not padded, which is not the same
as padding by zero octets. -/
inductive Payload (α : Type) where
  | data (padding : Option UInt8) (data : α)
  | headers (padding : Option UInt8) (priority : Option Priority) (block : α)
  | priority (priority : Priority)
  | rstStream (errorCode : UInt32)
  | settings (parameters : Parameters)
  | pushPromise (padding : Option UInt8) (promisedStreamId : UInt32)
      (block : α)
  | ping (octets : List UInt8)
  | goAway (lastStreamId errorCode : UInt32) (debugData : α)
  | windowUpdate (increment : UInt32)
  | continuation (block : α)
  | unrecognized (octets : α)
  deriving DecidableEq

namespace Payload

variable {α β : Type}

/-- Changes how the parts of free length are given. -/
def map (f : α → β) : Payload α → Payload β
  | data padding part => data padding (f part)
  | headers padding standing block => headers padding standing (f block)
  | priority standing => priority standing
  | rstStream errorCode => rstStream errorCode
  | settings parameters => settings parameters
  | pushPromise padding promisedStreamId block =>
    pushPromise padding promisedStreamId (f block)
  | ping octets => ping octets
  | goAway lastStreamId errorCode debugData =>
    goAway lastStreamId errorCode (f debugData)
  | windowUpdate increment => windowUpdate increment
  | continuation block => continuation (f block)
  | unrecognized octets => unrecognized (f octets)

/-- The type of the frames that carry such a payload. -/
def type : Payload α → FrameType
  | data .. => .data
  | headers .. => .headers
  | priority .. => .priority
  | rstStream .. => .rstStream
  | settings .. => .settings
  | pushPromise .. => .pushPromise
  | ping .. => .ping
  | goAway .. => .goAway
  | windowUpdate .. => .windowUpdate
  | continuation .. => .continuation
  | unrecognized .. => .unrecognized

/-- The header block, for the types that carry one. -/
def block? : Payload α → Option α
  | headers _ _ block | pushPromise _ _ block | continuation block => some block
  | _ => none

end Payload

end Http2
