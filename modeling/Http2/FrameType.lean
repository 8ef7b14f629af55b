/-
Frame types and the flags that mean something to them.

A type is one octet. Ten values are named; every other value is
`unrecognized`, which has to be passed over and not rejected, so
`FrameType.ofCode` is total. One flag bit may carry two names: END_STREAM
and ACK are the same bit, told apart by the type of the frame alone.
-/
namespace Http2

/-- What a frame is for. -/
inductive FrameType where
  | data
  | headers
  | priority
  | rstStream
  | settings
  | pushPromise
  | ping
  | goAway
  | windowUpdate
  | continuation
  | unrecognized
  deriving DecidableEq, Repr

/-- A named bit of the flags octet. -/
inductive Flag where
  | endStream
  | ack
  | endHeaders
  | padded
  | priority
  deriving DecidableEq, Repr

namespace Flag

/-- The octet in which only this flag is set. -/
def mask : Flag → UInt8
  | endStream => 0x01
  | ack => 0x01
  | endHeaders => 0x04
  | padded => 0x08
  | priority => 0x20

/-- Whether a flag is set in a flags octet. -/
def isSet (flag : Flag) (flags : UInt8) : Bool := flags &&& flag.mask != 0

/-- The octet in which exactly the listed flags are set. -/
def union (flags : List Flag) : UInt8 :=
  flags.foldl (fun octet flag => octet ||| flag.mask) 0

end Flag

namespace FrameType

/-- The number of a type on the wire. -/
def code : FrameType → UInt8
  | data => 0
  | headers => 1
  | priority => 2
  | rstStream => 3
  | settings => 4
  | pushPromise => 5
  | ping => 6
  | goAway => 7
  | windowUpdate => 8
  | continuation => 9
  | unrecognized => 0xff

/-- The type with a given number. -/
def ofCode (n : UInt8) : FrameType :=
  match n.toNat with
  | 0 => data
  | 1 => headers
  | 2 => priority
  | 3 => rstStream
  | 4 => settings
  | 5 => pushPromise
  | 6 => ping
  | 7 => goAway
  | 8 => windowUpdate
  | 9 => continuation
  | _ => unrecognized

@[simp] theorem ofCode_code (t : FrameType) : ofCode t.code = t := by
  cases t <;> rfl

/-- The name of a type in messages. -/
def name : FrameType → String
  | data => "Data"
  | headers => "Headers"
  | priority => "Priority"
  | rstStream => "RstStream"
  | settings => "Settings"
  | pushPromise => "PushPromise"
  | ping => "Ping"
  | goAway => "GoAway"
  | windowUpdate => "WindowUpdate"
  | continuation => "Continuation"
  | unrecognized => "Unrecognized"

/-- The flags that carry a meaning for a type. All other bits are to be
ignored. -/
def definedFlags : FrameType → List Flag
  | data => [.endStream, .padded]
  | headers => [.endStream, .endHeaders, .padded, .priority]
  | settings | ping => [.ack]
  | pushPromise => [.endHeaders, .padded]
  | continuation => [.endHeaders]
  | priority | rstStream | goAway | windowUpdate | unrecognized => []

/-- The number of octets that every payload of a type has. -/
def fixedLength : FrameType → Nat
  | priority => 5
  | rstStream | pushPromise | windowUpdate => 4
  | ping | goAway => 8
  | data | headers | settings | continuation | unrecognized => 0

/-- Whether frames of a type speak for the whole connection and so must
name stream 0. -/
def isConnectionScoped : FrameType → Bool
  | settings | ping | goAway => true
  | _ => false

/-- Whether frames of a type belong to one stream and so must not name
stream 0. -/
def isStreamScoped : FrameType → Bool
  | data | headers | priority | rstStream | pushPromise | continuation =>
    true
  | _ => false

end FrameType

end Http2
