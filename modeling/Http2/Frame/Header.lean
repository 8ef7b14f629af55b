/-
The nine octets that every frame starts with.

A payload length of 24 bits, a type, a flags octet, and a stream
identifier of 31 bits below a reserved bit that readers ignore. The
single fields can also be read at any address of a buffer (`lengthAt?`
and its siblings); each answers `none` exactly if one of the octets it
reads lies outside.
-/
import Http2.Bounds
import Http2.Octets.BigEndian
import Http2.Octets.Buffer

namespace Http2

/-- The number in a field of a buffer, if the field lies inside. -/
def Buffer.number? (b : Buffer) (start width : Nat) : Option Nat :=
  if start + width ≤ b.size then
    some (BigEndian.decode (b.slice start (start + width)))
  else none

/-- A frame header without its reserved bit. -/
structure Header where
  length : Nat
  typeCode : UInt8
  flags : UInt8
  streamId : UInt32
  deriving DecidableEq, Repr

namespace Header

/-- The number of octets of a header. -/
def width : Nat := 9

/-- Where the type stands in a header. -/
def typeOffset : Nat := 3

/-- Where the flags stand in a header. -/
def flagsOffset : Nat := 4

/-- Where the stream identifier stands in a header. -/
def streamIdOffset : Nat := 5

/-- The number of octets of the length field. -/
def lengthWidth : Nat := 3

/-- The number of octets of the stream identifier. -/
def streamIdWidth : Nat := 4

/-- The largest payload length that the length field can hold. -/
def maxLength : Nat := 1 <<< 24 - 1

/-- The header that nine octets spell. -/
def decode (octets : List UInt8) : Header where
  length := BigEndian.decode (octets.take lengthWidth)
  typeCode := octets.getD typeOffset 0
  flags := octets.getD flagsOffset 0
  streamId := maskStreamId
    (BigEndian.decode ((octets.drop streamIdOffset).take streamIdWidth))

/-- The nine octets of a header. -/
def encode (h : Header) : List UInt8 :=
  BigEndian.encode lengthWidth h.length ++ [h.typeCode, h.flags]
    ++ BigEndian.encode streamIdWidth h.streamId.toNat

/-- The type that a header names. -/
def type (h : Header) : FrameType := .ofCode h.typeCode

-- ===================================================== single fields

/-- The payload length of a header at an address. -/
def lengthAt? (b : Buffer) (offset : Nat) : Option Nat :=
  b.number? offset lengthWidth

/-- The type octet of a header at an address. -/
def typeCodeAt? (b : Buffer) (offset : Nat) : Option UInt8 :=
  b.octet? (offset + typeOffset)

/-- The type of a header at an address. -/
def typeAt? (b : Buffer) (offset : Nat) : Option FrameType :=
  (typeCodeAt? b offset).map .ofCode

/-- The flags octet of a header at an address. -/
def flagsAt? (b : Buffer) (offset : Nat) : Option UInt8 :=
  b.octet? (offset + flagsOffset)

/-- The stream identifier of a header at an address. -/
def streamIdAt? (b : Buffer) (offset : Nat) : Option UInt32 :=
  (b.number? (offset + streamIdOffset) streamIdWidth).map maskStreamId

end Header

end Http2
