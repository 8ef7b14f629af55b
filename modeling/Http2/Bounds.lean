/-
The bounds that are checked before a buffer is read or written.

A place in a buffer is given by an offset and a bound `maxLimit` that
nothing may reach across. The bound itself must lie inside the buffer
(`requireRoom`), and addresses are 64 bit numbers.
-/
import Http2.Error

namespace Http2

/-- One more than the largest address. -/
def addressSpace : Nat := 1 <<< 64

/-- The bit above the 31 bits of a stream identifier. -/
def reservedBit : Nat := 1 <<< 31

/-- Nothing may end behind its bound. -/
def requireEnd (limit maxLimit : Nat) : Except Error Unit :=
  if limit ≤ maxLimit then .ok () else .error (.bufferOverrun limit maxLimit)

/-- At least `least` octets from `offset` on must lie below `maxLimit`,
and `maxLimit` inside the buffer. -/
def requireRoom (size offset maxLimit least : Nat) : Except Error Unit := do
  requireEnd maxLimit size
  unless offset + least < addressSpace do
    throw (.invalidArgument .offsetOverflows)
  requireEnd (offset + least) maxLimit

/-- The bit above a stream identifier is never sent. -/
def requireStreamId (id : UInt32) : Except Error Unit :=
  if id.toNat < reservedBit then .ok ()
  else .error (.invalidArgument .reservedStreamBit)

/-- The stream identifier in a 32 bit field, whatever its reserved bit. -/
def maskStreamId (field : Nat) : UInt32 := .ofNat (field % reservedBit)

end Http2
