/-
Where a stream stands in the dependency tree.

Five octets: a stream identifier whose reserved bit tells whether the
dependency is exclusive, and a weight.
-/
import Http2.Bounds
import Http2.Octets.BigEndian

namespace Http2

/-- The priority fields of PRIORITY and HEADERS frames. The weight is
the one on the wire; what it means is one more. -/
structure Priority where
  streamDependency : UInt32
  exclusive : Bool
  weight : UInt8
  deriving DecidableEq, Repr

namespace Priority

/-- The number of octets of the priority fields. -/
def width : Nat := 5

/-- The fields that five octets spell. -/
def decode (octets : List UInt8) : Priority :=
  let dependency := BigEndian.decode (octets.take 4)
  { streamDependency := maskStreamId dependency
    exclusive := decide (reservedBit ≤ dependency)
    weight := octets.getD 4 0 }

/-- The five octets of the fields. -/
def encode (p : Priority) : List UInt8 :=
  let mark := if p.exclusive then reservedBit else 0
  BigEndian.encode 4 (mark + p.streamDependency.toNat) ++ [p.weight]

/-- The stream depended on must be a stream identifier, since its
reserved bit is taken. -/
def require (p : Priority) : Except Error Unit :=
  requireStreamId p.streamDependency

end Priority

end Http2
