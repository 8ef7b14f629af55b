/-
Header fields: a name and a value, both arbitrary strings of octets.
-/
namespace Http2

/-- A header field. -/
structure Field where
  name : List UInt8
  value : List UInt8
  deriving DecidableEq, Repr

namespace Field

/-- Whether the name starts with a colon, as those of pseudo fields
do. -/
def isPseudo (f : Field) : Bool := f.name.head? == some 0x3a

/-- What a field costs in a dynamic table. -/
def size (f : Field) : Nat := f.name.length + f.value.length + 32

/-- The field with the given texts, one octet for each character. -/
def ofText (name value : String) : Field where
  name := name.toList.map fun c => .ofNat c.toNat
  value := value.toList.map fun c => .ofNat c.toNat

end Field

end Http2
