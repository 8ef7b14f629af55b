/-
Header fields collected by name.

Names are kept in the order in which they first came, and the values of
one name in the order in which they came. Names are compared and kept in
lower case; only the letters A to Z have two cases.
-/
import Http2.Hpack.Field

namespace Http2

/-- A name with its values. -/
structure HeaderGroup where
  name : List UInt8
  values : List (List UInt8)
  deriving DecidableEq, Repr

/-- A multimap from names to values that remembers the order. -/
structure HeaderMap where
  groups : List HeaderGroup := []
  deriving DecidableEq, Repr

namespace HeaderMap

/-- The lower case form of an octet. -/
def lowerOctet (octet : UInt8) : UInt8 :=
  if 0x41 ≤ octet && octet ≤ 0x5a then octet + 0x20 else octet

/-- Adds a value to the group of a name, or a new group at the end. -/
def addTo (name value : List UInt8) : List HeaderGroup → List HeaderGroup
  | [] => [⟨name, [value]⟩]
  | g :: groups =>
    if g.name = name then ⟨name, g.values ++ [value]⟩ :: groups
    else g :: addTo name value groups

/-- Adds a field behind the fields of the same name. -/
def append (m : HeaderMap) (f : Field) : HeaderMap :=
  ⟨addTo (f.name.map lowerOctet) f.value m.groups⟩

/-- The map that several fields make, added one by one. -/
def ofList (fields : List Field) : HeaderMap := fields.foldl append {}

/-- The fields of a map, name by name. -/
def toList (m : HeaderMap) : List Field :=
  m.groups.flatMap fun g => g.values.map fun value => ⟨g.name, value⟩

end HeaderMap

end Http2
