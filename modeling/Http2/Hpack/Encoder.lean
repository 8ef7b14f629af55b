/-
Compressing header fields.

A field that stands in a table is written as its index. If only its name
does, it is written as a literal behind the last index of the name and
nothing is remembered. Otherwise name and value are written out and the
field is added to the dynamic table. Names are taken as they are.
-/
import Http2.Hpack.Literal
import Http2.Hpack.Table

namespace Http2.Hpack.Table

/-- The representation of a field, and the table behind it. -/
def encode (t : Table) (f : Field) : List UInt8 × Table :=
  match t.indexOf? f with
  | some index => (Integer.encode 7 0x80 index, t)
  | none =>
    match t.lastIndexOfName? f.name with
    | some index => (Integer.encode 4 0x00 index ++ Literal.encode f.value, t)
    | none =>
      (0x40 :: (Literal.encode f.name ++ Literal.encode f.value), t.insert f)

/-- The representations of several fields one behind the other. -/
def encodeAll (t : Table) : List Field → List UInt8 × Table
  | [] => ([], t)
  | f :: fs =>
    let (front, t) := t.encode f
    let (back, t) := t.encodeAll fs
    (front ++ back, t)

end Http2.Hpack.Table
