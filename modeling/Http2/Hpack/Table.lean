/-
The index space of header fields: a static table that never changes and
behind it a dynamic table, newest entry first.

The dynamic table is bounded by the sum of its entries' sizes. `insert`
puts a field in front and then drops entries from the back until the
rest fits, so a field larger than the bound leaves the table empty.
-/
import Http2.Hpack.Field

namespace Http2.Hpack

/-- The fields at index 1 and up, as in RFC 7541 Appendix A but for
index 15, which is named `accept-`. -/
def staticTable : List Field := [
  .ofText ":authority" "",
  .ofText ":method" "GET",
  .ofText ":method" "POST",
  .ofText ":path" "/",
  .ofText ":path" "/index.html",
  .ofText ":scheme" "http",
  .ofText ":scheme" "https",
  .ofText ":status" "200",
  .ofText ":status" "204",
  .ofText ":status" "206",
  .ofText ":status" "304",
  .ofText ":status" "400",
  .ofText ":status" "404",
  .ofText ":status" "500",
  .ofText "accept-" "",
  .ofText "accept-encoding" "gzip, deflate",
  .ofText "accept-language" "",
  .ofText "accept-ranges" "",
  .ofText "accept" "",
  .ofText "access-control-allow-origin" "",
  .ofText "age" "",
  .ofText "allow" "",
  .ofText "authorization" "",
  .ofText "cache-control" "",
  .ofText "content-disposition" "",
  .ofText "content-encoding" "",
  .ofText "content-language" "",
  .ofText "content-length" "",
  .ofText "content-location" "",
  .ofText "content-range" "",
  .ofText "content-type" "",
  .ofText "cookie" "",
  .ofText "date" "",
  .ofText "etag" "",
  .ofText "expect" "",
  .ofText "expires" "",
  .ofText "from" "",
  .ofText "host" "",
  .ofText "if-match" "",
  .ofText "if-modified-since" "",
  .ofText "if-none-match" "",
  .ofText "if-range" "",
  .ofText "if-unmodified-since" "",
  .ofText "last-modified" "",
  .ofText "link" "",
  .ofText "location" "",
  .ofText "max-forwards" "",
  .ofText "proxy-authenticate" "",
  .ofText "proxy-authorization" "",
  .ofText "range" "",
  .ofText "referer" "",
  .ofText "refresh" "",
  .ofText "retry-after" "",
  .ofText "server" "",
  .ofText "set-cookie" "",
  .ofText "strict-transport-security" "",
  .ofText "transfer-encoding" "",
  .ofText "user-agent" "",
  .ofText "vary" "",
  .ofText "via" "",
  .ofText "www-authenticate" ""]

/-- A dynamic table, which is all that an encoder or a decoder remembers
from one header block to the next. -/
structure Table where
  entries : List Field := []
  maxSize : Nat := 4096
  deriving DecidableEq, Repr

namespace Table

/-- The longest run of fields from the front that fits into `room`. -/
def fitting (room : Nat) : List Field → List Field
  | [] => []
  | f :: fs => if f.size ≤ room then f :: fitting (room - f.size) fs else []

/-- The sum of the sizes of the entries. -/
def size (t : Table) : Nat := t.entries.foldr (fun f total => f.size + total) 0

/-- Adds a field as the newest entry. -/
def insert (t : Table) (f : Field) : Table :=
  { t with entries := fitting t.maxSize (f :: t.entries) }

/-- Sets the bound, which may drop entries. -/
def resize (t : Table) (maxSize : Nat) : Table :=
  ⟨fitting maxSize t.entries, maxSize⟩

/-- Every field with an index, the one at index 1 first. -/
def fields (t : Table) : List Field := staticTable ++ t.entries

/-- The field at an index. There is none at index 0. -/
def lookup? (t : Table) (index : Nat) : Option Field :=
  if index = 0 then none else t.fields[index - 1]?

/-- The first index at which exactly this field stands. -/
def indexOf? (t : Table) (f : Field) : Option Nat :=
  ((t.fields.zipIdx 1).find? (·.1 == f)).map (·.2)

/-- The last index at which a field of this name stands. -/
def lastIndexOfName? (t : Table) (name : List UInt8) : Option Nat :=
  ((t.fields.zipIdx 1).reverse.find? (·.1.name == name)).map (·.2)

end Table

end Http2.Hpack
