/-
Laying header blocks down.

A builder writes representations one behind the other into a window of a
buffer. The encoder's table is threaded through: it learns about a field
before the room for the field is checked, so after a refusal it is one
field ahead of the block.
-/
import Http2.Attempt
import Http2.HeaderBlock
import Http2.HeaderMap
import Http2.Hpack.Encoder

namespace Http2.HeaderBlock

/-- A block under construction: `[offset, limit)` is written, and
nothing may be written from `maxLimit` on. -/
structure Builder where
  buffer : Buffer
  offset : Nat
  limit : Nat
  maxLimit : Nat

namespace Builder

/-- An empty block at `offset`. -/
def start (buffer : Buffer) (offset maxLimit : Nat) : Except Error Builder := do
  requireRoom buffer.size offset maxLimit 0
  return ⟨buffer, offset, offset, maxLimit⟩

/-- The octets written so far. -/
def octets (b : Builder) : List UInt8 := b.buffer.slice b.offset b.limit

/-- Appends representations that are encoded already. -/
def append (b : Builder) (octets : List UInt8) : Attempt Builder :=
  let limit := b.limit + octets.length
  .guarded b (requireEnd limit b.maxLimit)
    (.ok { b with buffer := b.buffer.write b.limit octets, limit })

/-- Encodes a field and appends it. -/
def field (b : Builder) (table : Hpack.Table) (f : Field) :
    Attempt (Builder × Hpack.Table) :=
  let (octets, table) := table.encode f
  (b.append octets).within (·, table)

/-- Encodes and appends several fields, up to the first that does not
fit. -/
def fields (b : Builder) (table : Hpack.Table) :
    List Field → Attempt (Builder × Hpack.Table)
  | [] => .ok (b, table)
  | f :: fs =>
    match b.field table f with
    | .error r => .error r
    | .ok (b, table) => b.fields table fs

/-- The block that has been written. -/
def build (b : Builder) : Except Error HeaderBlock :=
  HeaderBlock.read b.buffer b.offset b.limit

end Builder

end Http2.HeaderBlock
