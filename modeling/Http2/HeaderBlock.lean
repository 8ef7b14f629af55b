/-
Header blocks: runs of encoded header fields inside a buffer.

A block is a window `[offset, limit)`. It can be split into its
representations without decoding anything (`representations`), or
decoded field by field with the dynamic table of its connection
(`HeaderBlock.Fields`).
-/
import Http2.Bounds
import Http2.Hpack.Representation
import Http2.Octets.Span

namespace Http2

/-- A window onto encoded header fields. -/
structure HeaderBlock where
  buffer : Buffer
  offset : Nat
  limit : Nat

namespace HeaderBlock

/-- The block that covers everything from `offset` to `maxLimit`. -/
def read (buffer : Buffer) (offset maxLimit : Nat) :
    Except Error HeaderBlock := do
  requireRoom buffer.size offset maxLimit 0
  return ⟨buffer, offset, maxLimit⟩

/-- The block at a span of a buffer. -/
def ofSpan (buffer : Buffer) (s : Span) : HeaderBlock :=
  ⟨buffer, s.start, s.stop⟩

/-- The number of octets of a block. -/
def size (b : HeaderBlock) : Nat := b.limit - b.offset

/-- The octets of a block. -/
def octets (b : HeaderBlock) : List UInt8 := b.buffer.slice b.offset b.limit

/-- Whether a block has no octets. -/
def isEmpty (b : HeaderBlock) : Bool := b.offset == b.limit

/-- The walk over the representations of a block. -/
def representations (b : HeaderBlock) : Hpack.Scanner := { rest := b.octets }

/-- The bounds of a block in words. -/
def describe (b : HeaderBlock) : String :=
  s!"HeaderBlock \x7b offset: {b.offset}, limit: {b.limit} \x7d"

end HeaderBlock

end Http2
