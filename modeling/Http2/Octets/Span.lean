/-
Runs of addresses, and the octets of a buffer that stand there.

What a frame carries is described by spans, so a frame says where its
parts are without a copy of them; `Buffer.part` looks a part up.
-/
import Http2.Octets.Buffer

namespace Http2

/-- The addresses in `[start, stop)`. -/
structure Span where
  start : Nat
  stop : Nat
  deriving DecidableEq, Repr

namespace Span

/-- The span that lies `distance` addresses further on. -/
def shift (s : Span) (distance : Nat) : Span :=
  ⟨s.start + distance, s.stop + distance⟩

end Span

/-- The octets that stand in a span. -/
def Buffer.part (b : Buffer) (s : Span) : List UInt8 :=
  b.slice s.start s.stop

end Http2
