/-
String literals in header blocks: a length behind one bit that tells
whether the octets are Huffman coded, then that many octets. Literals
are written without Huffman coding and read with or without it.
-/
import Http2.Hpack.Huffman
import Http2.Hpack.Integer

namespace Http2.Hpack.Literal

/-- A string with its length in front, as it is. -/
def encode (octets : List UInt8) : List UInt8 :=
  Integer.encode 7 0 octets.length ++ octets

/-- Whether the literal at the front of a string is Huffman coded. -/
def isHuffman (octets : List UInt8) : Bool :=
  match octets with
  | first :: _ => 128 ≤ first.toNat
  | [] => false

/-- The octets of the literal at the front of a string as they are
written, and how many octets the literal takes in all. -/
def raw? (octets : List UInt8) : Option (List UInt8 × Nat) := do
  let (length, taken) ← Integer.decode 7 octets
  let body := (octets.drop taken).take length
  if body.length = length then some (body, taken + length) else none

/-- The string that the literal at the front of a string stands for, and
how many octets the literal takes. -/
def decode (octets : List UInt8) : Option (List UInt8 × Nat) := do
  let (body, taken) ← raw? octets
  if isHuffman octets then
    let text ← Huffman.decode body
    some (text, taken)
  else some (body, taken)

end Http2.Hpack.Literal
