/-
The Huffman code of string literals (RFC 7541 Appendix B).

The code is canonical: codes are handed out in order, the shorter ones
first and those of one length by symbol. So the lengths determine it,
and they are all that is written down here. Symbol 256 ends a string;
it never occurs inside one, and a prefix of its code, which is all
ones, pads the last octet.
-/
namespace Http2.Hpack.Huffman

/-- The symbol that no string may contain. -/
def endOfString : Nat := 256

/-- The number of bits of the longest code. -/
def maxLength : Nat := 30

/-- The number of bits of each symbol's code. -/
def lengths : List Nat := [
  13, 23, 28, 28, 28, 28, 28, 28, 28, 24, 30, 28, 28, 30, 28, 28,
  28, 28, 28, 28, 28, 28, 30, 28, 28, 28, 28, 28, 28, 28, 28, 28,
  6, 10, 10, 12, 13, 6, 8, 11, 10, 10, 8, 11, 8, 6, 6, 6,
  5, 5, 5, 6, 6, 6, 6, 6, 6, 6, 7, 8, 15, 6, 12, 10,
  13, 6, 7, 7, 7, 7, 7, 7, 7, 7, 7, 7, 7, 7, 7, 7,
  7, 7, 7, 7, 7, 7, 7, 7, 8, 7, 8, 13, 19, 13, 14, 6,
  15, 5, 6, 5, 6, 5, 6, 6, 6, 5, 7, 7, 6, 6, 6, 5,
  6, 7, 6, 5, 5, 6, 7, 7, 7, 7, 7, 15, 11, 14, 13, 28,
  20, 22, 20, 20, 22, 22, 22, 23, 22, 23, 23, 23, 23, 23, 24, 23,
  24, 24, 22, 23, 24, 23, 23, 23, 23, 21, 22, 23, 22, 23, 23, 24,
  22, 21, 20, 22, 22, 23, 23, 21, 23, 22, 22, 24, 21, 22, 23, 23,
  21, 21, 22, 21, 23, 22, 23, 23, 20, 22, 22, 22, 23, 22, 22, 23,
  26, 26, 20, 19, 22, 23, 22, 25, 26, 26, 26, 27, 27, 26, 24, 25,
  19, 21, 26, 27, 27, 26, 27, 24, 21, 21, 26, 26, 28, 27, 27, 27,
  20, 24, 20, 21, 22, 21, 21, 23, 22, 22, 25, 25, 24, 24, 26, 23,
  26, 27, 26, 26, 27, 27, 27, 27, 27, 28, 27, 27, 27, 27, 27, 26,
  30]

/-- A binary tree of codes: a path from the root spells the code of the
symbol it ends at. -/
inductive CodeTree where
  | vacant
  | symbol (s : Nat)
  | branch (zero one : CodeTree)

namespace CodeTree

/-- The subtree behind a bit. -/
def child (t : CodeTree) (bit : Bool) : CodeTree :=
  match t with
  | branch zero one => if bit then one else zero
  | _ => vacant

/-- Puts a symbol at the end of a path. -/
def insert (t : CodeTree) : List Bool → Nat → CodeTree
  | [], s => symbol s
  | true :: path, s => branch (t.child false) ((t.child true).insert path s)
  | false :: path, s => branch ((t.child false).insert path s) (t.child true)

end CodeTree

/-- The symbols with their code lengths, in the order in which codes are
handed out. -/
def ranked : List (Nat × Nat) :=
  (List.range (maxLength + 1)).flatMap fun length =>
    (lengths.zipIdx.filter (·.1 == length)).map fun (_, s) => (s, length)

/-- The bits of a code that starts at `start` in the space of the
longest codes. -/
def codeBits (start length : Nat) : List Bool :=
  (List.range length).map fun i => start.testBit (maxLength - 1 - i)

/-- Hands out codes one behind the other and collects them in a tree. -/
def assign (t : CodeTree) (start : Nat) : List (Nat × Nat) → CodeTree
  | [] => t
  | (s, length) :: rest =>
    assign (t.insert (codeBits start length) s)
      (start + 1 <<< (maxLength - length)) rest

/-- The tree of the whole code. -/
def codeTree : CodeTree := assign .vacant 0 ranked

/-- The bits of an octet, the most significant one first. -/
def octetBits (octet : UInt8) : List Bool :=
  [7, 6, 5, 4, 3, 2, 1, 0].map octet.toNat.testBit

/-- Follows the bits from a node of the tree. `pending` counts the bits
of the code that has begun, and `ones` tells whether all of them are
set; `decoded` holds what came before, latest first. What is left at the
end is padding: fewer than eight bits, all of them set. -/
def follow (node : CodeTree) (pending : Nat) (ones : Bool)
    (decoded : List UInt8) : List Bool → Option (List UInt8)
  | [] => if pending < 8 && ones then some decoded.reverse else none
  | bit :: bits =>
    match node.child bit with
    | .symbol s =>
      if s = endOfString then none
      else follow codeTree 0 true (.ofNat s :: decoded) bits
    | next => follow next (pending + 1) (ones && bit) decoded bits

/-- The string that a Huffman coded string spells, if it is well
coded. -/
def decode (octets : List UInt8) : Option (List UInt8) :=
  follow codeTree 0 true [] (octets.flatMap octetBits)

end Http2.Hpack.Huffman
