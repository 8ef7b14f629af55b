/-
Octets in hexadecimal digits, two lower case digits each.
-/
namespace Http2.Hex

/-- The digit of a number below sixteen. -/
def digit (n : Nat) : Char :=
  if n < 10 then Char.ofNat (48 + n) else Char.ofNat (87 + n)

/-- The two digits of an octet. -/
def digits (octet : UInt8) : List Char :=
  [digit (octet.toNat / 16), digit (octet.toNat % 16)]

/-- Octets as a text of digits. -/
def render (octets : List UInt8) : String :=
  String.ofList (octets.flatMap digits)

end Http2.Hex
