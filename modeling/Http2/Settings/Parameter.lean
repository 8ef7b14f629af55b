/-
The parameters that SETTINGS frames carry.

A parameter is a 16 bit identifier and a 32 bit value, six octets in
all. Six identifiers are known (`Setting`) and three of them restrict
their values (`Setting.allows`); a parameter with an unknown identifier
is legal whatever its value, since a receiver ignores it.

`Parameters` is a run of parameters that are still encoded. Taking the
next one (`next?`) and counting those to come (`remaining`) look at the
octets alone.
-/
import Http2.Octets.BigEndian

namespace Http2

/-- A parameter whose meaning is known. -/
inductive Setting where
  | headerTableSize
  | enablePush
  | maxConcurrentStreams
  | initialWindowSize
  | maxFrameSize
  | maxHeaderListSize
  deriving DecidableEq, Repr

namespace Setting

/-- Every known setting, in the order of the identifiers. -/
def all : List Setting :=
  [headerTableSize, enablePush, maxConcurrentStreams, initialWindowSize,
    maxFrameSize, maxHeaderListSize]

/-- The identifier of a setting on the wire. -/
def code : Setting → UInt16
  | headerTableSize => 1
  | enablePush => 2
  | maxConcurrentStreams => 3
  | initialWindowSize => 4
  | maxFrameSize => 5
  | maxHeaderListSize => 6

/-- The setting with a given identifier, if the identifier is known. -/
def ofCode? (ident : UInt16) : Option Setting := all.find? (·.code = ident)

@[simp] theorem ofCode?_code (s : Setting) : ofCode? s.code = some s := by
  cases s <;> rfl

/-- The largest flow control window. -/
def maxWindowSize : UInt32 := 0x7fffffff

/-- The smallest bound on frame sizes that may be announced. -/
def leastMaxFrameSize : UInt32 := 0x4000

/-- The largest bound on frame sizes that may be announced. -/
def greatestMaxFrameSize : UInt32 := 0xffffff

/-- Whether a value is legal for a setting. -/
def allows : Setting → UInt32 → Bool
  | enablePush, value => value ≤ 1
  | initialWindowSize, value => value ≤ maxWindowSize
  | maxFrameSize, value =>
    leastMaxFrameSize ≤ value && value ≤ greatestMaxFrameSize
  | _, _ => true

end Setting

/-- An identifier, known or not, with its value. -/
structure Parameter where
  ident : UInt16
  value : UInt32
  deriving DecidableEq, Repr

namespace Parameter

/-- The number of octets of an encoded parameter. -/
def width : Nat := 6

/-- The parameter that announces a value for a known setting. -/
def announce (s : Setting) (value : UInt32) : Parameter := ⟨s.code, value⟩

/-- The six octets of a parameter. -/
def encode (p : Parameter) : List UInt8 :=
  BigEndian.encode 2 p.ident.toNat ++ BigEndian.encode 4 p.value.toNat

/-- The parameter at the front of a string of at least six octets. -/
def decode (octets : List UInt8) : Parameter where
  ident := .ofNat (BigEndian.decode (octets.take 2))
  value := .ofNat (BigEndian.decode ((octets.drop 2).take 4))

/-- Whether the value is legal, which it always is for an unknown
identifier. -/
def isLegal (p : Parameter) : Bool :=
  match Setting.ofCode? p.ident with
  | some s => s.allows p.value
  | none => true

end Parameter

/-- A run of encoded parameters. -/
structure Parameters where
  octets : List UInt8
  deriving DecidableEq

namespace Parameters

/-- How many parameters are still to come. -/
def remaining (ps : Parameters) : Nat := ps.octets.length / Parameter.width

/-- The next parameter and the run behind it; `none` once fewer octets
are left than a parameter takes. -/
def next? (ps : Parameters) : Option (Parameter × Parameters) :=
  let front := ps.octets.take Parameter.width
  if front.length < Parameter.width then none
  else some (.decode front, ⟨ps.octets.drop Parameter.width⟩)

theorem length_of_next? {ps rest : Parameters} {p : Parameter}
    (h : ps.next? = some (p, rest)) :
    rest.octets.length + Parameter.width = ps.octets.length := by
  simp only [next?, List.length_take] at h
  split at h
  · cases h
  · cases h
    simp only [List.length_drop]
    omega

/-- Every parameter of a run, in wire order. -/
def toList (ps : Parameters) : List Parameter :=
  match _h : ps.next? with
  | none => []
  | some (p, rest) => p :: rest.toList
termination_by ps.octets.length
decreasing_by
  have := length_of_next? _h
  simp only [Parameter.width] at this
  omega

/-- The first parameter with a property. -/
def find? (accept : Parameter → Bool) (ps : Parameters) : Option Parameter :=
  match _h : ps.next? with
  | none => none
  | some (p, rest) => if accept p then some p else rest.find? accept
termination_by ps.octets.length
decreasing_by
  have := length_of_next? _h
  simp only [Parameter.width] at this
  omega

theorem find?_eq (accept : Parameter → Bool) (ps : Parameters) :
    ps.find? accept = ps.toList.find? accept := by
  fun_induction find? accept ps with
  | case1 ps h => rw [toList]; split <;> simp_all
  | case2 ps p rest h haccept => rw [toList]; split <;> simp_all
  | case3 ps p rest h haccept ih => rw [toList]; split <;> simp_all

/-- The run of the given parameters. -/
def ofList (ps : List Parameter) : Parameters := ⟨ps.flatMap (·.encode)⟩

/-- The value of a setting; of several occurrences the last one wins. -/
def get? (ps : Parameters) (s : Setting) : Option UInt32 :=
  (ps.toList.filter (·.ident = s.code)).getLast?.map (·.value)

end Parameters

end Http2
