/-
Octet storage: a fixed block of octets that frames are read from and
laid down in.

The storage is packed, but nobody looks at the packing: `toList` is the
one view, and each operation says what it does to that view
(`length_toList`, `getElem?_toList`, `slice_eq`, `toList_write`). Values
taken out of a buffer are plain lists of octets.
-/
namespace Http2

/-- A block of octets addressed from zero. -/
structure Buffer where
  bytes : ByteArray

namespace Buffer

/-- The octets of a buffer in address order. -/
def toList (b : Buffer) : List UInt8 := b.bytes.data.toList

/-- The buffer that holds exactly the given octets. -/
def ofList (octets : List UInt8) : Buffer := ⟨octets.toByteArray⟩

/-- The number of octets a buffer holds. -/
def size (b : Buffer) : Nat := b.bytes.size

/-- The octet at an address, if the address lies inside the buffer. -/
def octet? (b : Buffer) (i : Nat) : Option UInt8 :=
  if h : i < b.bytes.size then some (b.bytes[i]) else none

/-- The octets in `[start, stop)`, as far as they lie inside the
buffer. -/
def slice (b : Buffer) (start stop : Nat) : List UInt8 :=
  (b.bytes.extract start stop).data.toList

/-- Overwrites the octets from `start` on; nothing else moves. -/
def write (b : Buffer) (start : Nat) (octets : List UInt8) : Buffer :=
  ⟨octets.toByteArray.copySlice 0 b.bytes start octets.length⟩

-- ======================================================= the list view

@[ext] theorem ext {a b : Buffer} (h : a.toList = b.toList) : a = b := by
  cases a
  cases b
  exact congrArg mk (ByteArray.ext (Array.toList_inj.mp h))

@[simp] theorem toList_ofList (octets : List UInt8) :
    (ofList octets).toList = octets := by
  simp [toList, ofList]

@[simp] theorem length_toList (b : Buffer) : b.toList.length = b.size := rfl

theorem getElem?_toList (b : Buffer) (i : Nat) : b.toList[i]? = b.octet? i := by
  unfold octet?
  split
  · rename_i h
    have hi : i < b.toList.length := h
    rw [List.getElem?_eq_getElem hi]
    rfl
  · rename_i h
    exact List.getElem?_eq_none (Nat.le_of_not_lt h)

theorem slice_eq (b : Buffer) (start stop : Nat) :
    b.slice start stop = (b.toList.drop start).take (stop - start) := by
  simp [slice, toList, ByteArray.data_extract, Array.toList_extract,
    List.extract_eq_take_drop]

theorem toList_write (b : Buffer) (start : Nat) (octets : List UInt8) :
    (b.write start octets).toList
      = b.toList.take start ++ octets
        ++ b.toList.drop (start + octets.length) := by
  have hrest : (b.bytes.data.toList.drop (start + octets.length)).length
      = b.bytes.size - (start + octets.length) := by
    simp [← ByteArray.size_data]
  simp [write, toList, ByteArray.copySlice, Array.toList_extract,
    List.extract_eq_take_drop, List.take_of_length_le (Nat.le_of_eq hrest)]

/-- A write that stays inside the buffer keeps its size. -/
theorem size_write {b : Buffer} {start : Nat} {octets : List UInt8}
    (h : start + octets.length ≤ b.size) :
    (b.write start octets).size = b.size := by
  have hlen := congrArg List.length (toList_write b start octets)
  simp only [length_toList, List.length_append, List.length_take,
    List.length_drop] at hlen
  omega

end Buffer

end Http2
