/-
A buffer taken apart into pieces.

Everything that is read from a buffer or written to it is said about the
list of its octets, split where the piece in question starts and ends: a
slice is the piece between the splits (`slice_of_append`), a write
exchanges it (`toList_write_of_append`).

`StandsIn` places a whole buffer inside another one, some distance from
its start. A prefix stands in the whole at distance zero and a suffix at
its own offset, so what is proved about a buffer that stands in another
covers both.
-/
import Http2.Octets.Span

namespace Http2.Buffer

-- ============================================================ one piece

theorem exists_octet? {b : Buffer} {i : Nat} (h : i < b.size) :
    ∃ octet, b.octet? i = some octet :=
  ⟨_, dif_pos h⟩

/-- A slice is the piece between its two ends. -/
theorem slice_of_append {b : Buffer} {front piece back : List UInt8}
    {start stop : Nat} (hb : b.toList = front ++ piece ++ back)
    (hstart : front.length = start) (hstop : start + piece.length = stop) :
    b.slice start stop = piece := by
  have hlen : stop - start = piece.length := by omega
  rw [slice_eq, hb, List.append_assoc, List.drop_left' hstart, hlen,
    List.take_left' rfl]

/-- An octet is the piece behind its address. -/
theorem octet?_of_append {b : Buffer} {front back : List UInt8} {octet : UInt8}
    {i : Nat} (hb : b.toList = front ++ octet :: back)
    (hi : front.length = i) : b.octet? i = some octet := by
  rw [← getElem?_toList, hb, List.getElem?_append_right (Nat.le_of_eq hi), hi,
    Nat.sub_self]
  rfl

/-- A write exchanges a piece for another one of the same length. -/
theorem toList_write_of_append {b : Buffer} {front old new back : List UInt8}
    {start : Nat} (hb : b.toList = front ++ old ++ back)
    (hstart : front.length = start) (hlen : old.length = new.length) :
    (b.write start new).toList = front ++ new ++ back := by
  have hfront : b.toList.take start = front := by
    rw [hb, List.append_assoc, List.take_left' hstart]
  have hback : b.toList.drop (start + new.length) = back := by
    rw [hb]
    exact List.drop_left' (by simp [hstart, hlen])
  rw [toList_write, hfront, hback]

/-- A slice inside the buffer has as many octets as it has addresses. -/
theorem length_slice {b : Buffer} {start stop : Nat} (h : stop ≤ b.size) :
    (b.slice start stop).length = stop - start := by
  rw [slice_eq, List.length_take, List.length_drop, length_toList]
  omega

/-- A slice starts with any shorter slice of the same start. -/
theorem take_slice (b : Buffer) (start : Nat) {count length : Nat}
    (h : count ≤ length) :
    (b.slice start (start + length)).take count
      = b.slice start (start + count) := by
  rw [slice_eq, slice_eq, List.take_take]
  congr 1
  omega

/-- What is behind the first octets of a slice is a slice. -/
theorem drop_slice (b : Buffer) (start stop count : Nat) :
    (b.slice start stop).drop count = b.slice (start + count) stop := by
  rw [slice_eq, slice_eq, List.drop_take, List.drop_drop]
  congr 1
  omega

/-- An octet of a slice is an octet of the buffer. -/
theorem getElem?_slice (b : Buffer) {start stop i : Nat}
    (h : start + i < stop) :
    (b.slice start stop)[i]? = b.octet? (start + i) := by
  rw [slice_eq, List.getElem?_take_of_lt (by omega), List.getElem?_drop,
    getElem?_toList]

/-- Slices of buffers that hold the same octets are the same. -/
theorem slice_congr {a b : Buffer} {start stop : Nat}
    (h : ∀ i, start ≤ i → i < stop → a.octet? i = b.octet? i) :
    a.slice start stop = b.slice start stop := by
  rw [slice_eq, slice_eq]
  apply List.ext_getElem?
  intro i
  rw [List.getElem?_take, List.getElem?_take]
  split
  case isFalse => rfl
  case isTrue hi =>
    rw [List.getElem?_drop, List.getElem?_drop, getElem?_toList,
      getElem?_toList]
    exact h (start + i) (Nat.le_add_right _ _) (by omega)

/-- A slice starts with the octet at its start. -/
theorem slice_cons {b : Buffer} {start stop : Nat} {octet : UInt8}
    (h : b.octet? start = some octet) (hstop : start < stop) :
    b.slice start stop = octet :: b.slice (start + 1) stop := by
  have hfirst : b.toList[start]? = some octet := by rw [getElem?_toList, h]
  obtain ⟨hin, hoctet⟩ := List.getElem?_eq_some_iff.mp hfirst
  have hlength : stop - start = (stop - (start + 1)) + 1 := by omega
  rw [slice_eq, slice_eq, List.drop_eq_getElem_cons hin, hoctet, hlength,
    List.take_succ_cons]

theorem slice_self (b : Buffer) (start : Nat) : b.slice start start = [] := by
  rw [slice_eq, Nat.sub_self, List.take_zero]

/-- Two slices of which one ends where the other starts. -/
theorem slice_append (b : Buffer) {start mid stop : Nat} (hstart : start ≤ mid)
    (hstop : mid ≤ stop) :
    b.slice start mid ++ b.slice mid stop = b.slice start stop := by
  obtain ⟨first, rfl⟩ := Nat.exists_eq_add_of_le hstart
  obtain ⟨second, rfl⟩ := Nat.exists_eq_add_of_le hstop
  have hfirst : b.slice start (start + first)
      = (b.slice start (start + (first + second))).take first :=
    (b.take_slice start (Nat.le_add_right _ _)).symm
  rw [hfirst, Nat.add_assoc, ← b.drop_slice start _ first,
    List.take_append_drop]

/-- A slice in which all octets are zero. -/
theorem slice_eq_replicate {b : Buffer} {start stop : Nat}
    (hstop : stop ≤ b.size)
    (h : ∀ i, start ≤ i → i < stop → b.octet? i = some 0) :
    b.slice start stop = List.replicate (stop - start) 0 := by
  rw [List.eq_replicate_iff]
  refine ⟨length_slice hstop, fun octet hoctet => ?_⟩
  obtain ⟨i, hi, rfl⟩ := List.mem_iff_getElem.mp hoctet
  rw [length_slice hstop] at hi
  have hin := b.getElem?_slice (show start + i < stop by omega)
  rw [h (start + i) (Nat.le_add_right _ _) (by omega)] at hin
  exact (List.getElem?_eq_some_iff.mp hin).2

/-- The octets between two addresses, apart from those behind. -/
theorem exists_drop_eq (b : Buffer) {start stop : Nat} (h : start ≤ stop)
    (hstop : stop ≤ b.size) :
    ∃ piece, stop = start + piece.length
      ∧ b.toList.drop start = piece ++ b.toList.drop stop := by
  refine ⟨b.slice start stop, ?_, ?_⟩
  · rw [length_slice hstop]
    omega
  · have hdrop : b.toList.drop stop
        = (b.toList.drop start).drop (stop - start) := by
      rw [List.drop_drop]
      congr 1
      omega
    rw [slice_eq, hdrop, List.take_append_drop]

-- ================================================== a buffer in another

/-- The octets of `p` stand in `b`, from address `distance` on. -/
def StandsIn (p b : Buffer) (distance : Nat) : Prop :=
  ∃ front back, front.length = distance ∧ b.toList = front ++ p.toList ++ back

namespace StandsIn

variable {p b : Buffer} {distance : Nat}

/-- A buffer stands in every buffer that starts with it. -/
theorem of_front (h : p.toList <+: b.toList) : p.StandsIn b 0 := by
  obtain ⟨back, hback⟩ := h
  exact ⟨[], back, rfl, hback.symm⟩

/-- What is left of a buffer from an address on stands there. -/
theorem of_drop (b : Buffer) {distance : Nat} (h : distance ≤ b.size) :
    (ofList (b.toList.drop distance)).StandsIn b distance := by
  refine ⟨b.toList.take distance, [], ?_, ?_⟩
  · rw [List.length_take, length_toList]
    omega
  · rw [toList_ofList, List.append_nil, List.take_append_drop]

/-- The octets up to an address stand at the start. -/
theorem of_take (b : Buffer) (count : Nat) :
    (ofList (b.toList.take count)).StandsIn b 0 :=
  of_front (by rw [toList_ofList]; exact List.take_prefix count b.toList)

/-- The octets between two addresses stand at the first one. -/
theorem of_slice (b : Buffer) {start stop : Nat} (h : start ≤ stop)
    (hstop : stop ≤ b.size) :
    (ofList (b.slice start stop)).StandsIn b start := by
  have hfront : (b.toList.take start).length = start := by
    rw [List.length_take, length_toList]
    omega
  have hback : b.toList.drop stop
      = (b.toList.drop start).drop (stop - start) := by
    rw [List.drop_drop]
    congr 1
    omega
  refine ⟨b.toList.take start, b.toList.drop stop, hfront, ?_⟩
  rw [toList_ofList, slice_eq, hback, List.append_assoc, List.take_append_drop,
    List.take_append_drop]

theorem size_le (h : p.StandsIn b distance) : distance + p.size ≤ b.size := by
  obtain ⟨front, back, hfront, hb⟩ := h
  have hlen := congrArg List.length hb
  simp only [length_toList, List.length_append] at hlen
  omega

/-- Octets keep their distance. -/
theorem octet? (h : p.StandsIn b distance) {i : Nat} (hi : i < p.size) :
    b.octet? (i + distance) = p.octet? i := by
  obtain ⟨front, back, hfront, hb⟩ := h
  have hlen : i < p.toList.length := hi
  rw [← getElem?_toList, ← getElem?_toList, hb, List.append_assoc,
    List.getElem?_append_right (by omega),
    List.getElem?_append_left (by omega)]
  congr 1
  omega

/-- Slices keep their distance. -/
theorem slice (h : p.StandsIn b distance) {start stop : Nat}
    (hstop : stop ≤ p.size) :
    b.slice (start + distance) (stop + distance) = p.slice start stop := by
  obtain ⟨front, back, hfront, hb⟩ := h
  have hdrop : b.toList.drop (start + distance)
      = (p.toList ++ back).drop start := by
    rw [hb, List.append_assoc, Nat.add_comm, ← List.drop_drop,
      List.drop_left' hfront]
  have hlen : stop - start ≤ (p.toList.drop start).length := by
    rw [List.length_drop, length_toList]
    omega
  by_cases hle : start ≤ stop
  · rw [slice_eq, slice_eq, hdrop, Nat.add_sub_add_right,
      List.drop_append_of_le_length (by rw [length_toList]; omega),
      List.take_append_of_le_length hlen]
  · have hempty : stop - start = 0 := by omega
    rw [slice_eq, slice_eq, Nat.add_sub_add_right, hempty, List.take_zero,
      List.take_zero]

/-- Parts keep their distance. -/
theorem part (h : p.StandsIn b distance) {s : Span} (hs : s.stop ≤ p.size) :
    b.part (s.shift distance) = p.part s :=
  h.slice hs

end StandsIn

end Http2.Buffer
