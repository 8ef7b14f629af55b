/-
Writes that check every step.

A builder that keeps its bounds writes octets without asking again whether
there is room for them. Each such write is spelled out here with what can be
wrong with it (`Access`): a place that is not in the buffer, a piece of another
length than its place, a number of more octets than its field.

A write that is done in two parts is one write, whichever part comes first
(`write_write_behind`, `write_write_front`).
-/
import Http2.Proofs.Octets.Access
import Http2.Proofs.Octets.BigEndian

namespace Http2.Buffer

open Access

variable {b : Buffer} {start stop width n : Nat} {octets : List UInt8}

-- ========================================================= single writes

/-- Octets in place of those in `[start, stop)`. -/
def put (b : Buffer) (start stop : Nat) (octets : List UInt8) :
    Access Buffer :=
  if start ≤ stop ∧ stop ≤ b.size then do
    let octets ← copy (stop - start) octets
    return b.write start octets
  else .error .outOfRange

/-- An octet in place of the one at an index. -/
def putOctet (b : Buffer) (i : Nat) (octet : UInt8) : Access Buffer :=
  if i < b.size then .ok (b.write i [octet]) else .error .outOfRange

/-- A number in a field of `width` octets. -/
def putNumber (b : Buffer) (start width n : Nat) : Access Buffer :=
  if n < 256 ^ width then
    b.put start (start + width) (BigEndian.encode width n)
  else .error .lengthMismatch

/-- Zeros in place of the octets in `[start, stop)`. -/
def clear (b : Buffer) (start stop : Nat) : Access Buffer :=
  if start ≤ stop ∧ stop ≤ b.size then
    .ok (b.write start (List.replicate (stop - start) 0))
  else .error .outOfRange

/-- The octets in `[start, stop)` once more, from `target` on. -/
def move (b : Buffer) (start stop target : Nat) : Access Buffer :=
  if start ≤ stop ∧ stop ≤ b.size ∧ target + (stop - start) ≤ b.size then
    .ok (b.write target (b.slice start stop))
  else .error .outOfRange

theorem put_of_le (hlength : start + octets.length = stop)
    (hstop : stop ≤ b.size) :
    b.put start stop octets = .ok (b.write start octets) := by
  have hwidth : octets.length = stop - start := by omega
  rw [put, if_pos ⟨by omega, hstop⟩, copy_of_length hwidth]
  rfl

theorem putOctet_of_lt {i : Nat} (h : i < b.size) (octet : UInt8) :
    b.putOctet i octet = .ok (b.write i [octet]) :=
  if_pos h

theorem putNumber_of_lt (hn : n < 256 ^ width)
    (hstop : start + width ≤ b.size) :
    b.putNumber start width n
      = .ok (b.write start (BigEndian.encode width n)) := by
  rw [putNumber, if_pos hn]
  exact put_of_le (by rw [BigEndian.length_encode]) hstop

theorem clear_of_le (hle : start ≤ stop) (hstop : stop ≤ b.size) :
    b.clear start stop
      = .ok (b.write start (List.replicate (stop - start) 0)) :=
  if_pos ⟨hle, hstop⟩

theorem move_of_le {target : Nat} (hle : start ≤ stop) (hstop : stop ≤ b.size)
    (htarget : target + (stop - start) ≤ b.size) :
    b.move start stop target = .ok (b.write target (b.slice start stop)) :=
  if_pos ⟨hle, hstop, htarget⟩

-- ========================================================= in two parts

variable {first second : List UInt8}

/-- A place for two pieces, one behind the other. -/
theorem exists_pieces (h : start + (first ++ second).length ≤ b.size) :
    ∃ front old old' back, b.toList = front ++ old ++ old' ++ back
      ∧ front.length = start ∧ old.length = first.length
      ∧ old'.length = second.length := by
  rw [List.length_append] at h
  obtain ⟨old, hold, hdrop⟩ := b.exists_drop_eq
    (show start ≤ start + first.length by omega) (by omega)
  obtain ⟨old', hold', hdrop'⟩ := b.exists_drop_eq
    (show start + first.length ≤ start + first.length + second.length by omega)
    (by omega)
  refine ⟨b.toList.take start, old, old',
    b.toList.drop (start + first.length + second.length), ?_, ?_, by omega,
    by omega⟩
  · rw [List.append_assoc, ← hdrop', List.append_assoc, ← hdrop,
      List.take_append_drop]
  · rw [List.length_take, length_toList]
    omega

/-- What two pieces are written over. -/
theorem toList_write_pieces {front old old' back : List UInt8}
    (hb : b.toList = front ++ old ++ old' ++ back)
    (hfront : front.length = start)
    (hold : old.length = first.length) (hold' : old'.length = second.length) :
    (b.write start (first ++ second)).toList
      = front ++ first ++ second ++ back := by
  rw [List.append_assoc front old] at hb
  rw [toList_write_of_append hb hfront (by
      rw [List.length_append, List.length_append, hold, hold']),
    List.append_assoc front first]

/-- Octets that are written behind others. -/
theorem write_write_behind {next : Nat} (hnext : next = start + first.length)
    (h : start + (first ++ second).length ≤ b.size) :
    (b.write start first).write next second
      = b.write start (first ++ second) := by
  obtain ⟨front, old, old', back, hb, hfront, hold, hold'⟩ := exists_pieces h
  have hfirst : (b.write start first).toList
      = (front ++ first) ++ old' ++ back := by
    rw [List.append_assoc _ old' back, toList_write_of_append
      (hb.trans (List.append_assoc _ old' back)) hfront hold]
  ext1
  rw [hnext, toList_write_of_append hfirst
      (by rw [List.length_append, hfront]) hold',
    toList_write_pieces hb hfront hold hold']

/-- Octets that are written in front of others. -/
theorem write_write_front (h : start + (first ++ second).length ≤ b.size) :
    (b.write (start + first.length) second).write start first
      = b.write start (first ++ second) := by
  obtain ⟨front, old, old', back, hb, hfront, hold, hold'⟩ := exists_pieces h
  have hsecond : (b.write (start + first.length) second).toList
      = front ++ old ++ (second ++ back) := by
    rw [toList_write_of_append hb (by rw [List.length_append, hfront, hold])
      hold', List.append_assoc _ second back]
  ext1
  rw [toList_write_of_append hsecond hfront hold,
    toList_write_pieces hb hfront hold hold', List.append_assoc _ second back]

-- ====================================================== one after another

variable {next : Nat}

/-- An octet behind what has been written. -/
theorem putOctet_behind (hnext : next = start + first.length)
    (h : next < b.size) (octet : UInt8) :
    (b.write start first).putOctet next octet
      = .ok (b.write start (first ++ [octet])) := by
  have hall : start + (first ++ [octet]).length ≤ b.size := by
    rw [List.length_append, List.length_singleton]
    omega
  rw [putOctet_of_lt (by rw [size_write (by omega)]; exact h),
    write_write_behind hnext hall]

/-- A number behind what has been written. -/
theorem putNumber_behind (hnext : next = start + first.length)
    (hn : n < 256 ^ width) (hstop : next + width ≤ b.size) :
    (b.write start first).putNumber next width n
      = .ok (b.write start (first ++ BigEndian.encode width n)) := by
  have hall : start + (first ++ BigEndian.encode width n).length ≤ b.size := by
    rw [List.length_append, BigEndian.length_encode]
    omega
  rw [putNumber_of_lt hn (by rw [size_write (by omega)]; exact hstop),
    write_write_behind hnext hall]

/-- Zeros behind what has been written. -/
theorem clear_behind (hnext : next = start + first.length) (hle : next ≤ stop)
    (hstop : stop ≤ b.size) :
    (b.write start first).clear next stop
      = .ok (b.write start (first ++ List.replicate (stop - next) 0)) := by
  have hall : start + (first ++ List.replicate (stop - next) 0).length
      ≤ b.size := by
    rw [List.length_append, List.length_replicate]
    omega
  rw [clear_of_le hle (by rw [size_write (by omega)]; exact hstop),
    write_write_behind hnext hall]

end Http2.Buffer
