/-
Representations that are written are split off and decoded again.

An encoder writes one of three representations of a field
(`Represents`). Each is split off at its end whatever follows
(`extent_append`), and decoding it with the encoder's table yields the
field and the table that the encoder goes on with
(`decodeFirst_append`). Tables are bounded (`Bounded`), so every index
is small enough to be read again.
-/
import Http2.Hpack.Encoder
import Http2.Proofs.Hpack.Decoding

namespace Http2

/-- Name and value are short enough to be read. -/
structure Field.Readable (f : Field) : Prop where
  name_le : f.name.length ≤ Hpack.Literal.maxLength
  value_le : f.value.length ≤ Hpack.Literal.maxLength

namespace Hpack

namespace Table

variable {t t' : Table} {f : Field} {octets : List UInt8}

-- ================================================================= bounds

/-- The entries fit into the table, which is no larger than it is at the
start. -/
structure Bounded (t : Table) : Prop where
  size_le : t.size ≤ t.maxSize
  maxSize_le : t.maxSize ≤ 4096

theorem size_fitting_le (room : Nat) (fs : List Field) :
    (fitting room fs).foldr (fun f total => f.size + total) 0 ≤ room := by
  induction fs generalizing room with
  | nil => exact Nat.zero_le room
  | cons f fs ih =>
      unfold fitting
      split
      case isTrue hfits =>
        have := ih (room - f.size)
        rw [List.foldr_cons]
        omega
      case isFalse => exact Nat.zero_le room

theorem Bounded.start : Bounded {} where
  size_le := Nat.zero_le _
  maxSize_le := Nat.le_refl _

theorem Bounded.insert (h : t.Bounded) (f : Field) : (t.insert f).Bounded where
  size_le := size_fitting_le t.maxSize (f :: t.entries)
  maxSize_le := h.maxSize_le

theorem length_entries_le (t : Table) : t.entries.length * 32 ≤ t.size := by
  obtain ⟨entries, maxSize⟩ := t
  show entries.length * 32 ≤ entries.foldr (fun f total => f.size + total) 0
  induction entries with
  | nil => exact Nat.zero_le _
  | cons f fs ih =>
      rw [List.length_cons, List.foldr_cons, Field.size]
      omega

-- ================================================================ indices

theorem lookup?_eq_some_iff {i : Nat} :
    t.lookup? i = some f ↔ 1 ≤ i ∧ t.fields[i - 1]? = some f := by
  unfold lookup?
  split
  case isTrue hzero => exact ⟨nofun, fun h => absurd h.1 (by omega)⟩
  case isFalse hpos =>
    constructor
    · intro h
      exact ⟨by omega, h⟩
    · intro h
      exact h.2

/-- No index of a bounded table is large. -/
theorem Bounded.index_le (h : t.Bounded) {i : Nat} (hi : t.lookup? i = some f) :
    i ≤ 189 := by
  obtain ⟨hpos, hget⟩ := lookup?_eq_some_iff.mp hi
  obtain ⟨hlt, -⟩ := List.getElem?_eq_some_iff.mp hget
  have hstatic : staticTable.length = 61 := rfl
  have hentries := t.length_entries_le
  have hsize := h.size_le
  have hmax := h.maxSize_le
  rw [fields, List.length_append, hstatic] at hlt
  omega

/-- The field at the index of a field is that field. -/
theorem lookup?_of_indexOf? {i : Nat} (h : t.indexOf? f = some i) :
    t.lookup? i = some f := by
  obtain ⟨⟨g, j⟩, hfind, rfl⟩ := Option.map_eq_some_iff.mp h
  have hfound := List.find?_some hfind
  have hsame : g = f := eq_of_beq hfound
  have hmem := List.mem_of_find?_eq_some hfind
  obtain ⟨hpos, hget⟩ := List.mk_mem_zipIdx_iff_le_and_getElem?_sub.mp hmem
  rw [hsame] at hget
  exact lookup?_eq_some_iff.mpr ⟨hpos, hget⟩

/-- The field at the last index of a name has that name. -/
theorem lookup?_of_lastIndexOfName? {name : List UInt8} {i : Nat}
    (h : t.lastIndexOfName? name = some i) :
    ∃ g, t.lookup? i = some g ∧ g.name = name := by
  obtain ⟨⟨g, j⟩, hfind, rfl⟩ := Option.map_eq_some_iff.mp h
  have hfound := List.find?_some hfind
  have hname : g.name = name := eq_of_beq hfound
  have hmem := List.mem_reverse.mp (List.mem_of_find?_eq_some hfind)
  obtain ⟨hpos, hget⟩ := List.mk_mem_zipIdx_iff_le_and_getElem?_sub.mp hmem
  exact ⟨g, lookup?_eq_some_iff.mpr ⟨hpos, hget⟩, hname⟩

-- ================================================= what encoders write

/-- The representations of a field that an encoder chooses from, with the
table behind them. -/
inductive Represents (t : Table) (f : Field) : List UInt8 → Table → Prop
  | indexed {i : Nat} (hi : t.lookup? i = some f) :
      Represents t f (Integer.encode 7 0x80 i) t
  | named {i : Nat} {g : Field} (hi : t.lookup? i = some g)
      (hname : g.name = f.name) :
      Represents t f (Integer.encode 4 0x00 i ++ Literal.encode f.value) t
  | literal :
      Represents t f
        (0x40 :: (Literal.encode f.name ++ Literal.encode f.value)) (t.insert f)

theorem represents_encode (t : Table) (f : Field) :
    t.Represents f (t.encode f).1 (t.encode f).2 := by
  unfold encode
  cases hindex : t.indexOf? f with
  | some i => exact .indexed (lookup?_of_indexOf? hindex)
  | none =>
      cases hname : t.lastIndexOfName? f.name with
      | some i =>
          obtain ⟨g, hi, hg⟩ := lookup?_of_lastIndexOfName? hname
          exact .named hi hg
      | none => exact .literal

theorem Represents.bounded (h : t.Represents f octets t') (ht : t.Bounded) :
    t'.Bounded := by
  cases h with
  | indexed hi => exact ht
  | named hi hname => exact ht
  | literal => exact ht.insert f

theorem Bounded.encodeAll (ht : t.Bounded) (fs : List Field) :
    (t.encodeAll fs).2.Bounded := by
  induction fs generalizing t with
  | nil => exact ht
  | cons f fs ih => exact ih ((t.represents_encode f).bounded ht)

end Table

-- =========================================================== first octets

/-- The first octet of an integer keeps to its high bits. -/
theorem Integer.exists_head {bits high n : Nat}
    (hroom : high + 2 ^ bits ≤ 256) :
    ∃ first back, encode bits high n = first :: back
      ∧ high ≤ first.toNat ∧ first.toNat < high + 2 ^ bits := by
  have hpow : 0 < 2 ^ bits := Nat.two_pow_pos bits
  have hoctet : ∀ k, k < 2 ^ bits →
      (UInt8.ofNat (high + k)).toNat = high + k := by
    intro k hk
    rw [UInt8.toNat_ofNat']
    omega
  rw [encode_eq]
  split
  case isTrue hfits =>
    refine ⟨_, _, rfl, ?_⟩
    rw [hoctet n (by omega)]
    omega
  case isFalse =>
    refine ⟨_, _, rfl, ?_⟩
    rw [hoctet (2 ^ bits - 1) (by omega)]
    omega

namespace Kind

theorem ofOctet_indexed {first : UInt8} (h : 128 ≤ first.toNat) :
    ofOctet first = indexed := if_pos h

theorem ofOctet_withoutIndexing {first : UInt8} (h : first.toNat < 16) :
    ofOctet first = withoutIndexing := by
  unfold ofOctet
  rw [if_neg (by omega), if_neg (by omega), if_neg (by omega),
    if_neg (by omega)]

end Kind

namespace Table

variable {t t' : Table} {f : Field} {octets : List UInt8}

/-- An index of a bounded table is read again. -/
theorem Bounded.decode_index (h : t.Bounded) {i : Nat}
    (hi : t.lookup? i = some f) {bits high : Nat}
    (hhigh : high % 2 ^ bits = 0) (hroom : high + 2 ^ bits ≤ 256)
    (rest : List UInt8) :
    Integer.decode bits (Integer.encode bits high i ++ rest)
      = some (i, (Integer.encode bits high i).length) := by
  have hle := h.index_le hi
  have hspace : i < 2 ^ bits - 1 + 128 ^ Integer.maxContinuation := by
    simp only [Integer.maxContinuation]
    omega
  exact Integer.decode_encode hhigh hroom hspace rest

/-- What is read at the front of a string: where the representation
there ends, and what it stands for. -/
structure Reads (t : Table) (octets : List UInt8) (kind : Kind) (f : Field)
    (taken : Nat) (t' : Table) : Prop where
  extent_eq : extentAs? kind octets = some taken
  decode_eq : t.decodeAs? kind octets = some ⟨some f, taken, t'⟩

theorem Bounded.reads_indexed (ht : t.Bounded) {i : Nat}
    (hi : t.lookup? i = some f) (rest : List UInt8) :
    t.Reads (Integer.encode 7 0x80 i ++ rest) .indexed f
      (Integer.encode 7 0x80 i).length t := by
  have hindex :=
    @Bounded.decode_index _ _ ht i hi 7 0x80 (by decide) (by decide) rest
  refine ⟨?_, ?_⟩
  · simp only [extentAs?, Kind.integerBits, hindex, Kind.isLiteral,
      Option.bind_eq_bind, Option.bind_some, Bool.not_false, if_true]
  · simp only [decodeAs?, hindex, hi, Option.bind_eq_bind, Option.bind_some]

theorem Bounded.reads_named (ht : t.Bounded) {i : Nat} {g : Field}
    (hi : t.lookup? i = some g) (hname : g.name = f.name) (hf : f.Readable)
    (rest : List UInt8) :
    t.Reads (Integer.encode 4 0x00 i ++ Literal.encode f.value ++ rest)
      .withoutIndexing f
      (Integer.encode 4 0x00 i ++ Literal.encode f.value).length t := by
  have hindex := @Bounded.decode_index _ _ ht i hi 4 0x00 (by decide)
    (by decide) (Literal.encode f.value ++ rest)
  have hpos : i ≠ 0 := Nat.ne_of_gt (lookup?_eq_some_iff.mp hi).1
  have hdrop :
      (Integer.encode 4 0x00 i ++ (Literal.encode f.value ++ rest)).drop
        (Integer.encode 4 0x00 i).length = Literal.encode f.value ++ rest :=
    List.drop_left' rfl
  rw [List.append_assoc, List.length_append]
  refine ⟨?_, ?_⟩
  · simp only [extentAs?, Kind.integerBits, hindex, Kind.isLiteral,
      Option.bind_eq_bind, Option.bind_some, Bool.not_true, Bool.false_eq_true,
      if_false, hpos, hdrop, Literal.extent_encode hf.value_le]
  · simp only [decodeAs?, decodeLiteral?, hindex, hi, Option.bind_eq_bind,
      Option.bind_some, hpos, if_false, hdrop,
      Literal.decode_encode hf.value_le, hname]

theorem reads_literal (hf : f.Readable) (rest : List UInt8) :
    t.Reads (0x40 :: (Literal.encode f.name ++ Literal.encode f.value) ++ rest)
      .withIndexing f
      (0x40 :: (Literal.encode f.name ++ Literal.encode f.value)).length
      (t.insert f) := by
  have hsplit : (0x40 :: (Literal.encode f.name ++ Literal.encode f.value))
      ++ rest
      = 0x40
        :: (Literal.encode f.name ++ (Literal.encode f.value ++ rest)) := by
    rw [List.cons_append, List.append_assoc]
  have hindex : Integer.decode 6
      (0x40 :: (Literal.encode f.name ++ (Literal.encode f.value ++ rest)))
      = some (0, 1) := rfl
  have hdrop : (0x40 :: (Literal.encode f.name
      ++ (Literal.encode f.value ++ rest))).drop 1
      = Literal.encode f.name ++ (Literal.encode f.value ++ rest) := rfl
  have hdrop' : (0x40 :: (Literal.encode f.name
      ++ (Literal.encode f.value ++ rest))).drop
        (1 + (Literal.encode f.name).length)
      = Literal.encode f.value ++ rest := by
    rw [← List.drop_drop, hdrop]
    exact List.drop_left' rfl
  have hlength : (0x40 :: (Literal.encode f.name
      ++ Literal.encode f.value)).length
      = 1 + (Literal.encode f.name).length
        + (Literal.encode f.value).length := by
    rw [List.length_cons, List.length_append]
    omega
  rw [hsplit, hlength]
  refine ⟨?_, ?_⟩
  · simp only [extentAs?, Kind.integerBits, hindex, Kind.isLiteral,
      Option.bind_eq_bind, Option.bind_some, Bool.not_true, Bool.false_eq_true,
      if_false, if_true, hdrop, Literal.extent_encode hf.name_le, hdrop',
      Literal.extent_encode hf.value_le]
  · simp only [decodeAs?, decodeLiteral?, hindex, Option.bind_eq_bind,
      Option.bind_some, if_true, hdrop, Literal.decode_encode hf.name_le,
      hdrop', Literal.decode_encode hf.value_le]

/-- A representation that an encoder writes is read again, whatever
follows. -/
theorem Represents.reads (h : t.Represents f octets t') (ht : t.Bounded)
    (hf : f.Readable) (rest : List UInt8) :
    ∃ first back, octets = first :: back
      ∧ t.Reads (octets ++ rest) (Kind.ofOctet first) f octets.length t' := by
  cases h with
  | @indexed i hi =>
      obtain ⟨first, back, hhead, hlow, -⟩ := @Integer.exists_head 7 0x80 i
        (by decide)
      refine ⟨first, back, hhead, ?_⟩
      rw [Kind.ofOctet_indexed hlow]
      exact ht.reads_indexed hi rest
  | @named i g hi hsame =>
      obtain ⟨first, back, hhead, -, hhigh⟩ := @Integer.exists_head 4 0x00 i
        (by decide)
      refine ⟨first, back ++ Literal.encode f.value, ?_, ?_⟩
      · rw [hhead, List.cons_append]
      · rw [Kind.ofOctet_withoutIndexing (by omega)]
        exact ht.reads_named hi hsame hf rest
  | literal => exact ⟨_, _, rfl, reads_literal hf rest⟩

/-- It is split off at its end. -/
theorem Represents.extent_append (h : t.Represents f octets t')
    (ht : t.Bounded) (hf : f.Readable) (rest : List UInt8) :
    ∃ kind, extent? (octets ++ rest) = some (kind, octets.length) := by
  obtain ⟨first, back, rfl, hreads⟩ := h.reads ht hf rest
  refine ⟨Kind.ofOctet first, ?_⟩
  show (extentAs? (Kind.ofOctet first) (first :: back ++ rest)).map _ = _
  rw [hreads.extent_eq]
  rfl

/-- It is decoded to the field, and to the table that the encoder goes on
with. -/
theorem Represents.decodeFirst_append (h : t.Represents f octets t')
    (ht : t.Bounded) (hf : f.Readable) (rest : List UInt8) :
    t.decodeFirst? (octets ++ rest) = some ⟨some f, octets.length, t'⟩ := by
  obtain ⟨first, back, rfl, hreads⟩ := h.reads ht hf rest
  exact hreads.decode_eq

/-- Alone it is decoded to just the one field. -/
theorem Represents.decode (h : t.Represents f octets t')
    (ht : t.Bounded) (hf : f.Readable) :
    t.decode octets = (some [f], t') := by
  have hfirst := h.decodeFirst_append ht hf []
  rw [List.append_nil] at hfirst
  rw [decode_of_first_some hfirst, List.drop_length, decode_nil,
    Option.map_some]
  rfl

end Table

end Hpack

end Http2
