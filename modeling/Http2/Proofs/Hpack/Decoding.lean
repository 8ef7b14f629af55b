/-
Decoding what has been split off.

The decoder finds out on its own where a representation ends. It follows
the grammar that blocks are split by: of a representation it takes all
octets and none of what follows (`taken_of_decodeFirst`). So a
representation on its own is decoded in one step. Either it is turned
down, which leaves the table as it was, or a size update yields nothing
and any other kind yields one field (`WellFormed.decode_cases`). A size
update is never turned down.
-/
import Http2.Hpack.Decoder
import Http2.Proofs.Hpack.Grammar

namespace Http2.Hpack

variable {mark bits n taken : Nat} {octets text : List UInt8}

-- ================================================================ strings

namespace Literal

/-- Where a string ends does not depend on how its octets are coded. -/
theorem WellFormed.taken_of_decode (h : WellFormed octets) (rest : List UInt8)
    (hok : decode (octets ++ rest) = some (text, taken)) :
    taken = octets.length := by
  cases h with
  | @intro mark length body hlength =>
      have hread := hlength.decode_append (body ++ rest)
      have hraw : raw? (length ++ body ++ rest)
          = some (body, (length ++ body).length) := by
        simp only [raw?, List.append_assoc, hread, Option.bind_eq_bind,
          Option.bind_some, List.drop_left, List.take_left, if_true,
          List.length_append]
      unfold decode at hok
      rw [hraw, Option.bind_eq_bind, Option.bind_some] at hok
      dsimp only at hok
      split at hok
      case isTrue =>
        obtain ⟨decoded, -, hpair⟩ := Option.bind_eq_some_iff.mp hok
        cases hpair
        rfl
      case isFalse =>
        cases hok
        rfl

end Literal

namespace Table

variable {t : Table} {f : Field} {d : Decoded} {r : Representation}

-- ==================================================== one representation

/-- A literal field is taken whole. -/
theorem taken_of_decodeLiteral (h : IsField mark bits octets)
    (rest : List UInt8)
    (hok : t.decodeLiteral? bits (octets ++ rest) = some (f, taken)) :
    taken = octets.length := by
  unfold decodeLiteral? at hok
  cases h with
  | @named index value n hindex hn hvalue =>
      have hread := hindex.decode_append (value ++ rest)
      simp only [List.append_assoc, hread, Option.bind_eq_bind,
        Option.bind_some, hn, if_false, List.drop_left] at hok
      obtain ⟨known, -, hok⟩ := Option.bind_eq_some_iff.mp hok
      obtain ⟨⟨text, k⟩, htext, hpair⟩ := Option.bind_eq_some_iff.mp hok
      have hk := hvalue.taken_of_decode rest htext
      cases hpair
      rw [List.length_append, hk]
  | @unnamed index name value hindex hname hvalue =>
      have hread := hindex.decode_append (name ++ (value ++ rest))
      simp only [List.append_assoc, hread, Option.bind_eq_bind,
        Option.bind_some, if_true, List.drop_left] at hok
      obtain ⟨⟨text, k⟩, htext, hok⟩ := Option.bind_eq_some_iff.mp hok
      obtain ⟨⟨text', m⟩, htext', hpair⟩ := Option.bind_eq_some_iff.mp hok
      have hk := hname.taken_of_decode (value ++ rest) htext
      dsimp only at htext'
      rw [hk, ← List.append_assoc, List.drop_left' List.length_append]
        at htext'
      have hm := hvalue.taken_of_decode rest htext'
      cases hpair
      rw [List.length_append, List.length_append, hk, hm, Nat.add_assoc]

/-- The decoder looks at the kind that the first octet tells. -/
theorem decodeFirst_append (hr : r.WellFormed) (t : Table)
    (rest : List UInt8) :
    t.decodeFirst? (r.octets ++ rest)
      = t.decodeAs? r.kind (r.octets ++ rest) := by
  obtain ⟨first, back, heq, hkind⟩ := hr.exists_head
  rw [heq, List.cons_append, decodeFirst?, hkind]

/-- Of a representation all octets are taken, and none of what follows
it. A size update is the kind that stands for no field. -/
theorem taken_of_decodeFirst (hr : r.WellFormed) (rest : List UInt8)
    (hok : t.decodeFirst? (r.octets ++ rest) = some d) :
    d.taken = r.octets.length
      ∧ (d.field = none ↔ r.kind = .sizeUpdate) := by
  rw [decodeFirst_append hr] at hok
  cases hr with
  | indexed h =>
      obtain ⟨⟨n, k⟩, hindex, hok⟩ := Option.bind_eq_some_iff.mp hok
      obtain ⟨f, -, hd⟩ := Option.bind_eq_some_iff.mp hok
      rw [h.decode_append rest] at hindex
      cases hindex
      cases hd
      exact ⟨rfl, nofun, nofun⟩
  | withIndexing h | withoutIndexing h | neverIndexed h =>
      obtain ⟨⟨f, k⟩, hliteral, hd⟩ := Option.bind_eq_some_iff.mp hok
      have hk := taken_of_decodeLiteral h rest hliteral
      cases hd
      exact ⟨hk, nofun, nofun⟩
  | sizeUpdate h =>
      obtain ⟨⟨n, k⟩, hsize, hd⟩ := Option.bind_eq_some_iff.mp hok
      rw [h.decode_append rest] at hsize
      cases hsize
      cases hd
      exact ⟨rfl, fun _ => rfl, fun _ => rfl⟩

/-- Any size is accepted. -/
theorem exists_decodeFirst_of_sizeUpdate (hr : r.WellFormed)
    (hkind : r.kind = .sizeUpdate) (t : Table) (rest : List UInt8) :
    ∃ d, t.decodeFirst? (r.octets ++ rest) = some d := by
  rw [decodeFirst_append hr]
  cases hr with
  | @sizeUpdate octets n h =>
      refine ⟨⟨none, octets.length, t.resize n⟩, ?_⟩
      rw [decodeAs?, h.decode_append rest]
      rfl
  | _ => cases hkind

-- ======================================================= a whole string

theorem decode_nil (t : Table) : t.decode [] = (some [], t) := by
  rw [Table.decode]
  rfl

/-- What cannot be decoded leaves the table as it was. -/
theorem decode_of_first_none (hne : octets ≠ [])
    (hfirst : t.decodeFirst? octets = none) : t.decode octets = (none, t) := by
  have hfull : octets.isEmpty = false := List.isEmpty_eq_false_iff.mpr hne
  rw [Table.decode, hfull, if_neg Bool.false_ne_true]
  split
  case h_1 => rfl
  case h_2 d hsome =>
    rw [hfirst] at hsome
    cases hsome

/-- Decoding goes on behind the first representation with the table that
it leaves. -/
theorem decode_of_first_some (hfirst : t.decodeFirst? octets = some d) :
    t.decode octets
      = ((d.table.decode (octets.drop d.taken)).1.map (d.field.toList ++ ·),
        (d.table.decode (octets.drop d.taken)).2) := by
  have hfull : octets.isEmpty = false := by
    cases octets with
    | nil => cases hfirst
    | cons first back => rfl
  rw [Table.decode, hfull, if_neg Bool.false_ne_true]
  split
  case h_1 hnone =>
    rw [hfirst] at hnone
    cases hnone
  case h_2 d' hsome =>
    rw [hfirst] at hsome
    cases hsome
    rfl

end Table

/-- A representation on its own is decoded to one field or turned down, or
it is a size update and decoded to none. -/
theorem Representation.WellFormed.decode_cases {r : Representation}
    (hr : r.WellFormed) (t : Table) :
    (r.kind ≠ .sizeUpdate ∧ t.decode r.octets = (none, t))
      ∨ (r.kind ≠ .sizeUpdate ∧ ∃ f t', t.decode r.octets = (some [f], t'))
      ∨ (r.kind = .sizeUpdate ∧ ∃ t', t.decode r.octets = (some [], t')) := by
  cases hfirst : t.decodeFirst? r.octets with
  | none =>
      refine .inl ⟨fun hkind => ?_,
        Table.decode_of_first_none hr.octets_ne_nil hfirst⟩
      obtain ⟨d, hd⟩ := Table.exists_decodeFirst_of_sizeUpdate hr hkind t []
      rw [List.append_nil, hfirst] at hd
      cases hd
  | some d =>
      have hd := hfirst
      rw [← List.append_nil r.octets] at hd
      obtain ⟨htaken, hfield⟩ := Table.taken_of_decodeFirst hr [] hd
      have hdecode : t.decode r.octets = (some d.field.toList, d.table) := by
        rw [Table.decode_of_first_some hfirst, htaken, List.drop_length,
          Table.decode_nil, Option.map_some, List.append_nil]
      rw [hdecode]
      cases hf : d.field with
      | none => exact .inr (.inr ⟨hfield.mp hf, d.table, rfl⟩)
      | some f =>
          refine .inr (.inl ⟨fun hkind => ?_, f, d.table, rfl⟩)
          rw [hfield.mpr hkind] at hf
          cases hf

end Http2.Hpack
