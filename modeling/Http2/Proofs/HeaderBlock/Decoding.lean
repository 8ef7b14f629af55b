/-
Blocks that are encoded are decoded.

Encoder and decoder go in step: if both start with the same table, then
after every field they have the same table again. So a block that is
encoded from some fields is decoded to these fields, and leaves the
decoder with the encoder's table, whether the fields are taken one by one
(`drain_encodeAll`) or handed to a consumer (`fold_encodeAll`).
-/
import Http2.Proofs.HeaderBlock.Steps
import Http2.Proofs.Hpack.Representation

namespace Http2.HeaderBlock.Fields

open Hpack

variable {t t' : Table} {f : Field} {octets : List UInt8}

/-- What an encoder writes is a representation. -/
theorem wellFormed_of_represents (h : t.Represents f octets t')
    (ht : t.Bounded) (hf : f.Readable) :
    ∃ kind, Representation.WellFormed ⟨kind, octets⟩ := by
  obtain ⟨kind, hextent⟩ := h.extent_append ht hf []
  obtain ⟨front, rest, heq, hlength, hfront⟩ := wellFormed_of_extent hextent
  obtain ⟨rfl, -⟩ := List.append_inj heq hlength
  exact ⟨kind, hfront⟩

/-- A field that an encoder writes is the next field. -/
theorem next_append (h : t.Represents f octets t') (ht : t.Bounded)
    (hf : f.Readable) (rest : List UInt8) :
    next ⟨⟨octets ++ rest, false⟩, t⟩
      = (some (.ok f), ⟨⟨rest, false⟩, t'⟩) := by
  obtain ⟨kind, hwell⟩ := wellFormed_of_represents h ht hf
  exact next_of_field hwell (h.decode ht hf) rfl rest

/-- Draining a block yields the fields it was encoded from. -/
theorem drain_encodeAll {fs : List Field} (ht : t.Bounded)
    (hfs : ∀ f ∈ fs, f.Readable) :
    drain ⟨⟨(t.encodeAll fs).1, false⟩, t⟩
      = (fs.map .ok, ⟨⟨[], false⟩, (t.encodeAll fs).2⟩) := by
  induction fs generalizing t with
  | nil => exact drain_of_next_none (next_nil t)
  | cons f fs ih =>
      obtain ⟨hf, hfs⟩ := List.forall_mem_cons.mp hfs
      have hrep := t.represents_encode f
      have hnext := next_append hrep ht hf ((t.encode f).2.encodeAll fs).1
      rw [Table.encodeAll, drain_of_next_some hnext,
        ih (hrep.bounded ht) hfs, List.map_cons]

/-- Handing the fields of a block to a consumer hands it the fields the
block was encoded from. -/
theorem fold_encodeAll {σ : Type} (consume : σ → Field → σ) (state : σ)
    {fs : List Field} (ht : t.Bounded) (hfs : ∀ f ∈ fs, f.Readable) :
    fold consume state ⟨⟨(t.encodeAll fs).1, false⟩, t⟩
      = (fs.foldl consume state, none,
        ⟨⟨[], false⟩, (t.encodeAll fs).2⟩) := by
  induction fs generalizing t state with
  | nil => exact fold_of_next_none consume state (next_nil t)
  | cons f fs ih =>
      obtain ⟨hf, hfs⟩ := List.forall_mem_cons.mp hfs
      have hrep := t.represents_encode f
      have hnext := next_append hrep ht hf ((t.encode f).2.encodeAll fs).1
      rw [Table.encodeAll, fold_of_next_ok consume state hnext,
        ih (consume state f) (hrep.bounded ht) hfs, List.foldl_cons]

end Http2.HeaderBlock.Fields
