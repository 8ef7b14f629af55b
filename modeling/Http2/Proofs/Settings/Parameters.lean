/-
The parameters of a run, by position and as a list.

A run is taken apart one parameter at a time, but its parameters can be
told in advance: there are as many as six octets fit into the run, and
the one at a position is spelled by the six octets that stand there
(`toList_eq`). Encoding parameters and taking the run apart are inverse
to each other (`toList_ofList`).
-/
import Http2.Proofs.Octets.BigEndian
import Http2.Settings.Parameter

namespace Http2

namespace Parameter

@[simp] theorem length_encode (p : Parameter) : p.encode.length = width := by
  simp [encode, width]

theorem decode_encode (p : Parameter) : decode p.encode = p := by
  have hident : p.encode.take 2 = BigEndian.encode 2 p.ident.toNat :=
    List.take_left' (BigEndian.length_encode _ _)
  have hvalue : (p.encode.drop 2).take 4
      = BigEndian.encode 4 p.value.toNat := by
    rw [encode, List.drop_left' (BigEndian.length_encode _ _),
      List.take_of_length_le (Nat.le_of_eq (BigEndian.length_encode _ _))]
  rw [decode, hident, hvalue, BigEndian.decode_encode p.ident.toNat_lt,
    BigEndian.decode_encode p.value.toNat_lt, UInt16.ofNat_toNat,
    UInt32.ofNat_toNat]

theorem encode_decode {octets : List UInt8} (h : octets.length = width) :
    (decode octets).encode = octets := by
  have hident : (octets.take 2).length = 2 := by
    rw [List.length_take, h]
    rfl
  have hvalue : ((octets.drop 2).take 4).length = 4 := by
    rw [List.length_take, List.length_drop, h]
    rfl
  have hrest : (octets.drop 2).take 4 = octets.drop 2 :=
    List.take_of_length_le (by rw [List.length_drop, h]; decide)
  have hsmall : BigEndian.decode (octets.take 2) < UInt16.size := by
    have hlt := BigEndian.decode_lt (octets.take 2)
    rw [hident] at hlt
    exact hlt
  rw [encode, decode, UInt16.toNat_ofNat_of_lt' hsmall,
    BigEndian.encode_decode_of_length hident,
    BigEndian.encode_ofNat_decode hvalue, hrest, List.take_append_drop]

end Parameter

namespace Parameters

/-- The parameter at a position of a run. -/
def atIndex (ps : Parameters) (i : Nat) : Parameter :=
  .decode ((ps.octets.drop (i * Parameter.width)).take Parameter.width)

/-- There is no next parameter exactly if none is still to come. -/
theorem remaining_of_next?_none {ps : Parameters} (h : ps.next? = none) :
    ps.remaining = 0 := by
  simp only [next?, List.length_take] at h
  split at h
  case isFalse => cases h
  case isTrue hlt => exact Nat.div_eq_of_lt (by omega)

/-- A step takes the parameter at the first position off and leaves one
parameter less. -/
theorem remaining_of_next?_some {ps rest : Parameters} {p : Parameter}
    (h : ps.next? = some (p, rest)) :
    p = ps.atIndex 0 ∧ ps.remaining = rest.remaining + 1
      ∧ ∀ i, rest.atIndex i = ps.atIndex (i + 1) := by
  have hlen := length_of_next? h
  simp only [next?] at h
  split at h
  case isTrue => cases h
  case isFalse =>
    cases h
    refine ⟨?_, ?_, ?_⟩
    · rw [Parameters.atIndex, Nat.zero_mul, List.drop_zero]
    · rw [remaining, remaining, ← hlen,
        Nat.add_div_right _ (by decide)]
    · intro i
      rw [Parameters.atIndex, Parameters.atIndex, List.drop_drop, Nat.succ_mul,
        Nat.add_comm (i * Parameter.width)]

theorem toList_of_next?_none {ps : Parameters} (h : ps.next? = none) :
    ps.toList = [] := by
  rw [toList]
  split
  case h_1 => rfl
  case h_2 hsome =>
    rw [h] at hsome
    cases hsome

theorem toList_of_next?_some {ps rest : Parameters} {p : Parameter}
    (h : ps.next? = some (p, rest)) : ps.toList = p :: rest.toList := by
  rw [toList]
  split
  case h_1 hnone =>
    rw [h] at hnone
    cases hnone
  case h_2 hsome =>
    rw [h] at hsome
    cases hsome
    rfl

/-- The parameters of a run are those at its positions, in order. -/
theorem toList_eq (ps : Parameters) :
    ps.toList = (List.range ps.remaining).map ps.atIndex := by
  fun_induction toList ps with
  | case1 ps hnone =>
      rw [remaining_of_next?_none hnone]
      rfl
  | case2 ps p rest hsome ih =>
      obtain ⟨hp, hremaining, hrest⟩ := remaining_of_next?_some hsome
      rw [ih, hremaining, List.range_succ_eq_map, List.map_cons,
        List.map_map, hp]
      congr 1
      apply List.map_congr_left
      intro i _
      exact hrest i

/-- The parameter that is encoded first is taken first. -/
theorem next?_ofList_cons (p : Parameter) (ps : List Parameter) :
    (ofList (p :: ps)).next? = some (p, ofList ps) := by
  have hfront : (ofList (p :: ps)).octets.take Parameter.width = p.encode :=
    List.take_left' p.length_encode
  have hrest : (ofList (p :: ps)).octets.drop Parameter.width
      = (ofList ps).octets :=
    List.drop_left' p.length_encode
  simp only [next?, hfront, hrest, Parameter.length_encode, Nat.lt_irrefl,
    if_false, Parameter.decode_encode]

/-- The parameters of a run are those that it was made of. -/
theorem toList_ofList (ps : List Parameter) : (ofList ps).toList = ps := by
  induction ps with
  | nil => exact toList_of_next?_none rfl
  | cons p ps ih => rw [toList_of_next?_some (next?_ofList_cons p ps), ih]

/-- A run without a remainder is made of its parameters. -/
theorem ofList_toList {ps : Parameters}
    (h : ps.octets.length % Parameter.width = 0) : ofList ps.toList = ps := by
  fun_induction toList ps with
  | case1 ps hnone =>
      have hzero := remaining_of_next?_none hnone
      have hempty : ps.octets.length = 0 := by
        rw [remaining] at hzero
        simp only [Parameter.width] at h hzero
        omega
      obtain ⟨octets⟩ := ps
      obtain rfl := List.eq_nil_of_length_eq_zero hempty
      rfl
  | case2 ps p rest hsome ih =>
      have hlength := length_of_next? hsome
      simp only [next?] at hsome
      split at hsome
      case isTrue => cases hsome
      case isFalse hfront =>
        cases hsome
        have hrest := ih (by
          rw [← hlength, Nat.add_mod_right] at h
          exact h)
        have hwidth : (ps.octets.take Parameter.width).length
            = Parameter.width := by
          rw [List.length_take] at hfront ⊢
          omega
        refine congrArg Parameters.mk ?_
        show (Parameter.decode _).encode ++ (ofList _).octets = ps.octets
        rw [Parameter.encode_decode hwidth, hrest, List.take_append_drop]

@[simp] theorem length_ofList (ps : List Parameter) :
    (ofList ps).octets.length = ps.length * Parameter.width := by
  induction ps with
  | nil => rfl
  | cons p ps ih =>
      have hcons : (ofList (p :: ps)).octets = p.encode ++ (ofList ps).octets :=
        rfl
      rw [hcons, List.length_append, Parameter.length_encode, ih,
        List.length_cons, Nat.succ_mul, Nat.add_comm]

end Parameters

end Http2
