/-
When checks pass and when calls succeed.
-/
import Http2.Attempt
import Http2.Bounds

namespace Http2

-- =============================================================== steps

variable {α β : Type}

/-- Two steps succeed if the first does and the second does with what
the first yields. -/
theorem bind_eq_ok_iff {first : Except Error α} {next : α → Except Error β}
    {b : β} :
    (first >>= next) = .ok b ↔ ∃ a, first = .ok a ∧ next a = .ok b := by
  cases first with
  | error e => exact ⟨nofun, nofun⟩
  | ok a =>
      constructor
      · intro h
        exact ⟨a, rfl, h⟩
      · rintro ⟨a', ha, hb⟩
        cases ha
        exact hb

/-- A check decides whether there is a result, but not which. -/
theorem check_eq_ok_iff {check : Except Error Unit} {a b : α} :
    (check >>= fun _ => .ok a) = .ok b ↔ check = .ok () ∧ b = a := by
  rw [bind_eq_ok_iff]
  constructor
  · rintro ⟨⟨⟩, hcheck, hok⟩
    exact ⟨hcheck, (Except.ok.inj hok).symm⟩
  · rintro ⟨hcheck, rfl⟩
    exact ⟨(), hcheck, rfl⟩

/-- A call that yields something yields some result. -/
theorem exists_eq_ok_of_isOk {ε : Type} {call : Except ε α}
    (h : call.isOk = true) : ∃ a, call = .ok a := by
  cases call with
  | error e => cases h
  | ok a => exact ⟨a, rfl⟩

-- =============================================================== checks

theorem requireEnd_eq_ok_iff {limit maxLimit : Nat} :
    requireEnd limit maxLimit = .ok () ↔ limit ≤ maxLimit := by
  unfold requireEnd
  split <;> simp_all

theorem requireEnd_of_le {limit maxLimit : Nat} (h : limit ≤ maxLimit) :
    requireEnd limit maxLimit = .ok () :=
  requireEnd_eq_ok_iff.mpr h

theorem requireEnd_of_lt {limit maxLimit : Nat} (h : maxLimit < limit) :
    requireEnd limit maxLimit = .error (.bufferOverrun limit maxLimit) := by
  rw [requireEnd, if_neg (by omega)]

theorem requireEnd_eq_error_iff {limit maxLimit : Nat} {e : Error} :
    requireEnd limit maxLimit = .error e
      ↔ maxLimit < limit ∧ e = .bufferOverrun limit maxLimit := by
  by_cases hle : limit ≤ maxLimit
  · rw [requireEnd_of_le hle]
    exact ⟨nofun, fun h => absurd h.1 (by omega)⟩
  · rw [requireEnd_of_lt (by omega)]
    constructor
    · intro h
      exact ⟨by omega, (Except.error.inj h).symm⟩
    · rintro ⟨-, rfl⟩
      rfl

/-- The three checks on a region in their order. -/
theorem requireRoom_eq (size offset maxLimit least : Nat) :
    requireRoom size offset maxLimit least
      = if maxLimit ≤ size then
          if offset + least < addressSpace then
            requireEnd (offset + least) maxLimit
          else .error (.invalidArgument .offsetOverflows)
        else .error (.bufferOverrun maxLimit size) := by
  by_cases hsize : maxLimit ≤ size
  · by_cases hspace : offset + least < addressSpace
    · rw [if_pos hsize, if_pos hspace, requireRoom, requireEnd_of_le hsize]
      simp only [if_pos hspace]
      rfl
    · rw [if_pos hsize, if_neg hspace, requireRoom, requireEnd_of_le hsize]
      simp only [if_neg hspace]
      rfl
  · rw [if_neg hsize, requireRoom, requireEnd_of_lt (by omega)]
    rfl

theorem requireRoom_eq_ok_iff {size offset maxLimit least : Nat} :
    requireRoom size offset maxLimit least = .ok ()
      ↔ maxLimit ≤ size ∧ offset + least < addressSpace
        ∧ offset + least ≤ maxLimit := by
  rw [requireRoom_eq]
  split
  case isTrue hsize =>
    split
    case isTrue hspace =>
      rw [requireEnd_eq_ok_iff]
      constructor
      · intro h
        exact ⟨hsize, hspace, h⟩
      · intro h
        exact h.2.2
    case isFalse hspace =>
      exact ⟨nofun, fun h => absurd h.2.1 hspace⟩
  case isFalse hsize =>
    exact ⟨nofun, fun h => absurd h.1 hsize⟩

theorem requireStreamId_eq_ok_iff {id : UInt32} :
    requireStreamId id = .ok () ↔ id.toNat < reservedBit := by
  unfold requireStreamId
  split <;> simp_all

theorem requireStreamId_eq_error_iff {id : UInt32} {e : Error} :
    requireStreamId id = .error e
      ↔ reservedBit ≤ id.toNat ∧ e = .invalidArgument .reservedStreamBit := by
  unfold requireStreamId
  split
  case isTrue hlt => exact ⟨nofun, fun h => absurd h.1 (by omega)⟩
  case isFalse hbit =>
    constructor
    · intro h
      exact ⟨by omega, (Except.error.inj h).symm⟩
    · rintro ⟨-, rfl⟩
      rfl

-- ================================================================ calls

namespace Attempt

variable {σ τ : Type}

theorem guarded_eq_ok_iff {s t : σ} {check : Except Error Unit}
    {next : Attempt σ} :
    guarded s check next = .ok t ↔ check = .ok () ∧ next = .ok t := by
  cases check with
  | error e => exact ⟨nofun, nofun⟩
  | ok u =>
      constructor
      · intro h
        exact ⟨rfl, h⟩
      · intro h
        exact h.2

/-- A call is refused by its check, which leaves everything as it was, or
by what comes after the check. -/
theorem guarded_eq_error_iff {s : σ} {check : Except Error Unit}
    {next : Attempt σ} {r : Refused σ} :
    guarded s check next = .error r
      ↔ (∃ e, check = .error e ∧ r = ⟨e, s⟩)
        ∨ (check = .ok () ∧ next = .error r) := by
  cases check with
  | error e =>
      constructor
      · intro h
        exact .inl ⟨e, rfl, (Except.error.inj h).symm⟩
      · rintro (⟨e', he, rfl⟩ | ⟨hok, -⟩)
        · cases he
          rfl
        · cases hok
  | ok u =>
      constructor
      · intro h
        exact .inr ⟨rfl, h⟩
      · rintro (⟨e', he, -⟩ | ⟨-, h⟩)
        · cases he
        · exact h

theorem andThen_eq_ok_iff {a : Attempt σ} {next : σ → Attempt σ} {t : σ} :
    a.andThen next = .ok t ↔ ∃ s, a = .ok s ∧ next s = .ok t := by
  cases a with
  | error r => exact ⟨nofun, nofun⟩
  | ok s =>
      refine ⟨fun h => ⟨s, rfl, h⟩, ?_⟩
      rintro ⟨s', hs, ht⟩
      cases hs
      exact ht

theorem andThen_eq_error_iff {a : Attempt σ} {next : σ → Attempt σ}
    {r : Refused σ} :
    a.andThen next = .error r
      ↔ a = .error r ∨ ∃ s, a = .ok s ∧ next s = .error r := by
  cases a with
  | error r' =>
      refine ⟨fun h => .inl h, ?_⟩
      rintro (h | ⟨s, hs, -⟩)
      · exact h
      · cases hs
  | ok s =>
      refine ⟨fun h => .inr ⟨s, rfl, h⟩, ?_⟩
      rintro (h | ⟨s', hs, h⟩)
      · cases h
      · cases hs
        exact h

theorem within_eq_ok_iff {put : σ → τ} {a : Attempt σ} {t : τ} :
    a.within put = .ok t ↔ ∃ s, a = .ok s ∧ put s = t := by
  cases a with
  | error r => exact ⟨nofun, nofun⟩
  | ok s =>
      refine ⟨fun h => ⟨s, rfl, Except.ok.inj h⟩, ?_⟩
      rintro ⟨s', hs, rfl⟩
      cases hs
      rfl

theorem within_eq_error_iff {put : σ → τ} {a : Attempt σ} {r : Refused τ} :
    a.within put = .error r
      ↔ ∃ q, a = .error q ∧ r = ⟨q.error, put q.left⟩ := by
  cases a with
  | error q =>
      refine ⟨fun h => ⟨q, rfl, (Except.error.inj h).symm⟩, ?_⟩
      rintro ⟨q', hq, rfl⟩
      cases hq
      rfl
  | ok s =>
      refine ⟨nofun, ?_⟩
      rintro ⟨q, hq, -⟩
      cases hq

/-- A call beside which something is kept as it is. -/
theorem within_pair_eq_ok_iff {a : Attempt σ} {kept kept' : τ} {s : σ} :
    a.within (·, kept) = .ok (s, kept') ↔ a = .ok s ∧ kept' = kept := by
  rw [within_eq_ok_iff]
  constructor
  · rintro ⟨s', hs, hpair⟩
    obtain ⟨rfl, rfl⟩ := Prod.mk.inj hpair
    exact ⟨hs, rfl⟩
  · rintro ⟨hs, rfl⟩
    exact ⟨s, hs, rfl⟩

/-- A call that tells why it is refused is refused. -/
theorem exists_of_error? {call : Attempt σ} {e : Error}
    (h : call.error? = some e) :
    ∃ r, call = .error r ∧ r.error = e ∧ call.state = r.left := by
  cases call with
  | ok s => cases h
  | error r => exact ⟨r, rfl, Option.some.inj h, rfl⟩

-- ======================================================= calls in a row

variable {ι κ : Type}

/-- Calls made one after the other, up to the first that is refused. -/
def chain (call : σ → ι → Attempt σ) (s : σ) : List ι → Attempt σ
  | [] => .ok s
  | i :: is => (call s i).andThen fun s => chain call s is

/-- Whatever makes a call and then goes on with the others makes calls in a
row. -/
theorem eq_chain (run : σ → List ι → Attempt σ) {call : σ → ι → Attempt σ}
    (hnil : ∀ s, run s [] = .ok s)
    (hcons : ∀ s i is, run s (i :: is) = (call s i).andThen (run · is))
    (s : σ) (is : List ι) : run s is = chain call s is := by
  induction is generalizing s with
  | nil => exact hnil s
  | cons i is ih =>
      rw [hcons, chain]
      cases call s i with
      | error r => rfl
      | ok s₁ => exact ih s₁

/-- Calls in a row are refused like the first of them that is. Those in
front of it succeed. -/
theorem exists_of_chain_eq_error {call : σ → ι → Attempt σ} {s : σ}
    {is : List ι} {r : Refused σ} (h : chain call s is = .error r) :
    ∃ (k : Nat) (i : ι) (s' : σ), is[k]? = some i
      ∧ chain call s (is.take k) = .ok s' ∧ call s' i = .error r := by
  induction is generalizing s with
  | nil => cases h
  | cons i is ih =>
      rcases andThen_eq_error_iff.mp h with hfirst | ⟨s₁, hfirst, hrest⟩
      · exact ⟨0, i, s, rfl, rfl, hfirst⟩
      · obtain ⟨k, j, s', hj, hfront, hlast⟩ := ih hrest
        exact ⟨k + 1, j, s', hj, andThen_eq_ok_iff.mpr ⟨s₁, hfirst, hfront⟩,
          hlast⟩

/-- What holds of the calls made so far and of the state behind them, and is
carried on by every call, holds behind all of them. -/
theorem chain_induction {P : List ι → σ → Prop} {call : σ → ι → Attempt σ}
    (hstep : ∀ done s i s', P done s → call s i = .ok s' → P (done ++ [i]) s')
    {s s' : σ} {is : List ι} (hs : P [] s) (hok : chain call s is = .ok s') :
    P is s' := by
  -- the calls so far grow with every step of the induction
  suffices h : ∀ done, P done s → P (done ++ is) s' from h [] hs
  clear hs
  induction is generalizing s with
  | nil =>
      intro done hs
      cases hok
      rwa [List.append_nil]
  | cons i is ih =>
      intro done hs
      obtain ⟨s₁, hfirst, hrest⟩ := andThen_eq_ok_iff.mp hok
      rw [List.append_cons]
      exact ih hrest _ (hstep done s i s₁ hs hfirst)

/-- What every call keeps is kept by calls in a row. -/
theorem chain_keeps {P : σ → Prop} {call : σ → ι → Attempt σ}
    (hstep : ∀ s i s', P s → call s i = .ok s' → P s') {s s' : σ} {is : List ι}
    (hs : P s) (hok : chain call s is = .ok s') : P s' :=
  chain_induction (P := fun _ => P) (fun _ => hstep) hs hok

/-- So it holds where the first call is made that is refused. -/
theorem exists_kept_of_chain_eq_error {P : σ → Prop} {call : σ → ι → Attempt σ}
    (hstep : ∀ s i s', P s → call s i = .ok s' → P s') {s : σ} {is : List ι}
    {r : Refused σ} (hs : P s) (hno : chain call s is = .error r) :
    ∃ s' i, P s' ∧ call s' i = .error r := by
  obtain ⟨k, i, s', -, hfront, hlast⟩ := exists_of_chain_eq_error hno
  exact ⟨s', i, chain_keeps hstep hs hfront, hlast⟩

/-- Calls with arguments that are made from others. -/
theorem chain_map (call : σ → ι → Attempt σ) (g : κ → ι) (s : σ) (is : List κ) :
    chain call s (is.map g) = chain (fun s i => call s (g i)) s is := by
  induction is generalizing s with
  | nil => rfl
  | cons i is ih => simp only [List.map_cons, chain, ih]

/-- Calls in a row beside which something is kept as it is. -/
theorem chain_within (call : σ → ι → Attempt σ) (kept : τ) (s : σ)
    (is : List ι) :
    chain (fun s i => (call s.1 i).within (·, s.2)) (s, kept) is
      = (chain call s is).within (·, kept) := by
  induction is generalizing s with
  | nil => rfl
  | cons i is ih =>
      rw [chain, chain]
      cases call s i with
      | error r => rfl
      | ok s₁ => exact ih s₁

end Attempt

end Http2
