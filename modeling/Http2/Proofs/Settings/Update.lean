/-
Records that follow the SETTINGS frames of a peer.

What a peer tells last about a setting counts (`told`), within a frame
and over a run of frames. So taking parameters over is laying what they
tell over the record (`overlay`), one frame after the other or all of
them at once, as long as no setter turns a value down. None does: the
parameters of a frame are checked when the frame is read, and what is
legal there is what the setters allow (`receiveAll_of_legal`).

`takesAll_read` puts this together for every run of frames. A step is
`Takes`: it succeeds, it keeps the record within its ranges
(`InRange`), and the window grows by a number of 32 bits. The run is
`TakesAll`, by induction over the frames.
-/
import Mathlib.Algebra.Ring.Int.Defs
import Http2.Proofs.Frame.Built
import Http2.Proofs.Frame.Replay

namespace Http2

-- ========================================================== what is told

namespace Parameter

/-- The value that is told last for a setting, if any is. -/
def told (ps : List Parameter) (s : Setting) : Option UInt32 :=
  (ps.filter (·.ident = s.code)).getLast?.map (·.value)

/-- Whether the identifier is known. -/
def isKnown (p : Parameter) : Bool := (Setting.ofCode? p.ident).isSome

theorem told_append (ps qs : List Parameter) (s : Setting) :
    told (ps ++ qs) s = (told qs s).or (told ps s) := by
  unfold told
  rw [List.filter_append, List.getLast?_append, Option.map_or]

theorem told_singleton (p : Parameter) (s : Setting) :
    told [p] s = if p.ident = s.code then some p.value else none := by
  unfold told
  by_cases h : p.ident = s.code
  · rw [if_pos h, List.filter_cons_of_pos (by simpa using h)]
    rfl
  · rw [if_neg h, List.filter_cons_of_neg (by simpa using h)]
    rfl

/-- What is told is one of the parameters. -/
theorem exists_of_told {ps : List Parameter} {s : Setting} {value : UInt32}
    (h : told ps s = some value) : ⟨s.code, value⟩ ∈ ps := by
  obtain ⟨⟨ident, v⟩, hlast, rfl⟩ := Option.map_eq_some_iff.mp h
  obtain ⟨hmem, hident⟩ := List.mem_filter.mp (List.mem_of_getLast? hlast)
  rw [← of_decide_eq_true hident]
  exact hmem

/-- Nothing is told by a parameter with an unknown identifier. -/
theorem told_filter_isKnown (ps : List Parameter) :
    told (ps.filter isKnown) = told ps := by
  funext s
  unfold told
  rw [List.filter_filter]
  congr 2
  apply List.filter_congr
  intro p _
  by_cases h : p.ident = s.code
  · simp [isKnown, h]
  · simp [h]

end Parameter

open Parameter

/-- A frame tells what its parameters tell. -/
theorem Parameters.get?_eq_told (ps : Parameters) : ps.get? = told ps.toList :=
  rfl

/-- The run of parameters without those that are unknown. -/
def Parameters.known (ps : Parameters) : Parameters :=
  .ofList (ps.toList.filter isKnown)

/-- The parameters of a SETTINGS frame. -/
def Frame.parameters? (f : Frame) : Option Parameters :=
  match f.payload with
  | .settings ps => some ps
  | _ => none

namespace Settings

variable {s mid new : Settings}

-- ===================================================== laying over a record

/-- The record with the values that are told, and with its own where
nothing is told. Push is enabled if the value for it is 1. -/
def overlay (s : Settings) (told : Setting → Option UInt32) : Settings where
  headerTableSize := (told .headerTableSize).getD s.headerTableSize
  enablePush := ((told .enablePush).map (· == 1)).getD s.enablePush
  maxConcurrentStreams :=
    (told .maxConcurrentStreams).or s.maxConcurrentStreams
  initialWindowSize := (told .initialWindowSize).getD s.initialWindowSize
  maxFrameSize := (told .maxFrameSize).getD s.maxFrameSize
  maxHeaderListSize := (told .maxHeaderListSize).or s.maxHeaderListSize

/-- What is laid over later covers what was laid over before. -/
theorem overlay_overlay (s : Settings) (t u : Setting → Option UInt32) :
    (s.overlay t).overlay u = s.overlay fun k => (u k).or (t k) := by
  have hgetD : ∀ (x y : Option UInt32) (v : UInt32),
      x.getD (y.getD v) = (x.or y).getD v := by
    intro x y v
    cases x <;> rfl
  have hpush : ∀ (x y : Option UInt32) (v : Bool),
      (x.map (· == 1)).getD ((y.map (· == 1)).getD v)
        = ((x.or y).map (· == 1)).getD v := by
    intro x y v
    cases x <;> rfl
  unfold overlay
  simp only [hgetD, hpush, Option.or_assoc]

/-- Where the values of a record lie that takes part in a connection. -/
structure InRange (s : Settings) : Prop where
  window_le : s.initialWindowSize.toNat ≤ 2 ^ 31 - 1
  le_frameSize : 2 ^ 14 ≤ s.maxFrameSize.toNat
  frameSize_le : s.maxFrameSize.toNat ≤ 2 ^ 24 - 1

/-- Legal values keep a record within its ranges. -/
theorem InRange.overlay (hs : s.InRange) {told : Setting → Option UInt32}
    (hlegal : ∀ k v, told k = some v → k.allows v) :
    (s.overlay told).InRange := by
  have hwindow : (s.overlay told).initialWindowSize.toNat ≤ 2 ^ 31 - 1 := by
    show ((told .initialWindowSize).getD s.initialWindowSize).toNat ≤ _
    cases hv : told .initialWindowSize with
    | none => exact hs.window_le
    | some v =>
        have hle : v ≤ Setting.maxWindowSize :=
          of_decide_eq_true (hlegal _ v hv)
        exact UInt32.le_iff_toNat_le.mp hle
  have hframe : 2 ^ 14 ≤ (s.overlay told).maxFrameSize.toNat
      ∧ (s.overlay told).maxFrameSize.toNat ≤ 2 ^ 24 - 1 := by
    show 2 ^ 14 ≤ ((told .maxFrameSize).getD s.maxFrameSize).toNat
      ∧ ((told .maxFrameSize).getD s.maxFrameSize).toNat ≤ _
    cases hv : told .maxFrameSize with
    | none => exact ⟨hs.le_frameSize, hs.frameSize_le⟩
    | some v =>
        have hallows : Setting.leastMaxFrameSize ≤ v
            ∧ v ≤ Setting.greatestMaxFrameSize := by
          simpa [Setting.allows] using hlegal _ v hv
        exact ⟨UInt32.le_iff_toNat_le.mp hallows.1,
          UInt32.le_iff_toNat_le.mp hallows.2⟩
  exact ⟨hwindow, hframe.1, hframe.2⟩

-- ========================================================= taking over

/-- A setter turns down what is illegal and nothing else. -/
theorem set_of_allows {k : Setting} {value : UInt32} (h : k.allows value) :
    s.set k value
      = .ok (s.overlay fun j => if k = j then some value else none) := by
  cases k with
  | initialWindowSize =>
      show s.setInitialWindowSize value = _
      rw [setInitialWindowSize, if_pos h]
      rfl
  | maxFrameSize =>
      show s.setMaxFrameSize value = _
      rw [setMaxFrameSize, if_pos h]
      rfl
  | _ => rfl

/-- A legal parameter is taken over. -/
theorem receive_of_isLegal {p : Parameter} (h : p.isLegal) :
    s.receive p = .ok (s.overlay (told [p])) := by
  unfold receive
  unfold Parameter.isLegal at h
  cases hcode : Setting.ofCode? p.ident with
  | none =>
      have hnothing : told [p] = fun _ => none := by
        funext k
        rw [told_singleton, if_neg]
        intro hident
        rw [hident, Setting.ofCode?_code] at hcode
        cases hcode
      rw [hnothing]
      rfl
  | some k =>
      rw [hcode] at h
      have hident : p.ident = k.code := by
        unfold Setting.ofCode? at hcode
        have hfound := List.find?_some hcode
        exact (of_decide_eq_true hfound).symm
      have hsame : told [p]
          = fun j => if k = j then some p.value else none := by
        funext j
        have hiff : p.ident = j.code ↔ k = j := by
          rw [hident]
          cases k <;> cases j <;> decide
        rw [told_singleton]
        simp only [hiff]
      rw [hsame]
      exact set_of_allows h

/-- Legal parameters are all taken over, and of each setting the value
that is told last. -/
theorem receiveAll_of_legal {ps : List Parameter}
    (h : ∀ p ∈ ps, p.isLegal) :
    s.receiveAll ps = .ok (s.overlay (told ps)) := by
  induction ps generalizing s with
  | nil => rfl
  | cons p ps ih =>
      obtain ⟨hp, hps⟩ := List.forall_mem_cons.mp h
      have hsplit : told (p :: ps) = fun k => (told ps k).or (told [p] k) :=
        funext fun k => told_append [p] ps k
      unfold receiveAll
      rw [receive_of_isLegal hp]
      show (s.overlay (told [p])).receiveAll ps = _
      rw [ih hps, overlay_overlay, hsplit]

-- =========================================================== the window

/-- A window within its range is the same number with a sign. -/
theorem signedWindow_eq {value : UInt32} (h : value.toNat ≤ 2 ^ 31 - 1) :
    signedWindow value = value.toNat := by
  have hlt : 2 * value.toBitVec.toNat < 2 ^ 32 := by
    show 2 * value.toNat < 2 ^ 32
    omega
  exact BitVec.toInt_eq_toNat_of_lt hlt

theorem windowGrowth_eq (hs : s.InRange) (hnew : new.InRange) :
    s.windowGrowth new
      = (new.initialWindowSize.toNat : Int) - s.initialWindowSize.toNat := by
  unfold windowGrowth
  rw [signedWindow_eq hs.window_le, signedWindow_eq hnew.window_le]

-- =========================================================== one frame

/-- A SETTINGS frame with these parameters is taken over: every value
becomes what the frame tells for it, the record stays within its ranges,
and the growth of the window, which is a difference of two numbers of 32
bits, is one again. -/
structure Takes (s : Settings) (ps : Parameters) (new : Settings)
    (growth : Int) : Prop where
  apply_eq : s.apply ps = .ok (new, growth)
  eq_overlay : new = s.overlay ps.get?
  inRange : new.InRange
  growth_eq : growth
    = (new.initialWindowSize.toNat : Int) - s.initialWindowSize.toNat
  minValue_le : Int32.minValue.toInt ≤ growth
  le_maxValue : growth ≤ Int32.maxValue.toInt

/-- The parameters of a frame that has been read are taken over. -/
theorem takes_of_legal (hs : s.InRange) {ps : Parameters}
    (h : ∀ p ∈ ps.toList, p.isLegal) :
    s.Takes ps (s.overlay ps.get?) (s.windowGrowth (s.overlay ps.get?)) := by
  have hnew : (s.overlay ps.get?).InRange := by
    apply hs.overlay
    intro k v hv
    have hp := h _ (exists_of_told hv)
    unfold Parameter.isLegal at hp
    rw [Setting.ofCode?_code] at hp
    exact hp
  have hgrowth := windowGrowth_eq hs hnew
  have hold := hs.window_le
  have hwindow := hnew.window_le
  have hmin : Int32.minValue.toInt = -2 ^ 31 := rfl
  have hmax : Int32.maxValue.toInt = 2 ^ 31 - 1 := rfl
  refine ⟨?_, rfl, hnew, hgrowth, ?_, ?_⟩
  · unfold apply
    rw [receiveAll_of_legal h]
    rfl
  · rw [hgrowth, hmin]
    omega
  · rw [hgrowth, hmax]
    omega

-- ========================================================= a run of frames

/-- SETTINGS frames are taken over one after the other, with the growth
of the window at each of them. -/
inductive TakesAll : Settings → List Parameters → List Int → Settings → Prop
  | nothing (s : Settings) : TakesAll s [] [] s
  | frame {s mid new : Settings} {ps : Parameters} {later : List Parameters}
      {growth : Int} {growths : List Int} (h : s.Takes ps mid growth)
      (rest : TakesAll mid later growths new) :
      TakesAll s (ps :: later) (growth :: growths) new

/-- Over a run the window grows from the first record to the last. -/
theorem TakesAll.sum_eq {runs : List Parameters} {growths : List Int}
    (h : s.TakesAll runs growths new) :
    growths.sum
      = (new.initialWindowSize.toNat : Int) - s.initialWindowSize.toNat := by
  induction h with
  | nothing s => simp
  | frame h rest ih =>
      rw [List.sum_cons, ih, h.growth_eq]
      omega

/-- Legal parameters are taken over in any number of frames, and what
they amount to is what all of them tell. -/
theorem exists_takesAll (hs : s.InRange) {runs : List Parameters}
    (h : ∀ ps ∈ runs, ∀ p ∈ ps.toList, p.isLegal) :
    ∃ growths, s.TakesAll runs growths
      (s.overlay (told (runs.flatMap Parameters.toList))) := by
  induction runs generalizing s with
  | nil => exact ⟨[], .nothing s⟩
  | cons ps later ih =>
      obtain ⟨hps, hlater⟩ := List.forall_mem_cons.mp h
      have hfirst := takes_of_legal hs hps
      obtain ⟨growths, hrest⟩ := ih hfirst.inRange hlater
      have hall : (s.overlay ps.get?).overlay
            (told (later.flatMap Parameters.toList))
          = s.overlay (told ((ps :: later).flatMap Parameters.toList)) := by
        rw [overlay_overlay, Parameters.get?_eq_told, List.flatMap_cons]
        congr 1
        funext k
        rw [told_append]
      rw [hall] at hrest
      exact ⟨_, .frame hfirst hrest⟩

/-- Unknown parameters have no part in a run. -/
theorem TakesAll.known {runs : List Parameters} {growths : List Int}
    (hlegal : ∀ ps ∈ runs, ∀ p ∈ ps.toList, p.isLegal) (hs : s.InRange)
    (h : s.TakesAll runs growths new) :
    s.TakesAll (runs.map Parameters.known) growths new := by
  induction h with
  | nothing s => exact .nothing s
  | @frame s mid new ps later growth growths h rest ih =>
      obtain ⟨hps, hlater⟩ := List.forall_mem_cons.mp hlegal
      have hlist : ps.known.toList = ps.toList.filter isKnown :=
        Parameters.toList_ofList _
      have hget : ps.known.get? = ps.get? := by
        rw [Parameters.get?_eq_told, hlist, told_filter_isKnown]
        rfl
      have hall : ∀ p ∈ ps.known.toList, p.isLegal := by
        rw [hlist]
        intro p hp
        exact hps p (List.mem_of_mem_filter hp)
      have hknown := takes_of_legal hs hall
      rw [hget, ← h.eq_overlay] at hknown
      have hgrowth : s.windowGrowth mid = growth := by
        rw [hknown.growth_eq, h.growth_eq]
      rw [hgrowth] at hknown
      exact .frame hknown (ih hlater h.inRange)

-- ==================================================== frames that are read

/-- A SETTINGS frame that is read has parameters, and all of them are
legal. -/
theorem legal_of_readAs {buffer : Buffer} {offset maxLimit : Nat} {f : Frame}
    (h : Frame.readAs .settings buffer offset maxLimit = .ok f) :
    ∃ ps, f.parameters? = some ps ∧ ∀ p ∈ ps.toList, p.isLegal := by
  obtain ⟨hread, htype⟩ := Frame.read_of_readAs h
  obtain ⟨g, rfl, hg, -⟩ := Frame.exists_accepted_of_read hread
  have hlegal := hg.legal_contents
  have hsettings : g.type = .settings := (g.type_interpret).symm.trans htype
  have hpayload : g.whole.payload = .settings ⟨g.payload⟩ := by
    show g.interpret = _
    unfold RawFrame.interpret
    rw [hsettings]
  rw [RawFrame.contents_settings hsettings] at hlegal
  refine ⟨⟨g.payload⟩, ?_, hlegal.2⟩
  unfold Frame.parameters?
  rw [hpayload]

/-- A run of SETTINGS frames that are read is a run of legal
parameters. -/
theorem exists_runs_of_readAs {frames : List Frame}
    (h : ∀ f ∈ frames, ∃ buffer offset maxLimit,
      Frame.readAs .settings buffer offset maxLimit = .ok f) :
    ∃ runs : List Parameters, frames.map Frame.parameters? = runs.map some
      ∧ ∀ ps ∈ runs, ∀ p ∈ ps.toList, p.isLegal := by
  induction frames with
  | nil => exact ⟨[], rfl, nofun⟩
  | cons f frames ih =>
      obtain ⟨⟨buffer, offset, maxLimit, hf⟩, hframes⟩ :=
        List.forall_mem_cons.mp h
      obtain ⟨ps, hps, hlegal⟩ := legal_of_readAs hf
      obtain ⟨runs, hruns, hall⟩ := ih hframes
      refine ⟨ps :: runs, ?_, List.forall_mem_cons.mpr ⟨hlegal, hall⟩⟩
      rw [List.map_cons, List.map_cons, hps, hruns]

/-- A run of SETTINGS frames that have been read is taken over in full.
In the end every value is the one that was told last in all the frames,
or that of the record at the start if none was told; without the unknown
parameters the run is the same; and the growths of the window add up to
the growth from the first record to the last. -/
theorem takesAll_read (hs : s.InRange) {frames : List Frame}
    (hread : ∀ f ∈ frames, ∃ buffer offset maxLimit,
      Frame.readAs .settings buffer offset maxLimit = .ok f) :
    ∃ runs growths new, frames.map Frame.parameters? = runs.map some
      ∧ s.TakesAll runs growths new
      ∧ new = s.overlay (told (runs.flatMap Parameters.toList))
      ∧ s.TakesAll (runs.map Parameters.known) growths new
      ∧ growths.sum
        = (new.initialWindowSize.toNat : Int) - s.initialWindowSize.toNat := by
  obtain ⟨runs, hparameters, hlegal⟩ := exists_runs_of_readAs hread
  obtain ⟨growths, htakes⟩ := exists_takesAll hs hlegal
  exact ⟨runs, growths, _, hparameters, htakes, rfl, htakes.known hlegal hs,
    htakes.sum_eq⟩

/-- Three frames: one that tells two windows and an unknown parameter and
disables push, an acknowledgement, and one with the largest window. -/
theorem takesAll_read_largest :
    InRange {}
      ∧ (∀ f ∈ [Frame.unchecked (.ofList [0, 0, 24, 4, 0, 0, 0, 0, 0,
            0, 4, 0, 0, 0, 9, 0, 0x99, 0, 0, 0, 1, 0, 2, 0, 0, 0, 0,
            0, 4, 0, 1, 0, 0]) 0,
          Frame.unchecked (.ofList [0, 0, 0, 4, 1, 0, 0, 0, 0]) 0,
          Frame.unchecked (.ofList [0, 0, 6, 4, 0, 0, 0, 0, 0,
            0, 4, 0x7f, 0xff, 0xff, 0xff]) 0],
        ∃ buffer offset maxLimit,
          Frame.readAs .settings buffer offset maxLimit = .ok f)
      ∧ ∃ runs growths,
        runs.flatMap Parameters.toList
          = [⟨4, 9⟩, ⟨0x99, 1⟩, ⟨2, 0⟩, ⟨4, 0x10000⟩, ⟨4, 0x7fffffff⟩]
        ∧ TakesAll {} runs growths
          { enablePush := false, initialWindowSize := 0x7fffffff }
        ∧ growths.sum = 0x7fffffff - 65535 := by
  have hrange : InRange {} := ⟨by decide, by decide, by decide⟩
  have hread : ∀ f ∈ [Frame.unchecked (.ofList [0, 0, 24, 4, 0, 0, 0, 0, 0,
        0, 4, 0, 0, 0, 9, 0, 0x99, 0, 0, 0, 1, 0, 2, 0, 0, 0, 0,
        0, 4, 0, 1, 0, 0]) 0,
      Frame.unchecked (.ofList [0, 0, 0, 4, 1, 0, 0, 0, 0]) 0,
      Frame.unchecked (.ofList [0, 0, 6, 4, 0, 0, 0, 0, 0,
        0, 4, 0x7f, 0xff, 0xff, 0xff]) 0],
      ∃ buffer offset maxLimit,
        Frame.readAs .settings buffer offset maxLimit = .ok f := by
    simp only [List.forall_mem_cons, List.not_mem_nil, false_implies,
      implies_true, and_true]
    exact ⟨⟨_, 0, 33, Frame.readAs_eq_of_isOk (by decide +kernel)⟩,
      ⟨_, 0, 9, Frame.readAs_eq_of_isOk (by decide +kernel)⟩,
      ⟨_, 0, 15, Frame.readAs_eq_of_isOk (by decide +kernel)⟩⟩
  obtain ⟨runs, growths, new, hruns, htakes, hnew, -, hsum⟩ :=
    takesAll_read hrange hread
  have hparameters : [_, _, _] = runs :=
    (List.map_inj_right fun _ _ => Option.some.inj).mp hruns
  have htold : runs.flatMap Parameters.toList
      = [⟨4, 9⟩, ⟨0x99, 1⟩, ⟨2, 0⟩, ⟨4, 0x10000⟩, ⟨4, 0x7fffffff⟩] := by
    rw [← hparameters]
    decide +kernel
  have hrecord : new
      = { enablePush := false, initialWindowSize := 0x7fffffff } := by
    rw [hnew, htold]
    rfl
  rw [hrecord] at htakes hsum
  exact ⟨hrange, hread, runs, growths, htold, htakes, hsum⟩

end Settings

end Http2
