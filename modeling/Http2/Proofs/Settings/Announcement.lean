/-
What a record announces arrives at the peer.

The ranges of a record are enforced in three places: by the setters, by the
builder and by the reader. They are the same in all three. A record that is
made by setters and by frames that are taken over stays in its ranges
(`Reachable.inRange`), and these are just the records of which a builder
takes every parameter (`inRange_iff_allows`), given room for them.

A record announces each setting once at most, so what the frame tells is what
the record holds (`told_announced`). A peer that takes the frame over
therefore ends up with the same record, but for limits that are not announced
because there are none: there it keeps its own (`orLimits`).
-/
import Http2.Proofs.Frame.Parts
import Http2.Proofs.Settings.Update

namespace Http2

open Parameter

-- ======================================================= settings by value

namespace Setting

theorem code_inj {j k : Setting} : j.code = k.code ↔ j = k := by
  refine ⟨fun h => ?_, congrArg code⟩
  have hsame := congrArg ofCode? h
  rw [ofCode?_code, ofCode?_code] at hsame
  exact Option.some.inj hsame

theorem allows_initialWindowSize_iff {value : UInt32} :
    initialWindowSize.allows value ↔ value.toNat ≤ 2 ^ 31 - 1 := by
  have hmax : maxWindowSize.toNat = 2 ^ 31 - 1 := rfl
  unfold allows
  rw [decide_eq_true_iff, UInt32.le_iff_toNat_le, hmax]

theorem allows_maxFrameSize_iff {value : UInt32} :
    maxFrameSize.allows value
      ↔ 2 ^ 14 ≤ value.toNat ∧ value.toNat ≤ 2 ^ 24 - 1 := by
  have hleast : leastMaxFrameSize.toNat = 2 ^ 14 := rfl
  have hgreatest : greatestMaxFrameSize.toNat = 2 ^ 24 - 1 := rfl
  unfold allows
  rw [Bool.and_eq_true, decide_eq_true_iff, decide_eq_true_iff,
    UInt32.le_iff_toNat_le, UInt32.le_iff_toNat_le, hleast, hgreatest]

end Setting

namespace Settings

variable {s t : Settings}

-- ======================================================= reachable records

/-- The records that can be arrived at from the default one by setters and
by parameters that are taken over, in full or up to one that is refused. -/
inductive Reachable : Settings → Prop
  | initial : Reachable {}
  | set {s t : Settings} {k : Setting} {value : UInt32} (h : Reachable s)
      (hset : s.set k value = .ok t) : Reachable t
  | applied {s t : Settings} {ps : Parameters} {growth : Int} (h : Reachable s)
      (happly : s.apply ps = .ok (t, growth)) : Reachable t
  | refused {s : Settings} {ps : Parameters} {r : Refused Settings}
      (h : Reachable s) (happly : s.apply ps = .error r) : Reachable r.left

/-- A setter keeps the ranges. -/
theorem InRange.set (hs : s.InRange) {k : Setting} {value : UInt32}
    (hset : s.set k value = .ok t) : t.InRange := by
  obtain ⟨hwindow, hleast, hgreatest⟩ := hs
  cases k with
  | initialWindowSize =>
      change s.setInitialWindowSize value = .ok t at hset
      unfold setInitialWindowSize at hset
      split at hset
      case isTrue hallows =>
        cases hset
        exact ⟨Setting.allows_initialWindowSize_iff.mp hallows, hleast,
          hgreatest⟩
      case isFalse => cases hset
  | maxFrameSize =>
      change s.setMaxFrameSize value = .ok t at hset
      unfold setMaxFrameSize at hset
      split at hset
      case isTrue hallows =>
        cases hset
        obtain ⟨hmin, hmax⟩ := Setting.allows_maxFrameSize_iff.mp hallows
        exact ⟨hwindow, hmin, hmax⟩
      case isFalse => cases hset
  | _ =>
      cases hset
      exact ⟨hwindow, hleast, hgreatest⟩

/-- So does a parameter that is taken over. -/
theorem InRange.receive (hs : s.InRange) {p : Parameter}
    (hreceive : s.receive p = .ok t) : t.InRange := by
  unfold Settings.receive at hreceive
  split at hreceive
  case h_1 => exact hs.set hreceive
  case h_2 =>
    cases hreceive
    exact hs

/-- Parameters keep the ranges, whether they are all taken over or not. -/
theorem InRange.receiveAll (hs : s.InRange) (ps : List Parameter) :
    (s.receiveAll ps).state.InRange := by
  induction ps generalizing s with
  | nil => exact hs
  | cons p ps ih =>
      unfold Settings.receiveAll
      cases hreceive : s.receive p with
      | error e => exact hs
      | ok t => exact ih (hs.receive hreceive)

/-- Every record that can be arrived at is in its ranges. -/
theorem Reachable.inRange (h : s.Reachable) : s.InRange := by
  induction h with
  | initial => exact ⟨by decide, by decide, by decide⟩
  | set h hset ih => exact ih.set hset
  | @applied s t ps growth h happly ih =>
      have hall := ih.receiveAll ps.toList
      unfold apply at happly
      cases hreceive : s.receiveAll ps.toList with
      | error r =>
          rw [hreceive] at happly
          cases happly
      | ok t =>
          rw [hreceive] at happly hall
          cases happly
          exact hall
  | @refused s ps r h happly ih =>
      have hall := ih.receiveAll ps.toList
      unfold apply at happly
      cases hreceive : s.receiveAll ps.toList with
      | error r =>
          rw [hreceive] at happly hall
          cases happly
          exact hall
      | ok t =>
          rw [hreceive] at happly
          cases happly

-- ======================================================= what is announced

theorem mem_announced {k : Setting} {value : UInt32} :
    (k, value) ∈ s.announced ↔ s.get? k = some value := by
  unfold announced
  rw [List.mem_filterMap]
  constructor
  · rintro ⟨j, -, hj⟩
    obtain ⟨v, hv, hpair⟩ := Option.map_eq_some_iff.mp hj
    obtain ⟨rfl, rfl⟩ := Prod.mk.inj hpair
    exact hv
  · intro hvalue
    refine ⟨k, ?_, by rw [hvalue]; rfl⟩
    cases k <;> decide

/-- As many settings are announced as there are limits, besides the four that
always are. -/
theorem length_announced (s : Settings) :
    s.announced.length = 4 + s.maxConcurrentStreams.toList.length
      + s.maxHeaderListSize.toList.length := by
  rw [announced_eq]
  cases s.maxConcurrentStreams <;> cases s.maxHeaderListSize <;> rfl

/-- The records in their ranges are those of which all that is announced is
allowed. -/
theorem inRange_iff_allows :
    s.InRange ↔ ∀ p ∈ s.announced, p.1.allows p.2 := by
  constructor
  · rintro ⟨hwindow, hleast, hgreatest⟩ ⟨k, value⟩ hp
    have hvalue := mem_announced.mp hp
    cases k with
    | enablePush =>
        obtain rfl := Option.some.inj hvalue
        cases s.enablePush <;> decide
    | initialWindowSize =>
        obtain rfl := Option.some.inj hvalue
        exact Setting.allows_initialWindowSize_iff.mpr hwindow
    | maxFrameSize =>
        obtain rfl := Option.some.inj hvalue
        exact Setting.allows_maxFrameSize_iff.mpr ⟨hleast, hgreatest⟩
    | _ => rfl
  · intro hall
    have hwindow := hall (.initialWindowSize, _) (mem_announced.mpr rfl)
    have hframe := hall (.maxFrameSize, _) (mem_announced.mpr rfl)
    obtain ⟨hleast, hgreatest⟩ := Setting.allows_maxFrameSize_iff.mp hframe
    exact ⟨Setting.allows_initialWindowSize_iff.mp hwindow, hleast, hgreatest⟩

end Settings

/-- Of settings that come once each, the value that is told is the one that
comes with it. -/
theorem Parameter.told_filterMap (value? : Setting → Option UInt32)
    {ks : List Setting} (hks : ks.Nodup) (k : Setting) :
    told ((ks.filterMap fun j => (value? j).map (j, ·)).map
        fun p => announce p.1 p.2) k
      = if k ∈ ks then value? k else none := by
  induction ks with
  | nil => rfl
  | cons j ks ih =>
      obtain ⟨hfresh, hks⟩ := List.nodup_cons.mp hks
      have hrest := ih hks
      cases hvalue : value? j with
      | none =>
          rw [List.filterMap_cons_none (by rw [hvalue]; rfl), hrest]
          by_cases hk : k = j
          · rw [hk, if_neg hfresh, if_pos List.mem_cons_self, hvalue]
          · simp only [List.mem_cons, hk, false_or]
      | some value =>
          rw [List.filterMap_cons_some (b := (j, value)) (by rw [hvalue]; rfl),
            List.map_cons, ← List.singleton_append, told_append, hrest,
            told_singleton]
          show Option.or _ (if j.code = k.code then some value else none) = _
          -- `j` comes nowhere behind, so nothing covers what it tells
          by_cases hk : k = j
          · rw [hk, if_neg hfresh, if_pos rfl, if_pos List.mem_cons_self,
              hvalue]
            rfl
          · have hcode : ¬ j.code = k.code := fun h =>
              hk (Setting.code_inj.mp h).symm
            rw [if_neg hcode, Option.or_none]
            simp only [List.mem_cons, hk, false_or]

namespace Settings

variable {s : Settings}

/-- A record tells what it holds. -/
theorem told_announced (s : Settings) :
    told (s.announced.map fun p => .announce p.1 p.2) = s.get? := by
  funext k
  unfold announced
  rw [told_filterMap s.get? (by decide), if_pos (by cases k <;> decide)]

/-- A record with the limits of another one where it has none itself. -/
def orLimits (s r : Settings) : Settings where
  __ := s
  maxConcurrentStreams := s.maxConcurrentStreams.or r.maxConcurrentStreams
  maxHeaderListSize := s.maxHeaderListSize.or r.maxHeaderListSize

/-- By default there are no limits. -/
theorem orLimits_default (s : Settings) : s.orLimits {} = s := by
  unfold orLimits
  rw [Option.or_none, Option.or_none]

theorem overlay_get? (s r : Settings) : r.overlay s.get? = s.orLimits r := by
  have hpush : ((some (if s.enablePush then (1 : UInt32) else 0)).map
      (· == 1)).getD r.enablePush = s.enablePush := by
    cases s.enablePush <;> rfl
  unfold overlay get?
  rw [hpush]
  rfl

-- ================================================================ arriving

/-- The parameters that a record in its ranges announces turn any other into
it, but for limits that are not announced. -/
theorem apply_announced (hs : s.InRange) {ps : Parameters}
    (hps : ps.toList = s.announced.map fun p => .announce p.1 p.2)
    {r : Settings} (hr : r.initialWindowSize.toNat ≤ 2 ^ 31 - 1) :
    r.apply ps = .ok (s.orLimits r,
      (s.initialWindowSize.toNat : Int) - r.initialWindowSize.toNat) := by
  have hlegal : ∀ p ∈ ps.toList, p.isLegal := by
    intro p hp
    rw [hps] at hp
    exact Frame.Request.isLegal_of_mem_parameters
      (e := .settings s) (inRange_iff_allows.mp hs) hp
  have hgrowth : r.windowGrowth (s.orLimits r)
      = (s.initialWindowSize.toNat : Int) - r.initialWindowSize.toNat := by
    unfold windowGrowth
    rw [signedWindow_eq hr]
    exact congrArg (· - _) (signedWindow_eq hs.window_le)
  unfold apply
  rw [receiveAll_of_legal hlegal, hps, told_announced, overlay_get?]
  show Except.ok _ = _
  rw [hgrowth]

end Settings

-- ============================================================== announcing

namespace Frame

/-- What the payload of a SETTINGS frame says are its parameters. -/
theorem parameters?_of_contents {f : Frame} {ps : Parameters}
    (h : f.contents = .settings ps) : f.parameters? = some ps := by
  obtain ⟨raw, payload⟩ := f
  cases payload <;> cases h
  rfl

namespace Builder

variable {b : Builder} {d : Draft} {front back : List UInt8}

/-- With room for all of them, parameters are refused because of the first
value that is not allowed. -/
theorem LaysDown.addSettings_outOfRange (h : b.LaysDown d front back)
    {settings : List (Setting × UInt32)}
    (hno : ¬ ∀ s ∈ settings, s.1.allows s.2)
    (hunset : Flag.ack.isSet d.flags = false)
    (hroom : b.HasRoom (d.append (settings.flatMap fun s =>
      (Parameter.announce s.1 s.2).encode))) :
    ∃ r, b.addSettings settings = .error r
      ∧ r.error = .invalidArgument .settingOutOfRange := by
  induction settings generalizing b d with
  | nil => exact absurd (List.forall_mem_nil _) hno
  | cons s settings ih =>
      by_cases hallows : s.1.allows s.2
      case pos =>
        -- the room for the rest is what is left of the room for all
        rw [List.forall_mem_cons, not_and] at hno
        rw [List.flatMap_cons, ← Draft.append_append] at hroom
        obtain ⟨b₁, hok⟩ := h.exists_addSetting hallows hunset
          (hroom.of_le (length_le_append _ _))
        obtain ⟨hlays, -⟩ := h.append (append_of_addSetting hok)
        obtain ⟨r, hrest, herror⟩ := ih hlays (hno hallows) hunset
          (hroom.of_window (hlays.offset_eq.trans h.offset_eq.symm)
            (maxLimit_append (append_of_addSetting hok)))
        exact ⟨r, Attempt.andThen_eq_error_iff.mpr (.inr ⟨b₁, hok, hrest⟩),
          herror⟩
      case neg =>
        have hhas : ¬ b.has .ack := by
          rw [h.has_eq, hunset]
          nofun
        refine ⟨⟨.invalidArgument .settingOutOfRange, b⟩,
          Attempt.andThen_eq_error_iff.mpr (.inl ?_), rfl⟩
        rw [addSetting, if_neg hhas, if_neg hallows]
        rfl

variable {buffer : Buffer} {offset maxLimit : Nat}

/-- A fresh SETTINGS frame has room for a few parameters if its window
has. -/
theorem hasRoom_of_start
    (hstart : start .settings buffer offset maxLimit = .ok b)
    {octets : List UInt8}
    (hroom : offset + Header.width + octets.length ≤ maxLimit)
    (hshort : octets.length ≤ Header.maxLength) :
    b.HasRoom ((Draft.blank .settings).append octets) := by
  obtain ⟨-, rfl⟩ := start_eq_ok_iff.mp hstart
  have hlength : ((Draft.blank .settings).append octets).payload.length
      = octets.length := by
    rw [Draft.length_payload, Draft.length_body_append]
    exact Nat.zero_add _
  refine ⟨?_, by rw [hlength]; exact hshort⟩
  rw [Draft.length_encode, hlength, ← Nat.add_assoc]
  exact hroom

end Builder

end Frame

namespace Settings

open Http2.Frame Http2.Frame.Builder

variable {buffer : Buffer} {offset maxLimit : Nat} {b : Frame.Builder}

/-- There are at most six settings to announce. -/
theorem length_announced_le (s : Settings) : s.announced.length ≤ 6 :=
  List.length_filterMap_le _ Setting.all

/-- A fresh frame with room behind its header has it for all that a record
announces. -/
theorem hasRoom_announced
    (hstart : start .settings buffer offset maxLimit = .ok b) (s : Settings)
    (hroom : offset + Header.width + 6 * s.announced.length ≤ maxLimit) :
    b.HasRoom ((Draft.blank .settings).append (s.announced.flatMap fun p =>
      (Parameter.announce p.1 p.2).encode)) := by
  have hlength := Parameter.length_flatMap_announce s.announced
  have hfew := s.length_announced_le
  have hmax : 6 * 6 ≤ Header.maxLength := by decide
  apply hasRoom_of_start hstart
  · rw [hlength]
    exact hroom
  · omega

/-- The frame that announces a record is built, and its parameters are those
that are announced. -/
theorem exists_announced
    (hstart : start .settings buffer offset maxLimit = .ok b) {s : Settings}
    (hs : s.InRange)
    (hroom : offset + Header.width + 6 * s.announced.length ≤ maxLimit)
    (table : Hpack.Table) :
    ∃ b' f ps, b.edit table (.settings s) = .ok (b', table)
      ∧ b'.build = .ok f ∧ f.parameters? = some ps
      ∧ ps.toList = s.announced.map fun p => .announce p.1 p.2 := by
  have hmeets := start_meets hstart
  obtain ⟨b', hadd⟩ := (start_laysDown hstart).exists_addSettings
    (inRange_iff_allows.mp hs) (fun _ => rfl)
    (hasRoom_announced hstart s hroom)
  have hedit : b.edit table (.settings s) = .ok (b', table) :=
    Attempt.within_pair_eq_ok_iff.mpr ⟨hadd, rfl⟩
  have hmeets' := hmeets.edit (r := ⟨.settings s, table⟩) rfl hedit
  have hspace : b'.offset + Header.width < addressSpace := by
    obtain ⟨hregion, rfl⟩ := start_eq_ok_iff.mp hstart
    obtain ⟨-, hspace, -⟩ := requireRoom_eq_ok_iff.mp hregion
    rw [hmeets'.lays.offset_eq, ← hmeets.lays.offset_eq]
    exact hspace
  have htells := hmeets'.tells
  have hbuild := hmeets'.build_eq hspace
  rw [if_neg (by nofun)] at hbuild
  have hps := htells.parameters _ htells.contents
  rw [List.nil_append, List.flatMap_singleton] at hps
  exact ⟨b', _, _, hedit, hbuild, parameters?_of_contents htells.contents, hps⟩

-- ============================================================== the result

/-- Announced settings arrive. A record in its ranges is announced by any
fresh frame with room for six octets for each of its settings, and every peer
that takes that frame over ends up with the same record, but for its own
limits where none are announced, and is told by how much its window grows. A
record outside of its ranges is turned down. Setters and frames that are taken
over lead to records in their ranges only. -/
theorem announced_arrives
    (hstart : start .settings buffer offset maxLimit = .ok b) (s : Settings)
    (hroom : offset + Header.width
      + 6 * (4 + s.maxConcurrentStreams.toList.length
        + s.maxHeaderListSize.toList.length) ≤ maxLimit)
    (table : Hpack.Table) :
    (s.InRange → ∃ b' f ps, b.edit table (.settings s) = .ok (b', table)
        ∧ b'.build = .ok f ∧ f.parameters? = some ps
        ∧ (∀ r : Settings, r.initialWindowSize.toNat ≤ 2 ^ 31 - 1 →
          ∃ growth, r.apply ps = .ok ({ s with
              maxConcurrentStreams :=
                s.maxConcurrentStreams.or r.maxConcurrentStreams
              maxHeaderListSize :=
                s.maxHeaderListSize.or r.maxHeaderListSize }, growth)
            ∧ growth = (s.initialWindowSize.toNat : Int)
              - r.initialWindowSize.toNat
            ∧ Int32.minValue.toInt ≤ growth ∧ growth ≤ Int32.maxValue.toInt)
        ∧ ∃ growth, apply {} ps = .ok (s, growth))
      ∧ (¬ s.InRange → ∃ refused,
        b.edit table (.settings s) = .error refused
          ∧ refused.error = .invalidArgument .settingOutOfRange)
      ∧ (s.Reachable → s.InRange) := by
  rw [← length_announced] at hroom
  refine ⟨?arrives, ?refused, Reachable.inRange⟩
  case arrives =>
    intro hs
    obtain ⟨b', f, ps, hedit, hbuild, hparameters, hps⟩ :=
      exists_announced hstart hs hroom table
    refine ⟨b', f, ps, hedit, hbuild, hparameters, ?any, ?default⟩
    case any =>
      intro r hr
      have hwindow := hs.window_le
      have hmin : Int32.minValue.toInt = -2 ^ 31 := rfl
      have hmax : Int32.maxValue.toInt = 2 ^ 31 - 1 := rfl
      refine ⟨_, apply_announced hs hps hr, rfl, ?_, ?_⟩
      · rw [hmin]
        omega
      · rw [hmax]
        omega
    case default =>
      have happly := apply_announced hs hps (r := {}) (by decide)
      rw [orLimits_default] at happly
      exact ⟨_, happly⟩
  case refused =>
    intro hs
    rw [inRange_iff_allows] at hs
    obtain ⟨r, hno, herror⟩ := (start_laysDown hstart).addSettings_outOfRange hs
      rfl (hasRoom_announced hstart s hroom)
    exact ⟨_, Attempt.within_eq_error_iff.mpr ⟨r, hno, rfl⟩, herror⟩

/-- The largest window, announced in a frame without an octet to spare to a
peer with limits of its own, and a frame size that is too small by one. -/
theorem announced_arrives_largest :
    ∃ b, start .settings (.ofList (List.replicate 40 9)) 1 40 = .ok b
      ∧ 1 + Header.width + 6 * (4 + 1 + 0) ≤ 40
      ∧ (∃ b' f ps, b.edit {} (.settings
            { maxConcurrentStreams := some 100,
              initialWindowSize := 0x7fffffff })
          = .ok (b', {})
        ∧ b'.build = .ok f ∧ f.parameters? = some ps
        ∧ apply
            { maxConcurrentStreams := some 9, maxHeaderListSize := some 7 } ps
          = .ok ({ maxConcurrentStreams := some 100,
                   initialWindowSize := 0x7fffffff,
                   maxHeaderListSize := some 7 }, 0x7fffffff - 65535))
      ∧ ∃ refused, b.edit {} (.settings { maxFrameSize := 16383 })
          = .error refused
        ∧ refused.error = .invalidArgument .settingOutOfRange := by
  obtain ⟨b, hstart⟩ := exists_eq_ok_of_isOk (show (start .settings
    (.ofList (List.replicate 40 9)) 1 40).isOk by decide +kernel)
  refine ⟨b, hstart, by decide, ?arrives, ?refused⟩
  case arrives =>
    obtain ⟨harrives, -, -⟩ := announced_arrives hstart
      { maxConcurrentStreams := some 100, initialWindowSize := 0x7fffffff }
      (by decide) {}
    obtain ⟨b', f, ps, hedit, hbuild, hps, hany, -⟩ :=
      harrives ⟨by decide, by decide, by decide⟩
    obtain ⟨growth, happly, hgrowth, -⟩ := hany
      { maxConcurrentStreams := some 9, maxHeaderListSize := some 7 }
      (by decide)
    obtain rfl : growth = 0x7fffffff - 65535 := hgrowth
    exact ⟨b', f, ps, hedit, hbuild, hps, happly⟩
  case refused =>
    obtain ⟨-, hrefused, -⟩ := announced_arrives hstart
      { maxFrameSize := 16383 } (by decide) {}
    apply hrefused
    intro hrange
    exact absurd hrange.le_frameSize (by decide)

end Settings

end Http2
