import DroneMini.Sbus.Codec
import DroneMini.Lib.FltExact
import Mathlib.Order.Monotone.Basic

/-!
# Sticks over the link

The plant rounds a stick to a channel count, 819 to the unit above the centre and 820 below it, and the
firmware divides the count by the width of its side again. What is read back is a monotone function of the
commanded stick, exact at the centre and at the ends and off by half a count in between
(`readStick_readsBack`). The encoded frame has channels that differ, so a parser that starts accepts it
(`feed_reset`).
-/

namespace DroneMini

open SbusParser

/-! ## The counts -/

/-- The plant's count of a stick does not go down as the stick goes up. -/
theorem stickToSbus_mono : Monotone stickToSbus := by
  intro u v h
  have hc : max (-1) (min 1 u) ≤ max (-1) (min 1 v) := max_le_max_left _ (min_le_min_left _ h)
  unfold stickToSbus SBUS_MID SBUS_MAX SBUS_MIN
  generalize max (-1) (min 1 u) = u at hc ⊢
  generalize max (-1) (min 1 v) = v at hc ⊢
  -- below the centre the slope is steeper, and at the centre both sides meet
  dsimp only
  split_ifs with hu hv hv
  all_goals refine Int.toNat_le_toNat (roundHalfEven_mono ?_); push_cast; linarith

/-- The plant's count of a throttle does not go down as the throttle goes up. -/
theorem throttleToSbus_mono : Monotone throttleToSbus := by
  intro u v h
  have hc : max 0 (min 1 u) ≤ max 0 (min 1 v) := max_le_max_left _ (min_le_min_left _ h)
  unfold throttleToSbus SBUS_MAX SBUS_MIN
  refine Int.toNat_le_toNat (roundHalfEven_mono ?_)
  push_cast
  linarith

/-- A stick outside the range counts as the end of it. -/
theorem stickToSbus_clamp (v : ℚ) : stickToSbus (max (-1) (min 1 v)) = stickToSbus v := by
  unfold stickToSbus
  rw [min_eq_right (max_le (by decide) (min_le_left 1 v)), max_eq_right (le_max_left _ _)]

/-- A throttle outside the range counts as the end of it. -/
theorem throttleToSbus_clamp (t : ℚ) : throttleToSbus (max 0 (min 1 t)) = throttleToSbus t := by
  unfold throttleToSbus
  rw [min_eq_right (max_le (by decide) (min_le_left 1 t)), max_eq_right (le_max_left _ _)]

@[simp] theorem stickToSbus_neg_one : stickToSbus (-1) = SBUS_MIN := by
  norm_num [stickToSbus, roundHalfEven, SBUS_MIN, SBUS_MID, SBUS_MAX]
  rfl

@[simp] theorem stickToSbus_zero : stickToSbus 0 = SBUS_MID := by
  norm_num [stickToSbus, roundHalfEven, SBUS_MIN, SBUS_MID, SBUS_MAX]
  rfl

@[simp] theorem stickToSbus_one : stickToSbus 1 = SBUS_MAX := by
  norm_num [stickToSbus, roundHalfEven, SBUS_MIN, SBUS_MID, SBUS_MAX]
  rfl

@[simp] theorem throttleToSbus_zero : throttleToSbus 0 = SBUS_MIN := by
  norm_num [throttleToSbus, roundHalfEven, SBUS_MIN, SBUS_MAX]
  rfl

@[simp] theorem throttleToSbus_one : throttleToSbus 1 = SBUS_MAX := by
  norm_num [throttleToSbus, roundHalfEven, SBUS_MIN, SBUS_MAX]
  rfl

/-- The count of a stick is between `SBUS_MIN` and `SBUS_MAX`, since the plant clamps the stick to ±1 before
it counts. -/
theorem stickToSbus_mem (v : ℚ) : SBUS_MIN ≤ stickToSbus v ∧ stickToSbus v ≤ SBUS_MAX := by
  rw [← stickToSbus_clamp v, ← stickToSbus_neg_one, ← stickToSbus_one]
  exact ⟨stickToSbus_mono (le_max_left _ _),
    stickToSbus_mono (max_le (by decide) (min_le_left 1 v))⟩

/-- The count of a throttle is between `SBUS_MIN` and `SBUS_MAX`, since the plant clamps the throttle to 0 to
1 before it counts. -/
theorem throttleToSbus_mem (t : ℚ) : SBUS_MIN ≤ throttleToSbus t ∧ throttleToSbus t ≤ SBUS_MAX := by
  rw [← throttleToSbus_clamp t, ← throttleToSbus_zero, ← throttleToSbus_one]
  exact ⟨throttleToSbus_mono (le_max_left _ _),
    throttleToSbus_mono (max_le (by decide) (min_le_left 1 t))⟩

/-! ## Reading a count back -/

/-- A count up to the centre is measured by the lower side, the centre included. -/
theorem sbusToStick_of_le {n : Nat} (h : n ≤ SBUS_MID) :
    sbusToStick n = ((n : ℚ) - SBUS_MID) / (SBUS_MID - SBUS_MIN) := by
  rcases h.lt_or_eq with hlt | rfl
  · exact if_neg (Nat.not_le.mpr hlt)
  · simp [sbusToStick]

/-- The stick that a count is read as does not go down as the count goes up. -/
theorem sbusToStick_mono : Monotone sbusToStick := by
  intro a b h
  have hcast : (a : ℚ) ≤ b := Nat.cast_le.mpr h
  unfold sbusToStick SBUS_MID SBUS_MAX SBUS_MIN
  split_ifs with ha hb hb
  · push_cast
    linarith
  · omega
  · have ha' : (a : ℚ) ≤ 992 := by exact_mod_cast (not_le.mp ha).le
    have hb' : (992 : ℚ) ≤ b := by exact_mod_cast hb
    push_cast
    linarith
  · push_cast
    linarith

/-- The throttle that a count is read as does not go down as the count goes up. -/
theorem sbusToThrottle_mono : Monotone sbusToThrottle := by
  intro a b h
  have hcast : (a : ℚ) ≤ b := Nat.cast_le.mpr h
  refine max_le_max_left _ (min_le_min_left _ ?_)
  unfold SBUS_MAX SBUS_MIN
  push_cast
  linarith

/-- The stick of a count between the ends is in range. -/
theorem sbusToStick_mem {n : Nat} (h : SBUS_MIN ≤ n ∧ n ≤ SBUS_MAX) :
    -1 ≤ sbusToStick n ∧ sbusToStick n ≤ 1 := by
  have hlow : sbusToStick SBUS_MIN = -1 := by norm_num [sbusToStick, SBUS_MIN, SBUS_MID]
  have hhigh : sbusToStick SBUS_MAX = 1 := by norm_num [sbusToStick, SBUS_MAX, SBUS_MID]
  rw [← hlow, ← hhigh]
  exact ⟨sbusToStick_mono h.1, sbusToStick_mono h.2⟩

/-- Between the ends, the firmware's `norm` reads the same stick from a count as the plant's own decoder
does. -/
theorem norm_eq {n : Nat} (h : SBUS_MIN ≤ n ∧ n ≤ SBUS_MAX) :
    (SbusParser.norm n (-1) 1 : Flt ℚ) = .fin (sbusToStick n) := by
  obtain ⟨hlow, hhigh⟩ := sbusToStick_mem h
  have hout : (.ofInt n - .ofInt kSbusMid : Flt ℚ) /
      (if kSbusMid ≤ n then .ofInt (kSbusMax - kSbusMid) else .ofInt (kSbusMid - kSbusMin))
        = .fin (sbusToStick n) := by
    unfold sbusToStick
    split_ifs with hside hside' hside'
    · rw [Flt.ofInt_exact, Flt.ofInt_exact, Flt.ofInt_exact, Flt.fin_sub_fin,
        Flt.fin_div_fin _ (by decide), Int.cast_sub]
      simp only [Int.cast_natCast]
      rfl
    · exact absurd hside hside'
    · exact absurd hside' hside
    · rw [Flt.ofInt_exact, Flt.ofInt_exact, Flt.ofInt_exact, Flt.fin_sub_fin,
        Flt.fin_div_fin _ (by decide), Int.cast_sub]
      simp only [Int.cast_natCast]
      rfl
  have hneg : ¬ (.fin (sbusToStick n) : Flt ℚ) < -1 := by
    rw [Flt.one_def, Flt.neg_fin, Flt.fin_lt_fin]
    exact not_lt.mpr hlow
  have hone : ¬ (1 : Flt ℚ) < .fin (sbusToStick n) := by
    rw [Flt.one_def, Flt.fin_lt_fin]
    exact not_lt.mpr hhigh
  dsimp only [SbusParser.norm]
  rw [hout, if_neg hneg, if_neg hone]

/-- The firmware reads the same throttle from a count as the plant's own decoder does, clamped at both
ends. -/
theorem normThrottle_eq (n : Nat) : (normThrottle n : Flt ℚ) = .fin (sbusToThrottle n) := by
  have hout : (.ofInt n - .ofInt kSbusMin : Flt ℚ) / (.ofInt kSbusMax - .ofInt kSbusMin)
      = .fin (((n : ℚ) - SBUS_MIN) / (SBUS_MAX - SBUS_MIN)) := by
    rw [Flt.ofInt_exact, Flt.ofInt_exact, Flt.ofInt_exact, Flt.fin_sub_fin, Flt.fin_sub_fin,
      Flt.fin_div_fin _ (by norm_num [kSbusMin, kSbusMax])]
    simp only [Int.cast_natCast]
    rfl
  dsimp only [normThrottle, sbusToThrottle]
  rw [hout]
  generalize ((n : ℚ) - SBUS_MIN) / (SBUS_MAX - SBUS_MIN) = x
  rw [Flt.zero_def, Flt.one_def]
  by_cases h0 : 0 < x
  · rw [if_neg (not_not_intro (Flt.fin_lt_fin.mpr h0)), Flt.ite_lt_min, max_eq_right]
    exact le_min zero_le_one h0.le
  · have hx : min 1 x ≤ 0 := (min_le_right 1 x).trans (not_lt.mp h0)
    rw [if_pos (Flt.fin_lt_fin.not.mpr h0), Flt.ite_lt_min, max_eq_left hx]
    rw [min_eq_right zero_le_one]

/-! ## What is read back -/

/-- The stick the firmware reads when the plant commands `v`. -/
def readStick (v : ℚ) : ℚ := sbusToStick (stickToSbus v)

/-- The throttle the firmware reads when the plant commands `t`. -/
def readThrottle (t : ℚ) : ℚ := sbusToThrottle (throttleToSbus t)

/-- A reading of the commands from `lo` to 1: within `err` of the command, monotone, on the side of the
command, and exact at 0 and at both ends. -/
structure ReadsBack (lo : ℚ) (err : ℚ → ℚ) (read : ℚ → ℚ) : Prop where
  near : ∀ v, lo ≤ v → v ≤ 1 → |read v - v| ≤ err v
  mono : Monotone read
  nonneg : ∀ v, 0 ≤ v → 0 ≤ read v
  nonpos : ∀ v, v ≤ 0 → read v ≤ 0
  low : read lo = lo
  zero : read 0 = 0
  high : read 1 = 1

/-- Half a channel count: the upper side has 819 of them and the lower one 820. -/
def stickErr (v : ℚ) : ℚ := if 0 ≤ v then 0.5 / 819 else 0.5 / 820

/-- Half a channel count of the throttle, whose range of 0 to 1 is 1639 counts wide: the same on both sides of
the middle. -/
def throttleErr (_ : ℚ) : ℚ := 0.5 / 1639

/-- A monotone reading that is exact at 0 is on the side of the command. -/
theorem ReadsBack.of_mono {lo : ℚ} {err read : ℚ → ℚ} (hmono : Monotone read) (hzero : read 0 = 0)
    (hlow : read lo = lo) (hhigh : read 1 = 1) (hnear : ∀ v, lo ≤ v → v ≤ 1 → |read v - v| ≤ err v) :
    ReadsBack lo err read where
  near := hnear
  mono := hmono
  nonneg v hv := by
    rw [← hzero]
    exact hmono hv
  nonpos v hv := by
    rw [← hzero]
    exact hmono hv
  low := hlow
  zero := hzero
  high := hhigh

/-- A stick from the centre up is read back within half an upper count. -/
theorem readStick_near_up {v : ℚ} (h0 : 0 ≤ v) (h1 : v ≤ 1) : |readStick v - v| ≤ 0.5 / 819 := by
  have hside : SBUS_MID ≤ stickToSbus v := by
    rw [← stickToSbus_zero]
    exact stickToSbus_mono h0
  have hclamp : max (-1) (min 1 v) = v := by
    rw [min_eq_right h1, max_eq_right ((by decide : (-1 : ℚ) ≤ 0).trans h0)]
  have hcount : (stickToSbus v : ℚ) = roundHalfEven (SBUS_MID + v * (SBUS_MAX - SBUS_MID)) := by
    dsimp only [stickToSbus]
    rw [hclamp, if_pos h0]
    refine natCast_toNat_roundHalfEven ?_
    norm_num [SBUS_MAX, SBUS_MID]
    linarith
  rw [readStick, sbusToStick, if_pos hside, hcount]
  refine (abs_readBack_sub_le (by norm_num [SBUS_MIN, SBUS_MID, SBUS_MAX]) v).trans_eq ?_
  norm_num [SBUS_MAX, SBUS_MID]

/-- A stick below the centre is read back within half a lower count. -/
theorem readStick_near_down {v : ℚ} (h0 : v < 0) (h1 : -1 ≤ v) : |readStick v - v| ≤ 0.5 / 820 := by
  have hside : stickToSbus v ≤ SBUS_MID := by
    rw [← stickToSbus_zero]
    exact stickToSbus_mono h0.le
  have hclamp : max (-1) (min 1 v) = v := by
    rw [min_eq_right (h0.le.trans zero_le_one), max_eq_right h1]
  have hcount : (stickToSbus v : ℚ) = roundHalfEven (SBUS_MID + v * (SBUS_MID - SBUS_MIN)) := by
    dsimp only [stickToSbus]
    rw [hclamp, if_neg (not_le.mpr h0)]
    refine natCast_toNat_roundHalfEven ?_
    norm_num [SBUS_MIN, SBUS_MID]
    linarith
  rw [readStick, sbusToStick_of_le hside, hcount]
  refine (abs_readBack_sub_le (by norm_num [SBUS_MIN, SBUS_MID, SBUS_MAX]) v).trans_eq ?_
  norm_num [SBUS_MIN, SBUS_MID]

/-- A throttle within 0 to 1 is read back within half a channel count. -/
theorem readThrottle_near {t : ℚ} (h0 : 0 ≤ t) (h1 : t ≤ 1) : |readThrottle t - t| ≤ 0.5 / 1639 := by
  have hclamp : max 0 (min 1 t) = t := by
    rw [min_eq_right h1, max_eq_right h0]
  have hcount : (throttleToSbus t : ℚ) = roundHalfEven (SBUS_MIN + t * (SBUS_MAX - SBUS_MIN)) := by
    dsimp only [throttleToSbus]
    rw [hclamp]
    refine natCast_toNat_roundHalfEven ?_
    norm_num [SBUS_MIN, SBUS_MAX]
    linarith
  obtain ⟨hlow, hhigh⟩ := throttleToSbus_mem t
  have hlow' : (172 : ℚ) ≤ throttleToSbus t := by exact_mod_cast hlow
  have hhigh' : (throttleToSbus t : ℚ) ≤ 1811 := by exact_mod_cast hhigh
  have hread : readThrottle t = ((throttleToSbus t : ℚ) - SBUS_MIN) / (SBUS_MAX - SBUS_MIN) := by
    unfold readThrottle sbusToThrottle
    rw [min_eq_right, max_eq_right]
    all_goals norm_num [SBUS_MIN, SBUS_MAX]; linarith
  rw [hread, hcount]
  refine (abs_readBack_sub_le (by norm_num [SBUS_MIN, SBUS_MID, SBUS_MAX]) t).trans_eq ?_
  norm_num [SBUS_MIN, SBUS_MAX]

/-- **What the firmware reads of a stick** is monotone in the stick, has its sign, is exact at the centre and
at both ends, and is within half a channel count of it. -/
theorem readStick_readsBack : ReadsBack (-1) stickErr readStick := by
  refine .of_mono (sbusToStick_mono.comp stickToSbus_mono) ?_ ?_ ?_ fun v hlow hhigh => ?_
  · rw [readStick, stickToSbus_zero]
    norm_num [sbusToStick, sbusToThrottle, SBUS_MIN, SBUS_MID, SBUS_MAX]
  · rw [readStick, stickToSbus_neg_one]
    norm_num [sbusToStick, sbusToThrottle, SBUS_MIN, SBUS_MID, SBUS_MAX]
  · rw [readStick, stickToSbus_one]
    norm_num [sbusToStick, sbusToThrottle, SBUS_MIN, SBUS_MID, SBUS_MAX]
  · unfold stickErr
    split_ifs with h0
    · exact readStick_near_up h0 hhigh
    · exact readStick_near_down (not_le.mp h0) hlow

/-- What the firmware reads of a throttle is monotone in it, exact at both ends, and within half a channel
count of it. -/
theorem readThrottle_readsBack : ReadsBack 0 throttleErr readThrottle := by
  have hzero : readThrottle 0 = 0 := by
    rw [readThrottle, throttleToSbus_zero]
    norm_num [sbusToStick, sbusToThrottle, SBUS_MIN, SBUS_MID, SBUS_MAX]
  refine .of_mono (sbusToThrottle_mono.comp throttleToSbus_mono) hzero hzero ?_ fun t hlow hhigh =>
    readThrottle_near hlow hhigh
  rw [readThrottle, throttleToSbus_one]
  norm_num [sbusToStick, sbusToThrottle, SBUS_MIN, SBUS_MID, SBUS_MAX]

/-! ## The frame -/

/-- A parser fresh from `reset` that is fed an acceptable frame decodes it, so that the sample is the decoding
of that frame. -/
theorem feed_reset {f : List UInt8} (out : RcSample ℚ) (hlen : f.length = 25) (hacc : acceptable f = true) :
    ∃ r, reset.feed f out = some r ∧ r.decoded = true ∧ decodeFrame f out = some r.out := by
  obtain ⟨r, hr, -, hdec, hout, -⟩ := feed_frame reset_n out hlen hacc
  exact ⟨r, hr, hdec, hout⟩

/-- The channels that the plant commands for any sticks, throttle and arm switch fit into 11 bits. -/
theorem baseChannels_le (roll pitch throttle yaw : ℚ) (arm : Bool) :
    ∀ n ∈ baseChannels roll pitch throttle yaw arm, n ≤ 2047 := by
  have hends : SBUS_MIN ≤ 2047 ∧ SBUS_MAX ≤ 2047 := by decide
  have hstick (v : ℚ) : stickToSbus v ≤ 2047 := (stickToSbus_mem v).2.trans hends.2
  have hthrottle (t : ℚ) : throttleToSbus t ≤ 2047 := (throttleToSbus_mem t).2.trans hends.2
  intro n hn
  simp only [baseChannels, ARM_CHANNEL, List.replicate, List.set, List.mem_cons, List.not_mem_nil,
    or_false] at hn
  rcases hn with rfl | rfl | rfl | rfl | rfl | hn
  · exact hstick roll
  · exact hstick pitch
  · exact hthrottle throttle
  · exact hstick yaw
  · split_ifs
    · exact hends.2
    · exact hends.1
  · omega

/-- The parser reads back the channels that the plant commanded, for any sticks, throttle and arm switch. -/
theorem channel_baseChannels (roll pitch throttle yaw : ℚ) (arm : Bool) {i : Nat} (hi : i < 16) :
    channel (sbusEncode (baseChannels roll pitch throttle yaw arm) 0) i =
      (baseChannels roll pitch throttle yaw arm).getD i 0 := by
  have hle : (baseChannels roll pitch throttle yaw arm).getD i 0 ≤ 2047 := by
    rw [List.getD_eq_getElem _ 0 (by simpa [baseChannels] using hi)]
    exact baseChannels_le roll pitch throttle yaw arm _ (List.getElem_mem _)
  rw [channel_sbusEncode _ _ hi, show (0x7FF : Nat) = 2 ^ 11 - 1 from rfl,
    Nat.and_two_pow_sub_one_eq_mod]
  exact Nat.mod_eq_of_lt (Nat.lt_succ_of_le hle)

/-- The parser accepts the commanded frame: a stick is never 0 counts, as the spare channels are. -/
theorem acceptable_baseChannels (roll pitch throttle yaw : ℚ) (arm : Bool) :
    acceptable (sbusEncode (baseChannels roll pitch throttle yaw arm) 0) = true := by
  have hstuck : stuck (sbusEncode (baseChannels roll pitch throttle yaw arm) 0) = false := by
    rw [← Bool.not_eq_true, stuck_iff]
    intro hall
    have hmem {i : Nat} (hi : i < 16) := List.mem_map_of_mem
      (f := channel (sbusEncode (baseChannels roll pitch throttle yaw arm) 0)) (List.mem_range.mpr hi)
    have heq := hall _ (hmem (i := 0) (by decide)) _ (hmem (i := 5) (by decide))
    rw [channel_baseChannels roll pitch throttle yaw arm (by decide),
      channel_baseChannels roll pitch throttle yaw arm (by decide)] at heq
    have hroll : stickToSbus roll = 0 := heq
    have hmin := (stickToSbus_mem roll).1
    rw [hroll] at hmin
    exact absurd hmin (by decide)
  have hhead : (sbusEncode (baseChannels roll pitch throttle yaw arm) 0).getD 0 0 = kSbusHeader := rfl
  have hflags : (sbusEncode (baseChannels roll pitch throttle yaw arm) 0).getD 23 0 = 0 := rfl
  rw [acceptable, hstuck, hhead, hflags]
  rfl

/-- **Sticks over the link.** A parser that starts accepts the frame of any command; what it reads of a
stick is within half a count of it, monotone, never on the other side, and exact at the centre and at the
ends; the arm switch is the commanded one. -/
theorem stick_quantisation :
    (∀ (roll pitch throttle yaw : ℚ) (arm : Bool) (out : RcSample ℚ),
      ∃ r, reset.feed (sbusEncode (baseChannels roll pitch throttle yaw arm) 0) out = some r ∧
        r.decoded = true ∧ r.out.roll = .fin (readStick roll) ∧ r.out.pitch = .fin (readStick pitch) ∧
        r.out.yaw = .fin (readStick yaw) ∧ r.out.throttle = .fin (readThrottle throttle) ∧
        r.out.armedSwitch = arm) ∧
      ReadsBack (-1) stickErr readStick ∧ ReadsBack 0 throttleErr readThrottle := by
  refine ⟨fun roll pitch throttle yaw arm out => ?_, readStick_readsBack, readThrottle_readsBack⟩
  obtain ⟨r, hr, hdec, hout⟩ := feed_reset out (length_sbusEncode _ _)
    (acceptable_baseChannels roll pitch throttle yaw arm)
  have hch {i : Nat} (hi : i < 16) := channel_baseChannels roll pitch throttle yaw arm hi
  unfold decodeFrame at hout
  rw [hch (i := 0) (by decide), hch (i := 1) (by decide), hch (i := 2) (by decide),
    hch (i := 3) (by decide), hch (i := kArmChannel) (by decide)] at hout
  split_ifs at hout
  refine ⟨r, hr, hdec, ?_⟩
  rw [← Option.some.inj hout]
  refine ⟨norm_eq (stickToSbus_mem roll), norm_eq (stickToSbus_mem pitch),
    norm_eq (stickToSbus_mem yaw), normThrottle_eq _, ?_⟩
  show decide (kSbusMid < if arm then SBUS_MAX else SBUS_MIN) = arm
  cases arm <;> decide

end DroneMini
