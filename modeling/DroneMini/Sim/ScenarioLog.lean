import DroneMini.Lib.FltRound
import DroneMini.Plant.Scenario
import DroneMini.Sim.ArmingLog

/-!
# The logs of the stick scenarios

What the log of a session says when its frames are those of a scenario of `make_scenario`
(`scenario_logged`): when the failsafe shows, that the commands in it are those of the scenario, up to half a
channel count, and which scenarios never move a motor without `arm_test`.
-/

namespace DroneMini

namespace SbusParser

variable {K : Type} [Field K] [LinearOrder K] [IsStrictOrderedRing K] [FloatEnv K] [RoundsToNearest K]

/-- A quotient of two small integers that is neither tiny nor huge is rounded by less than a factor of two. -/
theorem round_ratio {x : K} (hlo : 1 / 100 ≤ x) (hhi : x ≤ 100) :
    ∃ y, FloatEnv.round x = .fin y ∧ x / 2 ≤ y ∧ y ≤ 2 * x := by
  have hpow : (100 : K) ≤ 2 ^ 126 := by norm_num
  refine RoundsToNearest.round_normal x ?_ (hhi.trans hpow)
  calc (1 : K) = 1 / 100 * 100 := by norm_num
    _ ≤ x * 2 ^ 126 := mul_le_mul hlo hpow (by norm_num) (le_trans (by norm_num) hlo)

/-- A throttle channel at half way is not read as a closed throttle. -/
theorem not_closed_half : ¬ (normThrottle 992 : Flt K) ≤ FailsafeFsm.kArmThrottleMax := by
  obtain ⟨y, hy, hylo, -⟩ := round_ratio (show (1 / 100 : K) ≤ 820 / 1639 by norm_num) (by norm_num)
  obtain ⟨z, hz, -, hzhi⟩ := round_ratio (show (1 / 100 : K) ≤ ((0.05 : ℚ) : K) by norm_num) (by norm_num)
  have hthr : (.ofInt (992 : Nat) - .ofInt kSbusMin : Flt K) / (.ofInt kSbusMax - .ofInt kSbusMin) = .fin y := by
    have hspan : ((((kSbusMax : Nat) : ℤ) - ((kSbusMin : Nat) : ℤ) : ℤ) : K) = 1639 := by
      norm_num [kSbusMax, kSbusMin]
    have hup : ((((992 : Nat) : ℤ) - ((kSbusMin : Nat) : ℤ) : ℤ) : K) = 820 := by
      norm_num [kSbusMin]
    rw [Flt.ofInt_sub_ofInt (by decide) (by decide) (by decide),
      Flt.ofInt_sub_ofInt (by decide) (by decide) (by decide), hspan, hup, ← hy]
    exact if_neg (by norm_num)
  have hmax : (FailsafeFsm.kArmThrottleMax : Flt K) = .fin z := hz
  have hypos : 0 < y := lt_of_lt_of_le (by norm_num) hylo
  have hquarter : 1 / 4 ≤ y := le_trans (by norm_num) hylo
  have hsmall : z < 1 / 4 := lt_of_le_of_lt hzhi (by norm_num)
  unfold normThrottle
  simp only [hthr, hmax, Flt.zero_def, Flt.one_def, Flt.fin_lt_fin, hypos, not_true_eq_false, if_false]
  split_ifs
  · rw [Flt.fin_le_fin, not_le]
    exact hsmall.trans (by norm_num)
  · rw [Flt.fin_le_fin, not_le]
    exact hsmall.trans_le hquarter

end SbusParser

namespace ClosedLoop

open PlantRunner RcScenario

variable {σ F K : Type} [Field K] [LinearOrder K] [FloatEnv K]

/-- A fault of a sensor up to a tick, as `FaultBefore` counts faults. -/
def SensorFault (s : Setup σ F K) (rows : List (Row F)) (n : Nat) : Prop :=
  ∃ j < n, (s.fw.armTest = true → 0 < j) ∧ (ImuUnusable s rows j ∨ BatteryFlat s rows j)

section Scenario
variable {name : String} {sc : RcScenario} (hmake : makeScenario name = .ok sc)
include hmake

/-- Only the scenario `rc_loss` has ticks without a frame, from its third second on. -/
theorem frame_eq_none (k : Nat) : sc.frame k = none ↔ name = "rc_loss" ∧ 3000 ≤ k := by
  rw [frame_of_makeScenario hmake]
  split_ifs with hlost
  · simp [hlost]
  · simp [hlost]

/-- The link is lost in `rc_loss` alone, 100 ms after its last frame. -/
theorem linkLost_iff (k : Nat) : LinkLost sc.frame k ↔ name = "rc_loss" ∧ 3099 ≤ k := by
  constructor
  · rintro ⟨j, hsome, hlong, hnone⟩
    obtain ⟨hname, hafter⟩ := (frame_eq_none hmake (j + 1)).mp (hnone (j + 1) (by omega) (by omega))
    have hbefore : ¬ 3000 ≤ j := by
      intro hj
      rw [(frame_eq_none hmake j).mpr ⟨hname, hj⟩] at hsome
      cases hsome
    exact ⟨hname, by omega⟩
  · rintro ⟨hname, hk⟩
    refine ⟨2999, ?_, by omega, fun i _ hi => (frame_eq_none hmake i).mpr ⟨hname, by omega⟩⟩
    rw [Option.isSome_iff_ne_none, Ne, frame_eq_none hmake]
    omega

/-- Only the scenario `rx_failsafe` raises the flag of the receiver, from its third second on. -/
theorem flagRaised_iff (k : Nat) : FlagRaised sc.frame k ↔ name = "rx_failsafe" ∧ 3000 ≤ k := by
  rw [FlagRaised, frame_of_makeScenario hmake]
  unfold flagsOf
  split_ifs with hloss hflag hlost
  · obtain ⟨rfl, -⟩ := hloss
    simp
  · simp [hflag, FLAG_FAILSAFE]
  · obtain ⟨rfl, -⟩ := hlost
    simp [FLAG_FRAME_LOST]
  · simp [hflag]

/-- The faults of a scenario are its own, the lost link 99 ms into the silence or the flag at once, and those
of the sensors. -/
theorem faultBefore_iff {s : Setup σ F K} (hframe : s.run.frame = sc.frame) (rows : List (Row F)) (k : Nat) :
    FaultBefore s rows (k + 1) ↔ name = "rc_loss" ∧ 3099 ≤ k ∨ name = "rx_failsafe" ∧ 3000 ≤ k ∨
      SensorFault s rows (k + 1) := by
  unfold FaultBefore Faulty SensorFault
  simp only [hframe, linkLost_iff hmake, flagRaised_iff hmake]
  constructor
  · rintro ⟨j, hj, hrequest, ⟨hname, hlate⟩ | ⟨hname, hlate⟩ | hsensor⟩
    · exact .inl ⟨hname, by omega⟩
    · exact .inr (.inl ⟨hname, by omega⟩)
    · exact .inr (.inr ⟨j, hj, hrequest, hsensor⟩)
  · rintro (⟨hname, hlate⟩ | ⟨hname, hlate⟩ | ⟨j, hj, hrequest, hsensor⟩)
    · exact ⟨k, by omega, fun _ => by omega, .inl ⟨hname, hlate⟩⟩
    · exact ⟨k, by omega, fun _ => by omega, .inr (.inl ⟨hname, hlate⟩)⟩
    · exact ⟨j, hj, hrequest, .inr (.inr hsensor)⟩

omit [Field K] [LinearOrder K] [FloatEnv K] in
/-- Every frame of a scenario is accepted by the parser, since its channels are not all equal. -/
theorem intact_of_scenario {s : Setup σ F K} (hframe : s.run.frame = sc.frame) : Intact s := by
  intro k f hf
  rw [hframe] at hf
  exact acceptable_of_makeScenario hmake hf

/-- The channels that a tick logs are those that the scenario commands, or the neutral ones while `rc_loss` is
silent. -/
theorem commands_of_scenario {a : RunArgs} (hframe : a.frame = sc.frame) (k : Nat) :
    a.commands k = if name = "rc_loss" ∧ 3000 ≤ k then List.replicate 16 992 else (sc.cmd k).channels := by
  have hraw : a.raw k = if name = "rc_loss" ∧ 3000 ≤ k then []
      else sbusEncode (sc.cmd k).channels (flagsOf name k) := by
    rw [RunArgs.raw, hframe, frame_of_makeScenario hmake]
    split_ifs <;> rfl
  unfold RunArgs.commands
  rw [hraw]
  split_ifs with hlost
  · rfl
  · have hne : (sbusEncode (sc.cmd k).channels (flagsOf name k)).isEmpty = false := rfl
    rw [channels, hne, sbusDecode_eq (length_sbusEncode _ _) rfl, (sc.cmd k).decoded]
    rfl

end Scenario

/-- The sticks that a row logs are read from the channels of its tick. -/
theorem sticks_of_stops {s : Setup σ F K} {y : ClosedLoop σ F K} (h : Stops s y) {k : Nat} {row : Row F}
    (hrow : y.rows[k]? = some row) :
    row.rollCmd = sbusToStick ((s.run.commands k).getD 0 0) ∧
      row.pitchCmd = sbusToStick ((s.run.commands k).getD 1 0) ∧
      row.yawCmd = sbusToStick ((s.run.commands k).getD 3 0) ∧
      row.thrCmd = sbusToThrottle ((s.run.commands k).getD 2 0) := by
  obtain ⟨es, -, -, hlogs⟩ := ticks_of_stops h
  obtain ⟨e, he⟩ : ∃ e, es[k]? = some e :=
    ⟨_, List.getElem?_eq_getElem (hlogs.length ▸ (List.getElem?_eq_some_iff.mp hrow).1)⟩
  obtain ⟨m, -, hlogged⟩ := hlogs.row k e he
  obtain rfl := Option.some.inj (hrow.symm.trans hlogged)
  exact ⟨rfl, rfl, rfl, rfl⟩

/-- A stick within ±1 is read back within half a count of the upper side, the wider of the two steps. -/
theorem stick_near {v : ℚ} (h : -1 ≤ v ∧ v ≤ 1) : |readStick v - v| ≤ 0.5 / 819 := by
  refine (readStick_readsBack.near v h.1 h.2).trans ?_
  unfold stickErr
  split_ifs <;> norm_num

/-- What the log of a scenario says: when the failsafe shows, what was commanded, and which scenarios stay on
the ground without `arm_test`. -/
structure ScenarioLogged (s : Setup σ F K) (name : String) (sc : RcScenario) (rows : List (Row F)) :
    Prop where
  failsafe : ∀ (k : Nat) row, rows[k]? = some row → (row.out.failsafe = .int 1 ↔
    name = "rc_loss" ∧ 3099 ≤ k ∨ name = "rx_failsafe" ∧ 3000 ≤ k ∨ SensorFault s rows (k + 1))
  commanded : ∀ (k : Nat) row, rows[k]? = some row → ¬ (name = "rc_loss" ∧ 3000 ≤ k) →
    |row.rollCmd - (sc.cmd k).roll| ≤ 0.5 / 819 ∧ |row.pitchCmd - (sc.cmd k).pitch| ≤ 0.5 / 819 ∧
      |row.yawCmd - (sc.cmd k).yaw| ≤ 0.5 / 819 ∧ |row.thrCmd - (sc.cmd k).throttle| ≤ 0.5 / 1639
  silent : ∀ (k : Nat) row, rows[k]? = some row → name = "rc_loss" ∧ 3000 ≤ k →
    row.rollCmd = 0 ∧ row.pitchCmd = 0 ∧ row.yawCmd = 0 ∧ row.thrCmd = 820 / 1639
  grounded : s.fw.armTest = false → name ∈ ["hover", "steps", "rx_failsafe", "frame_lost"] →
    ∀ row ∈ rows, row.out.armed = .int 0 ∧ row.out.mot = List.replicate 4 (.float (s.bits 0))

section Logged
variable [IsStrictOrderedRing K] [RoundsToNearest K] {name : String} {sc : RcScenario}
  (hmake : makeScenario name = .ok sc) {s : Setup σ F K} (hframe : s.run.frame = sc.frame)
include hmake hframe

omit [RoundsToNearest K] [IsStrictOrderedRing K] in
/-- In a row of a tick that sent a frame, the sticks and the throttle are within half a count of what the
scenario commands. -/
theorem commanded_of_stops {y : ClosedLoop σ F K} (h : Stops s y) {k : Nat} {row : Row F}
    (hrow : y.rows[k]? = some row) (hsent : ¬ (name = "rc_loss" ∧ 3000 ≤ k)) :
    |row.rollCmd - (sc.cmd k).roll| ≤ 0.5 / 819 ∧ |row.pitchCmd - (sc.cmd k).pitch| ≤ 0.5 / 819 ∧
      |row.yawCmd - (sc.cmd k).yaw| ≤ 0.5 / 819 ∧ |row.thrCmd - (sc.cmd k).throttle| ≤ 0.5 / 1639 := by
  have hrange := inRange_of_makeScenario hmake k
  obtain ⟨hroll, hpitch, hyaw, hthr⟩ := sticks_of_stops h hrow
  rw [commands_of_scenario hmake hframe, if_neg hsent] at hroll hpitch hyaw hthr
  rw [hroll, hpitch, hyaw, hthr]
  exact ⟨stick_near hrange.roll, stick_near hrange.pitch, stick_near hrange.yaw,
    readThrottle_readsBack.near _ hrange.throttle.1 hrange.throttle.2⟩

/-- A scenario that never closes the throttle has no tick that could arm the craft. -/
theorem not_arms {rows : List (Row F)} (hname : name ∈ ["hover", "steps", "rx_failsafe", "frame_lost"])
    (k : Nat) : ¬ Arms s rows k := by
  intro harms
  obtain ⟨f, hf, hclosed⟩ := harms.closed
  have hhalf : throttleToSbus 0.5 = 992 := by decide +kernel
  have hthrottle : f.1.getD 2 0 = throttleToSbus (sc.cmd k).throttle := by
    rw [hframe, frame_of_makeScenario hmake] at hf
    split_ifs at hf
    cases hf
    rfl
  have hcmd : (sc.cmd k).throttle = 0.5 := by
    simp only [List.mem_cons, List.not_mem_nil, or_false] at hname
    rcases hname with rfl | rfl | rfl | rfl <;> cases hmake
    · rfl
    · show (stepsCmd k).throttle = 0.5
      unfold stepsCmd
      dsimp only
      split_ifs <;> rfl
    · rfl
    · rfl
  rw [hthrottle, hcmd, hhalf] at hclosed
  exact SbusParser.not_closed_half hclosed

/-- The log of a closed loop on a scenario shows it as `ScenarioLogged` says, wherever the loop stops. -/
theorem scenarioLogged_of_stops {y : ClosedLoop σ F K} (h : Stops s y) : ScenarioLogged s name sc y.rows where
  failsafe k row hrow := by
    rw [(failsafeLogged_of_stops (intact_of_scenario hmake hframe) h).shown k row hrow,
      faultBefore_iff hmake hframe]
  commanded k row hrow := commanded_of_stops hmake hframe h hrow
  silent k row hrow hlost := by
    obtain ⟨hroll, hpitch, hyaw, hthr⟩ := sticks_of_stops h hrow
    rw [commands_of_scenario hmake hframe, if_pos hlost] at hroll hpitch hyaw hthr
    rw [hroll, hpitch, hyaw, hthr]
    decide +kernel
  grounded hno hname row hmem := by
    have harming := armingLogged_of_stops (intact_of_scenario hmake hframe) h
    obtain ⟨k, hrow⟩ := List.mem_iff_getElem?.mp hmem
    have hdisarmed : row.out.armed = .int 0 := by
      refine (harming.flag row hmem).resolve_right fun harmed => ?_
      obtain ⟨-, -, j, -, harms, -⟩ := (harming.armed hno k row hrow).mp harmed
      exact not_arms hmake hframe hname j harms
    exact ⟨hdisarmed, harming.off row hmem hdisarmed⟩

end Logged

end ClosedLoop

namespace Session

open ClosedLoop

/-- **A session of a scenario logs it**: its failsafe, its commands, its silence, and whether the craft can
have armed. -/
theorem scenario_logged {σ F K : Type} [Field K] [LinearOrder K] [FloatEnv K] [IsStrictOrderedRing K]
    [RoundsToNearest K] {name : String} {sc : RcScenario} (hmake : makeScenario name = .ok sc)
    {s : Setup σ F K} (hframe : s.run.frame = sc.frame) {x : State σ F K} (hreach : Reach (step s) init x)
    {e : PlantRunner.Ended} {st : PlantRunner.RunState σ F} (hended : x.left = .ended e (some st)) :
    ScenarioLogged s name sc st.rows := by
  obtain ⟨y, hstops, hrows⟩ := rows_of_ended hreach hended
  rw [hrows]
  exact scenarioLogged_of_stops hmake hframe hstops

/-- Twelve ticks of the scenario `steps` on the bench, with an IMU whose samples are invalid from the third tick on. -/
def stepsOnBench : Setup Unit UInt32 ℚ where
  craft := bench
  start := ()
  run := ⟨12, 1 / 500, RcScenario.steps.frame⟩
  fw := ⟨.kRateOnly, false, false, 0, 0, 0, 0, 1⟩
  fuel := 1
  bits _ := 0
  nTicks_pos := by decide
  nTicks_lt := by decide

/-- The log of this session shows the failsafe from its seventh row on, whose sample is the fifth in a row that is of
no use; the switch is on in all twelve frames, and no row is armed. -/
theorem scenario_logged_steps :
    ∃ x e st, Reach (step stepsOnBench) init x ∧ x.left = .ended e (some st) ∧
      st.rows.map (fun row => row.out.failsafe) = List.replicate 6 (.int 0) ++ List.replicate 6 (.int 1) ∧
      ScenarioLogged stepsOnBench "steps" RcScenario.steps st.rows := by
  have hrun : ((ClosedLoop.run stepsOnBench).elim (fun _ => false) fun y =>
      decide (y.rows.map (fun row => row.out.failsafe)
        = List.replicate 6 (.int 0) ++ List.replicate 6 (.int 1))) = true := by
    decide +kernel
  cases hy : ClosedLoop.run stepsOnBench with
  | inl stop =>
    rw [hy] at hrun
    cases hrun
  | inr y =>
    rw [hy] at hrun
    obtain ⟨x, e, st, hreach, hended, hrows⟩ := exists_ended hy
    exact ⟨x, e, st, hreach, hended, hrows ▸ of_decide_eq_true hrun, scenario_logged rfl rfl hreach hended⟩

end Session

end DroneMini
