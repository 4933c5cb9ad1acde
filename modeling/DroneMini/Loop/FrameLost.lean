import DroneMini.Loop.RxFlag
import DroneMini.Sbus.Encode

/-!
# The frame-lost flag

The receiver's frame-lost flag is a warning: it reaches the sample of a tick and the lost count of the arm
state machine, and nothing else reads them. Two contexts that differ in that count alone, and in the bytes of
an idle parser (`AlikeContexts`), take ticks that make the same calls when their frames differ in the flag
alone (`AlikeContexts.tick`).
-/

namespace DroneMini

variable {K : Type}

/-- A sample with its frame-lost flag cleared, to compare samples that differ in nothing else. -/
def RcSample.unlost (rc : RcSample K) : RcSample K := { rc with frameLost := false }

/-- The arguments of an update with the frame-lost flag of the sample cleared. -/
def UpdateArgs.unlost (u : UpdateArgs K) : UpdateArgs K := { u with rc := u.rc.unlost }

/-- The arm state machine with its lost count at zero, to compare states that differ in nothing else. -/
def FailsafeFsm.unlost (fs : FailsafeFsm) : FailsafeFsm := { fs with lostCount := 0 }

variable [Field K] [LinearOrder K] [FloatEnv K]

namespace FailsafeFsm

variable (fs : FailsafeFsm) (u : UpdateArgs K)

omit [Field K] [LinearOrder K] [FloatEnv K] in
/-- The timeout that an update observes depends neither on the frame-lost flag nor on the lost count. -/
theorem timeoutNow_unlost : fs.unlost.timeoutNow u.unlost = fs.timeoutNow u := by
  unfold timeoutNow
  rw [liveness_eq fs.unlost, liveness_eq fs]
  rfl

omit [Field K] [LinearOrder K] [FloatEnv K] in
/-- The debounced IMU count after an update depends neither on the frame-lost flag nor on the lost count. -/
theorem imuBadCount_unlost :
    (fs.unlost.imuDebounce u.unlost.imu).imuBadCount = (fs.imuDebounce u.imu).imuBadCount := by
  rw [imuDebounce_eq, imuDebounce_eq]
  rfl

omit [Field K] [LinearOrder K] [FloatEnv K] in
theorem imuInvalidNow_unlost : fs.unlost.imuInvalidNow u.unlost = fs.imuInvalidNow u := by
  rw [imuInvalidNow, imuInvalid, imuBadCount_unlost]
  rfl

/-- Whether an update observes any fault depends neither on the frame-lost flag nor on the lost count. -/
theorem faultObserved_unlost : fs.unlost.FaultObserved u.unlost ↔ fs.FaultObserved u := by
  unfold FaultObserved
  rw [timeoutNow_unlost, imuInvalidNow_unlost]
  rfl

/-- The arm decision of an update depends neither on the frame-lost flag nor on the lost count. -/
theorem armedNext_unlost : fs.unlost.armedNext u.unlost = fs.armedNext u := by
  unfold armedNext
  simp only [faultObserved_unlost]
  rfl

/-- **An update does not depend on the flag**, save for its own count. -/
theorem update_unlost : (fs.unlost.update u.unlost).unlost = (fs.update u).unlost := by
  rw [update_spec, update_spec, armedNext_unlost, imuBadCount_unlost]
  simp only [faultObserved_unlost, faultsNow, timeoutNow_unlost, imuInvalidNow_unlost]
  rfl

/-- Two machines that differ in their lost count alone do so after updates that differ in the flag alone. -/
theorem unlost_update {fs fs' : FailsafeFsm} {u u' : UpdateArgs K} (hfs : fs.unlost = fs'.unlost)
    (hu : u.unlost = u'.unlost) : (fs.update u).unlost = (fs'.update u').unlost := by
  rw [← update_unlost fs u, ← update_unlost fs' u', hfs, hu]

end FailsafeFsm

namespace SbusParser

/-- Two frames with the same channels and the same failsafe flag are decoded to the same sample, but for the
frame-lost flag. -/
theorem decodeFrame_unlost {ch : List Nat} {flags flags' : Nat} (hflag : flags &&& 0x08 = flags' &&& 0x08)
    {out o o' : RcSample K} (h : decodeFrame (sbusEncode ch flags) out = some o)
    (h' : decodeFrame (sbusEncode ch flags') out = some o') : o.unlost = o'.unlost := by
  have hchannel {i : Nat} (hi : i < 16) :
      channel (sbusEncode ch flags) i = channel (sbusEncode ch flags') i := by
    rw [channel_sbusEncode ch flags hi, channel_sbusEncode ch flags' hi]
  have hrx : Flagged (sbusEncode ch flags) ↔ Flagged (sbusEncode ch flags') := by
    rw [flagged_sbusEncode, flagged_sbusEncode, hflag]
  unfold Flagged at hrx
  unfold decodeFrame at h h'
  split_ifs at h h'
  cases h
  cases h'
  simp only [RcSample.unlost, hrx, hchannel (i := 0) (by decide), hchannel (i := 1) (by decide),
    hchannel (i := 2) (by decide), hchannel (i := 3) (by decide), hchannel (i := kArmChannel) (by decide)]

end SbusParser

namespace ControlLoop

open SbusParser

/-- Once a tick has read its sensors, it is the update of the arm state machine, the estimation and the
control on what it learnt. -/
theorem tick_of_sense {fuel : Nat} {c : FlightContext K} {inp : TickInput K} {s : Sensed K}
    (hs : sense c.rc inp.hal = some s) : tick fuel c inp =
      (estimate fuel c.est (c.fs.update (fsArgs c inp s)).armed s.imu (correct c.est s.imu)).bind fun est =>
        (control fuel { c with est := est } s.rc (correct c.est s.imu)).bind fun r =>
          some
            ({ c with
                rc := s.parser
                fs := c.fs.update (fsArgs c inp s)
                est := est
                rate := r.1
                satShift := r.2.2
                tick := c.tick + 1
                led := (c.led.set (ledMode (c.fs.update (fsArgs c inp s)) est.calibrated)).update
                  (inp.hal.ledUs / 1000).toUInt32 },
              ⟨s, r.2.1, [(OutputStage.apply r.2.1 (c.fs.update (fsArgs c inp s)).armed
                (c.fs.update (fsArgs c inp s)).active est.imuValid).2,
                .ledSet (ledMode (c.fs.update (fsArgs c inp s)) est.calibrated)]⟩) := by
  show (sense c.rc inp.hal).bind _ = _
  rw [hs]
  rfl

/-- Two contexts that differ in the lost count alone, and in the bytes of an idle parser. -/
structure AlikeContexts (c c' : FlightContext K) : Prop where
  rest : c' = { c with rc := c'.rc, fs := c'.fs }
  fs : c.fs.unlost = c'.fs.unlost
  idle : c.rc.n = 0
  idle' : c'.rc.n = 0

/-- Two ticks that read the same, but for the frame-lost flag of a frame. -/
structure AlikeReads (h h' : HalReads K) : Prop where
  rest : h' = { h with rcRaw := h'.rcRaw }
  raw : h.raw = [] ∧ h'.raw = [] ∨ ∃ ch flags flags', h.raw = sbusEncode ch flags ∧
    h'.raw = sbusEncode ch flags' ∧ flags &&& 0x08 = flags' &&& 0x08 ∧ acceptable h.raw = true ∧
    acceptable h'.raw = true

/-- What two ticks that read alike learn from their sensors: the same IMU, battery and sample, but for its
frame-lost flag, and both parsers are idle. -/
structure AlikeSensed (s s' : Sensed K) : Prop where
  imu : s.imu = s'.imu
  vbat : s.vbat = s'.vbat
  rc : s.rc.unlost = s'.rc.unlost
  idle : s.parser.n = 0
  idle' : s'.parser.n = 0

/-- Ticks that read alike, to idle parsers, both learn something of their sensors, and that alike. -/
theorem AlikeReads.sense {h h' : HalReads K} (hh : AlikeReads h h') {p p' : SbusParser} (hp : p.n = 0)
    (hp' : p'.n = 0) : ∃ s s', ControlLoop.sense p h = some s ∧ ControlLoop.sense p' h' = some s' ∧
      AlikeSensed s s' := by
  obtain ⟨s, hs, spec⟩ := sense_spec p h
  obtain ⟨s', hs', spec'⟩ := sense_spec p' h'
  refine ⟨s, s', hs, hs', ?_⟩
  have hrest := hh.rest
  have hsame : h'.imuOk = h.imuOk ∧ h'.imu = h.imu ∧ h'.vbatOk = h.vbatOk ∧ h'.vbat = h.vbat ∧
      h'.rcUs = h.rcUs := by
    rw [hrest]
    exact ⟨rfl, rfl, rfl, rfl, rfl⟩
  obtain ⟨himuOk, himu, hvbatOk, hvbat, htime⟩ := hsame
  have himus : s.imu = s'.imu := by rw [spec.imu, spec'.imu, himuOk, himu]
  have hvbats : s.vbat = s'.vbat := by rw [spec.vbat, spec'.vbat, hvbatOk, hvbat]
  rcases hh.raw with ⟨hnil, hnil'⟩ | ⟨ch, flags, flags', hraw, hraw', hflag, hacc, hacc'⟩
  · obtain ⟨hn, haccepted⟩ := sense_idle hs hp (fun hne => absurd hnil hne)
    obtain ⟨hn', haccepted'⟩ := sense_idle hs' hp' (fun hne => absurd hnil' hne)
    rw [if_pos hnil] at haccepted
    rw [if_pos hnil'] at haccepted'
    refine ⟨himus, hvbats, ?_, hn, hn'⟩
    rw [spec.rc_nil haccepted, spec'.rc_nil haccepted', htime]
  · have hlen : h.raw.length = kSbusLen := hraw ▸ length_sbusEncode ch flags
    have hlen' : h'.raw.length = kSbusLen := hraw' ▸ length_sbusEncode ch flags'
    have hne : h.raw ≠ [] := List.ne_nil_of_length_pos (by rw [hlen]; decide)
    have hne' : h'.raw ≠ [] := List.ne_nil_of_length_pos (by rw [hlen']; decide)
    obtain ⟨hn, haccepted⟩ := sense_idle hs hp (fun _ => ⟨hlen, hacc⟩)
    obtain ⟨hn', haccepted'⟩ := sense_idle hs' hp' (fun _ => ⟨hlen', hacc'⟩)
    rw [if_neg hne] at haccepted
    rw [if_neg hne'] at haccepted'
    obtain ⟨o, hdec, hrc⟩ := spec.rc_last (0, h.raw) (by simp [haccepted])
    obtain ⟨o', hdec', hrc'⟩ := spec'.rc_last (0, h'.raw) (by simp [haccepted'])
    have hsample : o.unlost = o'.unlost := by
      rw [hraw] at hdec
      rw [hraw'] at hdec'
      exact decodeFrame_unlost hflag hdec hdec'
    refine ⟨himus, hvbats, ?_, hn, hn'⟩
    rw [hrc, hrc', htime]
    exact congrArg (fun o : RcSample K => { o with frameOk := true, tUs := h.rcUs }) hsample

/-- The results of two ticks that come to the same: contexts that are alike again, and the same calls. -/
def AlikeResults (r r' : FlightContext K × TickOutput K) : Prop :=
  AlikeContexts r.1 r'.1 ∧ r'.2.calls = r.2.calls

/-- The control of a tick does not read the frame-lost flag of the sample, nor the parser and the arm state
machine. -/
theorem control_unlost {fuel : Nat} {c c' : FlightContext K} (hrest : c' = { c with rc := c'.rc, fs := c'.fs })
    (est : ComplementaryEstimator K) {rc rc' : RcSample K} (hrc : rc.unlost = rc'.unlost) (imu : ImuSample K) :
    control fuel { c' with est := est } rc' imu = control fuel { c with est := est } rc imu := by
  have hsample (d : FlightContext K) (rc : RcSample K) :
      control fuel d rc imu = control fuel d rc.unlost imu := rfl
  rw [hsample _ rc, hsample _ rc', hrc, hrest]
  rfl

/-- **Ticks that read alike come to the same**, from contexts that are alike: neither returns, or both make
the same calls. -/
theorem AlikeContexts.tick {fuel : Nat} {armTest : Bool} {c c' : FlightContext K} {h h' : HalReads K}
    (hc : AlikeContexts c c') (hh : AlikeReads h h') :
    Option.Rel AlikeResults (ControlLoop.tick fuel c ⟨h, armTest⟩) (ControlLoop.tick fuel c' ⟨h', armTest⟩) := by
  obtain ⟨s, s', hs, hs', hsensed⟩ := hh.sense hc.idle hc.idle'
  rw [tick_of_sense hs, tick_of_sense hs']
  have hfs : (c.fs.update (fsArgs c ⟨h, armTest⟩ s)).unlost
      = (c'.fs.update (fsArgs c' ⟨h', armTest⟩ s')).unlost := by
    refine FailsafeFsm.unlost_update hc.fs ?_
    rw [hc.rest, hh.rest]
    unfold fsArgs UpdateArgs.unlost
    rw [hsensed.imu, hsensed.vbat, hsensed.rc]
  generalize c.fs.update (fsArgs c ⟨h, armTest⟩ s) = fs at hfs
  generalize c'.fs.update (fsArgs c' ⟨h', armTest⟩ s') = fs' at hfs
  have hread (f : FailsafeFsm → Bool) : f fs'.unlost = f fs.unlost := by rw [hfs]
  have harmed : fs'.armed = fs.armed := hread FailsafeFsm.armed
  have hactive : fs'.active = fs.active := hread FailsafeFsm.active
  have hboot : fs'.bootLatched = fs.bootLatched := hread FailsafeFsm.bootLatched
  have hmode (b : Bool) : ledMode fs' b = ledMode fs b := by
    rw [ledMode, ledMode, harmed, hactive, hboot]
  have hest : c'.est = c.est := by rw [hc.rest]
  rw [harmed, hest, ← hsensed.imu]
  cases estimate fuel c.est fs.armed s.imu (correct c.est s.imu) with
  | none => exact .none
  | some est =>
    rw [Option.bind_some, Option.bind_some, control_unlost hc.rest est hsensed.rc]
    cases control fuel { c with est := est } s.rc (correct c.est s.imu) with
    | none => exact .none
    | some r =>
      refine .some ⟨⟨?_, hfs, hsensed.idle, hsensed.idle'⟩, ?_⟩
      · rw [hc.rest, hh.rest]
        simp only [hmode]
      · simp only [hactive, hmode]

end ControlLoop

end DroneMini
