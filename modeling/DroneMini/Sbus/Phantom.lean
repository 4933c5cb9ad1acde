import DroneMini.Sbus.Chunking
import DroneMini.Sbus.Encode

/-!
# Which frames of an encoded stream the parser accepts

A stream of encoded frames is scanned from its start. A frame that is not stuck is accepted whole, and
the scan goes on at the next one. A stuck frame is rejected, and the parser looks for a header inside
it: the footer is not checked, so a byte `0x0F` among the channel bits can start a window that reaches
into the next frame and is accepted in its place. `scan_frames_iff` says that the scan accepts exactly
the listed frames that are not stuck if and only if no stuck frame has such a window (`Straddle`);
`frames_accepted_iff` carries it over to `feed` on any partition of the stream, and
`frames_accepted_phantom` is a stream where a window at offset 1 is accepted and the frame at offset 25
is lost.
-/

namespace DroneMini

open SbusParser

namespace RcFrame

/-- The bytes of a list of frames, encoded one behind the other without a gap. -/
def stream (frames : List RcFrame) : List UInt8 := frames.flatMap encode

/-- The listed frames that are not stuck: the offset of each in the stream and its values. -/
def genuine (off : Nat) : List RcFrame → List (Nat × List Nat)
  | [] => []
  | f :: fs =>
    if f.Stuck then genuine (off + kSbusLen) fs else (off, f.values) :: genuine (off + kSbusLen) fs

/-- An accepted window: its offset and the values the parser reads of it. -/
def decoded (w : Nat × List UInt8) : Nat × List Nat := (w.1, SbusParser.channels w.2)

/-- The window that starts inside `f` at offset `k` and ends inside `g`. -/
def straddling (f g : RcFrame) (k : Nat) : List UInt8 := ((f.encode ++ g.encode).drop k).take kSbusLen

/-- A window that starts inside `f` and ends inside `g` passes the tests of `decodeFrame`. -/
def Straddle (f g : RcFrame) : Prop :=
  ∃ k, 0 < k ∧ k < kSbusLen ∧ acceptable (straddling f g k) = true

/-- No stuck frame has an acceptable window that reaches into the frame after it. -/
def NoStraddle (frames : List RcFrame) : Prop :=
  ∀ f g, [f, g] <:+: frames → f.Stuck → ¬ Straddle f g

@[simp] theorem stream_nil : stream [] = [] := rfl
@[simp] theorem stream_cons (f : RcFrame) (fs : List RcFrame) :
    stream (f :: fs) = f.encode ++ stream fs := rfl

/-- The genuine frames lie at or behind the first offset. -/
theorem le_of_mem_genuine {off : Nat} {frames : List RcFrame} {x : Nat × List Nat}
    (h : x ∈ genuine off frames) : off ≤ x.1 := by
  induction frames generalizing off with
  | nil => simp [genuine] at h
  | cons f fs ih =>
      unfold genuine at h
      split_ifs at h with hs
      · have := ih h
        omega
      · rcases List.mem_cons.mp h with rfl | h
        · exact Nat.le_refl _
        · have := ih h
          omega

/-- Of two frames only the first decides, when they lead a list. -/
theorem noStraddle_cons_cons {f g : RcFrame} {fs : List RcFrame} :
    NoStraddle (f :: g :: fs) ↔ (f.Stuck → ¬ Straddle f g) ∧ NoStraddle (g :: fs) := by
  constructor
  · intro h
    exact ⟨h f g ⟨[], fs, rfl⟩, fun f' g' hin => h f' g' (hin.trans (List.suffix_cons _ _).isInfix)⟩
  · rintro ⟨hfg, hrest⟩ f' g' hin
    rcases List.infix_cons_iff.mp hin with hpre | hin
    · obtain ⟨hf, hg⟩ := List.cons_prefix_cons.mp hpre
      obtain ⟨hg, -⟩ := List.cons_prefix_cons.mp hg
      rw [hf, hg]
      exact hfg
    · exact hrest f' g' hin

/-- In a list of at most one frame no frame has a frame after it. -/
theorem noStraddle_of_length_le {frames : List RcFrame} (h : frames.length ≤ 1) :
    NoStraddle frames := by
  intro f g hin
  have hlen := hin.length_le
  simp only [List.length_cons, List.length_nil] at hlen
  omega

/-- A window that starts inside the first of two frames does not see what is behind them. -/
theorem take_drop_stream {f g : RcFrame} (fs : List RcFrame) {k : Nat} (hk : k ≤ kSbusLen) :
    ((stream (f :: g :: fs)).drop k).take kSbusLen = straddling f g k := by
  rw [stream_cons, stream_cons, ← List.append_assoc, List.drop_append_of_le_length,
    List.take_append_of_le_length]
  · rfl
  · simp only [List.length_drop, List.length_append, length_encode]
    simp only [kSbusLen] at hk ⊢
    omega
  · simp only [List.length_append, length_encode]
    simp only [kSbusLen] at hk
    omega

/-- The window at the start of a frame is the frame. -/
theorem straddling_zero (f g : RcFrame) : straddling f g 0 = f.encode := by
  rw [straddling, List.drop_zero, List.take_append_of_le_length (by rw [length_encode]; exact Nat.le_refl _)]
  exact List.take_of_length_le (by rw [length_encode]; exact Nat.le_refl _)

/-! ## The scan of a stream of frames -/

/-- A frame that is not stuck is accepted and the scan goes on behind it. -/
theorem scan_not_stuck (off : Nat) {f : RcFrame} (fs : List RcFrame) (h : ¬ f.Stuck) :
    framing.scan off (stream (f :: fs)) =
      ((off, f.encode) :: (framing.scan (off + kSbusLen) (stream fs)).1,
        (framing.scan (off + kSbusLen) (stream fs)).2) := by
  have hlen : f.encode.length = framing.len := length_encode f
  have htake : (f.encode ++ stream fs).take framing.len = f.encode := by
    rw [← hlen, List.take_left]
  have hdrop : (f.encode ++ stream fs).drop framing.len = stream fs := by
    rw [← hlen, List.drop_left]
  rw [stream_cons, Framing.scan_of_accept off (by rw [List.length_append]; omega), htake, hdrop]
  · rfl
  · rw [htake, framing_accept, acceptable_encode]
    simp [h]

/-- A stuck frame without an acceptable window behind its start is skipped. -/
theorem scan_stuck_skip (off : Nat) {f g : RcFrame} (fs : List RcFrame) (h : f.Stuck)
    (hno : ¬ Straddle f g) :
    framing.scan off (stream (f :: g :: fs)) = framing.scan (off + kSbusLen) (stream (g :: fs)) := by
  have hdrop : (stream (f :: g :: fs)).drop kSbusLen = stream (g :: fs) := by
    rw [stream_cons, show kSbusLen = f.encode.length from (length_encode f).symm, List.drop_left]
  rw [Framing.scan_skip off (k := kSbusLen), hdrop]
  · simp only [stream_cons, List.length_append, length_encode, framing_len, kSbusLen]
    omega
  · intro j hj
    rw [framing_len, take_drop_stream fs (Nat.le_of_lt hj), framing_accept]
    rcases Nat.eq_zero_or_pos j with rfl | hpos
    · rw [straddling_zero, acceptable_encode]
      simp [h]
    · rw [Bool.eq_false_iff]
      exact fun ha => hno ⟨j, hpos, hj, ha⟩

/-- A stuck frame with an acceptable window behind its start gives a window the list does not have. -/
theorem scan_stuck_phantom (off : Nat) {f g : RcFrame} (fs : List RcFrame) (h : f.Stuck)
    (hs : Straddle f g) :
    ∃ k, 0 < k ∧ k < kSbusLen ∧
      (off + k, straddling f g k) ∈ (framing.scan off (stream (f :: g :: fs))).1 := by
  classical
  obtain ⟨hpos, hlt, hacc⟩ := Nat.find_spec hs
  refine ⟨Nat.find hs, hpos, hlt, ?_⟩
  -- nothing before the first such window is accepted
  rw [Framing.scan_skip off (k := Nat.find hs), Framing.scan_of_accept, framing_len,
    take_drop_stream fs (Nat.le_of_lt hlt)]
  · exact List.mem_cons_self
  · simp only [stream_cons, List.length_drop, List.length_append, length_encode, framing_len]
    simp only [kSbusLen] at hlt ⊢
    omega
  · rw [framing_len, take_drop_stream fs (Nat.le_of_lt hlt)]
    exact hacc
  · simp only [stream_cons, List.length_append, length_encode, framing_len]
    simp only [kSbusLen] at hlt ⊢
    omega
  · intro j hj
    rw [framing_len, take_drop_stream fs (by omega), framing_accept]
    rcases Nat.eq_zero_or_pos j with rfl | hjpos
    · rw [straddling_zero, acceptable_encode]
      simp [h]
    · rw [Bool.eq_false_iff]
      exact fun ha => Nat.find_min hs hj ⟨hjpos, by omega, ha⟩

/-- A stuck frame at the end of the stream is kept for later. -/
theorem scan_stuck_last (off : Nat) {f : RcFrame} (h : f.Stuck) :
    (framing.scan off (stream [f])).1 = [] := by
  have htake : (stream [f]).take framing.len = f.encode := by
    rw [stream_cons, stream_nil, List.append_nil]
    exact List.take_of_length_le (by rw [length_encode]; exact Nat.le_refl _)
  rw [Framing.scan_of_reject off, Framing.scan_of_lt]
  · simp [kSbusLen]
  · simp [kSbusLen]
  · rw [htake, framing_accept, acceptable_encode]
    simp [h]

/-- **The scan accepts the frames that are not stuck, and nothing else, exactly when no stuck frame
has an acceptable window that reaches into the next frame.** -/
theorem scan_frames_iff (off : Nat) (frames : List RcFrame) :
    (framing.scan off (stream frames)).1.map decoded = genuine off frames ↔ NoStraddle frames := by
  induction frames generalizing off with
  | nil =>
      rw [stream_nil, Framing.scan_of_lt (by decide)]
      exact iff_of_true rfl (noStraddle_of_length_le (by decide))
  | cons f fs ih =>
      by_cases hstuck : f.Stuck
      · cases fs with
        | nil =>
            rw [scan_stuck_last off hstuck]
            refine iff_of_true ?_ (noStraddle_of_length_le (by simp))
            simp [genuine, hstuck]
        | cons g gs =>
            rw [noStraddle_cons_cons]
            have hgen : genuine off (f :: g :: gs) = genuine (off + kSbusLen) (g :: gs) := by
              rw [genuine, if_pos hstuck]
            by_cases hs : Straddle f g
            · -- the accepted window lies before the next listed frame
              refine iff_of_false ?_ (fun h => h.1 hstuck hs)
              intro heq
              obtain ⟨k, -, hk, hmem⟩ := scan_stuck_phantom off gs hstuck hs
              have hle := le_of_mem_genuine (hgen ▸ heq ▸ List.mem_map_of_mem (f := decoded) hmem)
              simp only [decoded] at hle
              omega
            · rw [scan_stuck_skip off gs hstuck hs, hgen, ih]
              exact ⟨fun h => ⟨fun _ => hs, h⟩, fun h => h.2⟩
      · rw [scan_not_stuck off fs hstuck]
        have hgen : genuine off (f :: fs) = (off, f.values) :: genuine (off + kSbusLen) fs := by
          rw [genuine, if_neg hstuck]
        have hdec : decoded (off, f.encode) = (off, f.values) := by
          rw [decoded, channels_encode]
        rw [hgen, List.map_cons, hdec, List.cons_inj_right, ih]
        cases fs with
        | nil =>
            exact iff_of_true (noStraddle_of_length_le (by simp))
              (noStraddle_of_length_le (by simp))
        | cons g gs =>
            rw [noStraddle_cons_cons]
            exact ⟨fun h => ⟨fun hf => absurd hf hstuck, h⟩, fun h => h.2⟩

/-! ## The parser on any partition of the stream -/

section Partition
variable {K : Type} [Field K] [LinearOrder K] [FloatEnv K]

/-- Calls with the bytes of the frames, in chunks of 1 to 40, accept what the scan of the stream
accepts. -/
theorem acceptedAt_eq_scan {frames : List RcFrame} {inputs : List (List UInt8 × RcSample K)}
    (hc : ∀ i ∈ inputs, ChunkOk i) (hcat : inputs.flatMap Prod.fst = stream frames)
    {es : List (Call K)} {p : SbusParser} (hrun : execute feedStep reset inputs = some (es, p)) :
    acceptedAt 0 es = (framing.scan 0 (stream frames)).1 := by
  have hin := execute_inputs hrun
  have hspec := feed_run_spec (execute_run hrun)
    (fun e he => hc e.inp (hin ▸ List.mem_map_of_mem he))
  have hstream : SbusParser.stream es = stream frames := by
    rw [← hcat, ← hin, List.flatMap_map]
    rfl
  rw [hspec.accepted, hstream]

/-- **When the parser neither invents nor loses a frame.** A stream of encoded frames, cut in any way
into chunks of 1 to 40 bytes and fed to a reset parser: the accepted windows are the listed frames
that are not stuck, at their places and with their values, if and only if no stuck frame has an
acceptable window that reaches into the frame after it. -/
theorem frames_accepted_iff (frames : List RcFrame) (inputs : List (List UInt8 × RcSample K))
    (hc : ∀ i ∈ inputs, 1 ≤ i.1.length ∧ i.1.length ≤ 40)
    (hcat : inputs.flatMap Prod.fst = frames.flatMap encode) :
    ∃ es p, execute feedStep reset inputs = some (es, p) ∧
      ((acceptedAt 0 es).map decoded = genuine 0 frames ↔
        ∀ f g, [f, g] <:+: frames → f.Stuck →
          ∀ k, 0 < k → k < 25 → acceptable (((f.encode ++ g.encode).drop k).take 25) = false) := by
  obtain ⟨es, p, hrun⟩ := feed_chunks_total inputs hc
  refine ⟨es, p, hrun, ?_⟩
  rw [acceptedAt_eq_scan hc hcat hrun, scan_frames_iff]
  unfold NoStraddle Straddle
  simp only [not_exists, not_and, Bool.not_eq_true]
  rfl

end Partition

/-- A frame whose channels carry the values 0 to 15, so that no two of them agree and the parser accepts
it. -/
def counting : RcFrame := ⟨fun i => ⟨i, by omega⟩, 0⟩

/-- Two frames with the values 0 to 15, each in a chunk of its own, are both accepted. -/
theorem frames_accepted_iff_counting :
    ∃ es p, execute feedStep reset
        [(counting.encode, (RcSample.zero : RcSample ℚ)), (counting.encode, .zero)] = some (es, p) ∧
      (acceptedAt 0 es).map decoded = [(0, List.range 16), (25, List.range 16)] := by
  obtain ⟨es, p, hrun, hiff⟩ := frames_accepted_iff [counting, counting]
    [(counting.encode, (RcSample.zero : RcSample ℚ)), (counting.encode, .zero)] (by decide)
    (by decide)
  refine ⟨es, p, hrun, hiff.mpr ?_⟩
  intro f g hin hf
  have hmem : f ∈ [counting, counting] := hin.subset List.mem_cons_self
  have hcount : f = counting := by simpa using hmem
  exact absurd (hcount ▸ hf) (by decide)

/-- Sixteen times the value 1039 and then a frame with the values 0 to 15: the window at offset 1 is
accepted and the second frame is lost. -/
theorem frames_accepted_phantom :
    ¬ ∀ (frames : List RcFrame) (inputs : List (List UInt8 × RcSample ℚ)),
      (∀ i ∈ inputs, 1 ≤ i.1.length ∧ i.1.length ≤ 40) →
      inputs.flatMap Prod.fst = frames.flatMap encode →
      ∃ es p, execute feedStep reset inputs = some (es, p) ∧
        (acceptedAt 0 es).map decoded = genuine 0 frames := by
  intro h
  have hcat : [((⟨fun _ => 1039, 0⟩ : RcFrame).encode, (RcSample.zero : RcSample ℚ)),
      (counting.encode, .zero)].flatMap Prod.fst = stream [⟨fun _ => 1039, 0⟩, counting] := by decide
  obtain ⟨es, p, hrun, hacc⟩ := h _ _ (by decide) hcat
  rw [acceptedAt_eq_scan (by decide) hcat hrun, scan_frames_iff] at hacc
  exact hacc _ _ (List.infix_refl _) (by decide) ⟨1, by decide, by decide, by decide⟩

end RcFrame

end DroneMini
