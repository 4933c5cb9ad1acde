import DroneMini.Flight.RcParse
import DroneMini.Lib.Framing

/-!
# The parser refines the greedy scan

`SbusParser.feed` works on a 64-byte array with compaction; the greedy scan (`Framing.scan`) works on
a list. `feed_spec` connects them: a call with 1 to 64 bytes touches no byte outside the array, and what it
accepts and keeps is what the scan of the pending bytes and the new ones accepts and keeps. Bytes
that do not fit behind the pending ones make the parser drop the latter (`room`); a call with no byte
or more than 64 resets it (`feed_of_rejected`).
-/

namespace DroneMini

namespace SbusParser

/-- The windows of bytes that `decodeFrame` accepts: the header byte comes first, the upper nibble of the
flags byte is zero, and the channels are not all equal. -/
def acceptable (f : List UInt8) : Bool :=
  f.getD 0 0 == kSbusHeader && f.getD 23 0 &&& 0xF0 == 0 && !stuck f

/-- SBUS as a framing: windows of 25 bytes that `decodeFrame` accepts. -/
def framing : Framing UInt8 := ⟨kSbusLen, by decide, acceptable⟩

@[simp] theorem framing_len : framing.len = kSbusLen := rfl
@[simp] theorem framing_accept (f : List UInt8) : framing.accept f = acceptable f := rfl

/-- The bytes of `buf_` that count, the first `n_` of the array; what lies behind them is left over from
earlier calls. -/
def pending (p : SbusParser) : List UInt8 := p.buf.toList.take p.n

/-- The parser a call to `feed` pushes its bytes to: bytes that do not fit reset it. -/
def room (p : SbusParser) (data : List UInt8) : SbusParser :=
  if kBuf < p.n + data.length then reset else p

/-- The bytes a call to `feed` scans: those still pending once the bytes of the call have found room, followed
by these. -/
def work (p : SbusParser) (data : List UInt8) : List UInt8 := (p.room data).pending ++ data

@[simp] theorem reset_n : reset.n = 0 := rfl

/-- The bytes of a call fit behind what is pending. -/
theorem room_fits (p : SbusParser) {data : List UInt8} (h : data.length ≤ kBuf) :
    (p.room data).n + data.length ≤ kBuf := by
  unfold room
  split
  · rw [reset_n]
    omega
  · omega

/-- A call whose bytes fit scans them behind the pending ones. -/
theorem work_of_fits {p : SbusParser} {data : List UInt8} (h : p.n + data.length ≤ kBuf) :
    p.work data = p.pending ++ data := by
  rw [work, room, if_neg (by omega)]

/-- The parser holds as many pending bytes as `n_` counts, as long as `n_` is within the array. -/
theorem length_pending {p : SbusParser} (h : p.n ≤ kBuf) : p.pending.length = p.n := by
  rw [pending, List.length_take, Vector.length_toList]
  omega

/-! ## Decoding a frame -/

section Decode
variable {K : Type} [Field K] [LinearOrder K] [FloatEnv K]

/-- `decodeFrame` returns true exactly for the windows that are `acceptable`, whatever the sample it
overwrites. -/
theorem decodeFrame_isSome (f : List UInt8) (out : RcSample K) :
    (decodeFrame f out).isSome = acceptable f := by
  unfold decodeFrame acceptable
  by_cases h0 : f.getD 0 0 = kSbusHeader
  · rw [if_neg (not_not_intro h0), h0, beq_self_eq_true, Bool.true_and]
    by_cases h1 : f.getD 23 0 &&& 0xF0 = 0
    · rw [if_neg (not_not_intro h1), h1, beq_self_eq_true, Bool.true_and]
      cases stuck f <;> rfl
    · rw [if_pos h1, beq_false_of_ne h1]
      rfl
  · rw [if_pos h0, beq_false_of_ne h0]
    rfl

/-- Decoding reads nothing of the old sample but its time stamp. -/
theorem decodeFrame_congr (f : List UInt8) {out out' : RcSample K} (h : out.tUs = out'.tUs) :
    decodeFrame f out = decodeFrame f out' := by
  unfold decodeFrame
  rw [h]

/-- Decoding leaves the time stamp of the sample as it was: `decodeFrame` writes every other field, and the
caller sets this one. -/
theorem decodeFrame_tUs {f : List UInt8} {out out' : RcSample K}
    (h : decodeFrame f out = some out') : out'.tUs = out.tUs := by
  unfold decodeFrame at h
  split_ifs at h
  cases h
  rfl

/-- What a decoded sample says of its frame: the arm switch is on above the middle of channel 5, the throttle
is channel 3, and the failsafe flag is bit 3 of the flags byte. -/
theorem decodeFrame_fields {f : List UInt8} {out out' : RcSample K}
    (h : decodeFrame f out = some out') :
    out'.armedSwitch = decide (kSbusMid < channel f kArmChannel) ∧
      out'.throttle = normThrottle (channel f 2) ∧
      out'.rxFailsafe = decide (f.getD 23 0 &&& 0x08 ≠ 0) := by
  unfold decodeFrame at h
  split_ifs at h
  cases h
  exact ⟨rfl, rfl, rfl⟩

/-! ## The array operations -/

/-- Reading a range of indices of a list that has them. -/
theorem mapM_range_getElem? {α : Type} (l : List α) (i : Nat) {n : Nat} (h : i + n ≤ l.length) :
    (List.range n).mapM (fun k => l[i + k]?) = some ((l.drop i).take n) := by
  induction n with
  | zero => simp
  | succ n ih =>
      have hlt : i + n < l.length := by omega
      rw [List.range_succ, List.mapM_append, ih (by omega)]
      simp [List.take_add_one, List.getElem?_drop, List.getElem?_eq_getElem hlt]

/-- At an index whose 25 bytes lie within the array, the window that the parser looks at is that stretch of
the buffer. -/
theorem window_eq (buf : Vector UInt8 kBuf) {i : Nat} (h : i + kSbusLen ≤ kBuf) :
    window buf i = some ((buf.toList.drop i).take kSbusLen) := by
  rw [← mapM_range_getElem? buf.toList i (by rw [Vector.length_toList]; exact h)]
  simp only [window, Vector.getElem?_toList]

/-- `buf_[n_++] = b` appends the byte to the pending ones, as long as there is room for it in the array. -/
theorem push_spec {p : SbusParser} (b : UInt8) (h : p.n < kBuf) :
    ∃ p', push p b = some p' ∧ p'.pending = p.pending ++ [b] ∧ p'.n = p.n + 1 ∧
      p'.frames = p.frames := by
  refine ⟨{ p with buf := p.buf.set p.n b h, n := p.n + 1 }, dif_pos h, ?_, rfl, rfl⟩
  simp only [pending, Vector.toList_set]
  rw [List.take_add_one, List.take_set_of_le (Nat.le_refl _)]
  simp [Vector.length_toList, h]

/-- Pushing bytes that fit appends them to the pending ones. -/
theorem foldlM_push_spec {p : SbusParser} {data : List UInt8} (h : p.n + data.length ≤ kBuf) :
    ∃ p', data.foldlM push p = some p' ∧ p'.pending = p.pending ++ data ∧
      p'.n = p.n + data.length ∧ p'.frames = p.frames := by
  induction data generalizing p with
  | nil => exact ⟨p, rfl, by simp, rfl, rfl⟩
  | cons b data ih =>
      rw [List.length_cons] at h
      obtain ⟨p₁, hp, hpend, hn, hf⟩ := push_spec b (p := p) (by omega)
      obtain ⟨p₂, hp', hpend', hn', hf'⟩ := ih (p := p₁) (by omega)
      refine ⟨p₂, ?_, ?_, ?_, hf'.trans hf⟩
      · rw [List.foldlM_cons, hp]
        exact hp'
      · rw [hpend', hpend, List.append_assoc, List.singleton_append]
      · rw [hn', hn, List.length_cons]
        omega

/-- The `memmove` at the end of `feed` stays within the array and brings the bytes behind the consumed ones to
its front. -/
theorem memmove_spec (buf : Vector UInt8 kBuf) {i m : Nat} (h : i + m ≤ kBuf) :
    ∃ buf', memmove buf i m = some buf' ∧ buf'.toList.take m = (buf.toList.drop i).take m := by
  refine ⟨_, if_pos h, ?_⟩
  apply List.ext_getElem?
  intro k
  rw [List.getElem?_take, List.getElem?_take]
  by_cases hk : k < m
  · have hlt : k < kBuf := by omega
    have hik : i + k < kBuf := by omega
    rw [if_pos hk, if_pos hk, List.getElem?_drop, Vector.getElem?_toList, Vector.getElem?_toList,
      Vector.getElem?_eq_getElem hlt, Vector.getElem?_eq_getElem hik, Vector.getElem_ofFn]
    simp [hk, Vector.getD, hik]
  · rw [if_neg hk, if_neg hk]

/-! ## The loop -/

/-- What holds at the head of the loop of `feed` over the bytes `xs`: the scan of `xs` is what was
accepted so far and the scan from the index on. -/
structure LoopInv (xs : List UInt8) (frames : Nat) (out : RcSample K) (s : Loop K) : Prop where
  le : s.i ≤ xs.length
  scan : framing.scan 0 xs =
    (s.accepted ++ (framing.scan s.i (xs.drop s.i)).1, (framing.scan s.i (xs.drop s.i)).2)
  decoded : s.decoded = !s.accepted.isEmpty
  frames : s.frames = frames + s.accepted.length
  tUs : s.out.tUs = out.tUs
  out_nil : s.accepted = [] → s.out = out
  out_last : ∀ w ∈ s.accepted.getLast?, decodeFrame w.2 out = some s.out

/-- The loop keeps its invariant over a window that is not accepted: the parser moves on by one byte. -/
theorem LoopInv.skip {xs : List UInt8} {frames : Nat} {out : RcSample K} {s : Loop K}
    (inv : LoopInv xs frames out s) (hlen : s.i + kSbusLen ≤ xs.length)
    (hdec : acceptable ((xs.drop s.i).take kSbusLen) = false) :
    LoopInv xs frames out { s with i := s.i + 1 } := by
  have hL : kSbusLen = 25 := rfl
  have hdrop : framing.len ≤ (xs.drop s.i).length := by
    rw [List.length_drop, framing_len]
    omega
  refine { inv with le := by show s.i + 1 ≤ _; omega, scan := ?_ }
  have hs := inv.scan
  rw [Framing.scan_of_reject s.i hdrop hdec, List.drop_drop] at hs
  exact hs

/-- The loop keeps its invariant over a window that is decoded: the parser counts the frame and moves on by
the whole 25 bytes. -/
theorem LoopInv.accept {xs : List UInt8} {frames : Nat} {out o : RcSample K} {s : Loop K}
    (inv : LoopInv xs frames out s) (hlen : s.i + kSbusLen ≤ xs.length)
    (hdec : decodeFrame ((xs.drop s.i).take kSbusLen) s.out = some o) :
    LoopInv xs frames out ⟨s.i + kSbusLen, s.frames + 1, true, o,
      s.accepted ++ [(s.i, (xs.drop s.i).take kSbusLen)]⟩ := by
  have hdrop : framing.len ≤ (xs.drop s.i).length := by
    rw [List.length_drop, framing_len]
    omega
  have hacc : acceptable ((xs.drop s.i).take kSbusLen) = true := by
    rw [← decodeFrame_isSome _ s.out, hdec]
    rfl
  have hs := inv.scan
  rw [Framing.scan_of_accept s.i hdrop hacc, framing_len, List.drop_drop] at hs
  refine ⟨hlen, ?_, by simp, ?_, ?_, by simp, ?_⟩
  · rw [hs, List.append_assoc, List.singleton_append]
  · rw [inv.frames, List.length_append, List.length_singleton, Nat.add_assoc]
  · rw [decodeFrame_tUs hdec, inv.tUs]
  · intro w hw
    rw [List.getLast?_concat, Option.mem_some_iff] at hw
    subst hw
    rw [← decodeFrame_congr _ inv.tUs]
    exact hdec

/-- A turn of the loop on a buffer that holds the bytes succeeds, keeps the invariant and moves the
index. -/
theorem loopBody_spec {buf : Vector UInt8 kBuf} {n frames : Nat} {out : RcSample K} {s : Loop K}
    (hn : n ≤ kBuf) (inv : LoopInv (buf.toList.take n) frames out s) (hc : kSbusLen ≤ n - s.i) :
    ∃ s', loopBody buf s = some s' ∧ LoopInv (buf.toList.take n) frames out s' ∧
      n - s'.i < n - s.i := by
  have hL : kSbusLen = 25 := rfl
  have hlen : s.i + kSbusLen ≤ (buf.toList.take n).length := by
    rw [List.length_take, Vector.length_toList]
    omega
  have hwin : ((buf.toList.take n).drop s.i).take kSbusLen
      = (buf.toList.drop s.i).take kSbusLen := by
    rw [List.drop_take, List.take_take, Nat.min_eq_left hc]
  have hidx : s.i < kBuf := by omega
  have hhead : ((buf.toList.drop s.i).take kSbusLen).getD 0 0 = buf[s.i] := by
    rw [List.getD_eq_getElem?_getD, List.getElem?_take_of_lt (by decide), List.getElem?_drop,
      Vector.getElem?_toList, Nat.add_zero, Vector.getElem?_eq_getElem hidx, Option.getD_some]
  have hskip := inv.skip hlen
  have haccept := fun o => inv.accept (o := o) hlen
  rw [hwin] at hskip haccept
  unfold loopBody
  rw [Vector.getElem?_eq_getElem hidx, window_eq buf (by omega)]
  by_cases hh : buf[s.i] = kSbusHeader
  · cases hd : decodeFrame ((buf.toList.drop s.i).take kSbusLen) s.out with
    | none =>
        refine ⟨{ s with i := s.i + 1 }, by simp [hh, hd], hskip ?_, by show n - (s.i + 1) < _; omega⟩
        rw [← decodeFrame_isSome _ s.out, hd]
        rfl
    | some o =>
        exact ⟨_, by simp [hh, hd], haccept o hd, by show n - (s.i + kSbusLen) < _; omega⟩
  · refine ⟨{ s with i := s.i + 1 }, by simp [hh], hskip ?_, by show n - (s.i + 1) < _; omega⟩
    simp only [acceptable, hhead]
    simp [hh]

/-- The loop over the pending bytes returns; what it accepts is what their scan accepts, and the bytes
from its index on are what the scan keeps. -/
theorem loop_spec {q : SbusParser} (hn : q.n ≤ kBuf) (out : RcSample K) :
    ∃ s, whileLoop (fun s : Loop K => decide (kSbusLen ≤ q.n - s.i)) (loopBody q.buf) (kBuf + 1)
        ⟨0, q.frames, false, out, []⟩ = some s ∧
      LoopInv q.pending q.frames out s ∧
      framing.scan 0 q.pending = (s.accepted, q.pending.drop s.i) := by
  have inv₀ : LoopInv q.pending q.frames out (⟨0, q.frames, false, out, []⟩ : Loop K) :=
    ⟨Nat.zero_le _, by simp, rfl, by simp, rfl, fun _ => rfl, by simp⟩
  obtain ⟨s, hs, inv, hexit⟩ : ∃ s, whileLoop (fun s : Loop K => decide (kSbusLen ≤ q.n - s.i))
      (loopBody q.buf) (kBuf + 1) ⟨0, q.frames, false, out, []⟩ = some s ∧
        LoopInv q.pending q.frames out s ∧ decide (kSbusLen ≤ q.n - s.i) = false :=
    whileLoop_total (fun s => q.n - s.i)
      (fun s inv hc => loopBody_spec hn inv (by simpa using hc)) inv₀
      (by show q.n - 0 ≤ kBuf + 1; omega)
  refine ⟨s, hs, inv, ?_⟩
  have hlt : (q.pending.drop s.i).length < framing.len := by
    rw [List.length_drop, length_pending hn, framing_len]
    simpa using hexit
  have hscan := inv.scan
  rwa [Framing.scan_of_lt hlt, List.append_nil] at hscan

/-- What a call to `feed` that is not rejected leaves behind, over the bytes it scans. -/
structure FeedSpec (xs : List UInt8) (frames : Nat) (out : RcSample K) (r : FeedResult K) :
    Prop where
  accepted : r.accepted = (framing.scan 0 xs).1
  pending : r.parser.pending = (framing.scan 0 xs).2
  n : r.parser.n = (framing.scan 0 xs).2.length
  decoded : r.decoded = !r.accepted.isEmpty
  frames : r.parser.frames = frames + r.accepted.length
  out_nil : r.accepted = [] → r.out = out
  out_last : ∀ w ∈ r.accepted.getLast?, decodeFrame w.2 out = some r.out

/-- A call to `feed` with no byte, or with more than 64, resets the parser and decodes nothing. -/
theorem feed_of_rejected (p : SbusParser) {data : List UInt8} (out : RcSample K)
    (h : data.length = 0 ∨ kBuf < data.length) :
    feed p data out = some ⟨reset, false, out, []⟩ := by
  unfold feed
  rw [if_pos h]
  rfl

/-- **The parser refines the scan.** A call with 1 to 64 bytes stays inside the array; it accepts
and keeps what the scan of its bytes accepts and keeps. -/
theorem feed_spec (p : SbusParser) {data : List UInt8} (out : RcSample K) (h0 : data.length ≠ 0)
    (h1 : data.length ≤ kBuf) :
    ∃ r, feed p data out = some r ∧ FeedSpec (p.work data) (p.room data).frames out r := by
  obtain ⟨q', hpush, hpend, hn', hf'⟩ := foldlM_push_spec (p.room_fits h1)
  have hq'n : q'.n ≤ kBuf := hn' ▸ p.room_fits h1
  have hlen := length_pending hq'n
  obtain ⟨s, hs, inv, hscan⟩ := loop_spec hq'n out
  have hle : s.i ≤ q'.n := by
    rw [← hlen]
    exact inv.le
  have hfeed : feed p data out = (if 0 < s.i then do
      let buf ← memmove q'.buf s.i (q'.n - s.i)
      return ⟨⟨buf, q'.n - s.i, s.frames⟩, s.decoded, s.out, s.accepted⟩
    else return ⟨{ q' with frames := s.frames }, s.decoded, s.out, s.accepted⟩) := by
    unfold feed
    rw [if_neg (by omega)]
    have hroom : (if kBuf < p.n + data.length then reset else p) = p.room data := rfl
    simp only [hroom, hpush, Option.bind_eq_bind, Option.bind_some]
    rw [hs]
    rfl
  rw [work, ← hpend, ← hf', hfeed]
  by_cases hi : 0 < s.i
  · obtain ⟨buf', hm, hbuf'⟩ := memmove_spec q'.buf (i := s.i) (m := q'.n - s.i) (by omega)
    refine ⟨_, by rw [if_pos hi, hm]; rfl, ?_⟩
    refine ⟨by rw [hscan], ?_, ?_, inv.decoded, inv.frames, inv.out_nil, inv.out_last⟩
    · rw [hscan]
      show buf'.toList.take (q'.n - s.i) = _
      rw [hbuf', pending, List.drop_take]
    · rw [hscan]
      show q'.n - s.i = (q'.pending.drop s.i).length
      rw [List.length_drop, hlen]
  · have hi0 : s.i = 0 := by omega
    refine ⟨_, by rw [if_neg hi]; rfl, ?_⟩
    refine ⟨by rw [hscan], ?_, ?_, inv.decoded, inv.frames, inv.out_nil, inv.out_last⟩
    · rw [hscan, hi0, List.drop_zero]
      rfl
    · rw [hscan, hi0, List.drop_zero, hlen]

omit [Field K] [LinearOrder K] [FloatEnv K] in
/-- Behind no pending bytes the scan accepts a frame whole. -/
theorem scan_frame {p : SbusParser} (hp : p.n = 0) {f : List UInt8} (hlen : f.length = kSbusLen)
    (hacc : acceptable f = true) : framing.scan 0 (p.work f) = ([(0, f)], []) := by
  have hwork : p.work f = f := by
    rw [work_of_fits (by rw [hp, hlen]; decide), pending, hp]
    rfl
  have htake : f.take framing.len = f := List.take_of_length_le hlen.le
  have hdrop : f.drop framing.len = [] := List.drop_eq_nil_of_le hlen.le
  have hacc' : framing.accept (f.take framing.len) = true := by rwa [htake]
  rw [hwork, Framing.scan_of_accept 0 hlen.ge hacc', htake, hdrop, Framing.scan_of_lt (by decide)]

/-- A parser without pending bytes that is given one acceptable frame accepts it at offset 0 and has nothing
pending afterwards. -/
theorem feed_frame {p : SbusParser} (hp : p.n = 0) {f : List UInt8} (out : RcSample K)
    (hlen : f.length = kSbusLen) (hacc : acceptable f = true) :
    ∃ r, feed p f out = some r ∧ r.accepted = [(0, f)] ∧ r.decoded = true ∧
      decodeFrame f out = some r.out ∧ r.parser.n = 0 := by
  obtain ⟨r, hr, spec⟩ := feed_spec p out (by rw [hlen]; decide) (by rw [hlen]; decide)
  have hscan := scan_frame hp hlen hacc
  have haccepted : r.accepted = [(0, f)] := by rw [spec.accepted, hscan]
  refine ⟨r, hr, haccepted, ?_, spec.out_last (0, f) ?_, ?_⟩
  · rw [spec.decoded, haccepted]
    rfl
  · rw [haccepted]
    exact Option.mem_some_self _
  · rw [spec.n, hscan]
    rfl

/-- The bytes of a call, behind the pending ones, contain a frame that `decodeFrame` accepts. -/
def CompletesFrame (p : SbusParser) (data : List UInt8) : Prop :=
  data.length ≠ 0 ∧ data.length ≤ kBuf ∧
    ∃ k, k + kSbusLen ≤ (p.work data).length ∧
      acceptable (((p.work data).drop k).take kSbusLen) = true

/-- Whatever it is called with, `feed` returns; it accepts a frame exactly when the call completes
one. -/
theorem feed_total (p : SbusParser) (data : List UInt8) (out : RcSample K) :
    ∃ r, feed p data out = some r ∧ (r.accepted ≠ [] ↔ CompletesFrame p data) ∧
      r.decoded = !r.accepted.isEmpty ∧ (r.accepted = [] → r.out = out) ∧
      (∀ w ∈ r.accepted.getLast?, decodeFrame w.2 out = some r.out) := by
  by_cases hrej : data.length = 0 ∨ kBuf < data.length
  · refine ⟨_, feed_of_rejected p out hrej, ?_, rfl, fun _ => rfl, by simp⟩
    refine iff_of_false (not_not_intro rfl) ?_
    rintro ⟨h0, h1, -⟩
    omega
  · rw [not_or, Nat.not_lt] at hrej
    obtain ⟨r, hr, spec⟩ := feed_spec p out hrej.1 hrej.2
    refine ⟨r, hr, ?_, spec.decoded, spec.out_nil, spec.out_last⟩
    rw [spec.accepted, Ne, Framing.scan_eq_nil_iff]
    constructor
    · intro h
      refine ⟨hrej.1, hrej.2, ?_⟩
      by_contra hno
      refine h fun k hk => ?_
      rw [Bool.eq_false_iff]
      exact fun ha => hno ⟨k, hk, ha⟩
    · rintro ⟨-, -, k, hk, ha⟩ hall
      have hrejk := hall k hk
      rw [framing_len, framing_accept, ha] at hrejk
      cases hrejk

end Decode

end SbusParser

end DroneMini
