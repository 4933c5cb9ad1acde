import DroneMini.Sbus.Scan
import DroneMini.Lib.FltRat
import DroneMini.Lib.Run

/-!
# Parsing does not depend on how the bytes arrive

The parser is driven by calls to `feed`, each with some bytes and a sample to overwrite. For chunks
of 1 to 40 bytes, which always fit behind the at most 24 pending ones, a run of calls is the greedy
scan of the stream the chunks make up (`feed_run_spec`): the scan of a stream is incremental, and the
pending bytes are the rest it leaves. `feed_chunks_eq_scan` is the statement over all partitions.
-/

namespace DroneMini

namespace SbusParser

variable {K : Type}

/-- A call to `feed`, as an event of a run. -/
abbrev Call (K : Type) := Event SbusParser (List UInt8 × RcSample K) (FeedResult K)

/-- The bytes that the calls of a run were given, one after the other: the stream that arrived, without its
partition into chunks. -/
def stream (es : List (Call K)) : List UInt8 := es.flatMap fun e => e.inp.1

/-- The windows the calls of a run accepted, each with its offset in the stream, when `fed` bytes
were given before: the byte at index 0 of the buffer has offset `fed - n`. -/
def acceptedAt (fed : Nat) : List (Call K) → List (Nat × List UInt8)
  | [] => []
  | e :: es => e.out.accepted.map (fun w => (fed - e.pre.n + w.1, w.2)) ++
      acceptedAt (fed + e.inp.1.length) es

/-- A chunk of 1 to 40 bytes: at least one, so that the call does not reset the parser, and few enough to fit
behind the pending ones. -/
def ChunkOk (inp : List UInt8 × RcSample K) : Prop := 1 ≤ inp.1.length ∧ inp.1.length ≤ 40

instance (inp : List UInt8 × RcSample K) : Decidable (ChunkOk inp) :=
  inferInstanceAs (Decidable (_ ∧ _))

/-- The last call of a run adds its bytes at the end of the stream. -/
theorem stream_snoc (es : List (Call K)) (e : Call K) : stream (es ++ [e]) = stream es ++ e.inp.1 := by
  simp [stream]

/-- The last call adds its windows to the accepted ones. -/
theorem acceptedAt_snoc (fed : Nat) (es : List (Call K)) (e : Call K) :
    acceptedAt fed (es ++ [e]) = acceptedAt fed es ++
      e.out.accepted.map fun w => (fed + (stream es).length - e.pre.n + w.1, w.2) := by
  induction es generalizing fed with
  | nil => simp [acceptedAt, stream]
  | cons a es ih =>
      rw [List.cons_append, acceptedAt, acceptedAt, ih]
      simp [stream, Nat.add_assoc]

/-- What a run has done after the calls `es`: the buffer holds the rest of the scan of the stream and
the calls accepted its windows. -/
structure RunSpec (es : List (Call K)) (p : SbusParser) : Prop where
  accepted : acceptedAt 0 es = (framing.scan 0 (stream es)).1
  pending : p.pending = (framing.scan 0 (stream es)).2
  n : p.n = (framing.scan 0 (stream es)).2.length

/-- After a run of calls less than a whole frame is pending, so that the next chunk fits into the buffer. -/
theorem RunSpec.n_lt {es : List (Call K)} {p : SbusParser} (h : RunSpec es p) : p.n < kSbusLen := by
  rw [h.n]
  exact Framing.scan_rest_lt (F := framing) 0 (stream es)

variable [Field K] [LinearOrder K] [FloatEnv K]

/-- One call: the chunk and the sample passed in, the parser and the result left behind. -/
def feedStep (p : SbusParser) (inp : List UInt8 × RcSample K) :
    Option (SbusParser × FeedResult K) :=
  (feed p inp.1 inp.2).map fun r => (r.parser, r)

/-- A chunk fits behind what is pending, so a call succeeds and does what the scan does. -/
theorem feed_chunk_spec {p : SbusParser} {inp : List UInt8 × RcSample K} (hp : p.n < kSbusLen)
    (hc : ChunkOk inp) :
    ∃ r, feedStep p inp = some (r.parser, r) ∧ FeedSpec (p.pending ++ inp.1) p.frames inp.2 r := by
  obtain ⟨h1, h40⟩ := hc
  have hfits : p.n + inp.1.length ≤ kBuf := by
    simp only [kSbusLen] at hp
    simp only [kBuf]
    omega
  obtain ⟨r, hr, hspec⟩ := feed_spec p inp.2 (by omega : inp.1.length ≠ 0)
    (by simp only [kBuf]; omega)
  refine ⟨r, by rw [feedStep, hr, Option.map_some], ?_⟩
  rw [work_of_fits hfits, room, if_neg (by omega)] at hspec
  exact hspec

/-- A call with a chunk extends what the run has done, and its result is that of the scan of the
pending bytes and the chunk. -/
theorem RunSpec.step {es : List (Call K)} {e : Call K} (h : RunSpec es e.pre)
    (hs : feedStep e.pre e.inp = some (e.post, e.out)) (hc : ChunkOk e.inp) :
    RunSpec (es ++ [e]) e.post ∧ FeedSpec (e.pre.pending ++ e.inp.1) e.pre.frames e.inp.2 e.out := by
  obtain ⟨r, hr, spec⟩ := feed_chunk_spec h.n_lt hc
  rw [hs, Option.some.injEq, Prod.mk.injEq] at hr
  obtain ⟨hpost, rfl⟩ := hr
  have happ := Framing.scan_append (F := framing) 0 (stream es) e.inp.1
  have hoff := Framing.scan_offset (F := framing)
    ((stream es).length - (framing.scan 0 (stream es)).2.length) 0 (e.pre.pending ++ e.inp.1)
  rw [Nat.zero_add, ← h.pending] at happ
  rw [Nat.add_zero, ← h.pending] at hoff
  rw [hoff, ← stream_snoc] at happ
  refine ⟨⟨?_, ?_, ?_⟩, spec⟩
  · rw [acceptedAt_snoc, Nat.zero_add, h.accepted, spec.accepted, happ, h.n, h.pending]
  · rw [hpost, spec.pending, happ]
  · rw [hpost, spec.n, happ]

/-- **A run of calls is a scan.** After any calls with chunks of 1 to 40 bytes the windows accepted
and the bytes pending are those of the scan of the stream, and every call did what the scan of its
bytes does. -/
theorem feed_run_spec {es : List (Call K)} {p : SbusParser}
    (hrun : Run (fun q i q' r => feedStep q i = some (q', r)) reset es p)
    (hc : ∀ e ∈ es, ChunkOk e.inp) : RunSpec es p := by
  refine hrun.induct (P := RunSpec) (along_of_forall hc) ?_ ?_
  · refine ⟨?_, ?_, ?_⟩
    all_goals
      rw [stream, List.flatMap_nil, Framing.scan_of_lt (by decide)]
      rfl
  · intro hist e hpre hs he
    exact (hpre.step hs he).1

/-- A call at any point of a run does what the scan of its bytes does. -/
theorem feed_run_call {hist later : List (Call K)} {e : Call K} {p : SbusParser}
    (hrun : Run (fun q i q' r => feedStep q i = some (q', r)) reset (hist ++ e :: later) p)
    (hc : ∀ x ∈ hist ++ e :: later, ChunkOk x.inp) :
    RunSpec (hist ++ [e]) e.post ∧
      FeedSpec (e.pre.pending ++ e.inp.1) e.pre.frames e.inp.2 e.out := by
  obtain ⟨hr, hs, -⟩ := hrun.split
  have hpre := feed_run_spec hr (fun x hx => hc x (by simp [hx]))
  exact hpre.step hs (hc e (by simp))

/-- The calls over any chunks of 1 to 40 bytes succeed. -/
theorem feed_chunks_total (inputs : List (List UInt8 × RcSample K))
    (hc : ∀ i ∈ inputs, ChunkOk i) : ∃ es p, execute feedStep reset inputs = some (es, p) := by
  refine execute_total (I := fun p : SbusParser => p.n < kSbusLen) ?_ (by decide) hc
  intro p i hp hi
  obtain ⟨r, hr, spec⟩ := feed_chunk_spec hp hi
  refine ⟨(r.parser, r), hr, ?_⟩
  show r.parser.n < kSbusLen
  rw [spec.n]
  exact Framing.scan_rest_lt (F := framing) 0 _

/-- **Parsing is independent of chunking.** A stream cut in any way into chunks of 1 to 40 bytes and
fed to a reset parser: no call indexes outside the buffer, together the calls accept the windows of
one greedy scan of the stream, and after every call the result flag, the sample and the pending bytes
are what the scan of the bytes so far says. -/
theorem feed_chunks_eq_scan (inputs : List (List UInt8 × RcSample K))
    (hc : ∀ i ∈ inputs, 1 ≤ i.1.length ∧ i.1.length ≤ 40) :
    ∃ es p, execute feedStep reset inputs = some (es, p) ∧
      acceptedAt 0 es = (framing.scan 0 (inputs.flatMap Prod.fst)).1 ∧
      ∀ hist e later, es = hist ++ e :: later →
        acceptedAt 0 (hist ++ [e]) = (framing.scan 0 (stream (hist ++ [e]))).1 ∧
        (e.out.decoded = true ↔ e.out.accepted ≠ []) ∧
        (e.out.accepted = [] → e.out.out = e.inp.2) ∧
        (∀ w ∈ e.out.accepted.getLast?, decodeFrame w.2 e.inp.2 = some e.out.out) ∧
        e.post.pending = (framing.scan 0 (stream (hist ++ [e]))).2 ∧
        e.post.pending <:+ stream (hist ++ [e]) ∧
        e.post.n = e.post.pending.length ∧ e.post.n ≤ 24 := by
  obtain ⟨es, p, hrun⟩ := feed_chunks_total inputs hc
  have hin := execute_inputs hrun
  have hc' : ∀ e ∈ es, ChunkOk e.inp := fun e he => hc e.inp (hin ▸ List.mem_map_of_mem he)
  have hr := execute_run hrun
  have hstream : inputs.flatMap Prod.fst = stream es := by
    rw [← hin, List.flatMap_map]
    rfl
  refine ⟨es, p, hrun, ?_, ?_⟩
  · rw [hstream]
    exact (feed_run_spec hr hc').accepted
  · rintro hist e later rfl
    obtain ⟨spec, call⟩ := feed_run_call hr hc'
    have hn := spec.n_lt
    refine ⟨spec.accepted, ?_, call.out_nil, call.out_last, spec.pending, ?_, ?_, ?_⟩
    · rw [call.decoded]
      simp
    · rw [spec.pending, Framing.scan_rest_eq_drop]
      exact List.drop_suffix _ _
    · rw [spec.n, spec.pending]
    · simp only [kSbusLen] at hn
      omega

/-- A frame behind a stray byte, cut inside its header: it is accepted at offset 1. -/
theorem feed_chunks_eq_scan_cut :
    ∃ es p, execute feedStep reset
        [([0, 0x0F, 0xE0], (RcSample.zero : RcSample ℚ)),
          (3 :: 0x1F :: 0x2B :: 0xC0 :: 7 :: 0x71 :: List.replicate 17 0, .zero)] = some (es, p) ∧
      acceptedAt 0 es =
        [(1, 0x0F :: 0xE0 :: 3 :: 0x1F :: 0x2B :: 0xC0 :: 7 :: 0x71 :: List.replicate 17 0)] := by
  obtain ⟨es, p, hrun, hacc, -⟩ := feed_chunks_eq_scan
    [([0, 0x0F, 0xE0], (RcSample.zero : RcSample ℚ)),
      (3 :: 0x1F :: 0x2B :: 0xC0 :: 7 :: 0x71 :: List.replicate 17 0, .zero)] (by decide)
  refine ⟨es, p, hrun, hacc.trans ?_⟩
  rw [Framing.scan_of_reject _ (by decide) (by decide),
    Framing.scan_of_accept _ (by decide) (by decide), Framing.scan_of_lt (by decide)]
  rfl

end SbusParser

end DroneMini
