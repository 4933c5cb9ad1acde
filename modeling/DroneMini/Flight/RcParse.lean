import DroneMini.Flight.Ports
import DroneMini.Lib.While

/-!
# The SBUS parser

`SbusParser` of `flight/rc_parse.cpp`. The buffer is the 64-byte array of the source and every access
to it is checked: an index outside `0..63` gives `none`, so `SbusParser.feed p data out = some r`
says that the call touched no byte outside `buf_`. The loop of `feed` carries the list of the windows
it accepted; the source keeps only their count and the last sample, the list is there for statements
about what was decoded.
-/

namespace DroneMini

variable {K : Type}

def kSbusLen : Nat := 25
def kSbusHeader : UInt8 := 0x0F
def kSbusMin : Nat := 172
def kSbusMid : Nat := 992
def kSbusMax : Nat := 1811
def kArmChannel : Nat := 4

/-- The size of `buf_`, in which `feed` collects the bytes of the receiver. -/
def kBuf : Nat := 64

/-- `SbusParser`: the buffer, the number of bytes in it and the number of frames decoded. -/
structure SbusParser where
  buf : Vector UInt8 kBuf
  n : Nat
  frames : Nat

/-- What a call to `feed` leaves behind: the parser, the result, the sample, and the windows it
accepted, each with its index in the buffer. -/
structure FeedResult (K : Type) where
  parser : SbusParser
  decoded : Bool
  out : RcSample K
  accepted : List (Nat × List UInt8)

namespace SbusParser

/-- `SbusParser::reset`: an empty buffer and no frame counted. -/
def reset : SbusParser := ⟨Vector.replicate kBuf 0, 0, 0⟩

/-- `SbusParser::channel`: the `i`-th 11-bit value of a frame, from two or three of its bytes. -/
def channel (f : List UInt8) (i : Nat) : Nat :=
  let bit := 11 * i
  let byte := 1 + bit >>> 3
  let shift := bit &&& 7
  let raw := (f.getD byte 0).toNat ||| (f.getD (byte + 1) 0).toNat <<< 8
  let raw := if shift ≠ 0 then raw ||| (f.getD (byte + 2) 0).toNat <<< 16 else raw
  (raw >>> shift) &&& 0x7FF

/-- The values of all 16 channels of a frame. -/
def channels (f : List UInt8) : List Nat := (List.range 16).map (channel f)

/-- The stuck-frame guard of `decodeFrame`: all channels are equal to the first. -/
def stuck (f : List UInt8) : Bool := (List.range' 1 15).all fun i => channel f i == channel f 0

section Decode
variable [Field K] [LinearOrder K] [FloatEnv K]

/-- `SbusParser::norm`: a channel value as a stick between `lo` and `hi`, with the ends clamped. -/
def norm (v : Nat) (lo hi : Flt K) : Flt K :=
  let span : Flt K :=
    if kSbusMid ≤ v then .ofInt (kSbusMax - kSbusMid) else .ofInt (kSbusMid - kSbusMin)
  let out := (.ofInt v - .ofInt kSbusMid) / span
  let out := if out < lo then lo else out
  if hi < out then hi else out

/-- The throttle that `decodeFrame` makes of a channel value. -/
def normThrottle (v : Nat) : Flt K :=
  let thr : Flt K := (.ofInt v - .ofInt kSbusMin) / (.ofInt kSbusMax - .ofInt kSbusMin)
  let thr := if ¬ 0 < thr then 0 else thr
  if 1 < thr then 1 else thr

/-- `SbusParser::decodeFrame`: the sample a frame carries, or `none` when the frame is rejected. The
field `t_us` is left to the caller. -/
def decodeFrame (f : List UInt8) (out : RcSample K) : Option (RcSample K) :=
  if f.getD 0 0 ≠ kSbusHeader then none
  else if f.getD 23 0 &&& 0xF0 ≠ 0 then none
  else if stuck f then none
  else
    let rxFailsafe := decide (f.getD 23 0 &&& 0x08 ≠ 0)
    some
      { roll := norm (channel f 0) (-1) 1
        pitch := norm (channel f 1) (-1) 1
        throttle := normThrottle (channel f 2)
        yaw := norm (channel f 3) (-1) 1
        armedSwitch := decide (kSbusMid < channel f kArmChannel)
        rxFailsafe := rxFailsafe
        frameLost := decide (f.getD 23 0 &&& 0x04 ≠ 0)
        frameOk := !rxFailsafe
        tUs := out.tUs }

/-- `buf_[n_++] = b`; there is no result when the index is outside the buffer. -/
def push (p : SbusParser) (b : UInt8) : Option SbusParser :=
  if h : p.n < kBuf then some { p with buf := p.buf.set p.n b h, n := p.n + 1 } else none

/-- The 25 bytes at `buf_ + i`; there are none when they reach over the end of the buffer. -/
def window (buf : Vector UInt8 kBuf) (i : Nat) : Option (List UInt8) :=
  (List.range kSbusLen).mapM fun k => buf[i + k]?

/-- The variables of the loop of `feed`, with the windows accepted so far. -/
structure Loop (K : Type) where
  i : Nat
  frames : Nat
  decoded : Bool
  out : RcSample K
  accepted : List (Nat × List UInt8)

/-- One turn of the loop of `feed`: a byte that starts no frame is skipped, and so is a header whose frame is
refused. -/
def loopBody (buf : Vector UInt8 kBuf) (s : Loop K) : Option (Loop K) := do
  let head ← buf[s.i]?
  if head ≠ kSbusHeader then
    return { s with i := s.i + 1 }
  let f ← window buf s.i
  match decodeFrame f s.out with
  | some out =>
    return { i := s.i + kSbusLen
             frames := s.frames + 1
             decoded := true
             out := out
             accepted := s.accepted ++ [(s.i, f)] }
  | none => return { s with i := s.i + 1 }  -- resync: rescan from the next byte

/-- `std::memmove(buf_, buf_ + i, m)`; there is no result when it reads outside the buffer. -/
def memmove (buf : Vector UInt8 kBuf) (i m : Nat) : Option (Vector UInt8 kBuf) :=
  if i + m ≤ kBuf then
    some (Vector.ofFn fun k : Fin kBuf => if k < m then buf.getD (i + k) 0 else buf[k])
  else none

/-- `SbusParser::feed`. The loop moves `i` by at least one byte a turn, so `kBuf + 1` turns are more
than it takes. -/
def feed (p : SbusParser) (data : List UInt8) (out : RcSample K) : Option (FeedResult K) := do
  if data.length = 0 ∨ kBuf < data.length then
    return ⟨reset, false, out, []⟩
  let p := if kBuf < p.n + data.length then reset else p
  let p ← data.foldlM push p
  let s ← whileLoop (fun s : Loop K => decide (kSbusLen ≤ p.n - s.i)) (loopBody p.buf) (kBuf + 1)
    ⟨0, p.frames, false, out, []⟩
  if 0 < s.i then
    let buf ← memmove p.buf s.i (p.n - s.i)
    return ⟨⟨buf, p.n - s.i, s.frames⟩, s.decoded, s.out, s.accepted⟩
  else
    return ⟨{ p with frames := s.frames }, s.decoded, s.out, s.accepted⟩

end Decode

end SbusParser

end DroneMini
