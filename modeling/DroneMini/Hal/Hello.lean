import DroneMini.Hal.Framing
import DroneMini.Hal.Sil

/-!
# The greeting

`SilHello`, `fillHello` and `helloMatches` of `hal/sil_wire.cpp` and the two ends of a greeting that the
firmware has, `SilHal::helloAck` and `SilHal::serveHello`. A build is what a greeting compares: the version
byte of the framing, the period of the loop and the seven sizes. The payload is the same eight words on both
sides (`SilHello.ofBytes_bytes`, `SilProto.packHello_eq`, `SilProto.unpackHello_eq`).

What `::send` and `::recv` do is an input, as it is for `SilHal.recvState`.
-/

namespace DroneMini

/-- What two builds compare in their greetings, beside the version in every header: the period of the loop and
the sizes of the records. -/
structure Build where
  ver : UInt8
  dtUs : UInt32
  sizes : Fin 7 → UInt32
  deriving DecidableEq

namespace Wire

open LittleEndian

def kSilDtUs : UInt32 := 1000

/-- `kHelloSizes`: the sizes of the imu, rc, pwm, state, out and telem records and of the header. -/
def kHelloSizes : Fin 7 → UInt32 := ![49, 26, 16, 87, 40, 88, 14]

/-- The build at hand: the version, the loop period and the record sizes of this repository. -/
def build : Build := ⟨kProtoVersion, kSilDtUs, kHelloSizes⟩

/-- `SilHello`, the payload of a HELLO and of its answer: the loop period and seven sizes. -/
structure SilHello where
  dtUs : UInt32
  sizes : Fin 7 → UInt32
  deriving DecidableEq

/-- `sizeof(SilHello)`: eight words of four bytes. -/
def SilHello.size : Nat := 32

/-- The greeting as a copy from the body of a message fills it, word by word. -/
def SilHello.ofBytes (b : List UInt8) : SilHello where
  dtUs := .ofNat (field b 0 4)
  sizes i := .ofNat (field b (4 + 4 * i) 4)

/-- The bytes of a greeting in memory, word by word in little-endian order. -/
def SilHello.bytes (h : SilHello) : List UInt8 :=
  leBytes 4 h.dtUs.toNat ++ (List.finRange 7).flatMap fun i => leBytes 4 (h.sizes i).toNat

/-- `fillHello`: the greeting of a build, with its loop period and its sizes. -/
def fillHello (b : Build) : SilHello := ⟨b.dtUs, b.sizes⟩

/-- `helloMatches`: two greetings have the same loop period and the same sizes. -/
def helloMatches (mine peer : SilHello) : Bool :=
  mine.dtUs == peer.dtUs && (List.finRange 7).all fun i => mine.sizes i == peer.sizes i

/-- `helloMatches` holds of a greeting and itself only, so a match means equal builds but for the version. -/
theorem helloMatches_iff {mine peer : SilHello} : helloMatches mine peer = true ↔ mine = peer := by
  cases mine
  cases peer
  simp only [helloMatches, Bool.and_eq_true, beq_iff_eq, List.all_eq_true, List.mem_finRange, true_implies,
    SilHello.mk.injEq]
  rw [funext_iff]

/-- The words of a greeting, each as its four little-endian bytes. -/
def SilHello.words (h : SilHello) : List (List UInt8) :=
  leBytes 4 h.dtUs.toNat :: (List.finRange 7).map fun i => leBytes 4 (h.sizes i).toNat

theorem SilHello.bytes_eq (h : SilHello) : h.bytes = h.words.flatten := by
  rw [SilHello.bytes, SilHello.words, List.flatten_cons, List.flatMap]

@[simp] theorem SilHello.length_bytes (h : SilHello) : h.bytes.length = SilHello.size := by
  simp [SilHello.bytes, SilHello.size, List.finRange_succ]

/-- A greeting is read back from its bytes on the firmware's side. -/
theorem SilHello.ofBytes_bytes (h : SilHello) : SilHello.ofBytes h.bytes = h := by
  have hlens : h.words.map List.length = [4, 4, 4, 4, 4, 4, 4, 4] := by
    simp [SilHello.words, List.finRange_succ]
  have hword (x : UInt32) : UInt32.ofNat (leNat (leBytes 4 x.toNat)) = x := by
    rw [leNat_leBytes x.toNat_lt, UInt32.ofNat_toNat]
  have hsizes (i : Fin 7) : UInt32.ofNat (field h.words.flatten (4 + 4 * i) 4) = h.sizes i := by
    match i with
    | 0 => exact (congrArg _ (field_flatten hlens (k := 1) rfl rfl rfl)).trans (hword _)
    | 1 => exact (congrArg _ (field_flatten hlens (k := 2) rfl rfl rfl)).trans (hword _)
    | 2 => exact (congrArg _ (field_flatten hlens (k := 3) rfl rfl rfl)).trans (hword _)
    | 3 => exact (congrArg _ (field_flatten hlens (k := 4) rfl rfl rfl)).trans (hword _)
    | 4 => exact (congrArg _ (field_flatten hlens (k := 5) rfl rfl rfl)).trans (hword _)
    | 5 => exact (congrArg _ (field_flatten hlens (k := 6) rfl rfl rfl)).trans (hword _)
    | 6 => exact (congrArg _ (field_flatten hlens (k := 7) rfl rfl rfl)).trans (hword _)
  have hdt : UInt32.ofNat (field h.words.flatten 0 4) = h.dtUs :=
    (congrArg _ (field_flatten hlens (k := 0) rfl rfl rfl)).trans (hword _)
  rw [SilHello.ofBytes, SilHello.bytes_eq, hdt, funext hsizes]

/-- The bytes of a greeting are read back from it. -/
theorem SilHello.bytes_ofBytes {b : List UInt8} (h : b.length = SilHello.size) :
    (SilHello.ofBytes b).bytes = b := by
  have h32 : b.length = 32 := h
  have hword (offset : Nat) (hfit : offset + 4 ≤ 32) :
      leBytes 4 (field b offset 4 % 4294967296) = (b.drop offset).take 4 := by
    rw [Nat.mod_eq_of_lt (show _ < 4294967296 from field_lt b offset 4), leBytes_field (by omega)]
  have hcut (m n : Nat) : b.take m ++ (b.drop m).take n = b.take (m + n) := List.take_add.symm
  have hflat : (SilHello.ofBytes b).bytes = b.take 0 ++ (b.drop 0).take 4 ++ (b.drop 4).take 4 ++
      (b.drop 8).take 4 ++ (b.drop 12).take 4 ++ (b.drop 16).take 4 ++ (b.drop 20).take 4 ++
      (b.drop 24).take 4 ++ (b.drop 28).take 4 := by
    simp [SilHello.bytes, SilHello.ofBytes, List.finRange_succ, hword, List.append_assoc]
  rw [hflat, hcut, hcut, hcut, hcut, hcut, hcut, hcut, hcut]
  exact List.take_of_length_le (by omega)

end Wire

/-! ## The greeting on the plant's side -/

namespace SilProto

open Struct LittleEndian Wire

/-- The sizes of a greeting as Python values, in the shape of `HELLO_SIZES`. -/
def sizeValues (h : SilHello) : List Int := (List.finRange 7).map fun i => (h.sizes i).toNat

/-- The items of a greeting for `struct`: the format code, the value and the bytes of each. -/
def helloItems (h : SilHello) : List (Code × Value × List UInt8) :=
  (.u32, .int h.dtUs.toNat, leBytes 4 h.dtUs.toNat) ::
    (List.finRange 7).map fun i => (.u32, .int (h.sizes i).toNat, leBytes 4 (h.sizes i).toNat)

/-- **`pack_hello` writes the bytes of the greeting**, the same ones that the firmware has in memory. -/
theorem packHello_eq (h : SilHello) : packHello h.dtUs.toNat (sizeValues h) = some h.bytes := by
  have hitems : ∀ t ∈ helloItems h, t.1.pack t.2.1 = some t.2.2 := by
    intro t ht
    rcases List.mem_cons.mp ht with rfl | ht
    · exact packUnsigned_natCast h.dtUs.toNat_lt
    · obtain ⟨i, -, rfl⟩ := List.mem_map.mp ht
      exact packUnsigned_natCast (h.sizes i).toNat_lt
  have hpack := pack_eq_flatten (helloItems h) hitems
  have hcodes : (helloItems h).map (fun t => t.1) = HELLO_FMT := rfl
  have hvalues : (helloItems h).map (fun t => t.2.1) = .int h.dtUs.toNat :: (sizeValues h).map .int := by
    rw [helloItems, sizeValues, List.map_cons, List.map_map, List.map_map]
    rfl
  have hbytes : (helloItems h).map (fun t => t.2.2) = h.words := by
    rw [helloItems, SilHello.words, List.map_cons, List.map_map]
    rfl
  rw [hcodes, hvalues, hbytes, ← SilHello.bytes_eq] at hpack
  exact hpack

/-- **`unpack_hello` reads the greeting back** from the bytes the firmware sends. -/
theorem unpackHello_eq (h : SilHello) :
    unpackHello h.bytes = some (.int h.dtUs.toNat, (sizeValues h).map .int) := by
  have hword (x : UInt32) : Code.u32.unpack (leBytes 4 x.toNat) = .int x.toNat :=
    congrArg (fun n : Nat => Value.int n) (leNat_leBytes x.toNat_lt)
  have hunpack := unpack_flatten (h.words.map fun b => (Code.u32, b)) fun t ht => by
    obtain ⟨b, hb, rfl⟩ := List.mem_map.mp ht
    rcases List.mem_cons.mp hb with rfl | hb
    · exact length_leBytes 4 _
    · obtain ⟨i, -, rfl⟩ := List.mem_map.mp hb
      exact length_leBytes 4 _
  have hcodes : ((h.words.map fun b => (Code.u32, b)).map fun t => t.1) = HELLO_FMT := rfl
  have hbytes : ((h.words.map fun b => (Code.u32, b)).map fun t => t.2) = h.words := by
    rw [List.map_map]
    exact List.map_id _
  have hvalues : ((h.words.map fun b => (Code.u32, b)).map fun t => t.1.unpack t.2)
      = .int h.dtUs.toNat :: (sizeValues h).map .int := by
    rw [SilHello.words, sizeValues, List.map_cons, List.map_cons, List.map_map, List.map_map, List.map_map,
      hword]
    congr 1
    exact List.map_congr_left fun i _ => hword (h.sizes i)
  rw [hcodes, hbytes, hvalues, ← SilHello.bytes_eq] at hunpack
  rw [unpackHello, hunpack]
  rfl

/-- `unpack_hello` gives the values of a greeting for its bytes only. -/
theorem unpackHello_eq_iff {h : SilHello} {body : List UInt8} :
    unpackHello body = some (.int h.dtUs.toNat, (sizeValues h).map .int) ↔ body = h.bytes := by
  constructor
  · intro hun
    have hlen : body.length = SilHello.size := by
      by_contra hne
      rw [unpackHello, unpack, if_neg (show body.length ≠ calcsize HELLO_FMT from hne)] at hun
      cases hun
    rw [← SilHello.bytes_ofBytes hlen, unpackHello_eq] at hun
    simp only [Option.some.injEq, Prod.mk.injEq, Value.int.injEq, Int.natCast_inj, UInt32.toNat_inj] at hun
    obtain ⟨hdt, hsizes⟩ := hun
    have hvalues : sizeValues (.ofBytes body) = sizeValues h :=
      List.map_injective_iff.mpr (fun _ _ => Value.int.inj) hsizes
    have hfun : (SilHello.ofBytes body).sizes = h.sizes := by
      funext i
      have hi := List.map_inj_left.mp hvalues i (List.mem_finRange i)
      exact UInt32.toNat_inj.mp (Int.natCast_inj.mp hi)
    have heq : SilHello.ofBytes body = h := by
      cases h
      rw [SilHello.ofBytes] at hdt hfun ⊢
      simp only at hdt hfun
      rw [hdt, hfun]
    rw [← heq, SilHello.bytes_ofBytes hlen]
  · rintro rfl
    exact unpackHello_eq h

end SilProto

/-! ## The two ends of the firmware -/

/-- What `::send` does: the message goes out, or the call fails with a timeout of the socket or another
error. -/
inductive SendOutcome where
  | sent
  | wouldBlock
  | failed
  deriving DecidableEq, Repr

/-- What `SilHal::sendMsg` makes of the outcome of `::send`. -/
def SendOutcome.result : SendOutcome → IoResult
  | .sent => .kOk
  | .wouldBlock => .kTimeout
  | .failed => .kClosed

/-- What the transport does in one turn of the lockstep. -/
structure Exchange where
  recv : RecvOutcome
  send : SendOutcome

namespace SilHal

open Wire

variable {K : Type}

/-- `SilHal::sendMsg` in a build whose `kProtoVersion` is `ver`: its result, and the message it gives to
`::send`. -/
def sendMsgAt (ver : UInt8) (hal : SilHal K) (type : MsgType) (payload : List UInt8) (o : SendOutcome) :
    IoResult × Option (List UInt8) × SilHal K :=
  let (hal, seq) := hal.nextSeq
  match packMsgAt ver 256 type.code seq payload with
  | none => (.kProto, none, hal)
  | some buf => (o.result, some buf, hal)

/-- `SilHal::sendMsg` of this build: the result, the message it tried to send and the HAL with its sequence
number moved on. -/
def sendMsg (hal : SilHal K) (type : MsgType) (payload : List UInt8) (o : SendOutcome) :
    IoResult × Option (List UInt8) × SilHal K :=
  hal.sendMsgAt kProtoVersion type payload o

/-- The first half of `SilHal::helloAck`: the firmware sends its HELLO. -/
def sendHello (b : Build) (hal : SilHal K) (s : SendOutcome) : IoResult × Option (List UInt8) × SilHal K :=
  hal.sendMsgAt b.ver .kHello (fillHello b).bytes s

/-- The second half of `SilHal::helloAck`: what it makes of the answer. -/
def recvAck (b : Build) (r : RecvOutcome) : IoResult :=
  match recvIntoAt b.ver r with
  | .error _ => .kClosed
  | .ok (h, payload) =>
    if h.type ≠ MsgType.kAck.code ∨ h.len.toNat ≠ SilHello.size then .kProto
    else if helloMatches (fillHello b) (.ofBytes payload) then .kOk
    else .kProto

/-- `SilHal::helloAck`: the firmware sends its HELLO and waits for an answer that matches it. -/
def helloAck (b : Build) (hal : SilHal K) (s : SendOutcome) (r : RecvOutcome) : IoResult × SilHal K :=
  let (sent, _, hal) := hal.sendHello b s
  if sent ≠ .kOk then (.kClosed, hal) else (recvAck b r, hal)

/-- `SilHal::serveHello`: its result, and the ACK it gives to `::send`. -/
def serveHello (b : Build) (hal : SilHal K) (r : RecvOutcome) (s : SendOutcome) :
    IoResult × Option (List UInt8) × SilHal K :=
  match recvIntoAt b.ver r with
  | .error _ => (.kClosed, none, hal)
  | .ok (h, _) =>
    if h.type ≠ MsgType.kHello.code ∨ h.len.toNat ≠ SilHello.size then (.kProto, none, hal)
    else hal.sendMsgAt b.ver .kAck (fillHello b).bytes s

/-- The message in which a build sends its greeting, with a type and a sequence number. -/
def helloMsg (b : Build) (type : MsgType) (seq : UInt32) : List UInt8 :=
  packedAt b.ver type.code seq (fillHello b).bytes

theorem length_helloMsg (b : Build) (type : MsgType) (seq : UInt32) :
    (helloMsg b type seq).length = 46 := by
  rw [helloMsg, length_packedAt, SilHello.length_bytes, Hdr.size, SilHello.size]

/-- The greeting of a build fits into a message, so `sendMsg` always has one to send. -/
theorem sendMsgAt_hello (b : Build) (hal : SilHal K) (type : MsgType) (o : SendOutcome) :
    hal.sendMsgAt b.ver type (fillHello b).bytes o
      = (o.result, some (helloMsg b type hal.seq), hal.nextSeq.1) := by
  have hsize : (fillHello b).bytes.length = 32 := SilHello.length_bytes _
  have hpack := @packMsgAt_eq b.ver 256 type.code hal.seq (fillHello b).bytes (by omega)
    (by rw [hsize]; decide)
  simp only [sendMsgAt, nextSeq, hpack, helloMsg]

/-- What arrives of a message with a greeting: its header and its payload at the same version, nothing at
another. -/
theorem recvIntoAt_helloMsg (ver : UInt8) (b : Build) (type : MsgType) (seq : UInt32) :
    (ver = b.ver → ∃ h, recvIntoAt ver (.data (helloMsg b type seq)) = .ok (h, (fillHello b).bytes) ∧
        h.type = type.code ∧ h.len.toNat = SilHello.size) ∧
      (ver ≠ b.ver → recvIntoAt ver (.data (helloMsg b type seq)) = .error .kProto) := by
  have hsize : (fillHello b).bytes.length = 32 := SilHello.length_bytes _
  have hlen : (fillHello b).bytes.length ≤ 65535 := by omega
  have hlong : (helloMsg b type seq).length ≠ 0 := by
    rw [length_helloMsg]
    decide
  have htake : (helloMsg b type seq).take rxSize = helloMsg b type seq :=
    List.take_of_length_le (by rw [length_helloMsg]; decide)
  obtain ⟨-, hver, htype, hfield, -, -⟩ := packedAt_fields b.ver type.code seq hlen
  unfold recvIntoAt
  simp only [hlong, if_false, htake]
  constructor
  · rintro rfl
    have hok := unpackMsgAt_ok_iff.mpr
      ⟨framedAt_packedAt b.ver type.code seq hlen, rfl, rfl⟩
    rw [body_packedAt b.ver type.code seq hlen] at hok
    rw [helloMsg, hok]
    refine ⟨_, rfl, ?_, ?_⟩
    · show UInt8.ofNat (LittleEndian.field (packedAt b.ver type.code seq (fillHello b).bytes) 3 1) = _
      rw [htype, UInt8.ofNat_toNat]
    · rw [ofBytes_len, hfield, hsize]
      rfl
  · intro hne
    cases hm : unpackMsgAt ver (helloMsg b type seq) with
    | error e => rfl
    | ok m =>
      have hframed := (unpackMsgAt_ok_iff.mp hm).1
      have heq : ver.toNat = b.ver.toNat := hframed.ver.symm.trans hver
      exact absurd (UInt8.toNat_inj.mp heq) hne

/-- **The client goes on with the ACK of its own build only.** -/
theorem recvAck_helloMsg (b b' : Build) (seq : UInt32) :
    recvAck b (.data (helloMsg b' .kAck seq)) = .kOk ↔ b = b' := by
  unfold recvAck
  by_cases hver : b.ver = b'.ver
  · obtain ⟨h, hrecv, htype, hlen⟩ := (recvIntoAt_helloMsg b.ver b' .kAck seq).1 hver
    rw [hrecv]
    simp only [htype, hlen, ne_eq, not_true_eq_false, or_self, if_false, SilHello.ofBytes_bytes,
      helloMatches_iff]
    cases b
    cases b'
    simp_all [fillHello]
  · rw [(recvIntoAt_helloMsg b.ver b' .kAck seq).2 hver]
    simp only [reduceCtorEq, false_iff]
    rintro rfl
    exact hver rfl

end SilHal

end DroneMini
