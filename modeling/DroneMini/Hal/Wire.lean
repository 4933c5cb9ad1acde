import DroneMini.Lib.LittleEndian
import Mathlib.Logic.Function.Iterate

/-!
# The wire protocol of the lockstep link

Framing and payloads of `hal/sil_wire.hpp` and `hal/sil_wire.cpp`. Packed structures are copied byte by
byte on a little-endian machine, so a field is the little-endian number of its bytes; a float on the wire
is its bit pattern.
-/

namespace DroneMini

namespace Wire

open LittleEndian

/-! ## The header -/

def kMagic : UInt16 := 0x534D
def kProtoVersion : UInt8 := 1

/-- `MsgType` of `sil_wire.hpp`: the kinds of message that the two sides exchange. -/
inductive MsgType where
  | kHello
  | kAck
  | kState
  | kFwOut
  | kBye
  | kTelem
  deriving DecidableEq, Repr

/-- The byte by which a message type is sent, as the enumeration in `sil_wire.hpp` numbers them. -/
def MsgType.code : MsgType → UInt8
  | .kHello => 1
  | .kAck => 2
  | .kState => 3
  | .kFwOut => 4
  | .kBye => 5
  | .kTelem => 6

/-- `Hdr`, the packed header of a message: magic number, version, type, length, sequence number and
checksum. -/
structure Hdr where
  magic : UInt16
  ver : UInt8
  type : UInt8
  len : UInt16
  seq : UInt32
  crc : UInt32
  deriving DecidableEq, Repr

/-- `sizeof(Hdr)`: the header is packed, so its fields lie one behind the other without a gap. -/
def Hdr.size : Nat := 14

/-- The header copied from the first bytes of a message. -/
def Hdr.ofBytes (b : List UInt8) : Hdr where
  magic := .ofNat (field b 0 2)
  ver := .ofNat (field b 2 1)
  type := .ofNat (field b 3 1)
  len := .ofNat (field b 4 2)
  seq := .ofNat (field b 6 4)
  crc := .ofNat (field b 10 4)

/-- The bytes of a header in memory, field by field in little-endian order. -/
def Hdr.bytes (h : Hdr) : List UInt8 :=
  leBytes 2 h.magic.toNat ++ [h.ver, h.type] ++ leBytes 2 h.len.toNat ++ leBytes 4 h.seq.toNat ++
    leBytes 4 h.crc.toNat

/-! ## The checksum -/

def kPoly : UInt32 := 0xEDB88320

/-- One turn of the inner loop of `buildTable`: a step of the reflected checksum register by one bit. -/
def crcShift (c : UInt32) : UInt32 := if c &&& 1 = 1 then kPoly ^^^ (c >>> 1) else c >>> 1

/-- An entry of `table_`, as `buildTable` computes it: its index after eight turns of the inner loop. -/
def table (i : UInt32) : UInt32 := crcShift^[8] i

/-- `crc32Init`: the register of the checksum before the first byte. -/
def crc32Init : UInt32 := 0xFFFFFFFF

/-- `crc32Update`: the register after some more bytes, with one look into the table for each. -/
def crc32Update (crc : UInt32) (data : List UInt8) : UInt32 :=
  data.foldl (fun crc p => table ((crc ^^^ p.toUInt32) &&& 0xFF) ^^^ (crc >>> 8)) crc

/-- `crc32Final`: the checksum that a register stands for, its complement. -/
def crc32Final (crc : UInt32) : UInt32 := crc ^^^ 0xFFFFFFFF

/-- `crc32` of a whole message: the final value after all of its bytes. -/
def crc32 (data : List UInt8) : UInt32 := crc32Final (crc32Update crc32Init data)

/-! ## Framing -/

/-- `packMsg` in a build whose `kProtoVersion` is `ver`, with the bytes it writes; `none` when they do not fit into
`cap`. -/
def packMsgAt (ver : UInt8) (cap : Nat) (type : UInt8) (seq : UInt32) (payload : List UInt8) :
    Option (List UInt8) :=
  if cap < Hdr.size + payload.length then none
  else
    let h : Hdr := ⟨kMagic, ver, type, .ofNat payload.length, seq, 0⟩
    some ({ h with crc := crc32 (h.bytes ++ payload) }.bytes ++ payload)

/-- `packMsg` of this build: the message it writes into a buffer of `cap` bytes, or nothing if the message
does not fit. -/
def packMsg (cap : Nat) (type : UInt8) (seq : UInt32) (payload : List UInt8) : Option (List UInt8) :=
  packMsgAt kProtoVersion cap type seq payload

/-- `unpackMsg` in a build whose `kProtoVersion` is `ver`, with the header and the body it points at, or the error
code. The message ends with the body; what follows it in the buffer is ignored. -/
def unpackMsgAt (ver : UInt8) (buf : List UInt8) : Except Int (Hdr × List UInt8) :=
  if buf.length < Hdr.size then .error (-1)
  else
    let h := Hdr.ofBytes buf
    if h.magic ≠ kMagic then .error (-1)
    else if h.ver ≠ ver then .error (-2)
    else if buf.length < Hdr.size + h.len.toNat then .error (-3)
    else
      let payload := (buf.drop Hdr.size).take h.len.toNat
      -- the checksum is that of the header with a zero in its place
      let tmp := buf.take 10 ++ [0, 0, 0, 0]
      if crc32Final (crc32Update (crc32Update crc32Init tmp) payload) ≠ h.crc then .error (-4)
      else .ok (h, payload)

/-- `unpackMsg` of this build: the header and the payload of a buffer, or the negative code of the first check
that it fails. -/
def unpackMsg (buf : List UInt8) : Except Int (Hdr × List UInt8) := unpackMsgAt kProtoVersion buf

/-! ## Payloads -/

/-- `SilImu`, the IMU sample of a STATE payload, with its floats as the words that are sent. -/
structure SilImu where
  gyroRps : Fin 3 → UInt32
  accelMps2 : Fin 3 → UInt32
  magUT : Fin 3 → UInt32
  tempC : UInt32
  tUs : UInt64
  valid : UInt8

/-- `StateRc`, the payload of a STATE message: IMU sample, battery voltage and raw RC bytes. -/
structure StateRc where
  imu : SilImu
  vbat : UInt32
  rcProto : UInt8
  rcLen : UInt8
  rcRaw : Fin 32 → UInt8

/-- `sizeof(StateRc)`: the payload is packed, so this is the sum of the sizes of its fields. -/
def StateRc.size : Nat := 87

/-- The payload of a STATE message as `memcpy` fills it from the body, field by field. -/
def StateRc.ofBytes (b : List UInt8) : StateRc where
  imu :=
    { gyroRps := fun i => .ofNat (field b (4 * i) 4)
      accelMps2 := fun i => .ofNat (field b (12 + 4 * i) 4)
      magUT := fun i => .ofNat (field b (24 + 4 * i) 4)
      tempC := .ofNat (field b 36 4)
      tUs := .ofNat (field b 40 8)
      valid := .ofNat (field b 48 1) }
  vbat := .ofNat (field b 49 4)
  rcProto := .ofNat (field b 53 1)
  rcLen := .ofNat (field b 54 1)
  rcRaw := fun i => .ofNat (field b (55 + i) 1)

/-- The bytes of a STATE payload in memory, field by field in little-endian order. -/
def StateRc.bytes (st : StateRc) : List UInt8 :=
  (List.finRange 3).flatMap (fun i => leBytes 4 (st.imu.gyroRps i).toNat) ++
    (List.finRange 3).flatMap (fun i => leBytes 4 (st.imu.accelMps2 i).toNat) ++
    (List.finRange 3).flatMap (fun i => leBytes 4 (st.imu.magUT i).toNat) ++
    leBytes 4 st.imu.tempC.toNat ++ leBytes 8 st.imu.tUs.toNat ++ [st.imu.valid] ++
    leBytes 4 st.vbat.toNat ++ [st.rcProto, st.rcLen] ++ List.ofFn st.rcRaw

/-- The STATE payload whose bytes are all zero, as the HAL initialises it. -/
def StateRc.zero : StateRc where
  imu := ⟨fun _ => 0, fun _ => 0, fun _ => 0, 0, 0, 0⟩
  vbat := 0
  rcProto := 0
  rcLen := 0
  rcRaw := fun _ => 0

/-- `SilOut`, over the type of its floats: values in the HAL, bit patterns on the wire. -/
structure SilOut (F : Type) where
  mot : Fin 4 → F
  rollEst : F
  pitchEst : F
  yawEst : F
  armed : UInt8
  failsafe : UInt8
  ledMode : UInt8
  imuValid : UInt8
  tick : UInt32
  satShift : F

/-- `sizeof(SilOut)`: the reply is packed, so this is the sum of the sizes of its fields. -/
def SilOut.size : Nat := 40

/-- The reply as a copy from the body of a message fills it, field by field. -/
def SilOut.ofBytes (b : List UInt8) : SilOut UInt32 where
  mot := fun i => .ofNat (field b (4 * i) 4)
  rollEst := .ofNat (field b 16 4)
  pitchEst := .ofNat (field b 20 4)
  yawEst := .ofNat (field b 24 4)
  armed := .ofNat (field b 28 1)
  failsafe := .ofNat (field b 29 1)
  ledMode := .ofNat (field b 30 1)
  imuValid := .ofNat (field b 31 1)
  tick := .ofNat (field b 32 4)
  satShift := .ofNat (field b 36 4)

/-- The bytes of a reply in memory, field by field in little-endian order. -/
def SilOut.bytes (o : SilOut UInt32) : List UInt8 :=
  (List.finRange 4).flatMap (fun i => leBytes 4 (o.mot i).toNat) ++ leBytes 4 o.rollEst.toNat ++
    leBytes 4 o.pitchEst.toNat ++ leBytes 4 o.yawEst.toNat ++
    [o.armed, o.failsafe, o.ledMode, o.imuValid] ++ leBytes 4 o.tick.toNat ++
    leBytes 4 o.satShift.toNat

end Wire

end DroneMini
