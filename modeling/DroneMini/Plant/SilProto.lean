import DroneMini.Flight.Ports
import DroneMini.Lib.Crc
import DroneMini.Lib.Struct

/-!
# The wire protocol of the plant

Framing and payloads of `plant/sil_proto.py`. `struct` is the module of `Lib.Struct`, with its error as
`none`; `zlib.crc32` is the bitwise reflected CRC-32.
-/

namespace DroneMini

namespace SilProto

open Struct

def MAGIC : Int := 0x534D
def VERSION : Int := 1

def HDR_FMT : List Code := [.u16, .u8, .u8, .u16, .u32, .u32]

def STATE_FMT : List Code :=
  [.f32, .f32, .f32, .f32, .f32, .f32, .f32, .f32, .f32, .f32, .u64, .bool, .f32, .u8, .u8, .bytes 32]

def FW_OUT_FMT : List Code :=
  [.f32, .f32, .f32, .f32, .f32, .f32, .f32, .u8, .u8, .u8, .u8, .u32, .f32]

def IMU_FMT : List Code :=
  [.f32, .f32, .f32, .f32, .f32, .f32, .f32, .f32, .f32, .f32, .u64, .bool]

def RC_FMT : List Code := [.f32, .f32, .f32, .f32, .u8, .u8, .u64]

def PWM_FMT : List Code := [.f32, .f32, .f32, .f32]

def TELEM_FMT : List Code :=
  .u64 :: List.replicate 17 .f32 ++ [.f32, .u8, .u8, .u8, .u8, .f32]

def HELLO_FMT : List Code := List.replicate 8 .u32

def HDR_SIZE : Nat := calcsize HDR_FMT

def HELLO_SIZES : List Int :=
  [IMU_FMT, RC_FMT, PWM_FMT, STATE_FMT, FW_OUT_FMT, TELEM_FMT, HDR_FMT].map fun fmt => calcsize fmt

/-- `zlib.crc32`: the register after the bytes, preset and inverted at the end. -/
def zlibCrc32 (data : List UInt8) : Nat :=
  (Crc.crc 0xEDB88320#32 0xFFFFFFFF#32 0xFFFFFFFF#32 data).toNat

/-- `crc32`: the checksum of `zlib`, cut to 32 bits. -/
def crc32 (data : List UInt8) : Nat := zlibCrc32 data &&& 0xFFFFFFFF

/-- `pack_msg` in a build whose `VERSION` is `version`. It fails on a value that does not fit its field. -/
def packMsgAt (version msgType seq : Int) (payload : List UInt8) : Option (List UInt8) := do
  let hdr ← pack HDR_FMT [.int MAGIC, .int version, .int msgType, .int payload.length, .int seq, .int 0]
  let crc := crc32 (hdr ++ payload)
  let hdr ←
    pack HDR_FMT [.int MAGIC, .int version, .int msgType, .int payload.length, .int seq, .int crc]
  return hdr ++ payload

/-- `pack_msg`, in the build of this version. -/
def packMsg (msgType seq : Int) (payload : List UInt8) : Option (List UInt8) :=
  packMsgAt VERSION msgType seq payload

/-- What `unpack_msg` raises: a `ProtocolError` with its text, or the error of `struct`. -/
inductive Raised where
  | protocolError (text : String)
  | structError
  deriving DecidableEq, Repr

/-- `unpack_msg` in a build whose `VERSION` is `version`: the type, the sequence number and the body. -/
def unpackMsgAt (version : Int) (buf : List UInt8) : Except Raised (Int × Int × List UInt8) :=
  if buf.length < HDR_SIZE then .error (.protocolError "short header")
  else
    match unpack HDR_FMT (buf.take HDR_SIZE) with
    | some [.int magic, .int ver, .int typ, .int length, .int seq, .int crc] =>
      if magic ≠ MAGIC then .error (.protocolError "bad magic")
      else if ver ≠ version then
        .error (.protocolError ("version mismatch: " ++ toString ver ++ " != " ++ toString version))
      else
        let total := (HDR_SIZE + length).toNat
        if buf.length < total then .error (.protocolError "short body")
        else
          match pack HDR_FMT [.int magic, .int ver, .int typ, .int length, .int seq, .int 0] with
          | none => .error .structError
          | some hdrZero =>
            let body := (buf.take total).drop HDR_SIZE
            if (crc32 (hdrZero ++ body) : Int) ≠ crc then .error (.protocolError "bad crc")
            else .ok (typ, seq, body)
    | _ => .error .structError

/-- `unpack_msg`, in the build of this version. -/
def unpackMsg (buf : List UInt8) : Except Raised (Int × Int × List UInt8) := unpackMsgAt VERSION buf

/-- `pack_hello`: the length of a tick and the sizes of the structures. -/
def packHello (dtUs : Int) (sizes : List Int) : Option (List UInt8) :=
  pack HELLO_FMT (.int dtUs :: sizes.map .int)

/-- `unpack_hello`: the period and the sizes; `none` is the error of `struct`. -/
def unpackHello (body : List UInt8) : Option (Value × List Value) := do
  let f ← unpack HELLO_FMT body
  return (← f.head?, f.tail)

/-- `pack_state`, where a float is given by its bit pattern. The RC bytes are padded to their field. -/
def packState (tUs : Int) (gyroRps accelMps2 magUT : Fin 3 → UInt32) (tempC : UInt32) (valid : Bool)
    (vbat : UInt32) (rcProto : Int) (rcRaw : List UInt8) : Option (List UInt8) :=
  let head := rcRaw.take 32
  let rcPadded := head ++ List.replicate (32 - head.length) 0
  pack STATE_FMT
    [.float (gyroRps 0), .float (gyroRps 1), .float (gyroRps 2),
      .float (accelMps2 0), .float (accelMps2 1), .float (accelMps2 2),
      .float (magUT 0), .float (magUT 1), .float (magUT 2),
      .float tempC, .int tUs, .int (if valid then 1 else 0), .float vbat, .int rcProto,
      .int rcRaw.length, .bytes rcPadded]

/-- `pack_out`, where a float is given by its bit pattern. -/
def packOut (mot : Fin 4 → UInt32) (rollEst pitchEst yawEst : UInt32)
    (armed failsafe ledMode imuValid tick : Int) (satShift : UInt32) : Option (List UInt8) :=
  pack FW_OUT_FMT
    [.float (mot 0), .float (mot 1), .float (mot 2), .float (mot 3),
      .float rollEst, .float pitchEst, .float yawEst,
      .int armed, .int failsafe, .int ledMode, .int imuValid, .int tick, .float satShift]

/-- The dictionary that `unpack_out` returns, with its keys as fields. -/
structure OutDict where
  mot : List Value
  rollEst : Value
  pitchEst : Value
  yawEst : Value
  armed : Value
  failsafe : Value
  ledMode : Value
  imuValid : Value
  tick : Value
  satShift : Value
  deriving DecidableEq

/-- `unpack_out`: the fields of the reply, or none when the body has the wrong size. -/
def unpackOut (body : List UInt8) : Option OutDict := do
  let f ← unpack FW_OUT_FMT body
  return {
    mot := f.take 4
    rollEst := ← f[4]?
    pitchEst := ← f[5]?
    yawEst := ← f[6]?
    armed := ← f[7]?
    failsafe := ← f[8]?
    ledMode := ← f[9]?
    imuValid := ← f[10]?
    tick := ← f[11]?
    satShift := ← f[12]? }

end SilProto

end DroneMini
