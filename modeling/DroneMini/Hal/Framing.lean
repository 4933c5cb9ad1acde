import DroneMini.Hal.Checksum
import DroneMini.Plant.SilProto

/-!
# One framing in two languages

`FramedAt ver buf` says what a message is: a header with the magic number, the version and a length that fits,
and the checksum of the message with a zero in its place. `wire::unpackMsg` and `sil_proto.unpack_msg`
accept exactly these messages and read the same fields (`unpackMsg_ok_iff`, `SilProto.unpackMsg_ok_iff`),
and the two `pack` functions write the same bytes, so the framings are one protocol (`framings_agree`).
All of this is proved for builds of any version (`FramedAt`, `packedAt`), of which this build is the one at
`kProtoVersion`.
-/

namespace DroneMini

namespace Wire

open LittleEndian

/-- The body of a message: the bytes behind the header, as many as its length field says. -/
def body (buf : List UInt8) : List UInt8 := (buf.drop Hdr.size).take (field buf 4 2)

/-- The bytes under the checksum: the header with a zero in its place, and the body. -/
def covered (buf : List UInt8) : List UInt8 := buf.take 10 ++ [0, 0, 0, 0] ++ body buf

/-- A message of a build with some version: what its `unpackMsg` checks of a buffer, with the checksum over
the bytes whose own field is zero. -/
structure FramedAt (ver : UInt8) (buf : List UInt8) : Prop where
  long : Hdr.size ≤ buf.length
  magic : field buf 0 2 = 0x534D
  ver : field buf 2 1 = ver.toNat
  fits : Hdr.size + field buf 4 2 ≤ buf.length
  crc : (crc32 (covered buf)).toNat = field buf 10 4

/-- A message of this build, which is what both sides of the link accept. -/
abbrev Framed (buf : List UInt8) : Prop := FramedAt kProtoVersion buf

/-- A little-endian field is below 256 to the power of its width, whatever the bytes. -/
theorem field_lt (buf : List UInt8) (offset width : Nat) : field buf offset width < 256 ^ width := by
  have hlen : ((buf.drop offset).take width).length ≤ width := List.length_take_le _ _
  exact Nat.lt_of_lt_of_le (leNat_lt _) (Nat.pow_le_pow_right (by decide) hlen)

/-- A field that lies in the buffer is written back as its bytes. -/
theorem leBytes_field {buf : List UInt8} {offset width : Nat} (h : offset + width ≤ buf.length) :
    leBytes width (field buf offset width) = (buf.drop offset).take width := by
  have hlen : ((buf.drop offset).take width).length = width := by
    rw [List.length_take, List.length_drop]
    omega
  have hback := leBytes_leNat ((buf.drop offset).take width)
  rw [hlen] at hback
  exact hback

/-- The length field of a header copied from a buffer is the little-endian number at its offset. -/
theorem ofBytes_len (buf : List UInt8) : (Hdr.ofBytes buf).len.toNat = field buf 4 2 :=
  UInt16.toNat_ofNat_of_lt' (field_lt buf 4 2)

/-- The two checks on the header, as the source makes them. -/
theorem ofBytes_magic_ver (ver : UInt8) (buf : List UInt8) :
    ((Hdr.ofBytes buf).magic = kMagic ↔ field buf 0 2 = 0x534D) ∧
      ((Hdr.ofBytes buf).ver = ver ↔ field buf 2 1 = ver.toNat) := by
  constructor
  · rw [← UInt16.toNat_inj]
    show (UInt16.ofNat (field buf 0 2)).toNat = _ ↔ _
    rw [UInt16.toNat_ofNat_of_lt' (field_lt buf 0 2)]
    rfl
  · rw [← UInt8.toNat_inj]
    show (UInt8.ofNat (field buf 2 1)).toNat = _ ↔ _
    rw [UInt8.toNat_ofNat_of_lt' (field_lt buf 2 1)]

/-- The checksum `unpackMsg` computes is that of the covered bytes. -/
theorem crc_covered (buf : List UInt8) :
    crc32Final (crc32Update (crc32Update crc32Init (buf.take 10 ++ [0, 0, 0, 0]))
      ((buf.drop Hdr.size).take (field buf 4 2))) = crc32 (covered buf) := by
  rw [← crc32Update_append]
  rfl

/-- `unpackMsg` accepts exactly the messages of its version, and returns their header and body. -/
theorem unpackMsgAt_ok_iff {ver : UInt8} {buf : List UInt8} {h : Hdr} {payload : List UInt8} :
    unpackMsgAt ver buf = .ok (h, payload) ↔
      FramedAt ver buf ∧ h = Hdr.ofBytes buf ∧ payload = body buf := by
  obtain ⟨hmagic, hver⟩ := ofBytes_magic_ver ver buf
  have hcrc : crc32 (covered buf) = (Hdr.ofBytes buf).crc ↔
      (crc32 (covered buf)).toNat = field buf 10 4 := by
    rw [← UInt32.toNat_inj]
    show _ = (UInt32.ofNat (field buf 10 4)).toNat ↔ _
    rw [UInt32.toNat_ofNat_of_lt' (field_lt buf 10 4)]
  unfold unpackMsgAt
  simp only [ofBytes_len, crc_covered]
  constructor
  · intro hok
    split_ifs at hok with h1 h2 h3 h4 h5
    cases hok
    rw [ne_eq, not_not] at h2 h3 h5
    exact ⟨⟨Nat.not_lt.mp h1, hmagic.mp h2, hver.mp h3, Nat.not_lt.mp h4, hcrc.mp h5⟩, rfl, rfl⟩
  · rintro ⟨hf, rfl, rfl⟩
    rw [if_neg (Nat.not_lt.mpr hf.long), if_neg (not_not.mpr (hmagic.mpr hf.magic)),
      if_neg (not_not.mpr (hver.mpr hf.ver)), if_neg (Nat.not_lt.mpr hf.fits),
      if_neg (not_not.mpr (hcrc.mpr hf.crc))]
    rfl

/-- **`unpackMsg` accepts exactly the messages of this build**, and returns their header and body. -/
theorem unpackMsg_ok_iff {buf : List UInt8} {h : Hdr} {payload : List UInt8} :
    unpackMsg buf = .ok (h, payload) ↔ Framed buf ∧ h = Hdr.ofBytes buf ∧ payload = body buf :=
  unpackMsgAt_ok_iff

/-! ## Packed messages -/

/-- The first ten bytes of a packed message, at a version. -/
def headAt (ver type : UInt8) (seq : UInt32) (len : Nat) : List UInt8 :=
  leBytes 2 0x534D ++ [ver, type] ++ leBytes 2 len ++ leBytes 4 seq.toNat

/-- The message that a build with some version packs: the first ten bytes, the checksum and the payload. -/
def packedAt (ver type : UInt8) (seq : UInt32) (payload : List UInt8) : List UInt8 :=
  headAt ver type seq payload.length ++
    leBytes 4 (crc32 (headAt ver type seq payload.length ++ [0, 0, 0, 0] ++ payload)).toNat ++ payload

/-- The message that this build packs, which is the one of `packedAt` at `kProtoVersion`. -/
abbrev packed (type : UInt8) (seq : UInt32) (payload : List UInt8) : List UInt8 :=
  packedAt kProtoVersion type seq payload

@[simp] theorem length_headAt (ver type : UInt8) (seq : UInt32) (len : Nat) :
    (headAt ver type seq len).length = 10 := by simp [headAt]

/-- A packed message is as long as its header and its payload. -/
theorem length_packedAt (ver type : UInt8) (seq : UInt32) (payload : List UInt8) :
    (packedAt ver type seq payload).length = Hdr.size + payload.length := by
  rw [packedAt, List.length_append, List.length_append, length_headAt, length_leBytes, Hdr.size]

/-- The fields in the header of a packed message are those it was packed with. -/
theorem packedAt_fields (ver type : UInt8) (seq : UInt32) {payload : List UInt8}
    (hlen : payload.length ≤ 65535) :
    field (packedAt ver type seq payload) 0 2 = 0x534D ∧
      field (packedAt ver type seq payload) 2 1 = ver.toNat ∧
      field (packedAt ver type seq payload) 3 1 = type.toNat ∧
      field (packedAt ver type seq payload) 4 2 = payload.length ∧
      field (packedAt ver type seq payload) 6 4 = seq.toNat ∧
      field (packedAt ver type seq payload) 10 4
        = (crc32 (headAt ver type seq payload.length ++ [0, 0, 0, 0] ++ payload)).toNat := by
  let items : List (List UInt8) :=
    [leBytes 2 0x534D, [ver], [type], leBytes 2 payload.length, leBytes 4 seq.toNat,
      leBytes 4 (crc32 (headAt ver type seq payload.length ++ [0, 0, 0, 0] ++ payload)).toNat, payload]
  have hflat : packedAt ver type seq payload = items.flatten := by simp [packedAt, headAt, items]
  have hlens : items.map List.length = [2, 1, 1, 2, 4, 4, payload.length] := by simp [items]
  have h2 : payload.length < 256 ^ 2 := by omega
  rw [hflat]
  refine ⟨?_, ?_, ?_, ?_, ?_, ?_⟩
  · exact (field_flatten hlens (k := 0) rfl rfl rfl).trans (leNat_leBytes (by decide))
  · exact field_flatten hlens (k := 1) rfl rfl rfl
  · exact field_flatten hlens (k := 2) rfl rfl rfl
  · exact (field_flatten hlens (k := 3) rfl rfl rfl).trans (leNat_leBytes h2)
  · exact (field_flatten hlens (k := 4) rfl rfl rfl).trans (leNat_leBytes seq.toNat_lt)
  · exact (field_flatten hlens (k := 5) rfl rfl rfl).trans (leNat_leBytes (UInt32.toNat_lt _))

/-- The body of a packed message is the payload it was packed with. -/
theorem body_packedAt (ver type : UInt8) (seq : UInt32) {payload : List UInt8}
    (hlen : payload.length ≤ 65535) : body (packedAt ver type seq payload) = payload := by
  obtain ⟨-, -, -, hfield, -, -⟩ := packedAt_fields ver type seq hlen
  have hdrop : (packedAt ver type seq payload).drop 14 = payload := by
    rw [packedAt, List.drop_left' (by simp)]
  rw [body, hfield, Hdr.size, hdrop, List.take_length]

/-- The bytes under the checksum of a packed message are its head, four zeros and the payload. -/
theorem covered_packedAt (ver type : UInt8) (seq : UInt32) {payload : List UInt8}
    (hlen : payload.length ≤ 65535) : covered (packedAt ver type seq payload)
      = headAt ver type seq payload.length ++ [0, 0, 0, 0] ++ payload := by
  have hhead : (packedAt ver type seq payload).take 10 = headAt ver type seq payload.length := by
    rw [packedAt, List.append_assoc, List.take_left' (length_headAt _ _ _ _)]
  rw [covered, hhead, body_packedAt ver type seq hlen]

/-- A packed message is a message of its version: it passes every check of `unpackMsg`. -/
theorem framedAt_packedAt (ver type : UInt8) (seq : UInt32) {payload : List UInt8}
    (hlen : payload.length ≤ 65535) : FramedAt ver (packedAt ver type seq payload) := by
  obtain ⟨hmagic, hver, -, hfield, -, hcrc⟩ := packedAt_fields ver type seq hlen
  have hlength := length_packedAt ver type seq payload
  refine ⟨by omega, hmagic, hver, by omega, ?_⟩
  rw [covered_packedAt ver type seq hlen, hcrc]

/-- `packMsg` writes the packed message when it fits, at any version. -/
theorem packMsgAt_eq (ver : UInt8) {cap : Nat} (type : UInt8) (seq : UInt32) {payload : List UInt8}
    (hlen : payload.length ≤ 65535) (hcap : Hdr.size + payload.length ≤ cap) :
    packMsgAt ver cap type seq payload = some (packedAt ver type seq payload) := by
  have hof : (UInt16.ofNat payload.length).toNat = payload.length :=
    UInt16.toNat_ofNat_of_lt' (show payload.length < 65536 by omega)
  have hbytes : ∀ crc : UInt32, (Hdr.mk kMagic ver type (.ofNat payload.length) seq crc).bytes
      = headAt ver type seq payload.length ++ leBytes 4 crc.toNat := by
    intro crc
    rw [Hdr.bytes, hof]
    rfl
  rw [packMsgAt, if_neg (Nat.not_lt.mpr hcap)]
  simp only [hbytes]
  rfl

/-- **`packMsg` writes the packed message of this build** whenever it fits into the buffer. -/
theorem packMsg_eq {cap : Nat} (type : UInt8) (seq : UInt32) {payload : List UInt8}
    (hlen : payload.length ≤ 65535) (hcap : Hdr.size + payload.length ≤ cap) :
    packMsg cap type seq payload = some (packed type seq payload) :=
  packMsgAt_eq kProtoVersion type seq hlen hcap

/-- What `packMsg` writes is the packed message, and it fits. -/
theorem packMsg_eq_some {cap : Nat} {type : UInt8} {seq : UInt32} {payload buf : List UInt8}
    (hlen : payload.length ≤ 65535) (h : packMsg cap type seq payload = some buf) :
    buf = packed type seq payload := by
  have hcap : Hdr.size + payload.length ≤ cap := by
    by_contra hcap
    rw [packMsg, packMsgAt, if_pos (Nat.lt_of_not_le hcap)] at h
    cases h
  rw [packMsg_eq type seq hlen hcap] at h
  exact (Option.some.inj h).symm

end Wire

/-! ## The plant's side -/

namespace SilProto

open Struct LittleEndian Wire

/-- `struct.unpack` reads the header of a message as its six fields. -/
theorem unpack_hdr {buf : List UInt8} (h : HDR_SIZE ≤ buf.length) :
    unpack HDR_FMT (buf.take HDR_SIZE) =
      some [.int (field buf 0 2), .int (field buf 2 1), .int (field buf 3 1), .int (field buf 4 2),
        .int (field buf 6 4), .int (field buf 10 4)] := by
  have hsize : HDR_SIZE = 14 := rfl
  rw [unpack, if_pos (by rw [List.length_take]; exact min_eq_left h)]
  simp [HDR_FMT, items, Code.unpack, Code.size, field, hsize, List.take_take, List.drop_take,
    List.drop_drop]

/-- The checksum of the plant is that of the firmware. -/
theorem crc32_eq (data : List UInt8) : crc32 data = (Wire.crc32 data).toNat := by
  have hpoly : poly = 0xEDB88320#32 := rfl
  rw [crc32, zlibCrc32, ← UInt32.toNat_toBitVec, crc32_toBitVec, hpoly,
    show (0xFFFFFFFF : Nat) = 2 ^ 32 - 1 by rfl, Nat.and_two_pow_sub_one_eq_mod]
  exact Nat.mod_eq_of_lt (BitVec.isLt _)

/-- `struct.pack` writes a header of fields that fit as their little-endian bytes, one behind the other. -/
theorem pack_hdr {magic ver typ len seq crc : Nat} (h0 : magic < 256 ^ 2) (h1 : ver < 256 ^ 1)
    (h2 : typ < 256 ^ 1) (h3 : len < 256 ^ 2) (h4 : seq < 256 ^ 4) (h5 : crc < 256 ^ 4) :
    pack HDR_FMT [.int magic, .int ver, .int typ, .int len, .int seq, .int crc] =
      some (leBytes 2 magic ++ (leBytes 1 ver ++ (leBytes 1 typ ++ (leBytes 2 len ++
        (leBytes 4 seq ++ (leBytes 4 crc ++ [])))))) := by
  refine pack_cons (packUnsigned_natCast h0) ?_
  refine pack_cons (packUnsigned_natCast h1) ?_
  refine pack_cons (packUnsigned_natCast h2) ?_
  refine pack_cons (packUnsigned_natCast h3) ?_
  refine pack_cons (packUnsigned_natCast h4) ?_
  exact pack_cons (packUnsigned_natCast h5) rfl

/-- Packing the fields of a header with a zero for the checksum gives back its first ten bytes. -/
theorem pack_hdr_zero {buf : List UInt8} (h : HDR_SIZE ≤ buf.length) :
    pack HDR_FMT [.int (field buf 0 2), .int (field buf 2 1), .int (field buf 3 1),
      .int (field buf 4 2), .int (field buf 6 4), .int 0] = some (buf.take 10 ++ [0, 0, 0, 0]) := by
  have hsize : HDR_SIZE = 14 := rfl
  have hpack := pack_hdr (field_lt buf 0 2) (field_lt buf 2 1) (field_lt buf 3 1) (field_lt buf 4 2)
    (field_lt buf 6 4) (show 0 < 256 ^ 4 by decide)
  rw [leBytes_field (by omega), leBytes_field (by omega), leBytes_field (by omega),
    leBytes_field (by omega), leBytes_field (by omega)] at hpack
  rw [show ((0 : Nat) : Int) = 0 from rfl] at hpack
  rw [hpack, Option.some.injEq, List.append_nil, show leBytes 4 0 = [0, 0, 0, 0] from rfl]
  have hcut : ∀ m n, buf.take m ++ (buf.drop m).take n = buf.take (m + n) :=
    fun m n => List.take_add.symm
  simp only [← List.append_assoc, List.drop_zero, hcut]

/-- `unpack_msg` of a build with some version accepts exactly the messages of that version, and returns type,
sequence number and body. -/
theorem unpackMsgAt_ok_iff {ver : UInt8} {buf : List UInt8} {typ seq : Int} {payload : List UInt8} :
    unpackMsgAt ver.toNat buf = .ok (typ, seq, payload) ↔
      FramedAt ver buf ∧ typ = field buf 3 1 ∧ seq = field buf 6 4 ∧ payload = body buf := by
  have hsize : HDR_SIZE = 14 := rfl
  unfold unpackMsgAt
  by_cases hlong : HDR_SIZE ≤ buf.length
  · have htotal : ((HDR_SIZE : Int) + (field buf 4 2 : Int)).toNat = Hdr.size + field buf 4 2 := by
      rw [← Int.natCast_add, Int.toNat_natCast]
      rfl
    have hbody : (buf.take (Hdr.size + field buf 4 2)).drop HDR_SIZE = body buf := by
      rw [List.drop_take, body]
      congr 1
      exact Nat.add_sub_cancel_left _ _
    rw [if_neg (Nat.not_lt.mpr hlong), unpack_hdr hlong]
    simp only [htotal, pack_hdr_zero hlong, hbody, crc32_eq]
    constructor
    · intro hok
      split_ifs at hok with h1 h2 h3 h4
      cases hok
      rw [ne_eq, not_not] at h1 h2 h4
      exact ⟨⟨hlong, Int.ofNat.inj h1, Int.ofNat.inj h2, Nat.not_lt.mp h3, Int.ofNat.inj h4⟩,
        rfl, rfl, rfl⟩
    · rintro ⟨hf, rfl, rfl, rfl⟩
      have hcrc := hf.crc
      rw [covered] at hcrc
      rw [if_neg (by rw [hf.magic]; decide), if_neg (by rw [hf.ver]; simp),
        if_neg (Nat.not_lt.mpr hf.fits), if_neg (by rw [hcrc]; simp)]
  · rw [if_pos (Nat.lt_of_not_le hlong)]
    constructor
    · intro hok
      cases hok
    · rintro ⟨hf, -⟩
      exact absurd hf.long hlong

/-- **`unpack_msg` accepts exactly the messages of this build**, those that the firmware accepts. -/
theorem unpackMsg_ok_iff {buf : List UInt8} {typ seq : Int} {payload : List UInt8} :
    unpackMsg buf = .ok (typ, seq, payload) ↔
      Framed buf ∧ typ = field buf 3 1 ∧ seq = field buf 6 4 ∧ payload = body buf :=
  @unpackMsgAt_ok_iff kProtoVersion buf typ seq payload

/-- `pack_msg` of a build with some version writes the packed message of that version. -/
theorem packMsgAt_eq (ver type : UInt8) (seq : UInt32) {payload : List UInt8}
    (hlen : payload.length ≤ 65535) :
    packMsgAt ver.toNat type.toNat seq.toNat payload = some (packedAt ver type seq payload) := by
  have hpack : ∀ crc < 256 ^ 4, pack HDR_FMT [.int MAGIC, .int ver.toNat, .int type.toNat,
      .int payload.length, .int seq.toNat, .int (crc : Nat)]
        = some (headAt ver type seq payload.length ++ leBytes 4 crc) := by
    intro crc hcrc
    have h := pack_hdr (show 0x534D < 256 ^ 2 by decide) ver.toNat_lt type.toNat_lt
      (show payload.length < 256 ^ 2 by omega) seq.toNat_lt hcrc
    have hver : leBytes 1 ver.toNat = [ver] := leBytes_leNat [ver]
    have htype : leBytes 1 type.toNat = [type] := leBytes_leNat [type]
    rw [hver, htype, List.append_nil] at h
    rw [headAt]
    simp only [List.append_assoc]
    exact h
  have hcrc : (Wire.crc32 (headAt ver type seq payload.length ++ [0, 0, 0, 0] ++ payload)).toNat
      < 256 ^ 4 := UInt32.toNat_lt _
  have hzero := hpack 0 (by decide)
  rw [show ((0 : Nat) : Int) = 0 from rfl, show leBytes 4 0 = [0, 0, 0, 0] from rfl] at hzero
  rw [packMsgAt, hzero]
  simp only [Option.bind_eq_bind, Option.bind_some, crc32_eq, hpack _ hcrc]
  rfl

/-- **`pack_msg` writes the packed message of this build**, the one that the firmware writes. -/
theorem packMsg_eq (type : UInt8) (seq : UInt32) {payload : List UInt8}
    (hlen : payload.length ≤ 65535) :
    packMsg type.toNat seq.toNat payload = some (packed type seq payload) :=
  packMsgAt_eq kProtoVersion type seq hlen

end SilProto

namespace Wire

open LittleEndian

/-- **The two framings are one protocol.** `wire::unpackMsg` and `sil_proto.unpack_msg` accept the same
byte strings and read the same type, sequence number and body; `wire::packMsg` and `sil_proto.pack_msg`
write the same bytes. -/
theorem framings_agree :
    (∀ buf : List UInt8,
      (unpackMsg buf).toOption.map (fun m => ((m.1.type.toNat : Int), (m.1.seq.toNat : Int), m.2))
        = (SilProto.unpackMsg buf).toOption) ∧
    (∀ (cap : Nat) (type : UInt8) (seq : UInt32) (payload : List UInt8), payload.length ≤ 65535 →
      Hdr.size + payload.length ≤ cap → ∃ bytes, packMsg cap type seq payload = some bytes ∧
        SilProto.packMsg type.toNat seq.toNat payload = some bytes) := by
  constructor
  · intro buf
    by_cases hf : Framed buf
    · have hfirmware := unpackMsg_ok_iff.mpr ⟨hf, rfl, rfl⟩
      have hplant := SilProto.unpackMsg_ok_iff.mpr ⟨hf, rfl, rfl, rfl⟩
      rw [hfirmware, hplant]
      show some (((Hdr.ofBytes buf).type.toNat : Int), ((Hdr.ofBytes buf).seq.toNat : Int), body buf)
        = some _
      have htype : (Hdr.ofBytes buf).type.toNat = field buf 3 1 :=
        UInt8.toNat_ofNat_of_lt' (field_lt buf 3 1)
      have hseq : (Hdr.ofBytes buf).seq.toNat = field buf 6 4 :=
        UInt32.toNat_ofNat_of_lt' (field_lt buf 6 4)
      rw [htype, hseq]
    · cases hfirmware : unpackMsg buf with
      | ok m => exact absurd (unpackMsg_ok_iff.mp hfirmware).1 hf
      | error e =>
          cases hplant : SilProto.unpackMsg buf with
          | ok m => exact absurd (SilProto.unpackMsg_ok_iff.mp hplant).1 hf
          | error e' => rfl
  · intro cap type seq payload hlen hcap
    exact ⟨_, packMsg_eq type seq hlen hcap, SilProto.packMsg_eq type seq hlen⟩

/-- A reply of four bytes is packed alike on both sides, and both read it back. -/
theorem framings_agree_reply : ∃ bytes,
    packMsg 256 MsgType.kFwOut.code 7 [1, 2, 3, 250] = some bytes ∧
      SilProto.packMsg (4 : UInt8).toNat (7 : UInt32).toNat [1, 2, 3, 250] = some bytes ∧
      (SilProto.unpackMsg bytes).toOption = some (4, 7, [1, 2, 3, 250]) ∧
      (unpackMsg bytes).toOption.map (fun m => ((m.1.type.toNat : Int), (m.1.seq.toNat : Int), m.2))
        = some (4, 7, [1, 2, 3, 250]) := by
  obtain ⟨bytes, hfirmware, hplant⟩ := framings_agree.2 256 4 7 [1, 2, 3, 250] (by decide) (by decide)
  have hbytes : SilProto.packMsg (4 : UInt8).toNat (7 : UInt32).toNat [1, 2, 3, 250]
      = some [77, 83, 1, 4, 4, 0, 7, 0, 0, 0, 103, 190, 237, 179, 1, 2, 3, 250] := by decide +kernel
  have hread : (SilProto.unpackMsg bytes).toOption = some (4, 7, [1, 2, 3, 250]) := by
    rw [hbytes, Option.some.injEq] at hplant
    rw [← hplant]
    decide +kernel
  exact ⟨bytes, hfirmware, hplant, hread, (framings_agree.1 bytes).trans hread⟩

end Wire

end DroneMini
