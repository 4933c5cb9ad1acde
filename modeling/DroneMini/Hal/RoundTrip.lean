import DroneMini.Hal.Framing

/-!
# The framing round trip, for payloads of every size

`packMsg` takes its sizes as `int`, adds them, and stores the size of the payload in 16 bits. Here it runs
on the numbers it is given: the sum may leave the range of `int`, and the stored size may not be the size.
`packMsgInt_eq` says that it is the `packMsg` of the framing as long as the sum is an `int`, and
`roundTrips_iff` which messages `unpackMsg` reads back.
-/

namespace DroneMini

namespace Wire

open LittleEndian

/-- The largest `int` of the platform, past which the sum of the two sizes in `packMsg` overflows. -/
def INT_MAX : Int := 2147483647

/-- A payload whose size can be passed to `packMsg`, which takes it as an `int`. -/
abbrev Payload := { b : List UInt8 // (b.length : Int) ≤ INT_MAX }

/-- What a call of `packMsg` comes to: -1, a total and the bytes in front of it, or a sum that is not an
`int`, on which the source has no meaning. -/
inductive PackResult where
  | refused
  | written (total : Nat) (buf : List UInt8)
  | overflow
  deriving DecidableEq

/-- `packMsg` with the arithmetic of its arguments: sizes are `int`s, their sum can overflow, and the length
field keeps sixteen bits. -/
def packMsgInt (cap : Int) (type : UInt8) (seq : UInt32) (payload : List UInt8) (payloadLen : Int) :
    PackResult :=
  if payloadLen < 0 then .refused
  else if INT_MAX < Hdr.size + payloadLen then .overflow
  else if cap < Hdr.size + payloadLen then .refused
  else
    let h : Hdr := ⟨kMagic, kProtoVersion, type, .ofNat payloadLen.toNat, seq, 0⟩
    let body := payload.take payloadLen.toNat
    .written (Hdr.size + payloadLen.toNat) ({ h with crc := crc32 (h.bytes ++ body) }.bytes ++ body)

/-- As long as the sum is an `int`, this is `packMsg` on natural numbers. -/
theorem packMsgInt_eq (cap : Int) (type : UInt8) (seq : UInt32) {payload : List UInt8}
    (h : (Hdr.size + payload.length : Int) ≤ INT_MAX) : packMsgInt cap type seq payload payload.length =
      match packMsg cap.toNat type seq payload with
      | none => .refused
      | some buf => .written (Hdr.size + payload.length) buf := by
  have hsize : Hdr.size = 14 := rfl
  rw [packMsgInt, packMsg, packMsgAt, if_neg (by omega), if_neg (by omega), Int.toNat_natCast, List.take_length]
  by_cases hcap : cap < Hdr.size + payload.length
  · rw [if_pos hcap, if_pos (by omega)]
  · rw [if_neg hcap, if_neg (by omega)]

/-- The round trip of one call: it returns -1, or a total within the capacity whose bytes are read back
as the message with that type, sequence number, length and payload. -/
def RoundTrips (cap : Int) (type : UInt8) (seq : UInt32) (payload : Payload) : Prop :=
  packMsgInt cap type seq payload.1 payload.1.length = .refused ∨
    ∃ total buf, packMsgInt cap type seq payload.1 payload.1.length = .written total buf ∧
      total = Hdr.size + payload.1.length ∧ (total : Int) ≤ cap ∧
      ∃ h, unpackMsg (buf.take total) = .ok (h, payload.1) ∧ h.type = type ∧ h.seq = seq ∧
        h.len.toNat = payload.1.length

/-- A message whose length fits into its field is read back. -/
theorem unpackMsg_packed (type : UInt8) (seq : UInt32) {payload : List UInt8}
    (hlen : payload.length ≤ 65535) : ∃ h, unpackMsg (packed type seq payload) = .ok (h, payload) ∧
      h.type = type ∧ h.seq = seq ∧ h.len.toNat = payload.length := by
  obtain ⟨-, -, htype, hfield, hseq, -⟩ := packedAt_fields kProtoVersion type seq hlen
  have hbody : payload = body (packed type seq payload) := (body_packedAt kProtoVersion type seq hlen).symm
  refine ⟨_, unpackMsg_ok_iff.mpr ⟨framedAt_packedAt kProtoVersion type seq hlen, rfl, hbody⟩, ?_, ?_, ?_⟩
  · show UInt8.ofNat (field (packedAt kProtoVersion type seq payload) 3 1) = type
    rw [htype, UInt8.ofNat_toNat]
  · show UInt32.ofNat (field (packedAt kProtoVersion type seq payload) 6 4) = seq
    rw [hseq, UInt32.ofNat_toNat]
  · rw [ofBytes_len]
    exact hfield

/-- A message that is read back has a length that fits into its field, unless it is refused for its sum. -/
theorem RoundTrips.fits {cap : Int} {type : UInt8} {seq : UInt32} {payload : Payload}
    (h : RoundTrips cap type seq payload) : payload.1.length ≤ 65535 ∨
      (cap < Hdr.size + payload.1.length ∧ (Hdr.size + payload.1.length : Int) ≤ INT_MAX) := by
  obtain ⟨payload, hint⟩ := payload
  rcases h with hrefused | ⟨total, buf, hwritten, -, -, h, hunpack, -, -, hlen⟩
  · -- the call returns -1 for one reason only: the payload has no negative size
    unfold packMsgInt at hrefused
    rw [if_neg (by omega)] at hrefused
    split_ifs at hrefused with hover hcap
    exact .inr ⟨hcap, not_lt.mp hover⟩
  · left
    have hfield : h.len.toNat < 65536 := h.len.toNat_lt
    rwa [← hlen, ← Nat.lt_succ_iff]

/-- **A message is read back exactly when its payload has at most 65535 bytes, or it is refused.** A
longer payload that fits into the buffer is written with the lower 16 bits of its length. -/
theorem roundTrips_iff (cap : Int) (type : UInt8) (seq : UInt32) (payload : Payload) :
    RoundTrips cap type seq payload ↔ payload.1.length ≤ 65535 ∨
      (cap < Hdr.size + payload.1.length ∧ (Hdr.size + payload.1.length : Int) ≤ INT_MAX) := by
  refine ⟨RoundTrips.fits, ?_⟩
  obtain ⟨payload, hint⟩ := payload
  have hsize : Hdr.size = 14 := rfl
  dsimp only [RoundTrips]
  intro hcond
  have hsum : (Hdr.size + payload.length : Int) ≤ INT_MAX := by
    rcases hcond with hlen | ⟨-, hsum⟩
    · rw [hsize, INT_MAX]
      omega
    · exact hsum
  rw [packMsgInt_eq cap type seq hsum]
  by_cases hcap : Hdr.size + payload.length ≤ cap.toNat
  · have hlen : payload.length ≤ 65535 := by
      rcases hcond with hlen | ⟨hover, -⟩
      · exact hlen
      · omega
    have htake : (packed type seq payload).take (Hdr.size + payload.length) = packed type seq payload :=
      List.take_of_length_le (length_packedAt kProtoVersion type seq payload).le
    rw [packMsg_eq type seq hlen hcap]
    refine .inr ⟨_, _, rfl, rfl, by omega, ?_⟩
    rw [htake]
    exact unpackMsg_packed type seq hlen
  · rw [packMsg, packMsgAt, if_pos (not_le.mp hcap)]
    exact .inl rfl

/-- A payload of 65536 zeros, the shortest whose length does not fit into the length field. -/
def oversized : Payload := ⟨List.replicate 65536 0, by rw [List.length_replicate]; decide⟩

/-- The payload of 65536 zeros is written with the length 0 when there is room for it, so `unpackMsg` does not
give it back. -/
theorem not_roundTrips : ¬ ∀ (cap : Int) (type : UInt8) (seq : UInt32) (payload : Payload),
    RoundTrips cap type seq payload := by
  intro h
  have hlen : oversized.1.length = 65536 := List.length_replicate
  rcases (h 65550 4 1 oversized).fits with hshort | ⟨hcap, -⟩
  · omega
  · rw [hlen] at hcap
    exact absurd hcap (by decide)

end Wire

end DroneMini
