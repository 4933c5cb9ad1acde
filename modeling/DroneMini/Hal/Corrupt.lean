import DroneMini.Hal.Framing
import DroneMini.Hal.Sil

/-!
# Corrupted messages are rejected

A message whose covered bytes change within four consecutive ones has another checksum
(`crc32_ne_of_window`), and a change of the checksum itself leaves the covered bytes as they are. So a packed
message with one byte changed outside its length, or with a change within four bytes of its payload, is
no message any more. A wrong length changes what is covered and may be accepted by chance; then it is not
that of a state, and `recvState` refuses the message (`corrupted_rejected`).
-/

namespace DroneMini

namespace Wire

open LittleEndian Crc

/-- A buffer is rejected: `unpackMsg` returns a negative code for it. -/
def Rejected (buf : List UInt8) : Prop := ∃ code : Int, code < 0 ∧ unpackMsg buf = .error code

/-- Every code that `unpackMsg` returns for a failed check is negative. -/
theorem unpackMsg_error_neg {buf : List UInt8} {code : Int} (h : unpackMsg buf = .error code) :
    code < 0 := by
  unfold unpackMsg unpackMsgAt at h
  simp only at h
  split_ifs at h <;> cases h <;> decide

/-- A buffer that is no message of this build is rejected. -/
theorem rejected_of_not_framed {buf : List UInt8} (h : ¬ Framed buf) : Rejected buf := by
  cases hu : unpackMsg buf with
  | ok m => exact absurd (unpackMsg_ok_iff.mp hu).1 h
  | error code => exact ⟨code, unpackMsg_error_neg hu, hu⟩

/-- **A change within four consecutive bytes changes the checksum**, wherever the four bytes are. -/
theorem crc32_ne_of_window {xs ys : List UInt8} {k : Nat} (h : DifferAt k 4 xs ys) :
    crc32 ys ≠ crc32 xs :=
  crc32_ne_of_register_ne (byteRegister_ne_of_window poly_msb _ h (by decide))

/-! ## One changed byte -/

/-- A field away from the changed byte is as before. -/
theorem field_set_of_outside (buf : List UInt8) {i offset width : Nat} (b : UInt8)
    (h : i < offset ∨ offset + width ≤ i) :
    field (buf.set i b) offset width = field buf offset width := by
  rw [field, field]
  rcases h with h | h
  · rw [List.drop_set_of_lt h]
  · rw [List.drop_set, if_neg (by omega), List.take_set_of_le (by omega)]

/-- A field that covers a changed byte reads as another number. -/
theorem field_set_ne (offset width : Nat) {buf : List UInt8} {i : Nat} {b : UInt8} (h1 : offset ≤ i)
    (h2 : i < offset + width) (hfit : offset + width ≤ buf.length) (hb : buf[i]? ≠ some b) :
    field (buf.set i b) offset width ≠ field buf offset width := by
  have hslice : ((buf.set i b).drop offset).take width
      = ((buf.drop offset).take width).set (i - offset) b := by
    rw [List.drop_set, if_neg (by omega), List.take_set]
  have hget : ((buf.drop offset).take width)[i - offset]? = buf[i]? := by
    rw [List.getElem?_take_of_lt (by omega), List.getElem?_drop]
    congr 1
    omega
  have hin : i - offset < ((buf.drop offset).take width).length := by
    rw [List.length_take, List.length_drop]
    omega
  have hdiffer := differAt_set hin (by rw [hget]; exact hb) 0
  rw [field, field, hslice]
  exact fun heq => hdiffer.ne (leNat_injective hdiffer.length heq)

/-- The covered bytes of a message are as many as its own. -/
theorem length_covered {buf : List UInt8} (hf : Framed buf) :
    (covered buf).length = Hdr.size + field buf 4 2 := by
  have hlong := hf.long
  have hfits := hf.fits
  rw [Hdr.size] at hlong hfits
  rw [covered, body, List.length_append, List.length_append, List.length_take, List.length_take,
    List.length_drop, Hdr.size, show ([0, 0, 0, 0] : List UInt8).length = 4 from rfl]
  omega

/-- A covered byte outside the checksum is a byte of the message. -/
theorem covered_getElem? {buf : List UInt8} (hf : Framed buf) {i : Nat}
    (hi : i < 10 ∨ 14 ≤ i ∧ i < Hdr.size + field buf 4 2) : (covered buf)[i]? = buf[i]? := by
  have hlong := hf.long
  rw [Hdr.size] at hlong hi
  have h10 : (buf.take 10).length = 10 := by
    rw [List.length_take]
    omega
  have h14 : (buf.take 10 ++ [0, 0, 0, 0]).length = 14 := by
    rw [List.length_append, h10]
    rfl
  rw [covered]
  rcases hi with hi | ⟨hi, hlt⟩
  · rw [List.append_assoc, List.getElem?_append_left (by omega), List.getElem?_take_of_lt hi]
  · rw [List.getElem?_append_right (by omega), h14, body, Hdr.size, List.getElem?_take_of_lt (by omega),
      List.getElem?_drop]
    congr 1
    omega

/-- The bytes under the checksum, when a byte outside the length and the checksum changes. -/
theorem covered_set {buf : List UInt8} (hlong : Hdr.size ≤ buf.length) {i : Nat} (b : UInt8)
    (hi : i < 10 ∧ i ≠ 4 ∧ i ≠ 5 ∨ 14 ≤ i) : covered (buf.set i b) = (covered buf).set i b := by
  have hsize : Hdr.size = 14 := rfl
  have hfield : field (buf.set i b) 4 2 = field buf 4 2 := field_set_of_outside buf b (by omega)
  have h10 : (buf.take 10).length = 10 := by
    rw [List.length_take]
    omega
  rw [covered, covered, body, body, hfield, List.take_set, hsize]
  rcases hi with ⟨hi, -, -⟩ | hi
  · rw [List.drop_set_of_lt (by omega), List.set_append_left _ _ (by simp; omega),
      List.set_append_left _ _ (by omega)]
  · have hprefix : (buf.take 10 ++ [0, 0, 0, 0]).length = 14 := by
      rw [List.length_append, h10]
      rfl
    rw [List.set_eq_of_length_le (by omega), List.drop_set, if_neg (by omega), List.take_set,
      List.set_append_right _ _ (by omega), hprefix]

/-- A message whose byte outside the length is changed is no message. -/
theorem not_framed_set {buf : List UInt8} (hf : Framed buf)
    (hwhole : buf.length = Hdr.size + field buf 4 2) {i : Nat} {b : UInt8} (hi : i < buf.length)
    (h4 : i ≠ 4) (h5 : i ≠ 5) (hb : buf[i]? ≠ some b) : ¬ Framed (buf.set i b) := by
  have hsize : Hdr.size = 14 := rfl
  have hlong := hf.long
  intro hf'
  have hcrc := hf.crc
  have hcrc' := hf'.crc
  by_cases hmagic : i < 2
  · have hne := field_set_ne 0 2 (Nat.zero_le i) (by omega) (by omega) hb
    rw [hf.magic, hf'.magic] at hne
    exact hne rfl
  by_cases hver : i = 2
  · have hne := field_set_ne 2 1 (by omega) (by omega) (by omega) hb
    rw [hf.ver, hf'.ver] at hne
    exact hne rfl
  by_cases hsum : 10 ≤ i ∧ i < 14
  · -- the checksum itself: what it covers is as before
    have hcovered : covered (buf.set i b) = covered buf := by
      rw [covered, covered, body, body, field_set_of_outside buf b (by omega),
        List.take_set_of_le (by omega), List.drop_set_of_lt (by omega)]
    have hne := field_set_ne 10 4 hsum.1 (by omega) (by omega) hb
    rw [hcovered, hcrc] at hcrc'
    exact hne hcrc'.symm
  · -- a covered byte: the checksum changes, the stored one does not
    have hcovered := covered_set hlong b (i := i) (by omega)
    have hget : (covered buf)[i]? = buf[i]? := covered_getElem? hf (by omega)
    have hin : i < (covered buf).length := by
      rw [length_covered hf]
      omega
    have hdiffer := differAt_set hin (by rw [hget]; exact hb) 3
    rw [hcovered, field_set_of_outside buf b (by omega), ← hcrc] at hcrc'
    exact crc32_ne_of_window hdiffer (UInt32.toNat_inj.mp hcrc')

/-! ## A change in the payload -/

/-- The bytes under the checksum of a header and its payload are the first ten of the header, four zeros and
the payload. -/
theorem covered_append {hdr payload : List UInt8} (hhdr : hdr.length = Hdr.size)
    (hlen : field hdr 4 2 = payload.length) :
    covered (hdr ++ payload) = hdr.take 10 ++ [0, 0, 0, 0] ++ payload := by
  have hsize : Hdr.size = 14 := rfl
  have hfield : field (hdr ++ payload) 4 2 = payload.length := by
    rw [field_append_left payload (by omega), hlen]
  rw [covered, body, hfield, List.drop_left' hhdr, List.take_length,
    List.take_append_of_le_length (by omega)]

/-- A message whose payload is changed within four consecutive bytes is no message. -/
theorem not_framed_append {hdr payload payload' : List UInt8} (hhdr : hdr.length = Hdr.size)
    (hlen : field hdr 4 2 = payload.length) (hf : Framed (hdr ++ payload)) {k : Nat}
    (h : DifferAt k 4 payload payload') : ¬ Framed (hdr ++ payload') := by
  intro hf'
  have hsize : Hdr.size = 14 := rfl
  have hsum : ∀ p, field (hdr ++ p) 10 4 = field hdr 10 4 := fun p => field_append_left p (by omega)
  have hcrc := hf.crc
  have hcrc' := hf'.crc
  rw [covered_append hhdr hlen, hsum] at hcrc
  rw [covered_append hhdr (h.length ▸ hlen), hsum, ← hcrc] at hcrc'
  exact crc32_ne_of_window (h.append_left (hdr.take 10 ++ [0, 0, 0, 0])) (UInt32.toNat_inj.mp hcrc')

/-- A packed message is a header of fourteen bytes followed by its payload, with the length field telling how
long that is. -/
theorem packed_split (type : UInt8) (seq : UInt32) {payload : List UInt8}
    (hlen : payload.length ≤ 65535) : ∃ hdr, packed type seq payload = hdr ++ payload ∧
      hdr.length = Hdr.size ∧ field hdr 4 2 = payload.length := by
  obtain ⟨-, -, -, hfield, -⟩ := packedAt_fields kProtoVersion type seq hlen
  refine ⟨_, rfl, by simp [Hdr.size], ?_⟩
  exact (field_append_left payload (by simp)).symm.trans hfield

/-- Lists that agree outside a window differ in it, or not at all. -/
theorem differAt_of_agree {α : Type*} {xs ys : List α} {k n : Nat} (hlen : ys.length = xs.length)
    (h : ∀ j, j < k ∨ k + n ≤ j → ys[j]? = xs[j]?) (hne : ys ≠ xs) : DifferAt k n xs ys := by
  refine ⟨hlen, ?_, ?_, hne⟩
  · apply List.ext_getElem?
    intro j
    by_cases hj : j < k
    · rw [List.getElem?_take_of_lt hj, List.getElem?_take_of_lt hj, h j (.inl hj)]
    · rw [List.getElem?_take_eq_none (by omega), List.getElem?_take_eq_none (by omega)]
  · apply List.ext_getElem?
    intro j
    rw [List.getElem?_drop, List.getElem?_drop, h _ (.inr (by omega))]

/-! ## Received states -/

/-- The bytes of a STATE payload are as many as `sizeof(StateRc)`. -/
theorem length_stateBytes (st : StateRc) : st.bytes.length = StateRc.size := by
  simp [StateRc.bytes, StateRc.size, List.length_flatMap]

/-- A message whose length field is not that of a state is not accepted as one. -/
theorem recvState_ne_ok {K : Type} (hal : SilHal K) {buf : List UInt8}
    (h : Framed (buf.take SilHal.rxSize) → field (buf.take SilHal.rxSize) 4 2 ≠ StateRc.size) :
    ∃ r, r ≠ .kOk ∧ hal.recvState (.data buf) = (r, hal) := by
  cases hrecv : hal.recvState (.data buf) with
  | mk r hal' =>
      have hr : r ≠ .kOk := by
        rintro rfl
        obtain ⟨⟨hdr, payload⟩, hm, -, hlen, -⟩ := SilHal.recvState_ok_message hrecv
        have hne : buf ≠ [] := by
          rintro rfl
          cases hm
        rw [SilHal.recvInto_data hne] at hm
        have hunpack : unpackMsg (buf.take SilHal.rxSize) = .ok (hdr, payload) := by
          cases hu : unpackMsg (buf.take SilHal.rxSize) with
          | error code =>
              rw [hu] at hm
              cases hm
          | ok m =>
              rw [hu] at hm
              cases hm
              rfl
        obtain ⟨hf, rfl, -⟩ := unpackMsg_ok_iff.mp hunpack
        rw [ofBytes_len] at hlen
        exact h hf hlen
      obtain rfl := SilHal.recvState_of_not_ok hrecv hr
      exact ⟨r, hr, rfl⟩

/-- A packed message is as long as its length field says. -/
theorem length_packed_eq (type : UInt8) (seq : UInt32) {payload : List UInt8}
    (hlen : payload.length ≤ 65535) :
    (packed type seq payload).length = Hdr.size + field (packed type seq payload) 4 2 := by
  rw [length_packedAt, (packedAt_fields kProtoVersion type seq hlen).2.2.2.1]

/-- **Corrupted messages are rejected.** One changed byte outside the length of a packed message, or a
change within four consecutive bytes of its payload, makes `unpackMsg` return a negative code; one changed
byte anywhere in a packed state makes `recvState` refuse it and keep its state. -/
theorem corrupted_rejected {K : Type} :
    (∀ (cap : Nat) (type : UInt8) (seq : UInt32) (payload buf : List UInt8), payload.length ≤ 65535 →
      packMsg cap type seq payload = some buf →
      (∀ (i : Nat) (b : UInt8), i < buf.length → i ≠ 4 → i ≠ 5 → buf[i]? ≠ some b →
        Rejected (buf.set i b)) ∧
      (∀ (k : Nat) (payload' : List UInt8), payload'.length = payload.length →
        (∀ j, j < k ∨ k + 4 ≤ j → payload'[j]? = payload[j]?) → payload' ≠ payload →
        Rejected (buf.take Hdr.size ++ payload'))) ∧
    (∀ (cap : Nat) (seq : UInt32) (st : StateRc) (buf : List UInt8) (hal : SilHal K),
      packMsg cap MsgType.kState.code seq st.bytes = some buf →
      ∀ (i : Nat) (b : UInt8), i < buf.length → buf[i]? ≠ some b →
        ∃ r, r ≠ .kOk ∧ hal.recvState (.data (buf.set i b)) = (r, hal)) := by
  constructor
  · intro cap type seq payload buf hlen hpack
    obtain rfl := packMsg_eq_some hlen hpack
    have hf : Framed (packed type seq payload) := framedAt_packedAt kProtoVersion type seq hlen
    constructor
    · intro i b hi h4 h5 hb
      exact rejected_of_not_framed (not_framed_set hf (length_packed_eq type seq hlen) hi h4 h5 hb)
    · intro k payload' hlen' hagree hne
      obtain ⟨hdr, hsplit, hhdr, hlenfield⟩ := packed_split type seq hlen
      rw [hsplit] at hf ⊢
      rw [List.take_left' hhdr]
      exact rejected_of_not_framed
        (not_framed_append hhdr hlenfield hf (differAt_of_agree hlen' hagree hne))
  · intro cap seq st buf hal hpack i b hi hb
    have hlen : st.bytes.length ≤ 65535 := by
      rw [length_stateBytes]
      decide
    obtain rfl := packMsg_eq_some hlen hpack
    have hf := framedAt_packedAt kProtoVersion MsgType.kState.code seq hlen
    have hlength := length_packedAt kProtoVersion MsgType.kState.code seq st.bytes
    have hrx : ((packed MsgType.kState.code seq st.bytes).set i b).length ≤ SilHal.rxSize := by
      rw [List.length_set, hlength, length_stateBytes]
      decide
    refine recvState_ne_ok hal ?_
    rw [List.take_of_length_le hrx]
    intro hf'
    by_cases hi45 : i = 4 ∨ i = 5
    · -- the length field itself: it is not that of a state
      have hne := field_set_ne 4 2 (by omega) (by omega) (by rw [hlength, Hdr.size]; omega) hb
      rw [(packedAt_fields kProtoVersion MsgType.kState.code seq hlen).2.2.2.1, length_stateBytes] at hne
      exact hne
    · rw [not_or] at hi45
      exact absurd hf'
        (not_framed_set hf (length_packed_eq MsgType.kState.code seq hlen) hi hi45.1 hi45.2 hb)

/-- A reply of four bytes whose third payload byte is changed, or a byte of its checksum, or its first and its last
payload byte; and a state whose length is changed, which a newly constructed HAL refuses. -/
theorem corrupted_rejected_reply :
    (∃ buf, packMsg 256 MsgType.kFwOut.code 7 [10, 20, 30, 40] = some buf ∧ Rejected (buf.set 16 31) ∧
      Rejected (buf.set 10 0) ∧ Rejected (buf.take Hdr.size ++ [11, 20, 30, 41])) ∧
    ∃ buf r, packMsg 256 MsgType.kState.code 1 StateRc.zero.bytes = some buf ∧ r ≠ .kOk ∧
      (SilHal.new : SilHal ℚ).recvState (.data (buf.set 4 0)) = (r, SilHal.new) := by
  obtain ⟨hmsg, hstate⟩ := corrupted_rejected (K := ℚ)
  have hpack : packMsg 256 MsgType.kFwOut.code 7 [10, 20, 30, 40]
      = some [77, 83, 1, 4, 4, 0, 7, 0, 0, 0, 64, 57, 246, 235, 10, 20, 30, 40] := by decide +kernel
  obtain ⟨hbyte, hburst⟩ := hmsg _ _ _ _ _ (by decide) hpack
  have hagree : ∀ j, j < 0 ∨ 0 + 4 ≤ j →
      ([11, 20, 30, 41] : List UInt8)[j]? = ([10, 20, 30, 40] : List UInt8)[j]? := by
    intro j hj
    rw [List.getElem?_eq_none (by simp; omega), List.getElem?_eq_none (by simp; omega)]
  have hzero : StateRc.zero.bytes.length = StateRc.size := length_stateBytes _
  have hpacked : packMsg 256 MsgType.kState.code 1 StateRc.zero.bytes
      = some (packed MsgType.kState.code 1 StateRc.zero.bytes) :=
    packMsg_eq _ _ (by rw [hzero]; decide) (by rw [hzero]; decide)
  have hlong : 4 < (packed MsgType.kState.code 1 StateRc.zero.bytes).length := by
    rw [length_packedAt, Hdr.size]
    omega
  obtain ⟨r, hr, hrefused⟩ := hstate 256 1 .zero _ .new hpacked 4 0 hlong (by decide)
  exact ⟨⟨_, hpack, hbyte 16 31 (by decide) (by decide) (by decide) (by decide),
    hbyte 10 0 (by decide) (by decide) (by decide) (by decide),
    hburst 0 [11, 20, 30, 41] rfl hagree (by decide)⟩, _, r, hpacked, hr, hrefused⟩

end Wire

end DroneMini
