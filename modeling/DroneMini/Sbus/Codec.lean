import DroneMini.Lib.FltRat
import DroneMini.Sbus.Encode

/-!
# The two SBUS codecs

The firmware takes a channel out of two or three bytes, the plant shifts one number of 176 bits. Both
read bit `j` of channel `i` at bit `11 * i + j` behind the header, and the encoder writes it there, so
the three agree (`sbus_codecs_agree`).
-/

namespace DroneMini

open SbusParser LittleEndian

/-- A channel that the parser reads is below 2048, since `channel` cuts it to 11 bits. -/
theorem channel_lt (f : List UInt8) (i : Nat) : channel f i < 2 ^ 11 :=
  Nat.lt_of_le_of_lt Nat.and_le_right (by decide)

/-- A byte of the 22 data bytes of a frame, which the plant slices out of it, is the byte one further into the
frame. -/
theorem getD_data (f : List UInt8) {b : Nat} (hb : b < 22) :
    ((f.drop 1).take 22).getD b 0 = f.getD (1 + b) 0 := by
  rw [List.getD_eq_getElem?_getD, List.getElem?_take_of_lt hb, List.getElem?_drop,
    List.getD_eq_getElem?_getD]

/-- The channel of the plant is the channel of the firmware. -/
theorem decoded_channel (f : List UInt8) {i : Nat} (hi : i < 16) :
    (leNat ((f.drop 1).take 22) >>> (11 * i)) &&& 0x7FF = channel f i := by
  apply Nat.eq_of_testBit_eq
  intro j
  rw [show (0x7FF : Nat) = 2 ^ 11 - 1 from rfl, testBit_and_mask, Nat.testBit_shiftRight]
  rcases Nat.lt_or_ge j 11 with hj | hj
  · rw [testBit_leNat, getD_data f (by omega), testBit_channel f hj, decide_eq_true hj, Bool.and_true]
  · rw [decide_eq_false (Nat.not_lt.mpr hj), Bool.and_false, Nat.testBit_eq_false_of_lt]
    exact (channel_lt f i).trans_le (Nat.pow_le_pow_right (by decide) hj)

/-- A frame with a header decodes to the channels of the firmware. -/
theorem sbusDecode_eq {f : List UInt8} (hlen : f.length = 25) (hhead : f.getD 0 0 = 0x0F) :
    sbusDecode f = .ok (channels f, f.getD 23 0) := by
  unfold sbusDecode channels
  rw [if_neg (not_not_intro hlen), if_neg (not_not_intro hhead)]
  refine congrArg (fun ch => Except.ok (ch, f.getD 23 0)) (List.map_congr_left fun i hi => ?_)
  exact decoded_channel f (List.mem_range.mp hi)

/-- The parser's guard, said of the channels: any two of them are equal. -/
theorem stuck_iff (f : List UInt8) :
    stuck f = true ↔ ∀ a ∈ channels f, ∀ b ∈ channels f, a = b := by
  have hstuck : stuck f = true ↔ ∀ i < 16, channel f i = channel f 0 := by
    simp only [stuck, List.all_eq_true, List.mem_range'_1, beq_iff_eq]
    constructor
    · intro h i hi
      rcases Nat.eq_zero_or_pos i with rfl | hpos
      · rfl
      · exact h i ⟨hpos, hi⟩
    · exact fun h i hi => h i hi.2
  simp only [hstuck, channels, List.forall_mem_map, List.mem_range]
  exact ⟨fun h i hi k hk => (h i hi).trans (h k hk).symm, fun h i hi => h i hi 0 (by decide)⟩

/-- The plant reads an encoded list of channels back as that list, padded with zeros to sixteen channels. -/
theorem channels_sbusEncode {ch : List Nat} {flags : Nat} (hlen : ch.length ≤ 16)
    (hch : ∀ v ∈ ch, v ≤ 2047) :
    channels (sbusEncode ch flags) = ch ++ List.replicate (16 - ch.length) 0 := by
  apply List.ext_getElem
  · simp [channels, hlen]
  · intro i hi hi'
    have hlt : i < 16 := by simpa [channels] using hi
    simp only [channels, List.getElem_map, List.getElem_range]
    rw [channel_sbusEncode ch flags hlt, show (0x7FF : Nat) = 2 ^ 11 - 1 from rfl,
      Nat.and_two_pow_sub_one_eq_mod]
    rcases Nat.lt_or_ge i ch.length with h | h
    · rw [List.getElem_append_left h, List.getD_eq_getElem _ _ h]
      exact Nat.mod_eq_of_lt (Nat.lt_succ_of_le (hch _ (List.getElem_mem h)))
    · rw [List.getElem_append_right h, List.getElem_replicate, List.getD_eq_default _ _ h, Nat.zero_mod]

/-- The data bytes of a frame are written back from its channels. -/
theorem getD_sbusEncode_channels (f : List UInt8) (flags : Nat) {b : Nat} (hb : b < 22) :
    (sbusEncode (channels f) flags).getD (1 + b) 0 = f.getD (1 + b) 0 := by
  apply UInt8.toNat_inj.mp
  apply Nat.eq_of_testBit_eq
  intro k
  rcases Nat.lt_or_ge k 8 with hk | hk
  · have hi : (8 * b + k) / 11 < 16 := by omega
    have hget : (channels f).getD ((8 * b + k) / 11) 0 = channel f ((8 * b + k) / 11) := by
      rw [channels, List.getD_eq_getElem _ _ (by simpa using hi), List.getElem_map, List.getElem_range]
    rw [testBit_sbusEncode _ _ hb hk, sbusBits_eq, testBit_packFields (by decide),
      decide_eq_true (by omega : 8 * b + k < 11 * 16), Bool.true_and, hget,
      testBit_channel f (Nat.mod_lt _ (by decide)), Nat.div_add_mod,
      show (8 * b + k) / 8 = b by omega, show (8 * b + k) % 8 = k by omega]
  · have hlt (x : UInt8) : x.toNat.testBit k = false :=
      Nat.testBit_eq_false_of_lt (x.toNat_lt.trans_le (Nat.pow_le_pow_right (by decide) hk))
    rw [hlt, hlt]

/-- A frame with a clear upper flag nibble and a clear footer is written back from its channels. -/
theorem sbusEncode_channels {f : List UInt8} (hlen : f.length = 25) (hhead : f.getD 0 0 = 0x0F)
    (hflags : f.getD 23 0 &&& 0xF0 = 0) (hfoot : f.getD 24 0 = 0) :
    sbusEncode (channels f) (f.getD 23 0).toNat = f := by
  have hnibble : ∀ n < 256, UInt8.ofNat n &&& 0xF0 = 0 → UInt8.ofNat (n &&& 0x0F) = UInt8.ofNat n := by
    decide +kernel
  apply List.ext_getElem
  · rw [length_sbusEncode, hlen]
  · intro i hi hi'
    rw [← List.getD_eq_getElem _ 0 hi, ← List.getD_eq_getElem _ 0 hi']
    rw [length_sbusEncode] at hi
    have hplace : i = 0 ∨ (∃ b < 22, i = 1 + b) ∨ i = 23 ∨ i = 24 := by
      rcases Nat.lt_or_ge i 1 with h | h
      · exact .inl (by omega)
      · rcases Nat.lt_or_ge i 23 with h' | h'
        · exact .inr (.inl ⟨i - 1, by omega, by omega⟩)
        · exact .inr (.inr (by omega))
    rcases hplace with rfl | ⟨b, hb, rfl⟩ | rfl | rfl
    · exact hhead.symm
    · exact getD_sbusEncode_channels f _ hb
    · have hflag := hnibble (f.getD 23 0).toNat (f.getD 23 0).toNat_lt
      rw [UInt8.ofNat_toNat] at hflag
      exact hflag hflags
    · exact hfoot.symm

/-- **The SBUS codecs agree bit for bit.** The plant decodes what the parser reads; what the encoder
writes is decoded, and what is decoded is written back. -/
theorem sbus_codecs_agree {K : Type} [Field K] [LinearOrder K] [FloatEnv K] :
    (∀ (f : List UInt8) (out : RcSample K), f.length = 25 → f.getD 0 0 = 0x0F →
      sbusDecode f = .ok ((List.range 16).map (channel f), f.getD 23 0) ∧
        ((decodeFrame f out).isSome ↔
          f.getD 23 0 &&& 0xF0 = 0 ∧ ¬ ∀ a ∈ channels f, ∀ b ∈ channels f, a = b)) ∧
    (∀ (ch : List Nat) (flags : Nat), ch.length ≤ 16 → (∀ v ∈ ch, v ≤ 2047) → flags ≤ 15 →
      sbusDecode (sbusEncode ch flags) =
        .ok (ch ++ List.replicate (16 - ch.length) 0, UInt8.ofNat flags)) ∧
    ∀ f : List UInt8, f.length = 25 → f.getD 0 0 = 0x0F → f.getD 23 0 &&& 0xF0 = 0 → f.getD 24 0 = 0 →
      ∃ ch flags, sbusDecode f = .ok (ch, flags) ∧ sbusEncode ch flags.toNat = f := by
  refine ⟨fun f out hlen hhead => ⟨sbusDecode_eq hlen hhead, ?_⟩, fun ch flags hlen hch hflags => ?_,
    fun f hlen hhead hflags hfoot => ⟨_, _, sbusDecode_eq hlen hhead,
      sbusEncode_channels hlen hhead hflags hfoot⟩⟩
  · have hstuck := stuck_iff f
    rw [decodeFrame_isSome, acceptable, hhead, Bool.and_eq_true, Bool.and_eq_true, Bool.not_eq_true',
      ← Bool.not_eq_true, hstuck, beq_iff_eq, beq_iff_eq]
    exact ⟨fun h => ⟨h.1.2, h.2⟩, fun h => ⟨⟨rfl, h.1⟩, h.2⟩⟩
  · have hbyte : (sbusEncode ch flags).getD 23 0 = UInt8.ofNat flags := by
      show UInt8.ofNat (flags &&& 0x0F) = _
      rw [show (0x0F : Nat) = 2 ^ 4 - 1 from rfl, Nat.and_two_pow_sub_one_eq_mod,
        Nat.mod_eq_of_lt (Nat.lt_succ_of_le hflags)]
    rw [sbusDecode_eq (length_sbusEncode ch flags) rfl, channels_sbusEncode hlen hch, hbyte]

/-- A frame with four channels at their ends and in the middle, the two digital channels and the failsafe flag. -/
def mixedFrame : List UInt8 := sbusEncode [172, 992, 1811, 2047] 11

/-- An encoded frame whose sixteen channels all have the value 992, which the parser rejects as stuck. -/
def stuckFrame : List UInt8 := sbusEncode (List.replicate 16 992) 0

/-- The two sides read the mixed frame alike, its encoder is undone by its decoder and its decoder by its encoder;
the frame of one value is decoded by the plant and refused by the parser. -/
theorem sbus_codecs_agree_mixed :
    sbusDecode mixedFrame = .ok ((List.range 16).map (channel mixedFrame), 11) ∧
      (decodeFrame mixedFrame (.zero : RcSample ℚ)).isSome ∧
      (sbusDecode stuckFrame = .ok ((List.range 16).map (channel stuckFrame), 0) ∧
        ¬ (decodeFrame stuckFrame (.zero : RcSample ℚ)).isSome) ∧
      sbusDecode (sbusEncode [172, 992, 1811, 2047] 11)
        = .ok ([172, 992, 1811, 2047] ++ List.replicate 12 0, 11) ∧
      ∃ ch flags, sbusDecode mixedFrame = .ok (ch, flags) ∧ sbusEncode ch flags.toNat = mixedFrame := by
  obtain ⟨hread, hback, hforth⟩ := sbus_codecs_agree (K := ℚ)
  obtain ⟨hmixed, haccepted⟩ := hread mixedFrame .zero rfl rfl
  obtain ⟨hstuck, hrefused⟩ := hread stuckFrame .zero rfl rfl
  refine ⟨hmixed, haccepted.mpr (by decide), ⟨hstuck, fun h => ?_⟩,
    hback [172, 992, 1811, 2047] 11 (by decide) (by decide) (by decide),
    hforth mixedFrame rfl rfl (by decide) rfl⟩
  exact (hrefused.mp h).2 (by decide)

end DroneMini
