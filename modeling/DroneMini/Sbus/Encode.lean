import DroneMini.Sbus.Scan
import DroneMini.Plant.Rc
import DroneMini.Lib.BitPack

/-!
# What the parser reads of an encoded frame

The encoder packs 16 fields of 11 bits into 22 bytes, the parser takes each field out of two or three
of them. `channel_sbusEncode` says the parser reads what was packed, and `acceptable_sbusEncode` that
it accepts every encoded frame but those whose channels are all equal.
-/

namespace DroneMini

open SbusParser

/-- The encoder's bits are its channels packed in fields of 11 bits. -/
theorem sbusBits_eq (channels : List Nat) :
    sbusBits channels = packFields 11 (fun i => channels.getD i 0) 16 := by
  have h : ∀ n, (List.range n).foldl
      (fun bits i => bits ||| (channels.getD i 0 &&& 0x7FF) <<< (11 * i)) 0
        = packFields 11 (fun i => channels.getD i 0) n := by
    intro n
    induction n with
    | zero => rfl
    | succ n ih =>
        rw [List.range_succ, List.foldl_append, ih]
        rfl
  exact h 16

/-- A data byte of a frame carries eight of the bits. -/
theorem testBit_sbusEncode (channels : List Nat) (flags : Nat) {b k : Nat} (hb : b < 22)
    (hk : k < 8) :
    ((sbusEncode channels flags).getD (1 + b) 0).toNat.testBit k
      = (sbusBits channels).testBit (8 * b + k) := by
  have hget : (sbusEncode channels flags).getD (1 + b) 0
      = UInt8.ofNat ((sbusBits channels >>> (8 * b)) &&& 0xFF) := by
    rw [Nat.add_comm 1 b, sbusEncode, List.cons_append, List.getD_cons_succ,
      List.getD_eq_getElem?_getD, List.getElem?_append_left (by simp [hb]), List.getElem?_map,
      List.getElem?_range hb]
    rfl
  have hmask : ∀ n : Nat, (n &&& 0xFF).testBit k = n.testBit k := by
    intro n
    rw [show (0xFF : Nat) = 2 ^ 8 - 1 from rfl, testBit_and_mask]
    simp [hk]
  rw [hget, UInt8.toNat_ofNat', Nat.testBit_mod_two_pow, hmask, Nat.testBit_shiftRight]
  simp [hk]

/-- The bits of a byte and of the two behind it, read as one number. -/
theorem testBit_three_bytes (a b c : UInt8) (m : Nat) :
    (a.toNat ||| b.toNat <<< 8 ||| c.toNat <<< 16).testBit m
      = if m < 8 then a.toNat.testBit m
        else if m < 16 then b.toNat.testBit (m - 8) else c.toNat.testBit (m - 16) := by
  have high : ∀ (x : UInt8) (k : Nat), 8 ≤ k → x.toNat.testBit k = false := by
    intro x k hk
    refine Nat.testBit_eq_false_of_lt (Nat.lt_of_lt_of_le x.toNat_lt ?_)
    exact Nat.pow_le_pow_right (by decide) hk
  rw [Nat.testBit_or, Nat.testBit_or, Nat.testBit_shiftLeft, Nat.testBit_shiftLeft]
  by_cases h8 : m < 8
  · simp [h8, show ¬ 8 ≤ m by omega, show ¬ 16 ≤ m by omega]
  · rw [high a m (by omega), if_neg h8]
    by_cases h16 : m < 16
    · simp [h16, show 8 ≤ m by omega, show ¬ 16 ≤ m by omega]
    · rw [high b (m - 8) (by omega), if_neg h16]
      simp [show 16 ≤ m by omega]

/-- The parser reads bit `j` of channel `i` at bit `11 * i + j` behind the header. -/
theorem testBit_channel (f : List UInt8) {i j : Nat} (hj : j < 11) :
    (channel f i).testBit j
      = (f.getD (1 + (11 * i + j) / 8) 0).toNat.testBit ((11 * i + j) % 8) := by
  have hbyte : (11 * i) >>> 3 = 11 * i / 8 := Nat.shiftRight_eq_div_pow _ 3
  have hshift : 11 * i &&& 7 = 11 * i % 8 := Nat.and_two_pow_sub_one_eq_mod _ 3
  have hlow : ∀ x : Nat, (x &&& 0x7FF).testBit j = x.testBit j := by
    intro x
    rw [show (0x7FF : Nat) = 2 ^ 11 - 1 from rfl, testBit_and_mask]
    simp [hj]
  -- without a shift the third byte is not read, nor would its bits be
  obtain ⟨c, hc⟩ : ∃ c : UInt8, c = if 11 * i % 8 ≠ 0 then f.getD (1 + 11 * i / 8 + 2) 0 else 0 :=
    ⟨_, rfl⟩
  have hraw : (if 11 * i % 8 ≠ 0 then
        (f.getD (1 + 11 * i / 8) 0).toNat ||| (f.getD (1 + 11 * i / 8 + 1) 0).toNat <<< 8 |||
          (f.getD (1 + 11 * i / 8 + 2) 0).toNat <<< 16
      else (f.getD (1 + 11 * i / 8) 0).toNat ||| (f.getD (1 + 11 * i / 8 + 1) 0).toNat <<< 8)
      = (f.getD (1 + 11 * i / 8) 0).toNat ||| (f.getD (1 + 11 * i / 8 + 1) 0).toNat <<< 8 |||
          c.toNat <<< 16 := by
    rw [hc]
    split_ifs
    · rfl
    · simp
  simp only [channel, hbyte, hshift]
  rw [hlow, Nat.testBit_shiftRight, hraw, testBit_three_bytes]
  rcases Nat.lt_or_ge (11 * i % 8 + j) 8 with h8 | h8
  · rw [if_pos h8, show (11 * i + j) / 8 = 11 * i / 8 by omega,
      show (11 * i + j) % 8 = 11 * i % 8 + j by omega]
  · rw [if_neg (by omega)]
    rcases Nat.lt_or_ge (11 * i % 8 + j) 16 with h16 | h16
    · rw [if_pos h16, show 1 + (11 * i + j) / 8 = 1 + 11 * i / 8 + 1 by omega,
        show (11 * i + j) % 8 = 11 * i % 8 + j - 8 by omega]
    · rw [if_neg (by omega), hc, if_pos (by omega),
        show 1 + (11 * i + j) / 8 = 1 + 11 * i / 8 + 2 by omega,
        show (11 * i + j) % 8 = 11 * i % 8 + j - 16 by omega]

/-- **The parser reads what was packed**: channel `i` of an encoded frame is the `i`-th value of the list, cut
to 11 bits, and zero where the list is too short. -/
theorem channel_sbusEncode (channels : List Nat) (flags : Nat) {i : Nat} (hi : i < 16) :
    channel (sbusEncode channels flags) i = channels.getD i 0 &&& 0x7FF := by
  apply Nat.eq_of_testBit_eq
  intro j
  rw [show (0x7FF : Nat) = 2 ^ 11 - 1 from rfl, testBit_and_mask]
  by_cases hj : j < 11
  · rw [testBit_channel _ hj, testBit_sbusEncode _ _ (by omega) (Nat.mod_lt _ (by decide)),
      Nat.div_add_mod, sbusBits_eq, testBit_packFields (by decide),
      show (11 * i + j) / 11 = i by omega, show (11 * i + j) % 11 = j by omega]
    simp [hj, show 11 * i + j < 176 by omega]
  · have hlt : channel (sbusEncode channels flags) i < 2 ^ 11 := by
      rw [channel]
      exact Nat.lt_of_le_of_lt Nat.and_le_right (by decide)
    rw [Nat.testBit_eq_false_of_lt (Nat.lt_of_lt_of_le hlt
      (Nat.pow_le_pow_right (by decide) (by omega)))]
    simp [hj]

/-! ## Frames -/

/-- The channels have a first one, to which the parser compares the others when it looks for a stuck frame. -/
instance instNeZeroChannels : NeZero 16 := ⟨Nat.succ_ne_zero 15⟩

/-- A frame to be encoded: 16 channel values of 11 bits and four flag bits. -/
structure RcFrame where
  channels : Fin 16 → Fin 2048
  flags : Fin 16

namespace RcFrame

/-- The channel values, as the encoder and the parser list them. -/
def values (f : RcFrame) : List Nat := List.ofFn fun i => (f.channels i : Nat)

/-- The 25 bytes of a frame, as the encoder of the plant writes its channels and flags. -/
def encode (f : RcFrame) : List UInt8 := sbusEncode f.values f.flags

/-- All channels of the frame carry the same value, which the parser takes for a receiver that hangs and
rejects. -/
def Stuck (f : RcFrame) : Prop := ∀ i, f.channels i = f.channels 0

instance (f : RcFrame) : Decidable f.Stuck := inferInstanceAs (Decidable (∀ _, _))

@[simp] theorem length_encode (f : RcFrame) : f.encode.length = 25 := length_sbusEncode _ _

/-- The parser reads channel `i` of an encoded frame as the value it was encoded from. -/
theorem channel_encode (f : RcFrame) (i : Fin 16) : channel f.encode i = f.channels i := by
  have hv : f.values.getD i 0 = f.channels i := by
    rw [values, List.getD_eq_getElem?_getD, List.getElem?_ofFn, dif_pos i.isLt]
    rfl
  rw [encode, channel_sbusEncode _ _ i.isLt, hv, show (0x7FF : Nat) = 2 ^ 11 - 1 from rfl,
    Nat.and_two_pow_sub_one_eq_mod]
  exact Nat.mod_eq_of_lt (f.channels i).isLt

/-- The parser reads all sixteen channels of an encoded frame as the values it was encoded from. -/
theorem channels_encode (f : RcFrame) : SbusParser.channels f.encode = f.values := by
  apply List.ext_getElem
  · simp [SbusParser.channels, values]
  · intro i hi hi'
    have hlt : i < 16 := by rwa [values, List.length_ofFn] at hi'
    simp only [SbusParser.channels, values, List.getElem_map, List.getElem_range,
      List.getElem_ofFn]
    exact f.channel_encode ⟨i, hlt⟩

/-- The parser finds the frame stuck when all its channels are equal. -/
theorem stuck_encode (f : RcFrame) : stuck f.encode = decide f.Stuck := by
  rw [Bool.eq_iff_iff, decide_eq_true_iff, stuck, List.all_eq_true]
  constructor
  · intro h i
    rcases Nat.eq_zero_or_pos i with h0 | hpos
    · rw [Fin.val_eq_zero_iff.mp h0]
    · have hi := h i (List.mem_range'_1.mpr ⟨hpos, i.isLt⟩)
      rw [beq_iff_eq, channel_encode f i, show (0 : Nat) = (0 : Fin 16) from rfl,
        channel_encode f 0] at hi
      exact Fin.ext hi
  · intro h i hi
    rw [List.mem_range'_1] at hi
    have hlt : i < 16 := hi.2
    rw [beq_iff_eq, show i = (⟨i, hlt⟩ : Fin 16) from rfl, channel_encode f ⟨i, hlt⟩,
      show (0 : Nat) = (0 : Fin 16) from rfl, channel_encode f 0, h]

/-- **The parser accepts every encoded frame that is not stuck.** -/
theorem acceptable_encode (f : RcFrame) : acceptable f.encode = !decide f.Stuck := by
  have h0 : f.encode.getD 0 0 = kSbusHeader := rfl
  have h23 : f.encode.getD 23 0 = UInt8.ofNat (f.flags &&& 0x0F) := rfl
  have hnibble : ∀ n < 16, UInt8.ofNat n &&& 0xF0 = 0 := by decide
  rw [acceptable, h0, h23, hnibble _ (Nat.lt_of_le_of_lt Nat.and_le_right (by decide)),
    stuck_encode]
  rfl

end RcFrame

end DroneMini
