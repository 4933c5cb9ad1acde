import DroneMini.Hal.Wire
import DroneMini.Lib.Crc

/-!
# The table checksum is the bitwise one

`crc32Update` takes a byte at a time with one look into a table of 256 words. `crc32Update_toBitVec` says
that this is the bitwise register of `Crc` over the polynomial `0xEDB88320`: the table's word is that of
the low octet after eight shifts, and the other octets only move down.
-/

namespace DroneMini

namespace Wire

open Crc

/-- The polynomial of the checksum, as a word of bits. -/
def poly : BitVec 32 := kPoly.toBitVec

/-- The polynomial has its top bit set, which the algebra of the register asks of it. -/
theorem poly_msb : poly.msb = true := by decide

/-- The test `c & 1` of the source looks at the lowest bit of the register. -/
theorem and_one_eq_one_iff (c : UInt32) : c &&& 1 = 1 ↔ c.toBitVec.getLsbD 0 = true := by
  rw [← UInt32.toBitVec_inj, UInt32.toBitVec_and]
  have hone : (1 : UInt32).toBitVec = 1#32 := rfl
  rw [hone, BitVec.and_one_eq_setWidth_ofBool_getLsbD]
  cases c.toBitVec.getLsbD 0 <;> decide

/-- A turn of the inner loop of `buildTable` is a shift. -/
theorem crcShift_toBitVec (c : UInt32) : (crcShift c).toBitVec = shift poly c.toBitVec := by
  unfold crcShift shift
  by_cases h : c.toBitVec.getLsbD 0 = true
  · rw [if_pos ((and_one_eq_one_iff c).mpr h), if_pos h, UInt32.toBitVec_xor,
      UInt32.toBitVec_shiftRight]
    rfl
  · rw [if_neg fun hone => h ((and_one_eq_one_iff c).mp hone), if_neg h,
      UInt32.toBitVec_shiftRight]
    rfl

/-- An entry of the table is eight shifts of its index. -/
theorem table_toBitVec (i : UInt32) : (table i).toBitVec = shifts poly 8 i.toBitVec := by
  have h : ∀ n, (crcShift^[n] i).toBitVec = shifts poly n i.toBitVec := by
    intro n
    induction n with
    | zero => rfl
    | succ n ih =>
        rw [Function.iterate_succ_apply', crcShift_toBitVec, ih, shifts, shifts,
          Function.iterate_succ_apply']
  exact h 8

/-- The mask 255 has exactly its low eight bits set. -/
theorem getLsbD_octet (i : Nat) : (255#32).getLsbD i = decide (i < 8) := by
  rw [BitVec.getLsbD_ofNat, show (255 : Nat) = 2 ^ 8 - 1 by rfl, Nat.testBit_two_pow_sub_one]
  by_cases h : i < 8
  · simp [h, show i < 32 by omega]
  · simp [h]

/-- A word is the exclusive or of its low octet and the rest. -/
theorem octet_xor_rest (x : BitVec 32) : x = (x &&& 255#32) ^^^ (x &&& ~~~255#32) := by
  apply BitVec.eq_of_getLsbD_eq
  intro i hi
  rw [BitVec.getLsbD_xor, BitVec.getLsbD_and, BitVec.getLsbD_and, BitVec.getLsbD_not]
  cases x.getLsbD i <;> cases (255#32).getLsbD i <;> simp [hi]

/-- What the mask of the low octet takes away does not matter to a word that moves down by eight bits. -/
theorem rest_shiftRight (x : BitVec 32) : (x &&& ~~~255#32) >>> 8 = x >>> 8 := by
  apply BitVec.eq_of_getLsbD_eq
  intro i hi
  rw [BitVec.getLsbD_ushiftRight, BitVec.getLsbD_ushiftRight, BitVec.getLsbD_and, BitVec.getLsbD_not,
    getLsbD_octet]
  by_cases h : 8 + i < 32
  · simp [h]
  · simp [BitVec.getLsbD_of_ge x (8 + i) (by omega)]

/-- A byte as a word has nothing above its octet, so moving it down by eight bits leaves zero. -/
theorem byte_shiftRight (b : UInt8) : b.toUInt32.toBitVec >>> 8 = 0#32 := by
  have hlt := b.toNat_lt
  apply BitVec.eq_of_toNat_eq
  rw [BitVec.toNat_ushiftRight, UInt32.toNat_toBitVec, UInt8.toNat_toUInt32, Nat.shiftRight_eq_div_pow]
  exact Nat.div_eq_of_lt hlt

/-- Eight shifts of a word take the table's word for its low octet. -/
theorem shifts_eight (x : BitVec 32) :
    shifts poly 8 x = shifts poly 8 (x &&& 255#32) ^^^ (x >>> 8) := by
  have hclear : ∀ i < 8, (x &&& ~~~255#32).getLsbD i = false := by
    intro i hi
    rw [BitVec.getLsbD_and, BitVec.getLsbD_not, getLsbD_octet]
    simp [hi]
  rw [shifts_split (octet_xor_rest x) hclear, rest_shiftRight]

/-- A step of `crc32Update` adds a byte to the register. -/
theorem crcStep_toBitVec (c : UInt32) (b : UInt8) :
    (table ((c ^^^ b.toUInt32) &&& 0xFF) ^^^ (c >>> 8)).toBitVec
      = byteRegister poly c.toBitVec [b] := by
  have hmask : ((c ^^^ b.toUInt32) &&& 0xFF).toBitVec = (c ^^^ b.toUInt32).toBitVec &&& 255#32 := by
    rw [UInt32.toBitVec_and]
    rfl
  have hrest : (c ^^^ b.toUInt32).toBitVec >>> 8 = c.toBitVec >>> 8 := by
    rw [UInt32.toBitVec_xor, BitVec.ushiftRight_xor_distrib, byte_shiftRight, BitVec.xor_zero]
  have hshift : (c >>> 8).toBitVec = c.toBitVec >>> 8 := by
    rw [UInt32.toBitVec_shiftRight]
    rfl
  rw [byteRegister_singleton c.toBitVec b (by decide), UInt32.toBitVec_xor, table_toBitVec, hmask,
    hshift, ← hrest, ← shifts_eight, UInt32.toBitVec_xor]
  rfl

/-- **The table-driven register is the bitwise one**, from any start and over any bytes. -/
theorem crc32Update_toBitVec (c : UInt32) (data : List UInt8) :
    (crc32Update c data).toBitVec = byteRegister poly c.toBitVec data := by
  induction data generalizing c with
  | nil => rfl
  | cons b data ih =>
      rw [crc32Update, List.foldl_cons]
      have hrest := ih (table ((c ^^^ b.toUInt32) &&& 0xFF) ^^^ (c >>> 8))
      rw [crc32Update, crcStep_toBitVec, ← byteRegister_append] at hrest
      exact hrest

/-- The register over two pieces of a message is that over the second, started where the first left it. -/
theorem crc32Update_append (c : UInt32) (data data' : List UInt8) :
    crc32Update c (data ++ data') = crc32Update (crc32Update c data) data' := List.foldl_append

/-- **The checksum that the code computes is the bitwise one**, with all bits set before and complemented
after. -/
theorem crc32_toBitVec (data : List UInt8) :
    (crc32 data).toBitVec = crc poly 0xFFFFFFFF#32 0xFFFFFFFF#32 data := by
  rw [crc32, crc32Final, UInt32.toBitVec_xor, crc32Update_toBitVec]
  rfl

/-- Two messages that leave the bitwise register in different states have different checksums. -/
theorem crc32_ne_of_register_ne {data data' : List UInt8}
    (h : byteRegister poly 0xFFFFFFFF#32 data ≠ byteRegister poly 0xFFFFFFFF#32 data') :
    crc32 data ≠ crc32 data' := by
  intro heq
  have hbits := congrArg UInt32.toBitVec heq
  rw [crc32_toBitVec, crc32_toBitVec] at hbits
  exact h ((BitVec.xor_left_inj _).mp hbits)

end Wire

end DroneMini
