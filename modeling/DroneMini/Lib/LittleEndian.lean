import Mathlib.Data.Nat.Digits.Lemmas

/-!
# Little-endian numbers

Numbers as lists of bytes, least significant first, and the numbers found at an offset of a record that is
laid out without gaps. A record is the concatenation of its items, so a field read at the length of the
items before it is the item itself (`field_flatten`).
-/

namespace DroneMini

namespace LittleEndian

/-- The number that a list of bytes stands for when the lowest byte comes first. -/
def leNat (bytes : List UInt8) : Nat := Nat.ofDigits 256 (bytes.map UInt8.toNat)

/-- The `width` lowest bytes of a number, the lowest first; what does not fit is dropped. -/
def leBytes (width n : Nat) : List UInt8 :=
  (List.range width).map fun i => UInt8.ofNat (n / 256 ^ i)

/-- The number in the `width` bytes of a message that start at an offset. -/
def field (bytes : List UInt8) (offset width : Nat) : Nat := leNat ((bytes.drop offset).take width)

@[simp] theorem length_leBytes (width n : Nat) : (leBytes width n).length = width := by
  simp [leBytes]

@[simp] theorem leNat_nil : leNat [] = 0 := rfl

@[simp] theorem leNat_cons (b : UInt8) (bs : List UInt8) :
    leNat (b :: bs) = b.toNat + 256 * leNat bs := rfl

/-- The bytes of a number are its lowest byte and the bytes of what is above it. -/
theorem leBytes_succ (width n : Nat) :
    leBytes (width + 1) n = UInt8.ofNat n :: leBytes width (n / 256) := by
  rw [leBytes, List.range_succ_eq_map, List.map_cons, List.map_map, pow_zero, Nat.div_one, leBytes]
  congr 1
  apply List.map_congr_left
  intro i _
  show UInt8.ofNat (n / 256 ^ (i + 1)) = _
  rw [pow_succ', Nat.div_div_eq_div_mul]

/-- The bytes of a number that fits are read back as the number. -/
theorem leNat_leBytes {width n : Nat} (h : n < 256 ^ width) : leNat (leBytes width n) = n := by
  induction width generalizing n with
  | zero =>
      rw [pow_zero, Nat.lt_one_iff] at h
      subst h
      rfl
  | succ width ih =>
      rw [pow_succ'] at h
      rw [leBytes_succ, leNat_cons, ih (Nat.div_lt_of_lt_mul h), UInt8.toNat_ofNat']
      exact Nat.mod_add_div n 256

/-- A list of bytes is a number below the power of its length. -/
theorem leNat_lt (bytes : List UInt8) : leNat bytes < 256 ^ bytes.length := by
  induction bytes with
  | nil => simp
  | cons b bs ih =>
      have hb := b.toNat_lt
      rw [leNat_cons, List.length_cons, pow_succ']
      omega

/-- The number of a list of bytes is written back as the list. -/
theorem leBytes_leNat (bytes : List UInt8) : leBytes bytes.length (leNat bytes) = bytes := by
  induction bytes with
  | nil => rfl
  | cons b bs ih =>
      have hb := b.toNat_lt
      rw [List.length_cons, leBytes_succ, leNat_cons]
      congr 1
      · rw [UInt8.ofNat_add, UInt8.ofNat_mul, UInt8.ofNat_toNat]
        simp
      · rw [show (b.toNat + 256 * leNat bs) / 256 = leNat bs by omega, ih]

/-- Lists of bytes of one length are told apart by their numbers. -/
theorem leNat_injective {bs cs : List UInt8} (hlen : bs.length = cs.length)
    (h : leNat bs = leNat cs) : bs = cs := by
  rw [← leBytes_leNat bs, hlen, h, leBytes_leNat]

/-- Bit `m` of the number is bit `m % 8` of byte `m / 8`. -/
theorem testBit_leNat (bytes : List UInt8) (m : Nat) :
    (leNat bytes).testBit m = (bytes.getD (m / 8) 0).toNat.testBit (m % 8) := by
  induction bytes generalizing m with
  | nil => simp
  | cons b bs ih =>
      have hb : b.toNat < 2 ^ 8 := b.toNat_lt
      rw [leNat_cons, Nat.add_comm, show 256 = 2 ^ 8 from rfl, Nat.testBit_two_pow_mul_add _ hb]
      rcases Nat.lt_or_ge m 8 with hm | hm
      · rw [if_pos hm, Nat.div_eq_of_lt hm, Nat.mod_eq_of_lt hm, List.getD_cons_zero]
      · obtain ⟨k, rfl⟩ := Nat.exists_eq_add_of_le hm
        rw [if_neg hm.not_gt, ih, Nat.add_sub_cancel_left, Nat.add_mod_left,
          Nat.add_div_left _ (by decide), List.getD_cons_succ]

/-! ## Fields of a record -/

/-- A field that lies in the front part of a record. -/
theorem field_append_left {front : List UInt8} (rest : List UInt8) {offset width : Nat}
    (h : offset + width ≤ front.length) :
    field (front ++ rest) offset width = field front offset width := by
  rw [field, field, List.drop_append_of_le_length (by omega), List.take_append_of_le_length]
  rw [List.length_drop]
  omega

/-- The bytes of a field are found behind the items before it. -/
theorem take_drop_flatten (items : List (List UInt8)) {k : Nat} (hk : k < items.length) :
    (items.flatten.drop ((items.take k).map List.length).sum).take items[k].length = items[k] := by
  induction items generalizing k with
  | nil => simp at hk
  | cons item items ih =>
      cases k with
      | zero => simp
      | succ k =>
          have hk' : k < items.length := by simpa using hk
          rw [List.take_succ_cons, List.map_cons, List.sum_cons, List.flatten_cons, List.drop_append,
            List.drop_of_length_le (Nat.le_add_right _ _), List.nil_append, Nat.add_sub_cancel_left]
          exact ih hk'

/-- **A field is read behind the items before it**, at the sum of their lengths. -/
theorem field_flatten {items : List (List UInt8)} {lens : List Nat}
    (hlens : items.map List.length = lens) {k offset width : Nat} {item : List UInt8}
    (hitem : items[k]? = some item) (hoffset : (lens.take k).sum = offset)
    (hwidth : lens[k]? = some width) : field items.flatten offset width = leNat item := by
  obtain ⟨hk, rfl⟩ := List.getElem?_eq_some_iff.mp hitem
  subst hlens hoffset
  rw [List.getElem?_map, hitem, Option.map_some, Option.some.injEq] at hwidth
  rw [← hwidth, field, ← List.map_take, take_drop_flatten items hk]

end LittleEndian

end DroneMini
