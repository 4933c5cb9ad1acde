import Mathlib.Data.BitVec

/-!
# Cyclic redundancy checks, bit by bit

The reflected shift register over a polynomial `p` of any width `w`: a bit of the message is added to the
low end of the register, then the register moves down by one and, when a one falls out, `p` is added
(`shift`). Everything rests on two facts: `shift` is linear in exclusive or (`shift_xor`), and it is
injective when `p` has its top bit set (`shift_injective`). So up to `w` bits of a message can be added to
the register at once (`register_eq_shifts`), which is how a table works (`shifts_split`), and two messages
that differ in a burst of at most `w` bits leave different registers (`register_ne_of_burst`). A message of
bytes is that of their bits, the lowest first.
-/

namespace DroneMini

namespace Crc

variable {w : Nat} (p : BitVec w)

/-- One shift of the register: every bit moves down by one place, and the polynomial is added when a one falls
out. -/
def shift (c : BitVec w) : BitVec w := if c.getLsbD 0 then p ^^^ (c >>> 1) else c >>> 1

/-- The register after one more bit of the message, which enters at the lowest place and is shifted with the
rest. -/
def bitStep (c : BitVec w) (d : Bool) : BitVec w := shift p (c ^^^ (BitVec.ofBool d).setWidth w)

/-- The register after the bits of a whole message, taken in order from a starting value. -/
def register (c : BitVec w) (ds : List Bool) : BitVec w := ds.foldl (bitStep p) c

/-- The register after `n` zero bits, which only shift it. -/
def shifts (n : Nat) (c : BitVec w) : BitVec w := (shift p)^[n] c

/-- The bits of a message as one word, the first at the low end. -/
def word : List Bool → BitVec w
  | [] => 0
  | d :: ds => (BitVec.ofBool d).setWidth w ^^^ (word ds <<< 1)

/-- The eight bits of a byte in the order in which they are sent, the lowest first. -/
def bitsOf (b : UInt8) : List Bool := (List.range 8).map b.toBitVec.getLsbD

/-- The register after a message of bytes, each of them sent lowest bit first. -/
def byteRegister (c : BitVec w) (bs : List UInt8) : BitVec w := register p c (bs.flatMap bitsOf)

/-- The reflected checksum of a message: the bits of its bytes from an initial register, and a final
exclusive or. -/
def crc (init final : BitVec w) (bs : List UInt8) : BitVec w := byteRegister p init bs ^^^ final

variable {p}

/-- The register after two messages in a row starts the second where the first has left it. -/
theorem register_append (c : BitVec w) (ds es : List Bool) :
    register p c (ds ++ es) = register p (register p c ds) es := List.foldl_append

/-! ## Linearity -/

/-- One shift is linear in exclusive or, so differences of registers move on their own. -/
theorem shift_xor (a b : BitVec w) : shift p (a ^^^ b) = shift p a ^^^ shift p b := by
  unfold shift
  rw [BitVec.getLsbD_xor, BitVec.ushiftRight_xor_distrib]
  cases a.getLsbD 0 with
  | false =>
      cases b.getLsbD 0 with
      | false => rfl
      | true =>
          show p ^^^ (a >>> 1 ^^^ b >>> 1) = a >>> 1 ^^^ (p ^^^ b >>> 1)
          ac_rfl
  | true =>
      cases b.getLsbD 0 with
      | false =>
          show p ^^^ (a >>> 1 ^^^ b >>> 1) = p ^^^ a >>> 1 ^^^ b >>> 1
          ac_rfl
      | true =>
          show a >>> 1 ^^^ b >>> 1 = (p ^^^ a >>> 1) ^^^ (p ^^^ b >>> 1)
          rw [show p ^^^ a >>> 1 ^^^ (p ^^^ b >>> 1) = (p ^^^ p) ^^^ (a >>> 1 ^^^ b >>> 1) by ac_rfl,
            BitVec.xor_self, BitVec.zero_xor]

/-- Any number of shifts is linear in exclusive or as well. -/
theorem shifts_xor (n : Nat) (a b : BitVec w) :
    shifts p n (a ^^^ b) = shifts p n a ^^^ shifts p n b := by
  induction n generalizing a b with
  | zero => rfl
  | succ n ih =>
      show shifts p n (shift p (a ^^^ b)) = shifts p n (shift p a) ^^^ shifts p n (shift p b)
      rw [shift_xor, ih]

/-- A register whose low `n` bits are clear only moves down. -/
theorem shifts_of_clear {n : Nat} {c : BitVec w} (h : ∀ i < n, c.getLsbD i = false) :
    shifts p n c = c >>> n := by
  induction n generalizing c with
  | zero => rfl
  | succ n ih =>
      have h0 : shift p c = c >>> 1 := by
        rw [shift, h 0 n.succ_pos, if_neg Bool.false_ne_true]
      have hrest : ∀ i < n, (c >>> 1).getLsbD i = false := by
        intro i hi
        rw [BitVec.getLsbD_ushiftRight]
        exact h (1 + i) (by omega)
      show shifts p n (shift p c) = c >>> (n + 1)
      rw [h0, ih hrest, ← BitVec.shiftRight_add, Nat.add_comm]

/-- The low bits and the rest of a register, shifted on their own. -/
theorem shifts_split {n : Nat} {c low high : BitVec w} (hc : c = low ^^^ high)
    (hhigh : ∀ i < n, high.getLsbD i = false) :
    shifts p n c = shifts p n low ^^^ (high >>> n) := by
  rw [hc, shifts_xor, shifts_of_clear hhigh]

/-! ## Words -/

/-- The bits of a word are those of the message. -/
theorem getLsbD_word (ds : List Bool) (i : Nat) :
    (word ds : BitVec w).getLsbD i = (decide (i < w) && ds.getD i false) := by
  induction ds generalizing i with
  | nil => simp [word]
  | cons d ds ih =>
      rw [word, BitVec.getLsbD_xor, BitVec.getLsbD_shiftLeft, BitVec.getLsbD_setWidth, ih]
      cases i with
      | zero => simp
      | succ i =>
          by_cases hi : i + 1 < w
          · simp [hi, show i < w by omega]
          · simp [hi]

/-- Two messages of the same length that fit into the register are equal when their words are. -/
theorem word_injective {ds es : List Bool} (hlen : ds.length = es.length) (hle : ds.length ≤ w)
    (h : (word ds : BitVec w) = word es) : ds = es := by
  apply List.ext_getElem hlen
  intro i hi hi'
  have hbit := congrArg (fun c : BitVec w => c.getLsbD i) h
  simp only [getLsbD_word] at hbit
  simpa [show i < w by omega, hi, hi'] using hbit

/-- A message that fits is added to the register at once. -/
theorem register_eq_shifts (c : BitVec w) {ds : List Bool} (hle : ds.length ≤ w) :
    register p c ds = shifts p ds.length (c ^^^ word ds) := by
  induction ds generalizing c with
  | nil => simp [register, word, shifts]
  | cons d ds ih =>
      rw [List.length_cons] at hle ⊢
      have hclear : ∀ i < 1, ((word ds : BitVec w) <<< 1).getLsbD i = false := by
        intro i hi
        simp [show i = 0 by omega]
      have hback : (word ds : BitVec w) <<< 1 >>> 1 = word ds := by
        apply BitVec.eq_of_getLsbD_eq
        intro i hi
        rw [BitVec.getLsbD_ushiftRight, BitVec.getLsbD_shiftLeft, getLsbD_word, getLsbD_word]
        by_cases hw : 1 + i < w
        · simp [hw, hi]
        · simp [hw, show ds.length ≤ i by omega]
      have hstep : shift p (c ^^^ word (d :: ds)) = bitStep p c d ^^^ word ds := by
        rw [word, ← BitVec.xor_assoc, bitStep, ← hback]
        exact shifts_split (n := 1) (by rw [hback]) hclear
      show register p (bitStep p c d) ds = shifts p ds.length (shift p (c ^^^ word (d :: ds)))
      rw [ih _ (by omega), hstep]

/-! ## Bursts -/

/-- A shift loses nothing when the polynomial has its top bit set. -/
theorem shift_injective (hp : p.msb = true) : Function.Injective (shift p) := by
  intro a b h
  have htop : ∀ c : BitVec w, (shift p c).msb = c.getLsbD 0 := by
    intro c
    unfold shift
    cases c.getLsbD 0 with
    | false => simp [BitVec.msb_ushiftRight]
    | true => simp [BitVec.msb_ushiftRight, hp]
  have hlow : a.getLsbD 0 = b.getLsbD 0 := by rw [← htop a, ← htop b, h]
  have hhigh : a >>> 1 = b >>> 1 := by
    unfold shift at h
    rw [hlow] at h
    split_ifs at h
    · exact (BitVec.xor_right_inj p).mp h
    · exact h
  apply BitVec.eq_of_getLsbD_eq
  intro i hi
  cases i with
  | zero => exact hlow
  | succ i =>
      have hbit := congrArg (fun c : BitVec w => c.getLsbD i) hhigh
      simpa [Nat.add_comm] using hbit

/-- When the polynomial has its top bit set no shift loses information, so any number of them is injective. -/
theorem shifts_injective (hp : p.msb = true) (n : Nat) : Function.Injective (shifts p n) :=
  (shift_injective hp).iterate n

/-- One message takes different registers to different registers, when the polynomial has its top bit set. -/
theorem register_injective (hp : p.msb = true) (ds : List Bool) :
    Function.Injective fun c => register p c ds := by
  induction ds with
  | nil => exact fun a b h => h
  | cons d ds ih =>
      intro a b h
      have hstep : bitStep p a d = bitStep p b d := ih h
      exact (BitVec.xor_left_inj _).mp (shift_injective hp hstep)

/-- **A burst is detected.** Two messages that differ in a burst of at most `w` bits leave different
registers. -/
theorem register_ne_of_burst (hp : p.msb = true) (c : BitVec w) (pre post : List Bool)
    {ds es : List Bool} (hlen : ds.length = es.length) (hle : ds.length ≤ w) (hne : ds ≠ es) :
    register p c (pre ++ ds ++ post) ≠ register p c (pre ++ es ++ post) := by
  intro h
  rw [register_append, register_append, register_append, register_append] at h
  have hburst := register_injective hp post h
  rw [register_eq_shifts (register p c pre) hle, hlen,
    register_eq_shifts (register p c pre) (hlen ▸ hle : es.length ≤ w)] at hburst
  have hword := (BitVec.xor_right_inj _).mp (shifts_injective hp _ hburst)
  exact hne (word_injective hlen hle hword)

/-! ## Messages of bytes -/

@[simp] theorem length_bitsOf (b : UInt8) : (bitsOf b).length = 8 := by simp [bitsOf]

/-- The word that the bits of a byte spell is the byte itself. -/
theorem word_bitsOf (b : UInt8) : (word (bitsOf b) : BitVec w) = b.toBitVec.setWidth w := by
  apply BitVec.eq_of_getLsbD_eq
  intro i hi
  rw [getLsbD_word, BitVec.getLsbD_setWidth, bitsOf]
  by_cases h8 : i < 8
  · simp [h8]
  · simp [h8, BitVec.getLsbD_of_ge b.toBitVec i (by omega)]

/-- Two bytes with the same bits are the same byte. -/
theorem bitsOf_injective : Function.Injective bitsOf := by
  intro a b h
  have hword : (word (bitsOf a) : BitVec 8) = word (bitsOf b) := by rw [h]
  rw [word_bitsOf, word_bitsOf, BitVec.setWidth_eq, BitVec.setWidth_eq] at hword
  exact UInt8.toBitVec_inj.mp hword

/-- A message of bytes has eight bits for each of its bytes. -/
theorem length_flatMap_bitsOf (bs : List UInt8) : (bs.flatMap bitsOf).length = 8 * bs.length := by
  induction bs with
  | nil => rfl
  | cons b bs ih =>
      rw [List.flatMap_cons, List.length_append, ih, length_bitsOf, List.length_cons]
      omega

/-- Messages of bytes of one length are told apart by their bits. -/
theorem flatMap_bitsOf_injective {bs cs : List UInt8} (hlen : bs.length = cs.length)
    (h : bs.flatMap bitsOf = cs.flatMap bitsOf) : bs = cs := by
  induction bs generalizing cs with
  | nil => exact (List.length_eq_zero_iff.mp hlen.symm).symm
  | cons b bs ih =>
      cases cs with
      | nil => cases hlen
      | cons c cs =>
          rw [List.flatMap_cons, List.flatMap_cons] at h
          obtain ⟨hhead, htail⟩ := List.append_inj h (by simp)
          rw [bitsOf_injective hhead, ih (by simpa using hlen) htail]

/-- The register after two messages of bytes starts the second where the first has left it. -/
theorem byteRegister_append (c : BitVec w) (bs cs : List UInt8) :
    byteRegister p c (bs ++ cs) = byteRegister p (byteRegister p c bs) cs := by
  rw [byteRegister, List.flatMap_append, register_append]
  rfl

/-- A byte can be added to the register at once and shifted in eight steps, as the table of a program does
it. -/
theorem byteRegister_singleton (c : BitVec w) (b : UInt8) (hw : 8 ≤ w) :
    byteRegister p c [b] = shifts p 8 (c ^^^ b.toBitVec.setWidth w) := by
  rw [byteRegister, List.flatMap_singleton, register_eq_shifts c (by simpa using hw), length_bitsOf,
    word_bitsOf]

/-- **A burst of bytes is detected**, when its bits fit into the register. -/
theorem byteRegister_ne_of_burst (hp : p.msb = true) (c : BitVec w) (pre post : List UInt8)
    {bs cs : List UInt8} (hlen : bs.length = cs.length) (hle : 8 * bs.length ≤ w) (hne : bs ≠ cs) :
    byteRegister p c (pre ++ bs ++ post) ≠ byteRegister p c (pre ++ cs ++ post) := by
  rw [byteRegister, byteRegister, List.flatMap_append, List.flatMap_append, List.flatMap_append,
    List.flatMap_append]
  refine register_ne_of_burst hp c _ _ ?_ ?_ ?_
  · rw [length_flatMap_bitsOf, length_flatMap_bitsOf, hlen]
  · rw [length_flatMap_bitsOf]
    exact hle
  · exact fun h => hne (flatMap_bitsOf_injective hlen h)

/-! ## Windows -/

/-- Two lists that differ only within the `n` places from `k` on. -/
structure DifferAt {α : Type*} (k n : Nat) (xs ys : List α) : Prop where
  length : ys.length = xs.length
  before : ys.take k = xs.take k
  behind : ys.drop (k + n) = xs.drop (k + n)
  ne : ys ≠ xs

/-- Any list is its part before a window, the window and the part behind it. -/
theorem cut_window {α : Type*} (xs : List α) (k n : Nat) :
    xs = xs.take k ++ (xs.drop k).take n ++ xs.drop (k + n) := by
  rw [List.append_assoc, ← List.drop_drop, List.take_append_drop, List.take_append_drop]

/-- A list in which one element is set to another value differs from the old one in a window of any length
that starts there. -/
theorem differAt_set {α : Type*} {xs : List α} {i : Nat} {b : α} (hi : i < xs.length)
    (hb : xs[i]? ≠ some b) (n : Nat) : DifferAt i (n + 1) xs (xs.set i b) := by
  refine ⟨List.length_set, ?_, ?_, ?_⟩
  · rw [List.take_set_of_le (Nat.le_refl i)]
  · rw [List.drop_set_of_lt (by omega)]
  · intro h
    apply hb
    rw [← h, List.getElem?_set_self hi]

/-- A prefix in front of two lists moves the window in which they differ by its length. -/
theorem DifferAt.append_left {α : Type*} {k n : Nat} {xs ys : List α} (h : DifferAt k n xs ys)
    (pre : List α) : DifferAt (pre.length + k) n (pre ++ xs) (pre ++ ys) := by
  refine ⟨by rw [List.length_append, List.length_append, h.length], ?_, ?_, ?_⟩
  · rw [List.take_length_add_append, List.take_length_add_append, h.before]
  · rw [Nat.add_assoc, List.drop_length_add_append, List.drop_length_add_append, h.behind]
  · exact fun heq => h.ne (List.append_cancel_left heq)

/-- **A change within a window is detected**, when the bits of the window fit into the register. -/
theorem byteRegister_ne_of_window (hp : p.msb = true) (c : BitVec w) {k n : Nat} {xs ys : List UInt8}
    (h : DifferAt k n xs ys) (hle : 8 * n ≤ w) : byteRegister p c ys ≠ byteRegister p c xs := by
  have hlen : ((ys.drop k).take n).length = ((xs.drop k).take n).length := by
    rw [List.length_take, List.length_take, List.length_drop, List.length_drop, h.length]
  have hfit : 8 * ((ys.drop k).take n).length ≤ w := by
    rw [List.length_take]
    omega
  have hne : (ys.drop k).take n ≠ (xs.drop k).take n := by
    intro heq
    apply h.ne
    rw [cut_window ys k n, h.before, h.behind, heq, ← cut_window xs k n]
  have hburst := byteRegister_ne_of_burst hp c (xs.take k) (xs.drop (k + n)) hlen hfit hne
  rw [← cut_window xs k n, ← h.before, ← h.behind, ← cut_window ys k n] at hburst
  exact hburst

end Crc

end DroneMini
