import DroneMini.Lib.LittleEndian

/-!
# Little-endian packed records

The `struct` module of Python with formats that start with `<`: items without gaps, each little-endian. A
value is an integer (the truth values are the integers 0 and 1), a float, which is here the bit pattern it
is packed to, or a byte string. Packing fails on a value out of the range of its code or of another kind,
and on a wrong number of values; unpacking fails on a wrong number of bytes.
-/

namespace DroneMini

namespace Struct

open LittleEndian

/-- A format code: `B`, `H`, `I`, `Q`, `?`, `f` or `ns`. -/
inductive Code where
  | u8
  | u16
  | u32
  | u64
  | bool
  | f32
  | bytes (n : Nat)
  deriving DecidableEq, Repr

/-- A value of a record: an integer, the bit pattern of a float or a string of bytes. -/
inductive Value where
  | int (n : Int)
  | float (bits : UInt32)
  | bytes (b : List UInt8)
  deriving DecidableEq, Repr

/-- The number of bytes that an item takes in a packed record. -/
def Code.size : Code → Nat
  | u8 => 1
  | u16 => 2
  | u32 => 4
  | u64 => 8
  | bool => 1
  | f32 => 4
  | bytes n => n

/-- The truth value of a value: zeros and empty strings are false. -/
def Value.truth : Value → Bool
  | int n => decide (n ≠ 0)
  | float bits => decide (bits &&& 0x7FFFFFFF ≠ 0)
  | bytes b => !b.isEmpty

/-- The little-endian bytes of an unsigned integer; there are none when it does not fit into `width` bytes. -/
def packUnsigned (width : Nat) (n : Int) : Option (List UInt8) :=
  if 0 ≤ n ∧ n < 256 ^ width then some (leBytes width n.toNat) else none

/-- Packing one item; a byte string is cut or padded with zeros. -/
def Code.pack : Code → Value → Option (List UInt8)
  | u8, .int n => packUnsigned 1 n
  | u16, .int n => packUnsigned 2 n
  | u32, .int n => packUnsigned 4 n
  | u64, .int n => packUnsigned 8 n
  | bool, v => some [if v.truth then 1 else 0]
  | f32, .float bits => some (leBytes 4 bits.toNat)
  | bytes n, .bytes b => some (b.take n ++ List.replicate (n - b.length) 0)
  | _, _ => none

/-- The value that an item's bytes stand for. -/
def Code.unpack : Code → List UInt8 → Value
  | bool, b => .int (if leNat b ≠ 0 then 1 else 0)
  | f32, b => .float (.ofNat (leNat b))
  | bytes _, b => .bytes b
  | _, b => .int (leNat b)

/-- `struct.calcsize`: the sum of the sizes of the items, since a packed record has no padding. -/
def calcsize (fmt : List Code) : Nat := (fmt.map Code.size).sum

/-- `struct.pack`: the bytes of the items in order; there are none when a value does not fit its item or a
value is missing or left over. -/
def pack : List Code → List Value → Option (List UInt8)
  | [], [] => some []
  | c :: cs, v :: vs => do return (← c.pack v) ++ (← pack cs vs)
  | _, _ => none

/-- The values of a record, read item by item from bytes that are enough for all of them. -/
def items : List Code → List UInt8 → List Value
  | [], _ => []
  | c :: cs, b => c.unpack (b.take c.size) :: items cs (b.drop c.size)

/-- `struct.unpack`: the values of a record; there are none when the number of bytes is not that of the
format. -/
def unpack (fmt : List Code) (b : List UInt8) : Option (List Value) :=
  if b.length = calcsize fmt then some (items fmt b) else none

/-! ## Laws -/

/-- An integer of a fixed width is packed to its little-endian bytes. -/
theorem packUnsigned_natCast {width n : Nat} (h : n < 256 ^ width) :
    packUnsigned width (n : Int) = some (leBytes width n) := by
  rw [packUnsigned, if_pos ⟨Int.natCast_nonneg n, by exact_mod_cast h⟩, Int.toNat_natCast]

/-- Packing a record packs its first item and then the record of the others. -/
theorem pack_cons {c : Code} {v : Value} {cs : List Code} {vs : List Value} {b bs : List UInt8}
    (h : c.pack v = some b) (hs : pack cs vs = some bs) :
    pack (c :: cs) (v :: vs) = some (b ++ bs) := by
  rw [pack, h, hs]
  rfl

/-- The bytes of a packed item are as many as its code takes. -/
theorem Code.length_pack {c : Code} {v : Value} {b : List UInt8} (h : c.pack v = some b) :
    b.length = c.size := by
  have hint {width : Nat} {n : Int} (h : packUnsigned width n = some b) : b.length = width := by
    unfold packUnsigned at h
    split_ifs at h
    cases h
    exact length_leBytes width _
  cases c with
  | u8 | u16 | u32 | u64 =>
    cases v with
    | int n => exact hint h
    | float | bytes => cases h
  | bool =>
    rw [Code.pack] at h
    cases h
    rfl
  | f32 =>
    cases v with
    | float bits =>
      cases h
      exact length_leBytes 4 _
    | int | bytes => cases h
  | bytes n =>
    cases v with
    | bytes b' =>
      cases h
      simp only [List.length_append, List.length_take, List.length_replicate, Code.size]
      omega
    | int | float => cases h

/-- **A packed record has the size of its format.** This holds whatever the values are. -/
theorem length_pack {fmt : List Code} {vs : List Value} {b : List UInt8} (h : pack fmt vs = some b) :
    b.length = calcsize fmt := by
  induction fmt generalizing vs b with
  | nil =>
    cases vs with
    | nil =>
      cases h
      rfl
    | cons => cases h
  | cons c cs ih =>
    cases vs with
    | nil => cases h
    | cons v vs =>
      rw [pack] at h
      obtain ⟨x, hx, h⟩ := Option.bind_eq_some_iff.mp h
      obtain ⟨y, hy, h⟩ := Option.bind_eq_some_iff.mp h
      cases h
      rw [List.length_append, Code.length_pack hx, ih hy, calcsize, calcsize, List.map_cons, List.sum_cons]

/-- Unpacking fails on a wrong number of bytes only; the bytes themselves are never refused. -/
theorem unpack_eq_none_iff {fmt : List Code} {b : List UInt8} :
    unpack fmt b = none ↔ b.length ≠ calcsize fmt := by
  unfold unpack
  split_ifs <;> simp_all

/-- **A record is the concatenation of its packed items.** When every value fits its item the record is
packed. -/
theorem pack_eq_flatten (ts : List (Code × Value × List UInt8))
    (h : ∀ t ∈ ts, t.1.pack t.2.1 = some t.2.2) :
    pack (ts.map fun t => t.1) (ts.map fun t => t.2.1) = some (ts.map fun t => t.2.2).flatten := by
  induction ts with
  | nil => rfl
  | cons t ts ih => exact pack_cons (h t (by simp)) (ih fun u hu => h u (by simp [hu]))

/-- **The concatenation of items of the right sizes is unpacked to their values.** -/
theorem unpack_flatten (ts : List (Code × List UInt8)) (h : ∀ t ∈ ts, t.2.length = t.1.size) :
    unpack (ts.map fun t => t.1) (ts.map fun t => t.2).flatten
      = some (ts.map fun t => t.1.unpack t.2) := by
  have hboth : (ts.map fun t => t.2).flatten.length = calcsize (ts.map fun t => t.1) ∧
      items (ts.map fun t => t.1) (ts.map fun t => t.2).flatten = ts.map fun t => t.1.unpack t.2 := by
    induction ts with
    | nil => exact ⟨rfl, rfl⟩
    | cons t ts ih =>
        obtain ⟨hlen, hitems⟩ := ih fun u hu => h u (by simp [hu])
        have ht := h t (by simp)
        simp only [List.map_cons, List.flatten_cons]
        constructor
        · rw [List.length_append, hlen, ht, calcsize, calcsize, List.map_cons, List.sum_cons]
        · rw [items, ← ht, List.take_left, List.drop_left, hitems]
  rw [unpack, if_pos hboth.1, hboth.2]

end Struct

end DroneMini
