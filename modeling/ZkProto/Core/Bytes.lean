import Mathlib.Algebra.Group.Nat.Basic
import Mathlib.Data.List.Basic

/-!
# Big-Endian Integers

Every fixed-width integer in the protocol is written with `byteorder`'s
`BigEndian` writers and read back with its readers. This file is the model of
both, over byte lists.

`toBE k n` lays `n` out as `k` bytes, most significant first. It takes `n`
modulo `256 ^ k`, which is what the writers do to a value: a `write_i32` of an
`i32` writes its two's-complement bits, so the number it spells is the value's
`toNat`. `ofBE` reads the bytes back as a number, and `ofBE_toBE` is the one
fact the codec's round trips rest on.

The writers of the different widths are one writer: `writeBE k` writes the
`8 * k` bits of a value as `k` bytes, and `write_i32`, `write_u32` and
`write_i64` are it at four and eight bytes. Its lemmas are stated once, for
every width. The signed and unsigned writers of one width write the same
bytes; `i32` and `u32` are both `BitVec 32` here, and the sign comes in only
where the code compares with zero or casts.

## Main definitions

* `toBE`: The `k` big-endian bytes of a number.
* `ofBE`: The number a big-endian byte list spells.
* `writeBE`: The big-endian writer of a `k`-byte integer.
* `writeU8`, `writeI32`, `writeU32`, `writeI64`: The `byteorder` writers.

## Theorems

* `ofBE_toBE`: Reading back `k` written bytes gives the value modulo `256 ^ k`.
* `toBE_ofBE`: Writing back the number some bytes spell gives the bytes.
* `ofNat_ofBE_writeBE`: A `k`-byte value survives being written and read.
* `writeBE_ofNat_ofBE`: `k` bytes are the writing of the value they spell.
* `toInt_ofNat_of_lt`: A count below `2 ^ 31` keeps its value as an `i32`.
* `setWidth_signExtend`: Widening an `i32` with its sign and truncating it
  again gives it back, the `i32 as u64 as i32` round trip.
-/

namespace ZkProto

/-- The `k` bytes of `n`, most significant first. Only `n % 256 ^ k` is
    written, as a fixed-width writer keeps the low bytes of what it is given. -/
def toBE : Nat → Nat → List UInt8
  | 0, _ => []
  | k + 1, n => toBE k (n / 256) ++ [UInt8.ofNat n]

/-- The number a big-endian byte list spells. -/
def ofBE (bs : List UInt8) : Nat :=
  bs.foldl (fun acc b => acc * 256 + b.toNat) 0

/-- `WriteBytesExt::write_u8`, and `WriteTo` for `u8`. -/
def writeU8 (x : UInt8) : List UInt8 := [x]

/-- `WriteBytesExt`'s big-endian writer of a `k`-byte integer: its `8 * k`
    bits as `k` bytes, most significant first. -/
def writeBE (k : Nat) (x : BitVec (8 * k)) : List UInt8 := toBE k x.toNat

/-- `WriteBytesExt::write_i32::<BigEndian>`. -/
abbrev writeI32 (x : BitVec 32) : List UInt8 := writeBE 4 x

/-- `WriteBytesExt::write_u32::<BigEndian>`. -/
abbrev writeU32 (x : BitVec 32) : List UInt8 := writeBE 4 x

/-- `WriteBytesExt::write_i64::<BigEndian>`. -/
abbrev writeI64 (x : BitVec 64) : List UInt8 := writeBE 8 x

@[simp] theorem length_toBE (k n : Nat) : (toBE k n).length = k := by
  induction k generalizing n <;> simp [toBE, *]

@[simp] theorem length_writeBE (k : Nat) (x : BitVec (8 * k)) : (writeBE k x).length = k :=
  length_toBE k _

@[simp] theorem toNat_uInt8_ofNat (n : Nat) : (UInt8.ofNat n).toNat = n % 256 := by
  simp [UInt8.ofNat, UInt8.toNat]

theorem uInt8_ofNat_toNat (x : UInt8) : UInt8.ofNat x.toNat = x :=
  UInt8.toNat.inj (by rw [toNat_uInt8_ofNat, Nat.mod_eq_of_lt x.toNat_lt_size])

theorem ofBE_append_singleton (bs : List UInt8) (b : UInt8) :
    ofBE (bs ++ [b]) = ofBE bs * 256 + b.toNat := by
  simp [ofBE, List.foldl_append]

/-- Reading back `k` written bytes gives the value modulo `256 ^ k`. The last
    byte written is the value modulo `256`, and the ones before it are the
    quotient written one byte shorter. -/
theorem ofBE_toBE (k n : Nat) : ofBE (toBE k n) = n % 256 ^ k := by
  induction k generalizing n with
  | zero => simp [toBE, ofBE, Nat.mod_one]
  | succ k ih =>
      rw [toBE, ofBE_append_singleton, ih, toNat_uInt8_ofNat, Nat.pow_succ', Nat.mod_mul,
        Nat.add_comm, Nat.mul_comm]

theorem ofBE_lt (bs : List UInt8) : ofBE bs < 256 ^ bs.length := by
  induction bs using List.reverseRecOn with
  | nil => simp [ofBE]
  | append_singleton bs b ih =>
      have := b.toNat_lt_size
      simp only [UInt8.size] at this
      rw [ofBE_append_singleton, List.length_append, List.length_singleton, Nat.pow_succ]
      omega

/-- Writing back the number `k` bytes spell gives the same bytes. -/
theorem toBE_ofBE (bs : List UInt8) : toBE bs.length (ofBE bs) = bs := by
  induction bs using List.reverseRecOn with
  | nil => rfl
  | append_singleton bs b ih =>
      have := b.toNat_lt_size
      simp only [UInt8.size] at this
      rw [List.length_append, List.length_singleton, toBE, ofBE_append_singleton,
        show (ofBE bs * 256 + b.toNat) / 256 = ofBE bs by omega, ih]
      congr
      apply UInt8.toNat.inj
      rw [toNat_uInt8_ofNat]
      omega

/-- `k` bytes are the writing of the `8 * k`-bit value they spell. -/
theorem writeBE_ofNat_ofBE {k : Nat} {bs : List UInt8} (h : bs.length = k) :
    writeBE k (BitVec.ofNat (8 * k) (ofBE bs)) = bs := by
  have hlt : ofBE bs < 2 ^ (8 * k) := by
    rw [Nat.pow_mul, ← h]
    exact ofBE_lt bs
  rw [writeBE, BitVec.toNat_ofNat, Nat.mod_eq_of_lt hlt, ← h, toBE_ofBE]

/-- A `k`-byte value survives being written and read. -/
theorem ofNat_ofBE_writeBE {k : Nat} (x : BitVec (8 * k)) :
    BitVec.ofNat (8 * k) (ofBE (writeBE k x)) = x := by
  have hlt : x.toNat < 256 ^ k := by
    rw [show 256 ^ k = 2 ^ (8 * k) by rw [Nat.pow_mul]]
    exact x.isLt
  rw [writeBE, ofBE_toBE, Nat.mod_eq_of_lt hlt, BitVec.ofNat_toNat, BitVec.setWidth_eq]

/-- Below `2 ^ 31`, `n as i32` is `n` itself. -/
theorem toInt_ofNat_of_lt {n : Nat} (h : n < 2 ^ 31) : (BitVec.ofNat 32 n).toInt = n := by
  rw [BitVec.toInt_eq_toNat_cond, BitVec.toNat_ofNat, Nat.mod_eq_of_lt (by omega)]
  split <;> omega

/-- The `i32 as u64 as i32` round trip: sign extension keeps the low 32 bits. -/
theorem setWidth_signExtend (x : BitVec 32) : (x.signExtend 64).setWidth 32 = x := by
  apply BitVec.eq_of_getLsbD_eq
  intro i
  simp [BitVec.getLsbD_signExtend, BitVec.getLsbD_setWidth]
  omega

end ZkProto
