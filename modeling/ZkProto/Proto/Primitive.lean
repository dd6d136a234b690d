import ZkProto.Core.Decoder
import ZkProto.Core.Utf8

/-!
# Primitive Codecs

The opening of `proto.rs`: the operation codes, and the encoders and decoders
of the three variable-length shapes everything else is built from.

A buffer is an `i32` length and then that many bytes. `read_buffer` reads
them with a single `read` and fails when the count that comes back is short;
a negative length reads as an empty buffer. A string is a buffer that must
be UTF-8, and `read_string` gets the `String` with `unwrap`, so ill-formed
bytes end in a panic, not in an `Err`. A sequence is an `i32` count and then
the elements, and its writer is generic over the element's writer, as
`Vec<T>::write_to` is generic over `T: WriteTo`.

Both writers put the length down with `len() as i32`, a cast that keeps the
low 32 bits; `BitVec.ofNat 32` is that cast.

## Main definitions

* `OpCode`: The request operation codes, with `toI32` their discriminants.
* `readBuffer`: `BufferReader::read_buffer`.
* `readString`: `StringReader::read_string`.
* `RustString.writeTo`: `WriteTo` for `String`.
* `Vec.writeTo`: `WriteTo` for `Vec<T>`, given the writer of `T`.
-/

namespace ZkProto

/-- Operation code for messages, see `RequestHeader`. -/
inductive OpCode where
  | auth
  | create
  | delete
  | «exists»
  | getAcl
  | setAcl
  | getChildren
  | getData
  | setData
  | ping
  | check
  | transaction
  | closeSession
  deriving DecidableEq, Repr

/-- `opcode as i32`: the discriminants `OpCode` declares. -/
def OpCode.toI32 : OpCode → BitVec 32
  | .auth => 100
  | .create => 1
  | .delete => 2
  | .«exists» => 3
  | .getAcl => 6
  | .setAcl => 7
  | .getChildren => 8
  | .getData => 4
  | .setData => 5
  | .ping => 11
  | .check => 13
  | .transaction => 14
  | .closeSession => -11

/-- The length `read_buffer` asks for: a negative `i32` counts as zero. -/
def bufferLen (len : BitVec 32) : Nat := if len.toInt < 0 then 0 else len.toNat

/-- `BufferReader::read_buffer`: an `i32` length, then that many bytes taken
    in one `read`, which must return all of them. -/
def readBuffer : Decoder (List UInt8) := do
  let len ← readI32
  let len := bufferLen len
  let buf ← read len
  if buf.length = len then pure buf else Decoder.fail (error "read_buffer failed")

/-- `StringReader::read_string`: a buffer, then `String::from_utf8(raw).unwrap()`. -/
def readString : Decoder RustString := do
  let raw ← readBuffer
  Decoder.unwrap (RustString.fromUtf8 raw)

/-- `WriteTo` for `String`: `len() as i32`, then the bytes. -/
def RustString.writeTo (s : RustString) : List UInt8 :=
  writeI32 (BitVec.ofNat 32 s.len) ++ s.bytes

/-- `WriteTo` for `Vec<T>`: `len() as i32`, then each element in order with
    the element's own writer. -/
def Vec.writeTo {α : Type} (w : α → List UInt8) (xs : List α) : List UInt8 :=
  writeI32 (BitVec.ofNat 32 xs.length) ++ xs.flatMap w

theorem bufferLen_lt (len : BitVec 32) : bufferLen len < 2 ^ 31 := by
  unfold bufferLen
  split
  · omega
  · rw [BitVec.toInt_eq_toNat_cond] at *
    split at * <;> omega

theorem bufferLen_ofNat {n : Nat} (h : n < 2 ^ 31) : bufferLen (BitVec.ofNat 32 n) = n := by
  rw [bufferLen, toInt_ofNat_of_lt h, if_neg (by omega), BitVec.toNat_ofNat,
    Nat.mod_eq_of_lt (by omega)]

/-- A `Vec<u8>` is written as its length and then its bytes. -/
theorem vec_writeTo_writeU8 (xs : List UInt8) :
    Vec.writeTo writeU8 xs = writeI32 (BitVec.ofNat 32 xs.length) ++ xs := by
  have h : xs.flatMap writeU8 = xs := by
    induction xs with
    | nil => rfl
    | cons x xs ih => simpa [writeU8] using ih
  rw [Vec.writeTo, h]

end ZkProto
