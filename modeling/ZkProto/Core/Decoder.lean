import ZkProto.Core.Bytes

/-!
# Decoders Over an In-Memory Cursor

The model of `ReadFrom::read_from` and of the `ReadBytesExt` readers it is
built from, run on a `Cursor` over bytes already in memory.

A decoder is a function from the bytes at and after the cursor's position to
an `Outcome`. Rust's `?` is `Outcome.bind`: an `Ok` hands the value and the
unread bytes to the next read, an `Err` returns at once. A panic unwinds out
of every caller in the same way, so it is a third outcome, kept apart from
`Err`. A caller can handle an `Err`, but a panic ends the thread, so which
of the two a decoder ends in on a bad input is part of what it does.

The in-memory cursor is what makes the readers deterministic. `read` copies
as many bytes as remain, up to the buffer's length, and `read_exact` fails
with `UnexpectedEof` when fewer remain than it needs. Neither blocks or
returns a short count for any other reason, as a socket could.

The fixed-width readers are one reader, `readBE k`, which takes `k` bytes
with `read_exact` and reads them as a `k`-byte integer; `read_i32`,
`read_u32` and `read_i64` are it at four and eight bytes.

`readMany` is the `for _ in 0..len { v.push(d?) }` loop of the sequence
decoders, and `vecWithCapacity` the allocation before it, which panics on a
capacity past `isize::MAX` bytes.

## Main definitions

* `Outcome`: `Ok` with the unread bytes, `Err`, or a panic.
* `Decoder`: A reader of values from the bytes after a cursor.
* `takeOr`: A fixed number of bytes, or an error when fewer remain.
* `read`, `readExact`: `Read::read` and `Read::read_exact` on a cursor.
* `readBE`: The big-endian reader of a `k`-byte integer.
* `readU8`, `readI32`, `readU32`, `readI64`: The `byteorder` readers.
* `readMany`: A counted loop of reads.
* `vecWithCapacity`: `Vec::with_capacity`, with its capacity-overflow panic.

## Theorems

* `bind_apply`: `?` on a decoder.
* `takeOr_append`, `takeOr_of_lt`: A fixed read succeeds exactly when the
  bytes are there.
* `readBE_append`: A reader returns what the writer of its width wrote, and
  leaves the cursor just past it.
* `readBE_eq_ok`: What a reader returns was written there, by the writer of
  its width.
-/

namespace ZkProto

/-- The `std::io::ErrorKind`s the codec produces. -/
inductive ErrorKind where
  | invalidInput
  | unexpectedEof
  deriving DecidableEq, Repr

/-- An `std::io::Error`: its kind and its message. -/
structure IoError where
  kind : ErrorKind
  msg : String
  deriving DecidableEq, Repr

/-- `proto::error`: an `InvalidInput` error carrying a message. -/
def error (msg : String) : IoError := ⟨.invalidInput, msg⟩

/-- What `read_exact` returns when fewer bytes remain than it needs. -/
def eofError : IoError := ⟨.unexpectedEof, "failed to fill whole buffer"⟩

/-- How a call to a decoder ends: `Ok` with the value and the bytes the cursor
    has not reached, `Err` with an `io::Error`, or a panic. -/
inductive Outcome (α : Type) where
  | ok (a : α) (rest : List UInt8)
  | err (e : IoError)
  | panic (msg : String)
  deriving DecidableEq, Repr

namespace Outcome

variable {α β : Type}

/-- Rust's `?`: an `Ok` continues on the unread bytes, anything else ends the
    decode as it is. -/
def bind : Outcome α → (α → List UInt8 → Outcome β) → Outcome β
  | .ok a rest, f => f a rest
  | .err e, _ => .err e
  | .panic m, _ => .panic m

@[simp] theorem ok_bind (a : α) (rest : List UInt8) (f : α → List UInt8 → Outcome β) :
    (ok a rest).bind f = f a rest := rfl

@[simp] theorem err_bind (e : IoError) (f : α → List UInt8 → Outcome β) :
    (err e : Outcome α).bind f = err e := rfl

@[simp] theorem panic_bind (m : String) (f : α → List UInt8 → Outcome β) :
    (panic m : Outcome α).bind f = panic m := rfl

theorem bind_eq_ok {o : Outcome α} {f : α → List UInt8 → Outcome β} {b : β}
    {r : List UInt8} (h : o.bind f = ok b r) : ∃ a s, o = ok a s ∧ f a s = ok b r := by
  cases o with
  | ok a s => exact ⟨a, s, rfl, h⟩
  | err e => cases h
  | panic m => cases h

theorem bind_eq_err_iff {o : Outcome α} {f : α → List UInt8 → Outcome β} {e : IoError} :
    o.bind f = err e ↔ o = err e ∨ ∃ a s, o = ok a s ∧ f a s = err e := by
  cases o <;> simp [and_assoc]

theorem bind_eq_panic_iff {o : Outcome α} {f : α → List UInt8 → Outcome β} {m : String} :
    o.bind f = panic m ↔ o = panic m ∨ ∃ a s, o = ok a s ∧ f a s = panic m := by
  cases o <;> simp [and_assoc]

end Outcome

/-- `ReadFrom::read_from` on a `Cursor` over bytes in memory: the bytes from
    the cursor's position on in, an `Outcome` out. -/
def Decoder (α : Type) : Type := List UInt8 → Outcome α

namespace Decoder

variable {α β : Type}

instance : Monad Decoder where
  pure a := fun b => .ok a b
  bind d f := fun b => (d b).bind f

@[simp] theorem pure_apply (a : α) (b : List UInt8) : (pure a : Decoder α) b = .ok a b := rfl

@[simp] theorem bind_apply (d : Decoder α) (f : α → Decoder β) (b : List UInt8) :
    (d >>= f) b = (d b).bind f := rfl

/-- `return Err(e)`. -/
def fail (e : IoError) : Decoder α := fun _ => .err e

/-- `panic!(msg)`. -/
def panic (msg : String) : Decoder α := fun _ => .panic msg

/-- The message of `Result::unwrap` on an `Err`. -/
def unwrapMsg : String := "called Result::unwrap() on an Err value"

/-- `Result::unwrap` inside a decoder: the value, or a panic on an `Err`. -/
def unwrap {ε : Type} : Except ε α → Decoder α
  | .ok a => pure a
  | .error _ => Decoder.panic unwrapMsg

/-- A conversion that panics on a value it has no case for, such as the
    `From<i32>` of a derived enum, given by the case it finds. -/
def ofOption (msg : String) : Option α → Decoder α
  | some a => pure a
  | none => Decoder.panic msg

@[simp] theorem fail_apply (e : IoError) (b : List UInt8) : (fail e : Decoder α) b = .err e :=
  rfl

@[simp] theorem panic_apply (m : String) (b : List UInt8) : (panic m : Decoder α) b = .panic m :=
  rfl

end Decoder

/-- `n` bytes off the cursor, or the error `e` when fewer remain. -/
def takeOr (e : IoError) (n : Nat) : Decoder (List UInt8) := fun b =>
  if n ≤ b.length then .ok (b.take n) (b.drop n) else .err e

/-- `Read::read` into a buffer of `n` bytes: a cursor copies what remains, up
    to `n`, and returns the count along with it. -/
def read (n : Nat) : Decoder (List UInt8) := fun b => .ok (b.take n) (b.drop n)

/-- `Read::read_exact` on a cursor. -/
def readExact (n : Nat) : Decoder (List UInt8) := takeOr eofError n

/-- `ReadBytesExt::read_u8`. -/
def readU8 : Decoder UInt8 := do
  let bs ← readExact 1
  pure (UInt8.ofNat (ofBE bs))

/-- `ReadBytesExt`'s big-endian reader of a `k`-byte integer: `read_exact`
    of `k` bytes, read as the `8 * k`-bit value they spell. -/
def readBE (k : Nat) : Decoder (BitVec (8 * k)) := do
  let bs ← readExact k
  pure (BitVec.ofNat (8 * k) (ofBE bs))

/-- `ReadBytesExt::read_i32::<BigEndian>`. -/
abbrev readI32 : Decoder (BitVec 32) := readBE 4

/-- `ReadBytesExt::read_u32::<BigEndian>`. -/
abbrev readU32 : Decoder (BitVec 32) := readBE 4

/-- `ReadBytesExt::read_i64::<BigEndian>`. -/
abbrev readI64 : Decoder (BitVec 64) := readBE 8

/-- The loop `for _ in 0..n { v.push(d?) }`: `n` values read one after
    another, kept in the order read. -/
def readMany {α : Type} (d : Decoder α) : Nat → Decoder (List α)
  | 0 => pure []
  | n + 1 => do
    let a ← d
    let as ← readMany d n
    pure (a :: as)

/-- `isize::MAX` on a 64-bit target. -/
def isizeMax : Nat := 2 ^ 63 - 1

/-- `Vec::with_capacity(n)` for elements of `size` bytes: it panics when the
    allocation would pass `isize::MAX` bytes, and otherwise reserves memory,
    which a decoder cannot observe. -/
def vecWithCapacity (size n : Nat) : Decoder Unit :=
  if n * size ≤ isizeMax then pure () else Decoder.panic "capacity overflow"

section Reads

variable {α : Type}

theorem takeOr_append (e : IoError) {l : List UInt8} (r : List UInt8) :
    takeOr e l.length (l ++ r) = .ok l r := by
  simp [takeOr]

theorem takeOr_of_lt (e : IoError) {n : Nat} {b : List UInt8} (h : b.length < n) :
    takeOr e n b = .err e := by
  simp [takeOr, Nat.not_le.mpr h]

/-- A fixed read that succeeds took `n` bytes off the front. -/
theorem takeOr_eq_ok {e : IoError} {n : Nat} {b bs r : List UInt8}
    (h : takeOr e n b = .ok bs r) : bs.length = n ∧ b = bs ++ r := by
  unfold takeOr at h
  split at h
  · obtain ⟨rfl, rfl⟩ := Outcome.ok.inj h
    exact ⟨by simp; omega, (List.take_append_drop n b).symm⟩
  · cases h

theorem readExact_append {l : List UInt8} (r : List UInt8) :
    readExact l.length (l ++ r) = .ok l r :=
  takeOr_append _ r

/-- A reader returns what the writer of its width wrote, and leaves the
    cursor just past it. -/
@[simp] theorem readBE_append {k : Nat} (x : BitVec (8 * k)) (r : List UInt8) :
    readBE k (writeBE k x ++ r) = .ok x r := by
  have h := readExact_append (l := writeBE k x) r
  rw [length_writeBE] at h
  rw [readBE, Decoder.bind_apply, h, Outcome.ok_bind, ofNat_ofBE_writeBE]
  rfl

theorem readU8_eq_ok {b r : List UInt8} {x : UInt8} (h : readU8 b = .ok x r) : b = x :: r := by
  obtain ⟨bs, s, h1, h2⟩ := Outcome.bind_eq_ok h
  obtain ⟨hl, rfl⟩ := takeOr_eq_ok h1
  obtain ⟨rfl, rfl⟩ := Outcome.ok.inj h2
  match bs, hl with
  | [y], _ => simp [ofBE, uInt8_ofNat_toNat]

/-- What a reader returns was written there, by the writer of its width. -/
theorem readBE_eq_ok {k : Nat} {b r : List UInt8} {x : BitVec (8 * k)} (h : readBE k b = .ok x r) :
    b = writeBE k x ++ r := by
  obtain ⟨bs, s, h1, h2⟩ := Outcome.bind_eq_ok h
  obtain ⟨hl, rfl⟩ := takeOr_eq_ok h1
  obtain ⟨rfl, rfl⟩ := Outcome.ok.inj h2
  rw [writeBE_ofNat_ofBE hl]

theorem vecWithCapacity_of_le {size n : Nat} (h : n * size ≤ isizeMax) :
    vecWithCapacity size n = pure () :=
  if_pos h

theorem vecWithCapacity_of_lt {size n : Nat} (h : isizeMax < n * size) :
    vecWithCapacity size n = Decoder.panic "capacity overflow" :=
  if_neg (Nat.not_le.mpr h)

end Reads

end ZkProto
