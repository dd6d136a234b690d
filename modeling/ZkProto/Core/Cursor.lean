import Mathlib.Algebra.Group.Nat.Basic
import Mathlib.Data.List.Basic

/-!
# Writing Through a Cursor

`ByteBuf` is `Cursor<Vec<u8>>` used as a writer: the frame assembler reserves
the four bytes of the length, writes the body after them, and then moves back
to write the length into the reserved place. What that leaves in the vector
depends on how a cursor writes, so this file models it.

A write at a position past the end of the vector first pads the vector with
zeros up to that position. The bytes then overwrite whatever lies at the
position and extend the vector where they run past its end, and the position
moves past them. `write_all` of an empty slice never calls `write`, so it
neither pads nor moves anything: a body of zero bytes leaves the vector
empty.

`writeAll_append` says that two writes in a row are one write of both. That is
why an encoder's output can be modelled as the single byte list it writes,
however many `write_all` calls it makes.

## Main definitions

* `ByteBuf`: A cursor over a byte vector.
* `ByteBuf.writeAll`: `Write::write_all` at the cursor.

## Theorems

* `writeAll_append`: Two writes in a row are one write of both.
* `writeAll_of_pos_eq_length`: A write at the end of the vector appends.
* `writeAll_of_length_le`: A write at position zero over a long enough vector
  overwrites its head.
-/

namespace ZkProto

/-- `Cursor<Vec<u8>>`: the vector and the position the next write lands at. -/
structure ByteBuf where
  inner : List UInt8
  pos : Nat
  deriving DecidableEq, Repr

namespace ByteBuf

/-- `Cursor::new(v)`. -/
def new (v : List UInt8) : ByteBuf := ⟨v, 0⟩

/-- `Cursor::set_position`. -/
def setPosition (c : ByteBuf) (p : Nat) : ByteBuf := { c with pos := p }

/-- The vector padded with zeros up to the position. -/
def padded (c : ByteBuf) : List UInt8 := c.inner ++ List.replicate (c.pos - c.inner.length) 0

/-- `Write::write_all` on a cursor over a vector. -/
def writeAll (c : ByteBuf) (buf : List UInt8) : ByteBuf :=
  if buf = [] then c
  else ⟨c.padded.take c.pos ++ buf ++ c.padded.drop (c.pos + buf.length), c.pos + buf.length⟩

@[simp] theorem setPosition_inner (c : ByteBuf) (p : Nat) : (c.setPosition p).inner = c.inner :=
  rfl

@[simp] theorem setPosition_pos (c : ByteBuf) (p : Nat) : (c.setPosition p).pos = p := rfl

@[simp] theorem writeAll_nil (c : ByteBuf) : c.writeAll [] = c := by simp [writeAll]

theorem length_padded (c : ByteBuf) : c.padded.length = max c.inner.length c.pos := by
  simp [padded]; omega

theorem writeAll_of_ne_nil (c : ByteBuf) {buf : List UInt8} (h : buf ≠ []) :
    c.writeAll buf =
      ⟨c.padded.take c.pos ++ buf ++ c.padded.drop (c.pos + buf.length), c.pos + buf.length⟩ :=
  if_neg h

/-- After a non-empty write the vector reaches at least the new position, so
    a following write needs no padding. -/
theorem padded_writeAll (c : ByteBuf) {buf : List UInt8} (h : buf ≠ []) :
    (c.writeAll buf).padded = (c.writeAll buf).inner := by
  have hl := c.length_padded
  rw [writeAll_of_ne_nil c h, padded]
  simp only [List.length_append, List.length_take, List.length_drop]
  rw [show c.pos + buf.length - _ = 0 by omega, List.replicate_zero, List.append_nil]

/-- Two writes in a row are one write of both. -/
theorem writeAll_append (c : ByteBuf) (a b : List UInt8) :
    c.writeAll (a ++ b) = (c.writeAll a).writeAll b := by
  rcases eq_or_ne a [] with rfl | ha
  · simp
  rcases eq_or_ne b [] with rfl | hb
  · simp
  -- The first write leaves the old head and `a` exactly up to the new position.
  have hp : (c.padded.take c.pos ++ a).length = c.pos + a.length := by
    have := c.length_padded
    simp only [List.length_append, List.length_take]
    omega
  have hd : (c.padded.take c.pos ++ a ++ c.padded.drop (c.pos + a.length)).drop
      (c.pos + a.length + b.length) = c.padded.drop (c.pos + a.length + b.length) := by
    rw [← List.drop_drop, List.drop_left' hp, List.drop_drop]
  rw [writeAll_of_ne_nil _ hb, padded_writeAll c ha, writeAll_of_ne_nil c ha,
    writeAll_of_ne_nil c (List.append_ne_nil_of_left_ne_nil ha b)]
  simp only [ByteBuf.mk.injEq, List.length_append, ← Nat.add_assoc, and_true]
  rw [List.take_left' hp, hd]
  simp only [List.append_assoc]

/-- A write at the end of the vector appends to it. -/
theorem writeAll_of_pos_eq_length (c : ByteBuf) (buf : List UInt8) (h : c.pos = c.inner.length) :
    c.writeAll buf = ⟨c.inner ++ buf, c.pos + buf.length⟩ := by
  rcases eq_or_ne buf [] with rfl | hb
  · simp
  rw [writeAll_of_ne_nil c hb, padded, h]
  simp

/-- A write at position zero over a vector at least as long as the bytes
    written overwrites the vector's head. -/
theorem writeAll_of_length_le (c : ByteBuf) (buf : List UInt8) (hp : c.pos = 0)
    (h : buf.length ≤ c.inner.length) :
    c.writeAll buf = ⟨buf ++ c.inner.drop buf.length, buf.length⟩ := by
  rcases eq_or_ne buf [] with rfl | hb
  · cases c; simp_all
  rw [writeAll_of_ne_nil c hb, padded, hp]
  simp

end ByteBuf

end ZkProto
