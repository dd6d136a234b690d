import ZkProto.Theory.RoundTrip

/-!
# Frames and the Lengths Encoders Write

The frame assembler writes the body four bytes into an empty vector, so the
cursor pads those four bytes with zeros, and then goes back to position zero
and writes the length over them. `frame_of_body` follows that sequence on
the cursor model: the result is the length and then the body, with the
cursor back at zero. A body of no bytes is the one case where the first
write does not pad, and the length is then written into an empty vector;
the result has the same shape.

Every length an encoder writes is cast `as i32`, which keeps the low 32 bits.
Below `2 ^ 31` the `i32` has the length's value; at `2 ^ 31` and above it
wraps, and no encoder checks for that or returns an error. The session
timeout is cast the same way from its `u64`.

## Theorems

* `frame_of_body`: Reserve, write, measure and backfill leaves the length
  before the body.
* `toLenPrefixedBuf_inner`: A request frame is its header and body written
  as a byte buffer.
* `frames_are_length_prefixed`: Both frame assemblers return the length
  and then the bytes, at position zero.
* `toInt_ofNat_iff`: A length keeps its value as an `i32` exactly below
  `2 ^ 31`.
* `encoders_write_lengths_as_i32`: Every length and timeout is written as
  its low 32 bits.
* `readBuffer_frame`: A frame read back as a buffer is its header and body.
-/

namespace ZkProto

variable {α : Type}

/-- The first write into the fresh cursor at position four pads the reserved
    bytes with zeros, unless it writes nothing. -/
theorem writeAll_reserved (B : List UInt8) :
    ((ByteBuf.new []).setPosition 4).writeAll B =
      if B = [] then ⟨[], 4⟩ else ⟨List.replicate 4 0 ++ B, 4 + B.length⟩ := by
  split
  · subst_vars
    rfl
  · rw [ByteBuf.writeAll_of_ne_nil _ ‹_›]
    simp [ByteBuf.padded, ByteBuf.new, ByteBuf.setPosition]

/-- Reserve four bytes, write the body, measure it, write the length into the
    reserved place and rewind: the length and then the body, at position
    zero. -/
theorem frame_of_body (B : List UInt8) :
    ByteBuf.setPosition (((((ByteBuf.new []).setPosition 4).writeAll B).setPosition 0).writeAll
        (writeI32 (BitVec.ofNat 32 ((((ByteBuf.new []).setPosition 4).writeAll B).pos - 4)))) 0 =
      ⟨writeI32 (BitVec.ofNat 32 B.length) ++ B, 0⟩ := by
  rw [writeAll_reserved]
  split
  · subst_vars
    rw [ByteBuf.writeAll_of_pos_eq_length _ _ rfl]
    rfl
  · rw [ByteBuf.writeAll_of_length_le _ _ rfl (by simp)]
    simp [ByteBuf.setPosition]

/-- A request frame is its header and body written as a byte buffer. -/
theorem toLenPrefixedBuf_inner (w : α → List UInt8) (rh : RequestHeader) (req : α) :
    (toLenPrefixedBuf w rh req).inner = Vec.writeTo writeU8 (rh.writeTo ++ w req) := by
  have h : toLenPrefixedBuf w rh req = ⟨writeI32 (BitVec.ofNat 32 (rh.writeTo ++ w req).length) ++
      (rh.writeTo ++ w req), 0⟩ := by
    rw [← frame_of_body]
    simp only [toLenPrefixedBuf, ByteBuf.writeAll_append]
  rw [h, vec_writeTo_writeU8]

/-- Both frame assemblers return the bytes' length and then the bytes, with
    the cursor at position zero: the request header and body for
    `to_len_prefixed_buf`, a lone value for `WriteTo::to_len_prefixed_buf`. -/
theorem frames_are_length_prefixed (writeTo : α → List UInt8) :
    (∀ (rh : RequestHeader) (req : α),
      toLenPrefixedBuf writeTo rh req =
        ⟨writeI32 (BitVec.ofNat 32 (rh.writeTo ++ writeTo req).length) ++
          (rh.writeTo ++ writeTo req), 0⟩) ∧
    ∀ x : α, WriteTo.toLenPrefixedBuf writeTo x =
      ⟨writeI32 (BitVec.ofNat 32 (writeTo x).length) ++ writeTo x, 0⟩ := by
  refine ⟨fun rh req => ?_, fun x => frame_of_body (writeTo x)⟩
  rw [← frame_of_body]
  simp only [toLenPrefixedBuf, ByteBuf.writeAll_append]

/-- A length keeps its value as an `i32` exactly when it is below `2 ^ 31`. -/
theorem toInt_ofNat_iff (n : Nat) : (BitVec.ofNat 32 n).toInt = n ↔ n < 2 ^ 31 := by
  refine ⟨fun h => ?_, toInt_ofNat_of_lt⟩
  rw [BitVec.toInt_eq_toNat_cond, BitVec.toNat_ofNat] at h
  split at h <;> omega

/-- Every length and count an encoder writes, the frame length, and the
    session timeout of a fresh session are written as the quantity cast
    `as i32`: its low 32 bits, which have the quantity's value exactly below
    `2 ^ 31`. Each encoder returns its bytes whatever the quantity. -/
theorem encoders_write_lengths_as_i32 (w : α → List UInt8) :
    (∀ s : RustString, s.writeTo = writeI32 (BitVec.ofNat 32 s.len) ++ s.bytes) ∧
    (∀ xs : List α, Vec.writeTo w xs = writeI32 (BitVec.ofNat 32 xs.length) ++ xs.flatMap w) ∧
    (∀ (rh : RequestHeader) (req : α), (toLenPrefixedBuf w rh req).inner =
      writeI32 (BitVec.ofNat 32 (rh.writeTo ++ w req).length) ++ (rh.writeTo ++ w req)) ∧
    (∀ x : α, (WriteTo.toLenPrefixedBuf w x).inner =
      writeI32 (BitVec.ofNat 32 (w x).length) ++ w x) ∧
    (∀ t z : BitVec 64, (ConnectRequest.from (ConnectResponse.initial t) z).writeTo =
      writeI32 0 ++ writeI64 z ++ writeI32 (BitVec.ofNat 32 t.toNat) ++ writeI64 0 ++
        Vec.writeTo writeU8 (List.replicate 16 0) ++ writeU8 0) ∧
    ∀ n : Nat, (BitVec.ofNat 32 n).toInt = n ↔ n < 2 ^ 31 := by
  refine ⟨fun _ => rfl, fun _ => rfl, fun rh req => ?_, fun x => ?_, fun t z => ?_,
    toInt_ofNat_iff⟩
  · rw [(frames_are_length_prefixed w).1]
  · rw [(frames_are_length_prefixed w).2]
  · simp [ConnectRequest.from, ConnectRequest.writeTo, ConnectResponse.initial]

/-- A fresh session with a timeout of `2 ^ 31` ms writes the timeout as the
    `i32` `-2 ^ 31`. -/
theorem connect_timeout_wraps :
    (ConnectRequest.from (ConnectResponse.initial 2147483648) 0).writeTo =
        writeI32 0 ++ writeI64 0 ++ writeI32 (-2147483648) ++ writeI64 0 ++
          Vec.writeTo writeU8 (List.replicate 16 0) ++ writeU8 0 ∧
      (-2147483648 : BitVec 32).toInt = -2147483648 := ⟨rfl, rfl⟩

/-- The length `read_buffer` reads back after `n as i32`: `n` modulo `2 ^ 32`,
    or none when that is past `i32::MAX` and so reads as negative. -/
theorem bufferLen_ofNat_eq (n : Nat) :
    bufferLen (BitVec.ofNat 32 n) = if n % 2 ^ 32 < 2 ^ 31 then n % 2 ^ 32 else 0 := by
  simp only [bufferLen, BitVec.toInt_eq_toNat_cond, BitVec.toNat_ofNat]
  split_ifs <;> omega

/-- `read_buffer` over a byte buffer's own encoding takes as many bytes as
    the written length reads back as, and leaves the rest. -/
theorem readBuffer_vec_writeTo (xs : List UInt8) :
    readBuffer (Vec.writeTo writeU8 xs) = .ok (xs.take (bufferLen (BitVec.ofNat 32 xs.length)))
      (xs.drop (bufferLen (BitVec.ofNat 32 xs.length))) := by
  rw [vec_writeTo_writeU8, readBuffer_writeI32_append, takeOr, if_pos]
  rw [bufferLen_ofNat_eq]
  split_ifs <;> omega

/-- `read_buffer` gets a byte buffer back from its own encoding, and nothing
    after it, exactly when the buffer is shorter than `2 ^ 31` bytes. A
    longer buffer's length is written wrapped modulo `2 ^ 32`: `read_buffer`
    takes that many bytes, or none when the wrapped length is negative, and
    stops short of the buffer's end. -/
theorem readBuffer_writeTo (xs : List UInt8) :
    (readBuffer (Vec.writeTo writeU8 xs) = .ok xs [] ↔ xs.length < 2 ^ 31) ∧
      (2 ^ 31 ≤ xs.length →
        let k := if xs.length % 2 ^ 32 < 2 ^ 31 then xs.length % 2 ^ 32 else 0
        k < xs.length ∧ readBuffer (Vec.writeTo writeU8 xs) = .ok (xs.take k) (xs.drop k)) := by
  rw [readBuffer_vec_writeTo, bufferLen_ofNat_eq]
  refine ⟨⟨fun h => ?_, fun h => ?_⟩, fun h => ⟨by split_ifs <;> omega, rfl⟩⟩
  · -- Nothing is left only if the whole buffer was taken, which a wrapped
    -- length never does.
    have hd := congrArg List.length (Outcome.ok.inj h).2
    simp only [List.length_drop, List.length_nil] at hd
    split_ifs at hd <;> omega
  · rw [if_pos (by omega), Nat.mod_eq_of_lt (by omega), List.take_length, List.drop_length]

/-- A buffer of `2 ^ 31` zero bytes: its length is written as `i32::MIN`,
    which `read_buffer` reads as an empty buffer, leaving every byte. -/
theorem readBuffer_writeTo_two_pow_31 :
    2 ^ 31 ≤ (List.replicate (2 ^ 31) (0 : UInt8)).length ∧
      readBuffer (Vec.writeTo writeU8 (List.replicate (2 ^ 31) 0)) =
        .ok [] (List.replicate (2 ^ 31) 0) := by
  have hl : 2 ^ 31 ≤ (List.replicate (2 ^ 31) (0 : UInt8)).length :=
    (List.length_replicate _ _).ge
  have h := ((readBuffer_writeTo (List.replicate (2 ^ 31) 0)).2 hl).2
  rw [List.length_replicate, if_neg (by decide), List.take_zero, List.drop_zero] at h
  exact ⟨hl, h⟩

/-- A request frame is a buffer: `read_buffer` over it returns the header and
    the body, and nothing is left. -/
theorem readBuffer_frame (w : α → List UInt8) (rh : RequestHeader) (req : α)
    (h : (rh.writeTo ++ w req).length < 2 ^ 31) :
    readBuffer (toLenPrefixedBuf w rh req).inner = .ok (rh.writeTo ++ w req) [] := by
  simpa [toLenPrefixedBuf_inner] using readBuffer_append h []

/-- A ping frame: header only, read back as a buffer. -/
theorem readBuffer_ping_frame :
    (RequestHeader.writeTo ⟨7, .ping⟩ ++ EmptyRequest.writeTo ⟨⟩).length < 2 ^ 31 ∧
      readBuffer (toLenPrefixedBuf EmptyRequest.writeTo ⟨7, .ping⟩ ⟨⟩).inner =
        .ok (RequestHeader.writeTo ⟨7, .ping⟩ ++ EmptyRequest.writeTo ⟨⟩) [] :=
  have h : (RequestHeader.writeTo ⟨7, .ping⟩ ++ EmptyRequest.writeTo ⟨⟩).length < 2 ^ 31 := by
    decide
  ⟨h, readBuffer_frame EmptyRequest.writeTo ⟨7, .ping⟩ ⟨⟩ h⟩

end ZkProto
