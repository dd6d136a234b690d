import ZkProto.Theory.Framing

/-!
# Re-Opening a Session

After a disconnect the client re-opens its session with a `ConnectRequest`
built from the server's last `ConnectResponse`. The request has to carry the
session id, the password and the timeout exactly as the server sent them.

The timeout takes a detour: the decoder reads it as an `i32` and stores it
as a `u64` with `as u64`, which extends the sign, and `ConnectRequest::from`
casts it back with `as i32`, which keeps the low 32 bits. The low 32 bits of
a sign extension are the value it started from, so a negative timeout
survives. The password is the buffer the decoder read, and is written back
with the length it was read with, which is below `2 ^ 31` because it came
from an `i32`.

The theorem is stated over the bytes the decoder consumed, split where its
reads split them, so that it relates what was read to what is written.

## Theorems

* `readBuffer_length_lt`: A decoded buffer is shorter than `2 ^ 31` bytes.
* `connectRequest_echoes_response`: The reconnect request writes back the
  fields the response was read from.
-/

namespace ZkProto

theorem readBuffer_length_lt {b pw r : List UInt8} (h : readBuffer b = .ok pw r) :
    pw.length < 2 ^ 31 := by
  rw [readBuffer_eq] at h
  obtain ⟨len, s, -, h2⟩ := Outcome.bind_eq_ok h
  rw [(takeOr_eq_ok h2).1]
  exact bufferLen_lt len

/-- If `ConnectResponse::read_from` reads a protocol version, a raw `i32`
    timeout, a session id, a password field and a flag byte, then for every
    zxid the request built from the response writes back the same version,
    timeout, session id and password, and the flag as one or zero. -/
theorem connectRequest_echoes_response {b rest : List UInt8} {resp : ConnectResponse}
    (h : ConnectResponse.readFrom b = .ok resp rest) (z : BitVec 64) :
    ∃ (pv t : BitVec 32) (sid : BitVec 64) (field pw : List UInt8) (f : UInt8),
      b = writeI32 pv ++ writeI32 t ++ writeI64 sid ++ field ++ f :: rest ∧
      readBuffer (field ++ f :: rest) = .ok pw (f :: rest) ∧ pw.length < 2 ^ 31 ∧
      (ConnectRequest.from resp z).writeTo =
        writeI32 pv ++ writeI64 z ++ writeI32 t ++ writeI64 sid ++
          writeI32 (BitVec.ofNat 32 pw.length) ++ pw ++ [if f ≠ 0 then 1 else 0] := by
  -- Peel the five reads off the decoder, last first.
  obtain ⟨pv, b1, h1, h⟩ := Outcome.bind_eq_ok h
  obtain ⟨t, b2, h2, h⟩ := Outcome.bind_eq_ok h
  obtain ⟨sid, b3, h3, h⟩ := Outcome.bind_eq_ok h
  obtain ⟨pw, b4, h4, h⟩ := Outcome.bind_eq_ok h
  obtain ⟨f, b5, h5, h⟩ := Outcome.bind_eq_ok h
  obtain ⟨rfl, rfl⟩ := Outcome.ok.inj h
  obtain rfl := readU8_eq_ok h5
  obtain ⟨field, rfl⟩ := Framed.readBuffer.suffix h4
  obtain rfl := readBE_eq_ok h3
  obtain rfl := readBE_eq_ok h2
  obtain rfl := readBE_eq_ok h1
  refine ⟨pv, t, sid, field, pw, f, by simp, h4, readBuffer_length_lt h4, ?_⟩
  simp [ConnectRequest.from, ConnectRequest.writeTo, setWidth_signExtend, vec_writeTo_writeU8,
    writeU8]

/-- A reply with the negative timeout `-1` and a two-byte password. -/
theorem connectRequest_echoes_negative_timeout :
    ConnectResponse.readFrom (writeI32 0 ++ writeI32 (-1) ++ writeI64 5 ++ [0, 0, 0, 2, 7, 8, 1]) =
        .ok ⟨0, -1, 5, [7, 8], true⟩ [] ∧
      ∃ (pv t : BitVec 32) (sid : BitVec 64) (field pw : List UInt8) (f : UInt8),
        writeI32 0 ++ writeI32 (-1) ++ writeI64 5 ++ [0, 0, 0, 2, 7, 8, 1] =
          writeI32 pv ++ writeI32 t ++ writeI64 sid ++ field ++ [f] ∧
        readBuffer (field ++ [f]) = .ok pw [f] ∧ pw.length < 2 ^ 31 ∧
        (ConnectRequest.from ⟨0, -1, 5, [7, 8], true⟩ 3).writeTo =
          writeI32 pv ++ writeI64 3 ++ writeI32 t ++ writeI64 sid ++
            writeI32 (BitVec.ofNat 32 pw.length) ++ pw ++ [if f ≠ 0 then 1 else 0] :=
  have h : ConnectResponse.readFrom (writeI32 0 ++ writeI32 (-1) ++ writeI64 5 ++
      [0, 0, 0, 2, 7, 8, 1]) = .ok ⟨0, -1, 5, [7, 8], true⟩ [] := by decide
  ⟨h, connectRequest_echoes_response h 3⟩

end ZkProto
