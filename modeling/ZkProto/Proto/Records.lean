import ZkProto.Proto.Primitive
import ZkProto.Core.Cursor

/-!
# Records, Session Messages and Frames

The structured records of `proto.rs` and the messages that open a session,
with the frame assembler that puts a request on the wire.

`Acl` and `Stat` are declared in modules outside this file; their fields are
the ones the decoders build. `Permission` is opaque here: its conversion from
the raw `u32` and back are parameters, `fromRaw` and `code`, so every result
holds whatever the permission type does with its bits.

`ConnectResponse` keeps the session timeout as a `u64`, read from an `i32`
with `as u64`, which extends the sign; `ConnectRequest::from` casts it back
with `as i32`, which keeps the low 32 bits. The reconnect request therefore
echoes the timeout the server sent, negative or not, but a timeout given to
`ConnectResponse::initial` is cut to its low 32 bits.

The frame assembler reserves four bytes, writes the header and the body
after them, measures how far the cursor went, and goes back to write that
length into the reserved place. `WriteTo::to_len_prefixed_buf` does the same
for a lone value.

## Main definitions

* `Acl`, `Stat`: The permission entry and the node metadata record.
* `ConnectRequest`, `ConnectResponse`: The session handshake.
* `RequestHeader`, `ReplyHeader`: What precedes a request and a reply.
* `WriteTo.toLenPrefixedBuf`, `toLenPrefixedBuf`: The frame assembler.
-/

namespace ZkProto

/-- One ACL entry: a permission set, a scheme and an id. -/
structure Acl (P : Type) where
  perms : P
  scheme : RustString
  id : RustString

/-- `ReadFrom` for `Acl`: the permission bits as a `u32`, then the scheme and
    the id. -/
def Acl.readFrom {P : Type} (fromRaw : BitVec 32 → P) : Decoder (Acl P) := do
  let perms ← readU32
  let scheme ← readString
  let id ← readString
  pure ⟨fromRaw perms, scheme, id⟩

/-- `WriteTo` for `Acl`. -/
def Acl.writeTo {P : Type} (code : P → BitVec 32) (a : Acl P) : List UInt8 :=
  writeU32 (code a.perms) ++ a.scheme.writeTo ++ a.id.writeTo

/-- The metadata of a node: eleven fixed-width fields. -/
structure Stat where
  czxid : BitVec 64
  mzxid : BitVec 64
  ctime : BitVec 64
  mtime : BitVec 64
  version : BitVec 32
  cversion : BitVec 32
  aversion : BitVec 32
  ephemeralOwner : BitVec 64
  dataLength : BitVec 32
  numChildren : BitVec 32
  pzxid : BitVec 64
  deriving DecidableEq, Repr

/-- `ReadFrom` for `Stat`: the fields in declared order. -/
def Stat.readFrom : Decoder Stat := do
  let czxid ← readI64
  let mzxid ← readI64
  let ctime ← readI64
  let mtime ← readI64
  let version ← readI32
  let cversion ← readI32
  let aversion ← readI32
  let ephemeralOwner ← readI64
  let dataLength ← readI32
  let numChildren ← readI32
  let pzxid ← readI64
  pure ⟨czxid, mzxid, ctime, mtime, version, cversion, aversion, ephemeralOwner, dataLength,
    numChildren, pzxid⟩

/-- The request that opens or re-opens a session. -/
structure ConnectRequest where
  protocolVersion : BitVec 32
  lastZxidSeen : BitVec 64
  timeout : BitVec 32
  sessionId : BitVec 64
  passwd : List UInt8
  readOnly : Bool
  deriving DecidableEq, Repr

/-- The server's answer to a `ConnectRequest`; the timeout is a `u64`. -/
structure ConnectResponse where
  protocolVersion : BitVec 32
  timeout : BitVec 64
  sessionId : BitVec 64
  passwd : List UInt8
  readOnly : Bool
  deriving DecidableEq, Repr

/-- `ConnectRequest::from`: the session of a response, to re-open it. -/
def ConnectRequest.from (connResp : ConnectResponse) (lastZxidSeen : BitVec 64) :
    ConnectRequest where
  protocolVersion := connResp.protocolVersion
  lastZxidSeen := lastZxidSeen
  timeout := connResp.timeout.setWidth 32
  sessionId := connResp.sessionId
  passwd := connResp.passwd
  readOnly := connResp.readOnly

/-- `WriteTo` for `ConnectRequest`; `read_only as u8` is one or zero. -/
def ConnectRequest.writeTo (r : ConnectRequest) : List UInt8 :=
  writeI32 r.protocolVersion ++ writeI64 r.lastZxidSeen ++ writeI32 r.timeout ++
    writeI64 r.sessionId ++ Vec.writeTo writeU8 r.passwd ++ writeU8 (if r.readOnly then 1 else 0)

/-- `ConnectResponse::initial`: no session yet, and the timeout asked for. -/
def ConnectResponse.initial (timeout : BitVec 64) : ConnectResponse where
  protocolVersion := 0
  timeout := timeout
  sessionId := 0
  passwd := List.replicate 16 0
  readOnly := false

/-- `ReadFrom` for `ConnectResponse`: the timeout is read as an `i32` and
    widened `as u64`, and any non-zero flag byte means read-only. -/
def ConnectResponse.readFrom : Decoder ConnectResponse := do
  let protocolVersion ← readI32
  let timeout ← readI32
  let sessionId ← readI64
  let passwd ← readBuffer
  let readOnly ← readU8
  pure ⟨protocolVersion, timeout.signExtend 64, sessionId, passwd, readOnly ≠ 0⟩

/-- What precedes every request: its id and its operation. -/
structure RequestHeader where
  xid : BitVec 32
  opcode : OpCode
  deriving DecidableEq, Repr

/-- `WriteTo` for `RequestHeader`. -/
def RequestHeader.writeTo (rh : RequestHeader) : List UInt8 :=
  writeI32 rh.xid ++ writeI32 rh.opcode.toI32

/-- What precedes every reply. -/
structure ReplyHeader where
  xid : BitVec 32
  zxid : BitVec 64
  err : BitVec 32
  deriving DecidableEq, Repr

/-- `ReadFrom` for `ReplyHeader`. -/
def ReplyHeader.readFrom : Decoder ReplyHeader := do
  let xid ← readI32
  let zxid ← readI64
  let err ← readI32
  pure ⟨xid, zxid, err⟩

/-- `WriteTo::to_len_prefixed_buf`: reserve four bytes, write the value after
    them, and write `position() - 4` into the reserved place. -/
def WriteTo.toLenPrefixedBuf {α : Type} (writeTo : α → List UInt8) (x : α) : ByteBuf :=
  let buf := (ByteBuf.new []).setPosition 4
  let buf := buf.writeAll (writeTo x)
  let len := buf.pos - 4
  let buf := (buf.setPosition 0).writeAll (writeI32 (BitVec.ofNat 32 len))
  buf.setPosition 0

/-- `to_len_prefixed_buf`: a request frame, header and body after the four
    reserved bytes of its length. -/
def toLenPrefixedBuf {α : Type} (writeTo : α → List UInt8) (rh : RequestHeader) (req : α) :
    ByteBuf :=
  let buf := (ByteBuf.new []).setPosition 4
  let buf := buf.writeAll rh.writeTo
  let buf := buf.writeAll (writeTo req)
  let len := buf.pos - 4
  let buf := (buf.setPosition 0).writeAll (writeI32 (BitVec.ofNat 32 len))
  buf.setPosition 0

end ZkProto
