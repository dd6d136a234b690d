import ZkProto.Proto.Requests

/-!
# Multi-Operation Transactions

`multi.rs` declares the operations a transaction is made of and the result
each one has; `proto.rs` encodes a list of them and decodes the reply.

The encoder writes, for each operation, an entry header of a type code, a
`done` byte of zero and an `err` of `-1`, followed by the operation's fields.
It writes the fields inline rather than through the standalone request
types, and an absent version is written as `-1`. A last header, with type
`-1` and `done` set, closes the list.

The decoder is a stub. `TransactionResponse::read_from` returns an empty list
of results without reading anything; the loop that was meant to decode the
entries is commented out under a note that it is wrong. The model is the
stub. The reader of one reply entry's header, `read_transaction_header`, is
still compiled, though nothing calls it; it is modelled as written, with the
derived `Completion::from` a parameter like the other derived conversions.

`CreateMode` and `ZkError` are declared outside this file. The mode's
`as i32` is a parameter, `modeCode`, and the error type of a result is a type
parameter.

## Main definitions

* `Op`: One operation of a transaction.
* `OpResult`: What a successful operation returns.
* `TransactionRequest.writeTo`: The transaction encoder.
* `TransactionResponse.readFrom`: The transaction reply decoder.
* `readTransactionHeader`: The header of one reply entry.
-/

namespace ZkProto

/-- An operation that can exist as part of a transaction. -/
inductive Op (P M : Type) where
  | check (path : RustString) (version : Option (BitVec 32))
  | create (path : RustString) (data : List UInt8) (acl : List (Acl P)) (mode : M)
  | delete (path : RustString) (version : Option (BitVec 32))
  | setData (path : RustString) (data : List UInt8) (version : Option (BitVec 32))

/-- Part of the response to a transaction; each case answers a case of `Op`. -/
inductive OpResult where
  | empty
  | create (path : RustString)
  | setData (stat : Stat)
  deriving DecidableEq

/-- The operations of one transaction. -/
structure TransactionRequest (P M : Type) where
  ops : List (Op P M)

section Transaction

variable {P M : Type}

/-- The operation code a transaction entry names. -/
def Op.typeCode : Op P M → OpCode
  | .check .. => .check
  | .create .. => .create
  | .delete .. => .delete
  | .setData .. => .setData

/-- One entry of `TransactionRequest::write_to`: the header, then the fields. -/
def Op.entry (code : P → BitVec 32) (modeCode : M → BitVec 32) (op : Op P M) : List UInt8 :=
  writeI32 op.typeCode.toI32 ++ writeU8 0 ++ writeI32 (-1) ++
    match op with
    | .check path version => path.writeTo ++ writeI32 (version.getD (-1))
    | .create path data acl mode =>
        path.writeTo ++ Vec.writeTo writeU8 data ++ Vec.writeTo (Acl.writeTo code) acl ++
          writeI32 (modeCode mode)
    | .delete path version => path.writeTo ++ writeI32 (version.getD (-1))
    | .setData path data version =>
        path.writeTo ++ Vec.writeTo writeU8 data ++ writeI32 (version.getD (-1))

/-- `WriteTo` for `TransactionRequest`: every entry, then the closing header. -/
def TransactionRequest.writeTo (code : P → BitVec 32) (modeCode : M → BitVec 32)
    (r : TransactionRequest P M) : List UInt8 :=
  r.ops.flatMap (Op.entry code modeCode) ++ (writeI32 (-1) ++ writeU8 1 ++ writeI32 (-1))

end Transaction

/-- The results of a transaction, one per operation. -/
structure TransactionResponse (ε : Type) where
  responses : List (Except ε OpResult)

/-- `ReadFrom` for `TransactionResponse`, as the code has it: no results, and
    nothing read. -/
def TransactionResponse.readFrom {ε : Type} : Decoder (TransactionResponse ε) :=
  pure ⟨[]⟩

/-- What a reply entry holds, by its type code: an error code, nothing, a
    `Stat` or a path. -/
inductive Completion where
  | error
  | empty
  | stat
  | string
  deriving DecidableEq, Repr

/-- `read_transaction_header`: a type code, a `done` byte and an error code,
    and then `Completion::from` of the type code, given as `completionFrom`,
    with `none` for a code the derived conversion panics on. -/
def readTransactionHeader (completionFrom : BitVec 32 → Option Completion) :
    Decoder (Completion × Bool × BitVec 32) := do
  let typeCode ← readI32
  let done ← readU8
  let err ← readI32
  let completion ← Decoder.ofOption "unknown Completion" (completionFrom typeCode)
  pure (completion, done ≠ 0, err)

end ZkProto
