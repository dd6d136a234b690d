import ZkProto.Proto.Multi

/-!
# The Transaction Encoder and Decoder

`TransactionRequest::write_to` does not call the standalone request encoders.
It matches on each operation and writes the fields inline, so nothing in the
code keeps the two in step. `transactionRequest_writeTo_eq` shows they agree:
every entry is its header followed by exactly the bytes the standalone
encoder writes for the same fields, with an absent version written as `-1`
and the creation mode as its `i32`. The closing header is the only entry
with `done` set, and it is there for an empty list too.

The decoder is where the code and the protocol part. `read_from` returns no
results and reads nothing, whatever the reply holds, so a reply to a
transaction of one operation comes back as an empty list with the whole
reply left unread.

## Main definitions

* `entryHeader`: The header before an operation in a transaction.
* `Op.standalone`: An operation's entry built from the standalone encoders.

## Theorems

* `transactionRequest_writeTo_eq`: The inline encoder writes each operation
  as its standalone request.
* `transactionResponse_readFrom_check_reply`: The decoder drops the result of
  a one-operation reply and reads nothing.
-/

namespace ZkProto

variable {P M : Type}

/-- The header a transaction writes before an operation: its code, a `done`
    byte of zero and an `err` of `-1`. -/
def entryHeader (c : OpCode) : List UInt8 := writeI32 c.toI32 ++ [0] ++ writeI32 (-1)

/-- An operation's entry as the standalone request encoders write its fields:
    a check and a delete as a `DeleteRequest`, a create as a `CreateRequest`
    with the mode's code as its flags, a set-data as a `SetDataRequest`. -/
def Op.standalone (code : P → BitVec 32) (modeCode : M → BitVec 32) : Op P M → List UInt8
  | .check path version =>
      entryHeader .check ++ DeleteRequest.writeTo ⟨path, version.getD (-1)⟩
  | .create path data acl mode =>
      entryHeader .create ++ CreateRequest.writeTo code ⟨path, data, acl, modeCode mode⟩
  | .delete path version =>
      entryHeader .delete ++ DeleteRequest.writeTo ⟨path, version.getD (-1)⟩
  | .setData path data version =>
      entryHeader .setData ++ SetDataRequest.writeTo ⟨path, data, version.getD (-1)⟩

theorem op_entry_eq_standalone (code : P → BitVec 32) (modeCode : M → BitVec 32) :
    Op.entry code modeCode = Op.standalone code modeCode := by
  funext op
  cases op <;>
    simp [Op.entry, Op.standalone, Op.typeCode, entryHeader, writeU8, DeleteRequest.writeTo,
      CreateRequest.writeTo, SetDataRequest.writeTo]

/-- A transaction is written as each operation's header and standalone
    request, in order, and then the closing header, whose `done` is one. -/
theorem transactionRequest_writeTo_eq (code : P → BitVec 32) (modeCode : M → BitVec 32)
    (ops : List (Op P M)) :
    TransactionRequest.writeTo code modeCode ⟨ops⟩ =
      ops.flatMap (Op.standalone code modeCode) ++ (writeI32 (-1) ++ [1] ++ writeI32 (-1)) := by
  rw [TransactionRequest.writeTo, op_entry_eq_standalone]
  rfl

/-- The reply to a transaction of one check that succeeded: an entry with the
    empty completion code and no payload, then the closing entry. -/
def checkReply : List UInt8 :=
  writeI32 0 ++ [0] ++ writeI32 (-1) ++ (writeI32 (-1) ++ [1] ++ writeI32 (-1))

/-- On that reply the decoder returns no results and leaves all of it unread,
    where one `Ok` result and nothing left were due. -/
theorem transactionResponse_readFrom_check_reply {ε : Type} :
    TransactionResponse.readFrom (ε := ε) checkReply = .ok ⟨[]⟩ checkReply ∧
      checkReply.length = 18 := ⟨rfl, rfl⟩

end ZkProto
