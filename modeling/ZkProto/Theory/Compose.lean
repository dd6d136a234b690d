import ZkProto.Proto.Multi

/-!
# How the Decoders Are Put Together

Every decoder of the codec is a chain of `?`s over a few reads: `read_exact`
of a fixed number of bytes, under the fixed-width readers; the checked
`read` of `read_buffer`; the `unwrap` of `read_string`; the allocation of the
sequence decoders; and the derived conversions of enum codes. A property of
decoders that holds of those reads and survives `?` therefore holds of every
decoder. This module follows each decoder's chain of reads once, for every
such property, so that a change to a decoder in `proto.rs` is a change to one
lemma here.

`Composes P` is a property indexed by the number of bytes a decoder reads:
`read_exact n` has it at `n`, a pure value at `0`, and `d >>= f` at the sum
when `d` and every `f a` have it. `FixedWidth` is such a property, and so is
every property that ignores the index, which is how `Framed`, `PanicsOnly`
and `Streaming` use it. The fixed-width decoders, `Stat` and the reply
header, are proved for every such property at their width. The others read
a number of bytes that depends on what they read, so they are proved for
the properties that ignore the index, from the reads they add: the checked
`read` of a buffer, `unwrap`, the allocation and the conversions.

`read_buffer`'s own read is `read` followed by a check of the count.
`readBuffer_eq` shows that the two together are a fixed read of the length,
with `read_buffer failed` as its error, so a property needs to hold of that
fixed read and of nothing else.

## Main definitions

* `Composes`: A property of decoders that holds of `read_exact` and of a
  pure value and survives `?`, the widths added.

## Theorems

* `readBuffer_eq`: One `read` and a count check is a fixed read with its own
  error.
* `readBuffer_writeI32_append`: After a written length, `read_buffer` takes
  as many bytes as the length is read as.
* `Composes.readBE`, `Composes.stat_readFrom`,
  `Composes.replyHeader_readFrom`: The fixed-width readers and records.
* `Composes.readMany`: A counted loop.
* `Composes.readBuffer`, `Composes.readString`, and one lemma for each reply
  decoder: The decoders of variable width, from the reads they add.
-/

namespace ZkProto

/-- One `read` on a cursor, followed by a check of the count it returned, is
    a fixed read that fails with the check's error. -/
theorem read_check_eq (e : IoError) (n : Nat) :
    (read n >>= fun buf => if buf.length = n then pure buf else Decoder.fail e) = takeOr e n := by
  funext b
  by_cases h : n ≤ b.length
  · simp [read, takeOr, h]
  · have hn : ¬ min n b.length = n := by omega
    simp [read, takeOr, h, hn]

/-- `read_buffer` is a fixed read of the length it was given. -/
theorem readBuffer_eq :
    readBuffer = (readI32 >>= fun len => takeOr (error "read_buffer failed") (bufferLen len)) := by
  unfold readBuffer
  simp only [read_check_eq]

/-- `read_buffer` after a written length takes that many bytes, as the
    length is read. -/
theorem readBuffer_writeI32_append (len : BitVec 32) (rest : List UInt8) :
    readBuffer (writeI32 len ++ rest) =
      takeOr (error "read_buffer failed") (bufferLen len) rest := by
  rw [readBuffer_eq, Decoder.bind_apply]
  simp only [readBE_append, Outcome.ok_bind]

/-- A property of decoders, indexed by how many bytes they read, that holds
    of `read_exact n` at `n` and of a pure value at `0`, and survives `?` with
    the widths added. -/
structure Composes (P : ∀ {α : Type}, Decoder α → Nat → Prop) : Prop where
  /-- A value returned without reading reads nothing. -/
  pure : ∀ {α : Type} (a : α), P (Pure.pure a : Decoder α) 0
  /-- `?` runs the second decoder where the first stopped. -/
  bind : ∀ {α β : Type} {d : Decoder α} {f : α → Decoder β} {m n : Nat},
    P d m → (∀ a, P (f a) n) → P (d >>= f) (m + n)
  /-- `read_exact` of `n` bytes reads `n`. -/
  readExact : ∀ n, P (readExact n) n

namespace Composes

section Fixed

variable {P : ∀ {α : Type}, Decoder α → Nat → Prop} (h : Composes P)
include h

theorem readU8 : P readU8 1 := h.bind (h.readExact 1) fun _ => h.pure _

theorem readBE (k : Nat) : P (readBE k) k := h.bind (h.readExact k) fun _ => h.pure _

/-- `Stat`: eleven fixed reads, 68 bytes. -/
theorem stat_readFrom : P Stat.readFrom 68 :=
  h.bind (h.readBE 8) fun _ => h.bind (h.readBE 8) fun _ => h.bind (h.readBE 8) fun _ =>
    h.bind (h.readBE 8) fun _ => h.bind (h.readBE 4) fun _ => h.bind (h.readBE 4) fun _ =>
      h.bind (h.readBE 4) fun _ => h.bind (h.readBE 8) fun _ => h.bind (h.readBE 4) fun _ =>
        h.bind (h.readBE 4) fun _ => h.bind (h.readBE 8) fun _ => h.pure _

theorem replyHeader_readFrom : P ReplyHeader.readFrom 16 :=
  h.bind (h.readBE 4) fun _ => h.bind (h.readBE 8) fun _ => h.bind (h.readBE 4) fun _ => h.pure _

theorem statResponse_readFrom : P StatResponse.readFrom 68 :=
  h.bind h.stat_readFrom fun _ => h.pure _

end Fixed

section Variable

variable {Q : ∀ {α : Type}, Decoder α → Prop} (h : Composes fun d _ => Q d)
include h

/-- `?` for a property that ignores the width. -/
theorem seq {α β : Type} {d : Decoder α} {f : α → Decoder β} (hd : Q d) (hf : ∀ a, Q (f a)) :
    Q (d >>= f) :=
  h.bind (m := 0) (n := 0) hd hf

theorem readMany {α : Type} {d : Decoder α} (hd : Q d) : ∀ n, Q (readMany d n)
  | 0 => h.pure []
  | n + 1 => h.seq hd fun _ => h.seq (readMany hd n) fun _ => h.pure _

theorem readBuffer (ht : ∀ n, Q (takeOr (error "read_buffer failed") n)) : Q ZkProto.readBuffer :=
  readBuffer_eq ▸ h.seq (h.readBE 4) fun _ => ht _

theorem readString (hb : Q ZkProto.readBuffer)
    (hu : ∀ r : Except FromUtf8Error RustString, Q (Decoder.unwrap r)) : Q ZkProto.readString :=
  h.seq hb fun _ => hu _

theorem acl_readFrom {P : Type} (fromRaw : BitVec 32 → P) (hs : Q ZkProto.readString) :
    Q (Acl.readFrom fromRaw) :=
  h.seq (h.readBE 4) fun _ => h.seq hs fun _ => h.seq hs fun _ => h.pure _

theorem connectResponse_readFrom (hb : Q ZkProto.readBuffer) : Q ConnectResponse.readFrom :=
  h.seq (h.readBE 4) fun _ => h.seq (h.readBE 4) fun _ => h.seq (h.readBE 8) fun _ =>
    h.seq hb fun _ => h.seq h.readU8 fun _ => h.pure _

theorem createResponse_readFrom (hs : Q ZkProto.readString) : Q CreateResponse.readFrom :=
  h.seq hs fun _ => h.pure _

theorem getAclResponse_readFrom {P : Type} (fromRaw : BitVec 32 → P) (hs : Q ZkProto.readString)
    (hv : ∀ n, Q (vecWithCapacity sizeOfAcl n)) : Q (GetAclResponse.readFrom fromRaw) :=
  h.seq (h.readBE 4) fun _ => h.seq (hv _) fun _ =>
    h.seq (h.readMany (h.acl_readFrom fromRaw hs) _) fun _ => h.seq h.stat_readFrom fun _ =>
      h.pure _

theorem getChildrenResponse_readFrom (hs : Q ZkProto.readString)
    (hv : ∀ n, Q (vecWithCapacity sizeOfString n)) : Q GetChildrenResponse.readFrom :=
  h.seq (h.readBE 4) fun _ => h.seq (hv _) fun _ => h.seq (h.readMany hs _) fun _ => h.pure _

theorem getDataResponse_readFrom (hb : Q ZkProto.readBuffer) : Q GetDataResponse.readFrom :=
  h.seq hb fun _ => h.seq h.stat_readFrom fun _ => h.pure _

theorem watchedEvent_readFrom {E S : Type} (eventTypeFrom : BitVec 32 → Option E)
    (keeperStateFrom : BitVec 32 → Option S) (hs : Q ZkProto.readString)
    (ho : ∀ {α : Type} (m : String) (o : Option α), Q (Decoder.ofOption m o)) :
    Q (WatchedEvent.readFrom eventTypeFrom keeperStateFrom) :=
  h.seq (h.readBE 4) fun _ => h.seq (h.readBE 4) fun _ => h.seq hs fun _ =>
    h.seq (ho _ _) fun _ => h.seq (ho _ _) fun _ => h.pure _

theorem readTransactionHeader (completionFrom : BitVec 32 → Option Completion)
    (ho : ∀ {α : Type} (m : String) (o : Option α), Q (Decoder.ofOption m o)) :
    Q (readTransactionHeader completionFrom) :=
  h.seq (h.readBE 4) fun _ => h.seq h.readU8 fun _ => h.seq (h.readBE 4) fun _ =>
    h.seq (ho _ _) fun _ => h.pure _

end Variable

end Composes

end ZkProto
