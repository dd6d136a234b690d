import ZkProto.Proto.Records

/-!
# Per-Operation Codecs

One request encoder and one response decoder for each operation, in the
field order `proto.rs` gives them, and the decoder of watch notifications.

Two decoders read a sequence by hand rather than through a generic reader:
`GetAclResponse` and `GetChildrenResponse` read an `i32` count, allocate with
`Vec::with_capacity(len as usize)`, and then loop `for _ in 0..len`. The two
halves treat a negative count differently. The cast `as usize` extends the
sign, so the allocation is asked for nearly `2 ^ 64` elements and panics with
a capacity overflow, while the loop alone would run no times. `asUsize` and
`rangeCount` are the two readings of the count.

The size of an element enters only through the overflow test. Any size from
one byte up to `2 ^ 32` gives the same answer for every `i32` count: a
non-negative count never overflows and a negative one always does.

`WatchedEventType::from` and `KeeperState::from` are derived conversions
declared outside this file. They are parameters here, returning `none` on a
value the conversion panics on.

## Main definitions

* `asUsize`, `rangeCount`: An `i32` count cast `as usize`, and the number of
  turns of `0..len`.
* The request encoders: `CreateRequest`, `DeleteRequest`,
  `StringAndBoolRequest`, `GetAclRequest`, `SetAclRequest`,
  `SetDataRequest`, `AuthRequest`, `EmptyRequest`.
* The response decoders: `CreateResponse`, `StatResponse`,
  `GetAclResponse`, `GetChildrenResponse`, `GetDataResponse`,
  `EmptyResponse`.
* `WatchedEvent.readFrom`: A watch notification.
-/

namespace ZkProto

/-- `len as usize` for an `i32`: the cast extends the sign to 64 bits. -/
def asUsize (len : BitVec 32) : Nat := (len.signExtend 64).toNat

/-- How many times `for _ in 0..len` runs: `len` when positive, else never. -/
def rangeCount (len : BitVec 32) : Nat := len.toInt.toNat

/-- `size_of::<String>()` on a 64-bit target: pointer, capacity and length. -/
def sizeOfString : Nat := 24

/-- `size_of::<Acl>()` on a 64-bit target: two strings and a `u32` permission
    set, padded to a multiple of eight. -/
def sizeOfAcl : Nat := 56

theorem rangeCount_ofNat {n : Nat} (h : n < 2 ^ 31) : rangeCount (BitVec.ofNat 32 n) = n := by
  simp [rangeCount, toInt_ofNat_of_lt h]

/-- A count below `2 ^ 31` is cast `as usize` unchanged. -/
theorem asUsize_ofNat {n : Nat} (h : n < 2 ^ 31) : asUsize (BitVec.ofNat 32 n) = n := by
  rw [asUsize, BitVec.signExtend_eq_not_setWidth_not_of_msb_false]
  · simp
    omega
  · rw [BitVec.msb_eq_false_iff_two_mul_lt]
    simp
    omega

/-- A negative count is cast `as usize` to within `2 ^ 31` of `2 ^ 64`. -/
theorem asUsize_of_neg {x : BitVec 32} (h : x.toInt < 0) : 2 ^ 64 - 2 ^ 31 ≤ asUsize x := by
  have hm : x.msb = true := by
    rw [BitVec.toInt_eq_msb_cond] at h
    split at h <;> simp_all
    omega
  have h2 : 2 ^ 31 ≤ x.toNat := by simpa [BitVec.msb_eq_decide] using hm
  have h3 := x.isLt
  rw [asUsize, BitVec.signExtend_eq_not_setWidth_not_of_msb_true hm]
  simp [BitVec.toNat_not]
  omega

section Codecs

variable {P : Type}

/-- The request that creates a node. -/
structure CreateRequest (P : Type) where
  path : RustString
  data : List UInt8
  acl : List (Acl P)
  flags : BitVec 32

/-- `WriteTo` for `CreateRequest`. -/
def CreateRequest.writeTo (code : P → BitVec 32) (r : CreateRequest P) : List UInt8 :=
  r.path.writeTo ++ Vec.writeTo writeU8 r.data ++ Vec.writeTo (Acl.writeTo code) r.acl ++
    writeI32 r.flags

/-- The reply to a create: the path of the node made. -/
structure CreateResponse where
  path : RustString
  deriving DecidableEq

/-- `ReadFrom` for `CreateResponse`. -/
def CreateResponse.readFrom : Decoder CreateResponse := do
  let path ← readString
  pure ⟨path⟩

/-- The request that deletes a node at a version. -/
structure DeleteRequest where
  path : RustString
  version : BitVec 32

/-- `WriteTo` for `DeleteRequest`. -/
def DeleteRequest.writeTo (r : DeleteRequest) : List UInt8 :=
  r.path.writeTo ++ writeI32 r.version

/-- The request shape shared by exists, get-children and get-data. -/
structure StringAndBoolRequest where
  path : RustString
  watch : Bool

/-- `WriteTo` for `StringAndBoolRequest`; `watch as u8` is one or zero. -/
def StringAndBoolRequest.writeTo (r : StringAndBoolRequest) : List UInt8 :=
  r.path.writeTo ++ writeU8 (if r.watch then 1 else 0)

/-- A reply carrying one `Stat`: exists, set-ACL and set-data. -/
structure StatResponse where
  stat : Stat
  deriving DecidableEq

/-- `ReadFrom` for `StatResponse`. -/
def StatResponse.readFrom : Decoder StatResponse := do
  let stat ← Stat.readFrom
  pure ⟨stat⟩

/-- The request for a node's ACL. -/
structure GetAclRequest where
  path : RustString

/-- `WriteTo` for `GetAclRequest`. -/
def GetAclRequest.writeTo (r : GetAclRequest) : List UInt8 := r.path.writeTo

/-- The reply to a get-ACL: the entries, then the node's `Stat`. -/
structure GetAclResponse (P : Type) where
  aclStat : List (Acl P) × Stat

/-- `ReadFrom` for `GetAclResponse`. -/
def GetAclResponse.readFrom (fromRaw : BitVec 32 → P) : Decoder (GetAclResponse P) := do
  let len ← readI32
  vecWithCapacity sizeOfAcl (asUsize len)
  let acl ← readMany (Acl.readFrom fromRaw) (rangeCount len)
  let stat ← Stat.readFrom
  pure ⟨(acl, stat)⟩

/-- The request that replaces a node's ACL at a version. -/
structure SetAclRequest (P : Type) where
  path : RustString
  acl : List (Acl P)
  version : BitVec 32

/-- `WriteTo` for `SetAclRequest`. -/
def SetAclRequest.writeTo (code : P → BitVec 32) (r : SetAclRequest P) : List UInt8 :=
  r.path.writeTo ++ Vec.writeTo (Acl.writeTo code) r.acl ++ writeI32 r.version

/-- The request that replaces a node's data at a version. -/
structure SetDataRequest where
  path : RustString
  data : List UInt8
  version : BitVec 32

/-- `WriteTo` for `SetDataRequest`. -/
def SetDataRequest.writeTo (r : SetDataRequest) : List UInt8 :=
  r.path.writeTo ++ Vec.writeTo writeU8 r.data ++ writeI32 r.version

/-- The reply to a get-children: the children's names. -/
structure GetChildrenResponse where
  children : List RustString
  deriving DecidableEq

/-- `ReadFrom` for `GetChildrenResponse`. -/
def GetChildrenResponse.readFrom : Decoder GetChildrenResponse := do
  let len ← readI32
  vecWithCapacity sizeOfString (asUsize len)
  let children ← readMany readString (rangeCount len)
  pure ⟨children⟩

/-- The reply to a get-data: the data, then the node's `Stat`. -/
structure GetDataResponse where
  dataStat : List UInt8 × Stat
  deriving DecidableEq

/-- `ReadFrom` for `GetDataResponse`. -/
def GetDataResponse.readFrom : Decoder GetDataResponse := do
  let data ← readBuffer
  let stat ← Stat.readFrom
  pure ⟨(data, stat)⟩

/-- The request that adds authentication to a session. -/
structure AuthRequest where
  typ : BitVec 32
  scheme : RustString
  auth : List UInt8

/-- `WriteTo` for `AuthRequest`. -/
def AuthRequest.writeTo (r : AuthRequest) : List UInt8 :=
  writeI32 r.typ ++ r.scheme.writeTo ++ Vec.writeTo writeU8 r.auth

/-- The body of a ping or a close. -/
structure EmptyRequest where

/-- The reply to a ping or a close. -/
structure EmptyResponse where
  deriving DecidableEq

/-- `WriteTo` for `EmptyRequest`: nothing. -/
def EmptyRequest.writeTo (_ : EmptyRequest) : List UInt8 := []

/-- `ReadFrom` for `EmptyResponse`: nothing. -/
def EmptyResponse.readFrom : Decoder EmptyResponse := pure ⟨⟩

end Codecs

/-- A watch notification: what happened, the session's state, and the path. -/
structure WatchedEvent (E S : Type) where
  eventType : E
  keeperState : S
  path : Option RustString

/-- `ReadFrom` for `WatchedEvent`: two `i32` codes and a path, then the two
    conversions. -/
def WatchedEvent.readFrom {E S : Type} (eventTypeFrom : BitVec 32 → Option E)
    (keeperStateFrom : BitVec 32 → Option S) : Decoder (WatchedEvent E S) := do
  let typeRaw ← readI32
  let stateRaw ← readI32
  let path ← readString
  let eventType ← Decoder.ofOption "unknown WatchedEventType" (eventTypeFrom typeRaw)
  let state ← Decoder.ofOption "unknown KeeperState" (keeperStateFrom stateRaw)
  pure ⟨eventType, state, some path⟩

end ZkProto
