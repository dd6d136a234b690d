import ZkProto.Theory.Framing

/-!
# Round Trips

Each decoder returns what the matching encoder wrote and stops exactly where
the encoding ends, whatever bytes follow it. The response decoders have no
encoder in the code, since only the server writes responses; their encoding
is the matching request-side writer of the same shape, and `Stat.toWire` for
the metadata record.

Every length and count an encoder writes must fit in an `i32` for the value
to come back: a longer one is written cut to its low 32 bits, and the decoder
then reads a different length. The bound is a hypothesis of each round trip,
stated for every length and count in the value.

The proofs follow the decoders' reads one field at a time: each reader has
its own round-trip lemma, and a composite decoder is the chain of its
fields'. The counted loops are one induction, `readMany_flatMap`, over the
list of elements.

## Main definitions

* `Stat.toWire`: A `Stat` as the server writes it.
* `RoundTrip`: A decoder inverts an encoder on values that fit.
* `Acl.Fits`: Both strings of an ACL entry fit an `i32` length.

## Theorems

* `readBuffer_append`, `readString_append`: The primitive shapes come back.
* `readMany_flatMap`: A loop of reads inverts a sequence of writes.
* `decoders_roundtrip`: Every decoder inverts its encoder.
-/

namespace ZkProto

variable {α β P : Type}

/-- A `Stat` as the server writes it: its eleven fields, big-endian, in
    declared order, 68 bytes in all. -/
def Stat.toWire (s : Stat) : List UInt8 :=
  writeI64 s.czxid ++ writeI64 s.mzxid ++ writeI64 s.ctime ++ writeI64 s.mtime ++
    writeI32 s.version ++ writeI32 s.cversion ++ writeI32 s.aversion ++
    writeI64 s.ephemeralOwner ++ writeI32 s.dataLength ++ writeI32 s.numChildren ++
    writeI64 s.pzxid

/-- `d` returns `back v` from the encoding of every `v` that `fits`, followed
    by any bytes, and leaves exactly those bytes. -/
def RoundTrip (d : Decoder α) (enc : β → List UInt8) (fits : β → Prop) (back : β → α) : Prop :=
  ∀ v rest, fits v → d (enc v ++ rest) = .ok (back v) rest

/-- Both strings of an ACL entry fit an `i32` length. -/
def Acl.Fits (a : Acl P) : Prop := a.scheme.len < 2 ^ 31 ∧ a.id.len < 2 ^ 31

/-- A string is written as the buffer of its bytes. -/
theorem RustString.writeTo_eq_vec (s : RustString) : s.writeTo = Vec.writeTo writeU8 s.bytes := by
  rw [vec_writeTo_writeU8, RustString.writeTo, RustString.len]

theorem readBuffer_append {xs : List UInt8} (h : xs.length < 2 ^ 31) (rest : List UInt8) :
    readBuffer (Vec.writeTo writeU8 xs ++ rest) = .ok xs rest := by
  rw [vec_writeTo_writeU8, List.append_assoc, readBuffer_writeI32_append, bufferLen_ofNat h,
    takeOr_append]

theorem readString_append {s : RustString} (h : s.len < 2 ^ 31) (rest : List UInt8) :
    readString (s.writeTo ++ rest) = .ok s rest := by
  simp [readString, RustString.writeTo_eq_vec, readBuffer_append h, RustString.fromUtf8_bytes,
    Decoder.unwrap]

theorem acl_readFrom_append (fromRaw : BitVec 32 → P) (code : P → BitVec 32) {a : Acl P}
    (h : a.Fits) (rest : List UInt8) :
    Acl.readFrom fromRaw (a.writeTo code ++ rest) =
      .ok { a with perms := fromRaw (code a.perms) } rest := by
  simp [Acl.readFrom, Acl.writeTo, List.append_assoc, readString_append h.1,
    readString_append h.2]

theorem stat_readFrom_append (s : Stat) (rest : List UInt8) :
    Stat.readFrom (s.toWire ++ rest) = .ok s rest := by
  simp [Stat.readFrom, Stat.toWire, List.append_assoc]

/-- A loop of `xs.length` reads inverts the writes of `xs`, element by
    element. -/
theorem readMany_flatMap {d : Decoder α} {enc : β → List UInt8} {back : β → α} :
    ∀ (xs : List β), (∀ x ∈ xs, ∀ r, d (enc x ++ r) = .ok (back x) r) → ∀ rest,
      readMany d xs.length (xs.flatMap enc ++ rest) = .ok (xs.map back) rest
  | [], _, rest => rfl
  | x :: xs, h, rest => by
    simp [readMany, List.append_assoc, h x (List.mem_cons_self x xs),
      readMany_flatMap xs (fun y hy => h y (List.mem_cons_of_mem x hy))]

/-- The allocation before a loop of fewer than `2 ^ 31` elements succeeds. -/
theorem vecWithCapacity_ofNat {size n : Nat} (hs : size ≤ 2 ^ 32) (hn : n < 2 ^ 31) :
    vecWithCapacity size (asUsize (BitVec.ofNat 32 n)) = pure () := by
  apply vecWithCapacity_of_le
  rw [asUsize_ofNat hn, isizeMax]
  exact le_trans (Nat.mul_le_mul (show n ≤ 2 ^ 31 - 1 by omega) hs) (by decide)

theorem getChildrenResponse_readFrom_append {xs : List RustString} (hn : xs.length < 2 ^ 31)
    (hs : ∀ s ∈ xs, s.len < 2 ^ 31) (rest : List UInt8) :
    GetChildrenResponse.readFrom (Vec.writeTo RustString.writeTo xs ++ rest) = .ok ⟨xs⟩ rest := by
  have hm : readMany readString xs.length (xs.flatMap RustString.writeTo ++ rest) =
      .ok (xs.map id) rest :=
    readMany_flatMap xs (fun s hs' r => readString_append (hs s hs') r) rest
  simp only [List.map_id] at hm
  simp [GetChildrenResponse.readFrom, Vec.writeTo, List.append_assoc,
    vecWithCapacity_ofNat (by decide : sizeOfString ≤ 2 ^ 32) hn, rangeCount_ofNat hn, hm]

theorem getAclResponse_readFrom_append (fromRaw : BitVec 32 → P) (code : P → BitVec 32)
    {acl : List (Acl P)} (hn : acl.length < 2 ^ 31) (ha : ∀ a ∈ acl, a.Fits) (s : Stat)
    (rest : List UInt8) :
    GetAclResponse.readFrom fromRaw (Vec.writeTo (Acl.writeTo code) acl ++ s.toWire ++ rest) =
      .ok ⟨(acl.map fun a => { a with perms := fromRaw (code a.perms) }, s)⟩ rest := by
  have hm := readMany_flatMap acl
    (fun a ha' r => acl_readFrom_append fromRaw code (ha a ha') r) (s.toWire ++ rest)
  simp [GetAclResponse.readFrom, Vec.writeTo, List.append_assoc,
    vecWithCapacity_ofNat (by decide : sizeOfAcl ≤ 2 ^ 32) hn, rangeCount_ofNat hn, hm,
    stat_readFrom_append]

/-- Every decoder returns what its encoder wrote, on values whose lengths and
    counts fit an `i32`, and leaves the cursor exactly after the encoding. -/
theorem decoders_roundtrip (fromRaw : BitVec 32 → P) (code : P → BitVec 32) :
    RoundTrip readBuffer (Vec.writeTo writeU8) (fun xs => xs.length < 2 ^ 31) id ∧
      RoundTrip readString RustString.writeTo (fun s => s.len < 2 ^ 31) id ∧
      RoundTrip CreateResponse.readFrom RustString.writeTo (fun s => s.len < 2 ^ 31)
        CreateResponse.mk ∧
      RoundTrip (Acl.readFrom fromRaw) (Acl.writeTo code) Acl.Fits
        (fun a => { a with perms := fromRaw (code a.perms) }) ∧
      RoundTrip GetChildrenResponse.readFrom (Vec.writeTo RustString.writeTo)
        (fun xs => xs.length < 2 ^ 31 ∧ ∀ s ∈ xs, s.len < 2 ^ 31) GetChildrenResponse.mk ∧
      RoundTrip (GetAclResponse.readFrom fromRaw)
        (fun v : List (Acl P) × Stat => Vec.writeTo (Acl.writeTo code) v.1 ++ v.2.toWire)
        (fun v => v.1.length < 2 ^ 31 ∧ ∀ a ∈ v.1, a.Fits)
        (fun v => GetAclResponse.mk (v.1.map fun a => { a with perms := fromRaw (code a.perms) },
          v.2)) ∧
      RoundTrip GetDataResponse.readFrom
        (fun v : List UInt8 × Stat => Vec.writeTo writeU8 v.1 ++ v.2.toWire)
        (fun v => v.1.length < 2 ^ 31) GetDataResponse.mk ∧
      RoundTrip StatResponse.readFrom Stat.toWire (fun _ => True) StatResponse.mk := by
  refine ⟨fun xs rest h => readBuffer_append h rest, fun s rest h => readString_append h rest,
    fun s rest h => ?_, fun a rest h => acl_readFrom_append fromRaw code h rest,
    fun xs rest h => getChildrenResponse_readFrom_append h.1 h.2 rest,
    fun v rest h => getAclResponse_readFrom_append fromRaw code h.1 h.2 v.2 rest,
    fun v rest h => ?_, fun s rest _ => ?_⟩
  · simp [CreateResponse.readFrom, readString_append h]
  · simp [GetDataResponse.readFrom, List.append_assoc, readBuffer_append h,
      stat_readFrom_append]
  · simp [StatResponse.readFrom, stat_readFrom_append]

/-- A two-byte buffer followed by a stray byte, and a one-child list. -/
theorem roundtrip_small_values :
    readBuffer (Vec.writeTo writeU8 [1, 2] ++ [9]) = .ok [1, 2] [9] ∧
      GetChildrenResponse.readFrom (Vec.writeTo RustString.writeTo [RustString.mk [0x61] rfl] ++ []) =
        .ok ⟨[RustString.mk [0x61] rfl]⟩ [] :=
  have h := decoders_roundtrip (P := BitVec 32) id id
  ⟨h.1 [1, 2] [9] (by decide), h.2.2.2.2.1 [RustString.mk [0x61] rfl] [] (by decide)⟩

end ZkProto
