import ZkProto.Theory.Language

/-!
# The Language of Every Reply Decoder

`Theory.Language` gives the languages of the shared readers. Here they are
put together into the language of each reply decoder of `proto.rs`: the
inputs on which it returns `Ok`, and the value it returns there.

Two things come out that the round trips do not show. A sequence reply is
accepted exactly when its count field, as an `i32`, is the number of
elements that follow: the allocation rejects a negative count before the
loop, and the loop reads exactly that many. And the decoded connect reply's
timeout is always the sign extension of an `i32`, so a server's negative
timeout arrives as a `u64` close to `2 ^ 64`.

## Theorems

* `Parses.replyHeader_readFrom`: The reply header.
* `asUsize_rangeCount_iff`: Allocation and loop agree with a count exactly
  when it is the element count.
* `getChildrenResponse_readFrom_parses`, `getAclResponse_readFrom_parses`:
  The sequence replies.
* `decoded_values_reencode`: Decoded strings, buffers and children encode
  back to themselves.
* `connectResponse_readFrom_parses`: The connect reply.
* `watchedEvent_readFrom_parses`: The watch notification.
* `replies_parse`: The fixed-shape replies and the transaction entry header.
-/

namespace ZkProto

variable {P : Type}

/-- For an element size from one byte to `2 ^ 32`, the allocation of a
    sequence decoder succeeds and its loop runs `n` times exactly when the
    count, as an `i32`, is `n`. -/
theorem asUsize_rangeCount_iff (size : Nat) (hs : 0 < size) (hs' : size ≤ 2 ^ 32)
    (len : BitVec 32) (n : Nat) :
    asUsize len * size ≤ isizeMax ∧ n = rangeCount len ↔ len.toInt = n := by
  by_cases hneg : len.toInt < 0
  · have := isizeMax_lt_asUsize hneg hs
    constructor
    · rintro ⟨h, -⟩; omega
    · intro h; omega
  · obtain ⟨k, hk, rfl⟩ : ∃ k, k < 2 ^ 31 ∧ len = BitVec.ofNat 32 k := by
      refine ⟨len.toNat, ?_, by simp⟩
      rw [BitVec.toInt_eq_toNat_cond] at hneg
      split at hneg <;> omega
    rw [asUsize_ofNat hk, rangeCount_ofNat hk, toInt_ofNat_of_lt hk, isizeMax]
    constructor
    · rintro ⟨-, rfl⟩; rfl
    · intro h
      have h' : k = n := by exact_mod_cast h
      exact ⟨le_trans (Nat.mul_le_mul (show k ≤ 2 ^ 31 - 1 by omega) hs') (by decide), h'.symm⟩

theorem Parses.replyHeader_readFrom : Parses ReplyHeader.readFrom
    fun h q => q = writeI32 h.xid ++ writeI64 h.zxid ++ writeI32 h.err := by
  intro b h r
  simp only [ReplyHeader.readFrom, Decoder.bind_apply, readBE_bind_eq_ok_iff (k := 4),
    readBE_bind_eq_ok_iff (k := 8), Decoder.pure_apply, Outcome.ok.injEq]
  constructor
  · rintro ⟨x, _, rfl, z, _, rfl, e, _, rfl, rfl, rfl⟩
    exact ⟨_, rfl, by simp⟩
  · rintro ⟨_, rfl, rfl⟩
    exact ⟨h.xid, _, by simp, h.zxid, _, rfl, h.err, r, rfl, rfl, rfl⟩

/-- A get-children reply is accepted exactly when it is a count equal, as an
    `i32`, to the number of children, followed by one string field per
    child. -/
theorem getChildrenResponse_readFrom_parses :
    Parses GetChildrenResponse.readFrom fun v q => ∃ len qs,
      len.toInt = (v.children.length : Int) ∧
      List.Forall₂ (fun s => BufferField s.bytes) v.children qs ∧ q = writeI32 len ++ qs.flatten := by
  intro b v r
  simp only [GetChildrenResponse.readFrom, Decoder.bind_apply, readBE_bind_eq_ok_iff (k := 4),
    vecWithCapacity_bind_eq_ok_iff, Parses.readString.readMany_bind_eq_ok_iff, Decoder.pure_apply,
    Outcome.ok.injEq]
  constructor
  · rintro ⟨len, _, rfl, hcap, xs, qs, _, hl, hqs, rfl, rfl, rfl⟩
    exact ⟨_, ⟨len, qs, (asUsize_rangeCount_iff sizeOfString (by decide) (by decide) len _).1
      ⟨hcap, hl⟩, hqs, rfl⟩, by simp⟩
  · rintro ⟨_, ⟨len, qs, hlen, hqs, rfl⟩, rfl⟩
    obtain ⟨hcap, hl⟩ := (asUsize_rangeCount_iff sizeOfString (by decide) (by decide) len _).2 hlen
    exact ⟨len, _, rfl, hcap, v.children, qs, r, hl, hqs, by simp, rfl, rfl⟩

theorem BufferField.length_lt {pw q : List UInt8} (h : BufferField pw q) : pw.length < 2 ^ 31 := by
  obtain ⟨len, hl, -⟩ := h
  exact hl ▸ bufferLen_lt len

theorem rangeCount_lt (len : BitVec 32) : rangeCount len < 2 ^ 31 := by
  rw [rangeCount, BitVec.toInt_eq_toNat_cond]
  split <;> omega

theorem len_lt_of_forall₂ {xs : List RustString} {qs : List (List UInt8)}
    (h : List.Forall₂ (fun s => BufferField s.bytes) xs qs) : ∀ s ∈ xs, s.len < 2 ^ 31 := by
  induction h with
  | nil => simp
  | cons hx _ ih => exact List.forall_mem_cons.2 ⟨hx.length_lt, ih⟩

/-- What the client decodes it can write back: a decoded string, buffer or
    list of children fits the `i32` lengths the encoders write, so the
    encoder's bytes decode to the same value, whatever follows them. -/
theorem decoded_values_reencode :
    (∀ b s r, readString b = .ok s r → ∀ r', readString (s.writeTo ++ r') = .ok s r') ∧
      (∀ b pw r, readBuffer b = .ok pw r → ∀ r',
        readBuffer (Vec.writeTo writeU8 pw ++ r') = .ok pw r') ∧
      ∀ b v r, GetChildrenResponse.readFrom b = .ok v r → ∀ r',
        GetChildrenResponse.readFrom (Vec.writeTo RustString.writeTo v.children ++ r') = .ok v r' := by
  refine ⟨fun b s r h r' => ?_, fun b pw r h r' => ?_, fun b v r h r' => ?_⟩
  · obtain ⟨q, hq, -⟩ := (Parses.readString b s r).1 h
    exact readString_append hq.length_lt r'
  · obtain ⟨q, hq, -⟩ := (Parses.readBuffer b pw r).1 h
    exact readBuffer_append hq.length_lt r'
  · -- The count read is below `2 ^ 31`, and so is every child's length.
    simp only [GetChildrenResponse.readFrom, Decoder.bind_apply, readBE_bind_eq_ok_iff (k := 4),
      vecWithCapacity_bind_eq_ok_iff, Parses.readString.readMany_bind_eq_ok_iff,
      Decoder.pure_apply, Outcome.ok.injEq] at h
    obtain ⟨len, _, -, -, xs, qs, _, hl, hqs, -, rfl, -⟩ := h
    exact getChildrenResponse_readFrom_append (hl ▸ rangeCount_lt len) (len_lt_of_forall₂ hqs) r'

/-- A get-ACL reply is accepted exactly when it is a count equal, as an
    `i32`, to the number of entries, one ACL entry field per entry, and then
    the 68 bytes of a `Stat`. -/
theorem getAclResponse_readFrom_parses (fromRaw : BitVec 32 → P) :
    Parses (GetAclResponse.readFrom fromRaw) fun v q => ∃ len qs,
      len.toInt = (v.aclStat.1.length : Int) ∧ List.Forall₂ (AclField fromRaw) v.aclStat.1 qs ∧
      q = writeI32 len ++ qs.flatten ++ v.aclStat.2.toWire := by
  intro b v r
  simp only [GetAclResponse.readFrom, Decoder.bind_apply, readBE_bind_eq_ok_iff (k := 4),
    vecWithCapacity_bind_eq_ok_iff, (Parses.acl_readFrom fromRaw).readMany_bind_eq_ok_iff,
    stat_readFrom_bind_eq_ok_iff, Decoder.pure_apply, Outcome.ok.injEq]
  constructor
  · rintro ⟨len, _, rfl, hcap, xs, qs, _, hl, hqs, rfl, st, s, hs, rfl, rfl⟩
    exact ⟨_, ⟨len, qs, (asUsize_rangeCount_iff sizeOfAcl (by decide) (by decide) len _).1
      ⟨hcap, hl⟩, hqs, rfl⟩, by rw [hs]; simp⟩
  · rintro ⟨_, ⟨len, qs, hlen, hqs, rfl⟩, rfl⟩
    obtain ⟨hcap, hl⟩ := (asUsize_rangeCount_iff sizeOfAcl (by decide) (by decide) len _).2 hlen
    exact ⟨len, _, rfl, hcap, v.aclStat.1, qs, _, hl, hqs, by simp, v.aclStat.2, r, rfl,
      rfl, rfl⟩

/-- A connect reply is accepted exactly when it is a protocol version, an
    `i32` timeout whose sign extension is the decoded timeout, a session id,
    a password field and a flag byte, any non-zero flag meaning read-only. -/
theorem connectResponse_readFrom_parses :
    Parses ConnectResponse.readFrom fun resp q => ∃ t q' f, resp.timeout = t.signExtend 64 ∧
      BufferField resp.passwd q' ∧ resp.readOnly = decide (f ≠ 0) ∧
      q = writeI32 resp.protocolVersion ++ writeI32 t ++ writeI64 resp.sessionId ++ q' ++ [f] := by
  intro b resp r
  simp only [ConnectResponse.readFrom, Decoder.bind_apply, readBE_bind_eq_ok_iff (k := 4),
    readBE_bind_eq_ok_iff (k := 8), Parses.readBuffer.bind_eq_ok_iff, readU8_bind_eq_ok_iff,
    Decoder.pure_apply, Outcome.ok.injEq]
  constructor
  · rintro ⟨pv, _, rfl, t, _, rfl, sid, _, rfl, pw, q', _, hq', rfl, f, _, rfl, rfl, rfl⟩
    exact ⟨_, ⟨t, q', f, rfl, hq', rfl, rfl⟩, by simp⟩
  · rintro ⟨_, ⟨t, q', f, ht, hq', hf, rfl⟩, rfl⟩
    obtain ⟨pv, _, sid, pw, ro⟩ := resp
    subst ht hf
    simp only [List.append_assoc, List.singleton_append]
    exact ⟨pv, _, rfl, t, _, rfl, sid, _, rfl, pw, q', _, hq', rfl, f, r, rfl, rfl, rfl⟩

/-- A watch notification is accepted exactly when both codes convert and a
    string field follows them; the decoded path is always present. -/
theorem watchedEvent_readFrom_parses {E S : Type} (eventTypeFrom : BitVec 32 → Option E)
    (keeperStateFrom : BitVec 32 → Option S) :
    Parses (WatchedEvent.readFrom eventTypeFrom keeperStateFrom) fun ev q =>
      ∃ t st path q', eventTypeFrom t = some ev.eventType ∧
        keeperStateFrom st = some ev.keeperState ∧ ev.path = some path ∧
        BufferField path.bytes q' ∧ q = writeI32 t ++ writeI32 st ++ q' := by
  intro b ev r
  simp only [WatchedEvent.readFrom, Decoder.bind_apply, readBE_bind_eq_ok_iff (k := 4),
    Parses.readString.bind_eq_ok_iff, ofOption_bind_eq_ok_iff, Decoder.pure_apply,
    Outcome.ok.injEq]
  constructor
  · rintro ⟨t, _, rfl, st, _, rfl, path, q', _, hq', rfl, e, he, k, hk, rfl, rfl⟩
    exact ⟨_, ⟨t, st, path, q', he, hk, rfl, hq', rfl⟩, by simp⟩
  · rintro ⟨_, ⟨t, st, path, q', he, hk, hp, hq', rfl⟩, rfl⟩
    obtain ⟨e, k, p⟩ := ev
    subst hp
    exact ⟨t, _, rfl, st, _, rfl, path, q', r, hq', by simp, e, he, k, hk, rfl, rfl⟩

/-- The replies of a fixed shape, and the header of a transaction reply
    entry, accept exactly their fields: a reply header's three numbers, a
    `Stat`'s 68 bytes, a path's string field, a data buffer field followed
    by a `Stat`, nothing at all, and a type code that converts, a `done` byte
    read as "non-zero" and an error code. -/
theorem replies_parse (completionFrom : BitVec 32 → Option Completion) :
    Parses ReplyHeader.readFrom
        (fun h q => q = writeI32 h.xid ++ writeI64 h.zxid ++ writeI32 h.err) ∧
      Parses StatResponse.readFrom (fun v q => q = v.stat.toWire) ∧
      Parses CreateResponse.readFrom (fun v => BufferField v.path.bytes) ∧
      Parses GetDataResponse.readFrom
        (fun v q => ∃ q', BufferField v.dataStat.1 q' ∧ q = q' ++ v.dataStat.2.toWire) ∧
      Parses EmptyResponse.readFrom (fun _ q => q = []) ∧
      Parses (readTransactionHeader completionFrom) fun h q => ∃ t d,
        completionFrom t = some h.1 ∧ h.2.1 = decide (d ≠ 0) ∧
        q = writeI32 t ++ [d] ++ writeI32 h.2.2 := by
  refine ⟨Parses.replyHeader_readFrom,
    Parses.stat_readFrom.map (fun _ _ => Iff.rfl) fun v => ⟨v.stat, rfl⟩,
    Parses.readString.map (fun _ _ => Iff.rfl) fun v => ⟨v.path, rfl⟩,
    fun b v r => ?_, fun b v r => ?_, fun b h r => ?_⟩
  · simp only [GetDataResponse.readFrom, Decoder.bind_apply, Parses.readBuffer.bind_eq_ok_iff,
      stat_readFrom_bind_eq_ok_iff, Decoder.pure_apply, Outcome.ok.injEq]
    constructor
    · rintro ⟨data, q', _, hq', rfl, st, s, hs, rfl, rfl⟩
      exact ⟨_, ⟨q', hq', rfl⟩, by rw [hs]; simp⟩
    · rintro ⟨_, ⟨q', hq', rfl⟩, rfl⟩
      exact ⟨v.dataStat.1, q', _, hq', by simp, v.dataStat.2, r, rfl, rfl, rfl⟩
  · simp only [EmptyResponse.readFrom, Decoder.pure_apply, Outcome.ok.injEq]
    constructor
    · rintro ⟨-, rfl⟩
      exact ⟨[], rfl, rfl⟩
    · rintro ⟨_, rfl, rfl⟩
      exact ⟨trivial, rfl⟩
  · simp only [readTransactionHeader, Decoder.bind_apply, readBE_bind_eq_ok_iff (k := 4),
      readU8_bind_eq_ok_iff, ofOption_bind_eq_ok_iff, Decoder.pure_apply,
      Outcome.ok.injEq]
    constructor
    · rintro ⟨t, _, rfl, d, _, rfl, e, _, rfl, c, hc, rfl, rfl⟩
      exact ⟨_, ⟨t, d, hc, rfl, rfl⟩, by simp⟩
    · rintro ⟨_, ⟨t, d, hc, hd, rfl⟩, rfl⟩
      obtain ⟨c, done, e⟩ := h
      subst hd
      exact ⟨t, _, by simp, d, _, rfl, e, r, rfl, c, hc, rfl, rfl⟩

end ZkProto
