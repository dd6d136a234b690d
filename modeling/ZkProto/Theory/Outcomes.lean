import ZkProto.Theory.Replies

/-!
# Every Outcome of a Decoder

The languages of `Theory.Language` and `Theory.Replies` say when a decoder
returns `Ok`. A caller also has to know what happens on every other input:
whether the decoder fails with an `Err` it can handle, and with which
error, or panics and takes the thread with it. This module settles all
three outcomes for the readers every reply is built from, for the
fixed-width records, and for the panics of the sequence decoders.

A fixed-width decoder is the simple case. `FixedWidth d k` says that `d`
returns a value on every input of at least `k` bytes, consuming `k`, and
fails with `UnexpectedEof` on every shorter one; it is closed under `bind`,
so `Stat` and the reply header have it at 68 and 16 bytes. With the
language of `Stat`, every 68 bytes are the encoding of exactly one `Stat`.

`read_buffer` adds a second error, for a body shorter than its length, and
`read_string` a panic, exactly on a complete field that is not UTF-8. The
sequence decoders have a second panic, from `Vec::with_capacity`: it happens
exactly on a negative count, and every other panic of theirs is an
`unwrap` of a string.

## Main definitions

* `FixedWidth`: A decoder that reads exactly `k` bytes or fails with
  `UnexpectedEof`.

## Theorems

* `FixedWidth.bind`, `FixedWidth.composes`: Fixed widths add up.
* `readBuffer_outcome`: Every outcome of `read_buffer`.
* `readString_outcome`: Every outcome of `read_string`.
* `fixed_records_outcome`: Every outcome of the `Stat` and reply header
  decoders.
* `counted_eq_overflow_iff`: An allocation from a count overflows exactly on
  a negative count.
* `sequence_decoders_panic_iff`: Every panic of the sequence decoders.
-/

namespace ZkProto

open Decoder (unwrapMsg)

variable {α β P : Type}

/-- `d` reads exactly `k` bytes: on an input of at least `k` bytes it returns
    a value and leaves what follows the first `k`, and on a shorter one it
    fails with `UnexpectedEof`. -/
def FixedWidth (d : Decoder α) (k : Nat) : Prop :=
  ∀ b, (k ≤ b.length → ∃ a, d b = .ok a (b.drop k)) ∧ (b.length < k → d b = .err eofError)

namespace FixedWidth

theorem pure (a : α) : FixedWidth (pure a : Decoder α) 0 := fun _ =>
  ⟨fun _ => ⟨a, rfl⟩, fun h => absurd h (Nat.not_lt_zero _)⟩

theorem readExact (k : Nat) : FixedWidth (readExact k) k := fun b =>
  ⟨fun h => ⟨b.take k, by simp [ZkProto.readExact, takeOr, h]⟩, fun h => takeOr_of_lt _ h⟩

theorem bind {d : Decoder α} {f : α → Decoder β} {k₁ k₂ : Nat} (hd : FixedWidth d k₁)
    (hf : ∀ a, FixedWidth (f a) k₂) : FixedWidth (d >>= f) (k₁ + k₂) := by
  intro b
  constructor
  · intro h
    obtain ⟨a, ha⟩ := (hd b).1 (by omega)
    obtain ⟨y, hy⟩ := (hf a (b.drop k₁)).1 (by simp; omega)
    exact ⟨y, by rw [Decoder.bind_apply, ha, Outcome.ok_bind, hy, List.drop_drop]⟩
  · intro h
    by_cases h₁ : b.length < k₁
    · rw [Decoder.bind_apply, (hd b).2 h₁, Outcome.err_bind]
    · obtain ⟨a, ha⟩ := (hd b).1 (by omega)
      rw [Decoder.bind_apply, ha, Outcome.ok_bind, (hf a _).2 (by simp; omega)]

/-- Widths add up along `?`, so each fixed-width decoder reads the sum of
    its reads. -/
theorem composes : Composes FixedWidth := ⟨pure, bind, readExact⟩

/-- A fixed-width decoder fails exactly on the inputs that are too short,
    and always with `UnexpectedEof`. -/
theorem eq_err_iff {d : Decoder α} {k : Nat} (hd : FixedWidth d k) {b : List UInt8}
    {e : IoError} : d b = .err e ↔ b.length < k ∧ e = eofError := by
  by_cases h : b.length < k
  · rw [(hd b).2 h]
    exact ⟨fun he => ⟨h, (Outcome.err.inj he).symm⟩, fun ⟨_, he⟩ => he ▸ rfl⟩
  · obtain ⟨a, ha⟩ := (hd b).1 (by omega)
    rw [ha]
    simp [h]

end FixedWidth

/-- Every outcome of the decoders of the two fixed-width records: `Ok`
    exactly on their encodings, `Err` with `UnexpectedEof` exactly on an
    input shorter than 68 or 16 bytes, and never a panic (`Theory.Faults`);
    and every 68 bytes are the encoding of a `Stat`. -/
theorem fixed_records_outcome (b : List UInt8) :
    (∀ s r, Stat.readFrom b = .ok s r ↔ b = s.toWire ++ r) ∧
      (∀ e, Stat.readFrom b = .err e ↔ b.length < 68 ∧ e = eofError) ∧
      (∀ q : List UInt8, q.length = 68 ↔ ∃ s : Stat, q = s.toWire) ∧
      (∀ h r, ReplyHeader.readFrom b = .ok h r ↔
        b = writeI32 h.xid ++ writeI64 h.zxid ++ writeI32 h.err ++ r) ∧
      (∀ e, ReplyHeader.readFrom b = .err e ↔ b.length < 16 ∧ e = eofError) := by
  have hF := FixedWidth.composes
  refine ⟨fun s r => stat_readFrom_eq_ok_iff, fun e => hF.stat_readFrom.eq_err_iff,
    fun q => ⟨fun hq => ?_, ?_⟩, fun h r => ?_, fun e => hF.replyHeader_readFrom.eq_err_iff⟩
  · -- Sixty-eight bytes always decode, and then they are the encoding.
    obtain ⟨s, hs⟩ := (hF.stat_readFrom q).1 (by omega)
    rw [List.drop_eq_nil_of_le (by omega)] at hs
    exact ⟨s, by simpa using stat_readFrom_eq_ok_iff.1 hs⟩
  · rintro ⟨s, hs⟩
    rw [hs]
    simp [Stat.toWire]
  · rw [Parses.replyHeader_readFrom b h r]
    exact ⟨fun ⟨_, hq, hb⟩ => hq ▸ hb, fun hb => ⟨_, rfl, hb⟩⟩

theorem unwrap_fromUtf8_eq_panic_iff {raw s : List UInt8} {m : String} :
    Decoder.unwrap (RustString.fromUtf8 raw) s = .panic m ↔
      utf8Valid raw = false ∧ m = unwrapMsg := by
  unfold RustString.fromUtf8
  split
  · simp [Decoder.unwrap, *]
  · simp only [Decoder.unwrap, Decoder.panic_apply, Outcome.panic.injEq, Bool.not_eq_true] at *
    simp [*, eq_comm]

theorem unwrap_fromUtf8_ne_err (raw s : List UInt8) (e : IoError) :
    Decoder.unwrap (RustString.fromUtf8 raw) s ≠ .err e := by
  unfold RustString.fromUtf8
  split <;> simp [Decoder.unwrap]

/-- `read_buffer` fails in two ways: fewer than four bytes for the length,
    or fewer bytes after it than the length asks for. -/
theorem readBuffer_eq_err_iff {b : List UInt8} {e : IoError} :
    readBuffer b = .err e ↔ (b.length < 4 ∧ e = eofError) ∨
      ∃ len s, b = writeI32 len ++ s ∧ s.length < bufferLen len ∧
        e = error "read_buffer failed" := by
  -- Either the length is cut short, or it is read and the body is.
  rw [readBuffer_eq, Decoder.bind_apply, Outcome.bind_eq_err_iff,
    (FixedWidth.composes.readBE 4).eq_err_iff]
  simp only [Parses.readBE 4 b, takeOr_eq_err_iff, exists_eq_left]

/-- Every outcome of `read_buffer`: `Ok` exactly on a complete buffer field,
    with the cursor after it; `Err` exactly on a short length or a body
    shorter than its non-negative length; and never a panic. -/
theorem readBuffer_outcome (b : List UInt8) :
    (∀ pw r, readBuffer b = .ok pw r ↔ ∃ q, BufferField pw q ∧ b = q ++ r) ∧
      (∀ e, readBuffer b = .err e ↔ (b.length < 4 ∧ e = eofError) ∨
        ∃ len s, b = writeI32 len ++ s ∧ s.length < bufferLen len ∧
          e = error "read_buffer failed") ∧
      ∀ m, readBuffer b ≠ .panic m :=
  ⟨Parses.readBuffer b, fun _ => readBuffer_eq_err_iff,
    PanicsOnly.readBuffer (P := fun _ => False) b⟩

/-- Every outcome of `read_string`: `Ok` exactly on a buffer field holding a
    string's bytes; `Err` exactly where `read_buffer` fails, with its error;
    and a panic exactly on a complete field whose bytes are not UTF-8, with
    the message of `unwrap`. -/
theorem readString_outcome (b : List UInt8) :
    (∀ s r, readString b = .ok s r ↔ ∃ q, BufferField s.bytes q ∧ b = q ++ r) ∧
      (∀ e, readString b = .err e ↔ readBuffer b = .err e) ∧
      ∀ m, readString b = .panic m ↔
        m = unwrapMsg ∧ ∃ raw q r, BufferField raw q ∧ b = q ++ r ∧ utf8Valid raw = false := by
  refine ⟨Parses.readString b, fun e => ?_, fun m => ?_⟩ <;>
    rw [ZkProto.readString, Decoder.bind_apply]
  · -- An `Err` can only come from `read_buffer`.
    simp [Outcome.bind_eq_err_iff, unwrap_fromUtf8_ne_err]
  · -- A panic can only come from the `unwrap` after a complete field.
    have hnp : readBuffer b ≠ .panic m := PanicsOnly.readBuffer (P := fun _ => False) b m
    simp only [Outcome.bind_eq_panic_iff, hnp, false_or, Parses.readBuffer b,
      unwrap_fromUtf8_eq_panic_iff]
    constructor
    · rintro ⟨raw, r, ⟨q, hq, hb⟩, hv, rfl⟩
      exact ⟨rfl, raw, q, r, hq, hb, hv⟩
    · rintro ⟨rfl, raw, q, r, hq, hb, hv⟩
      exact ⟨raw, r, ⟨q, hq, hb⟩, hv, rfl⟩

/-- A non-negative count never overflows the allocation. -/
theorem asUsize_mul_le {size : Nat} (hs : 0 < size) (hs' : size ≤ 2 ^ 32) {c : BitVec 32}
    (hc : 0 ≤ c.toInt) : asUsize c * size ≤ isizeMax :=
  ((asUsize_rangeCount_iff size hs hs' c c.toInt.toNat).2 (Int.toNat_of_nonneg hc).symm).1

/-- A decoder that reads a count, allocates for it and goes on with a
    decoder that panics only through `unwrap` panics with a capacity
    overflow exactly when the input starts with a negative count. -/
theorem counted_eq_overflow_iff {size : Nat} (hs : 0 < size) (hs' : size ≤ 2 ^ 32)
    {g : BitVec 32 → Decoder β} (hg : ∀ c, PanicsOnly (g c) (· = unwrapMsg)) (b : List UInt8) :
    (readI32 >>= fun c => vecWithCapacity size (asUsize c) >>= fun _ => g c) b =
        .panic "capacity overflow" ↔
      ∃ c r, c.toInt < 0 ∧ b = writeI32 c ++ r := by
  constructor
  · intro h
    rw [Decoder.bind_apply] at h
    rcases Outcome.bind_eq_panic_iff.1 h with h₁ | ⟨c, s, h₁, h₂⟩
    · exact ((PanicsOnly.composes (P := fun _ => False)).readBE 4 b _ h₁).elim
    · refine ⟨c, s, ?_, readBE_eq_ok h₁⟩
      -- A non-negative count allocates, and what follows cannot overflow.
      by_contra hc
      rw [Decoder.bind_apply, vecWithCapacity_of_le (asUsize_mul_le hs hs' (by omega)),
        Decoder.pure_apply, Outcome.ok_bind] at h₂
      exact absurd (hg c s _ h₂) (by decide)
  · rintro ⟨c, r, hc, rfl⟩
    simp [Decoder.bind_apply, vecWithCapacity_of_lt (isizeMax_lt_asUsize hc hs)]

/-- Every panic of the sequence decoders: a capacity overflow exactly on a
    negative count, whatever follows it, and otherwise only the `unwrap` of a
    string that is not UTF-8. -/
theorem sequence_decoders_panic_iff (fromRaw : BitVec 32 → P) :
    (∀ b, GetChildrenResponse.readFrom b = .panic "capacity overflow" ↔
        ∃ c r, c.toInt < 0 ∧ b = writeI32 c ++ r) ∧
      PanicsOnly GetChildrenResponse.readFrom (fun m => m = "capacity overflow" ∨ m = unwrapMsg) ∧
      (∀ b, GetAclResponse.readFrom fromRaw b = .panic "capacity overflow" ↔
        ∃ c r, c.toInt < 0 ∧ b = writeI32 c ++ r) ∧
      PanicsOnly (GetAclResponse.readFrom fromRaw)
        (fun m => m = "capacity overflow" ∨ m = unwrapMsg) :=
  have hU := PanicsOnly.composes (P := (· = unwrapMsg))
  have hO := PanicsOnly.composes (P := fun m => m = "capacity overflow" ∨ m = unwrapMsg)
  ⟨counted_eq_overflow_iff (by decide) (by decide) fun _ =>
      (hU.readMany PanicsOnly.readString _).bind fun _ => PanicsOnly.pure _,
    hO.getChildrenResponse_readFrom (PanicsOnly.readString.mono fun _ => .inr) fun _ =>
      (PanicsOnly.vecWithCapacity _ _).mono fun _ => .inl,
    counted_eq_overflow_iff (by decide) (by decide) fun _ =>
      (hU.readMany (hU.acl_readFrom fromRaw PanicsOnly.readString) _).bind fun _ =>
        hU.stat_readFrom.bind fun _ => PanicsOnly.pure _,
    hO.getAclResponse_readFrom fromRaw (PanicsOnly.readString.mono fun _ => .inr) fun _ =>
      (PanicsOnly.vecWithCapacity _ _).mono fun _ => .inl⟩

end ZkProto
