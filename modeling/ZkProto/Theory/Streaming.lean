import ZkProto.Theory.Faults

/-!
# Decoding a Reply Before All of It Has Arrived

Bytes from the server come in pieces, and a decoder may be run on a buffer
that holds only the first of them. That is safe only if what the decoder
says about those bytes is final. An `Ok` or a panic must not change when
more bytes arrive, and the value and the bytes left over must stay the
same. An `Err` must mean only "not yet": it must be one of the errors of a
read that ran out of bytes, and enough further bytes must make it go away.
`Streaming d E` states exactly that, with `E` the errors `d` may return.

`Read::read` alone does not stream. On a cursor it returns whatever is left,
up to the size asked for, so the same read returns more on a longer buffer.
`read_buffer` streams all the same, because it compares the count with the
length it asked for and fails when they differ (`readBuffer_eq`). So its
`Err` is one of two: `UnexpectedEof` from the length, or `read_buffer failed`
from the body. Both are cut-short reads.

Streaming is closed under `bind`, so it holds of every decoder
(`Streaming.composes`), since the conversions, `unwrap` and
`Vec::with_capacity` read nothing and never fail. So every
reply decoder streams, with `UnexpectedEof` as its only error when it has no
buffer field.

For a decoder that also never panics this pins its errors down. The bytes
that cure an `Err` lead to an `Ok`, and a framed decoder's `Ok` covers a
whole value, which must run past the bytes that failed. So such a decoder
fails exactly on the strict prefixes of whole values, the converse of
failing on every truncation. None of these decoders checks anything beyond
the lengths, so no input is refused as malformed.

## Main definitions

* `ShortRead`: The two errors of a read that ran out of bytes.
* `Streaming`: A decoder whose `Ok` and panic outcomes stay fixed when bytes
  are appended, and whose every `Err` is a short read that more bytes cure.
* `FailsOnPrefixes`: A decoder whose errors are exactly the strict prefixes
  of the inputs it reads to the end.

## Theorems

* `Streaming.bind`, `Streaming.composes`: Every decoder streams, with the
  errors of its reads.
* `Streaming.readBuffer`: `read_buffer` streams, although `read` does not.
* `Streaming.exists_err_iff`: A streaming, framed decoder without panics
  fails exactly on the strict prefixes of whole values.
* `reply_decoders_stream`: Every reply decoder streams.
* `panic_free_decoders_fail_on_prefixes`: The decoders without panics fail
  only on cut-short replies.
-/

namespace ZkProto

variable {α β : Type}

/-- The errors of a read that ran out of bytes: `read_exact`'s
    `UnexpectedEof`, and `read_buffer`'s error for a short body. -/
def ShortRead (e : IoError) : Prop := e = eofError ∨ e = error "read_buffer failed"

/-- `d` decides on what it has read and nothing after: appending bytes to
    its input leaves an `Ok` (value and unread bytes included) and a panic
    as they were. An `Err` is one that `E` allows, and some continuation of
    any input keeps `d` from failing at all. -/
structure Streaming (d : Decoder α) (E : IoError → Prop) : Prop where
  ok_append : ∀ b t a r, d b = .ok a r → d (b ++ t) = .ok a (r ++ t)
  panic_append : ∀ b t m, d b = .panic m → d (b ++ t) = .panic m
  err_mem : ∀ b e, d b = .err e → E e
  completes : ∀ b, ∃ t, ∀ e, d (b ++ t) ≠ .err e

namespace Streaming

variable {E : IoError → Prop}

theorem pure (a : α) : Streaming (pure a : Decoder α) E where
  ok_append _ _ _ _ h := by cases h; rfl
  panic_append _ _ _ h := by cases h
  err_mem _ _ h := by cases h
  completes _ := ⟨[], fun _ h => by cases h⟩

theorem panic (m : String) : Streaming (Decoder.panic m : Decoder α) E where
  ok_append _ _ _ _ h := by cases h
  panic_append _ _ _ h := h
  err_mem _ _ h := by cases h
  completes _ := ⟨[], fun _ h => by cases h⟩

theorem unwrap {ε : Type} (r : Except ε α) : Streaming (Decoder.unwrap r) E := by
  cases r with
  | ok a => exact pure a
  | error _ => exact panic _

theorem ofOption (msg : String) (o : Option α) : Streaming (Decoder.ofOption msg o) E := by
  cases o with
  | some a => exact pure a
  | none => exact panic msg

theorem vecWithCapacity (size n : Nat) : Streaming (vecWithCapacity size n) E := by
  unfold ZkProto.vecWithCapacity
  split
  · exact pure ()
  · exact panic _

theorem mono {d : Decoder α} {E' : IoError → Prop} (hd : Streaming d E)
    (h : ∀ e, E e → E' e) : Streaming d E' :=
  ⟨hd.ok_append, hd.panic_append, fun b e hb => h e (hd.err_mem b e hb), hd.completes⟩

/-- A fixed read streams: with `n` bytes it returns them whatever follows,
    and with fewer it fails until `n` are there. -/
theorem takeOr (e : IoError) (n : Nat) : Streaming (takeOr e n) (· = e) where
  ok_append b t a r h := by
    unfold ZkProto.takeOr at h ⊢
    split at h
    · obtain ⟨rfl, rfl⟩ := Outcome.ok.inj h
      rw [if_pos (by simp; omega), List.take_append_of_le_length ‹_›,
        List.drop_append_of_le_length ‹_›]
    · cases h
  panic_append b t m h := by
    unfold ZkProto.takeOr at h
    split at h <;> cases h
  err_mem b e' h := by
    unfold ZkProto.takeOr at h
    split at h <;> cases h
    rfl
  completes b := ⟨List.replicate n 0, fun e' h => by
    unfold ZkProto.takeOr at h
    rw [if_pos (by simp)] at h
    cases h⟩

theorem bind {d : Decoder α} {f : α → Decoder β} (hd : Streaming d E)
    (hf : ∀ a, Streaming (f a) E) : Streaming (d >>= f) E where
  ok_append b t x r h := by
    obtain ⟨a, s, h₁, h₂⟩ := Outcome.bind_eq_ok h
    rw [Decoder.bind_apply, hd.ok_append b t a s h₁]
    exact (hf a).ok_append s t x r h₂
  panic_append b t m h := by
    rw [Decoder.bind_apply, Outcome.bind_eq_panic_iff] at h ⊢
    obtain h | ⟨a, s, h₁, h₂⟩ := h
    · exact .inl (hd.panic_append b t m h)
    · exact .inr ⟨a, s ++ t, hd.ok_append b t a s h₁, (hf a).panic_append s t m h₂⟩
  err_mem b e h := by
    obtain h | ⟨a, s, -, h₂⟩ := Outcome.bind_eq_err_iff.1 h
    · exact hd.err_mem b e h
    · exact (hf a).err_mem s e h₂
  completes b := by
    -- First make `d` stop failing; if it returns a value, then make `f` stop.
    obtain ⟨t₁, ht₁⟩ := hd.completes b
    cases h₁ : d (b ++ t₁) with
    | ok a s =>
      obtain ⟨t₂, ht₂⟩ := (hf a).completes s
      refine ⟨t₁ ++ t₂, fun e h => ht₂ e ?_⟩
      rwa [Decoder.bind_apply, ← List.append_assoc, hd.ok_append _ t₂ a s h₁] at h
    | err e => exact absurd h₁ (ht₁ e)
    | panic m =>
      refine ⟨t₁, fun e h => ?_⟩
      rw [Decoder.bind_apply, h₁] at h
      cases h

/-- Every decoder streams, with the errors of its reads: `read_exact`'s
    `UnexpectedEof` must be one that `E` allows, and `?` adds none. -/
theorem composes (hE : E eofError) : Composes fun d _ => Streaming d E :=
  ⟨pure, fun hd hf => hd.bind hf, fun _ => (takeOr _ _).mono fun _ he => he ▸ hE⟩

/-- `read_buffer` streams: its `read` is followed by a check of the count,
    which together are a fixed read of the length's bytes. -/
theorem readBuffer : Streaming readBuffer ShortRead :=
  (composes (.inl rfl)).readBuffer fun _ => (takeOr _ _).mono fun _ => .inr

theorem readString : Streaming readString ShortRead :=
  (composes (.inl rfl)).readString readBuffer unwrap

/-- A framed, streaming decoder that never panics fails exactly on the
    strict prefixes of the inputs it reads to the end. -/
theorem exists_err_iff {d : Decoder α} (hs : Streaming d E) (hf : Framed d) (hn : NoPanic d)
    (b : List UInt8) : (∃ e, d b = .err e) ↔ ∃ t x, t ≠ [] ∧ d (b ++ t) = .ok x [] := by
  constructor
  · rintro ⟨e, he⟩
    -- Some continuation ends the failure, and without a panic it ends in `Ok`.
    obtain ⟨t, ht⟩ := hs.completes b
    cases h : d (b ++ t) with
    | ok x r =>
      obtain ⟨q, hq⟩ := hf.suffix h
      have hx : ∀ c, d (q ++ c) = .ok x c := fun c => hf.frame c (hq ▸ h)
      -- The value read ends past `b`, or `b` would already have returned it.
      rcases List.append_eq_append_iff.1 hq with ⟨c, rfl, -⟩ | ⟨c, rfl, -⟩
      · rcases eq_or_ne c [] with rfl | hc
        · simpa [he] using hx []
        · exact ⟨c, x, hc, by simpa using hx []⟩
      · cases he.symm.trans (hx c)
    | err e' => exact absurd h (ht e')
    | panic m => exact (hn _ m h).elim
  · rintro ⟨t, x, ht, h⟩
    cases hb : d b with
    | ok a r =>
      have := (hs.ok_append b t a r hb).symm.trans h
      simp only [Outcome.ok.injEq, List.append_eq_nil] at this
      exact absurd this.2.2 ht
    | err e => exact ⟨e, rfl⟩
    | panic m => exact (hn b m hb).elim

end Streaming

/-- Every reply decoder streams: on the bytes received so far it either
    returns what it will return on any longer input, or fails with a short
    read that more bytes make go away. The decoders without a buffer field
    fail only with `UnexpectedEof`. -/
theorem reply_decoders_stream {P E S ε : Type} (fromRaw : BitVec 32 → P)
    (eventTypeFrom : BitVec 32 → Option E) (keeperStateFrom : BitVec 32 → Option S)
    (completionFrom : BitVec 32 → Option Completion) :
    Streaming readBuffer ShortRead ∧ Streaming readString ShortRead ∧
      Streaming Stat.readFrom (· = eofError) ∧ Streaming ReplyHeader.readFrom (· = eofError) ∧
      Streaming ConnectResponse.readFrom ShortRead ∧
      Streaming CreateResponse.readFrom ShortRead ∧
      Streaming StatResponse.readFrom (· = eofError) ∧
      Streaming (GetAclResponse.readFrom fromRaw) ShortRead ∧
      Streaming GetChildrenResponse.readFrom ShortRead ∧
      Streaming GetDataResponse.readFrom ShortRead ∧
      Streaming EmptyResponse.readFrom (· = eofError) ∧
      Streaming (WatchedEvent.readFrom eventTypeFrom keeperStateFrom) ShortRead ∧
      Streaming (TransactionResponse.readFrom (ε := ε)) (· = eofError) ∧
      Streaming (readTransactionHeader completionFrom) (· = eofError) :=
  have hS := Streaming.composes (E := ShortRead) (.inl rfl)
  have hE := Streaming.composes (E := (· = eofError)) rfl
  have hs := Streaming.readString
  ⟨Streaming.readBuffer, hs, hE.stat_readFrom, hE.replyHeader_readFrom,
    hS.connectResponse_readFrom Streaming.readBuffer, hS.createResponse_readFrom hs,
    hE.statResponse_readFrom, hS.getAclResponse_readFrom fromRaw hs (Streaming.vecWithCapacity _),
    hS.getChildrenResponse_readFrom hs (Streaming.vecWithCapacity _),
    hS.getDataResponse_readFrom Streaming.readBuffer,
    Streaming.pure _, hS.watchedEvent_readFrom eventTypeFrom keeperStateFrom hs Streaming.ofOption,
    Streaming.pure _, hE.readTransactionHeader completionFrom Streaming.ofOption⟩

/-- `d` fails exactly on the strict prefixes of the inputs it reads to the
    end: an `Err` always means that the bytes so far begin a whole value and
    stop inside it. -/
def FailsOnPrefixes (d : Decoder α) : Prop :=
  ∀ b, (∃ e, d b = .err e) ↔ ∃ t x, t ≠ [] ∧ d (b ++ t) = .ok x []

/-- The decoders that never panic reject nothing but cut-short replies: on
    any bytes they either return a value or the bytes are the start of a
    whole reply, so no input is ever refused as malformed. -/
theorem panic_free_decoders_fail_on_prefixes :
    FailsOnPrefixes readBuffer ∧ FailsOnPrefixes Stat.readFrom ∧
      FailsOnPrefixes StatResponse.readFrom ∧ FailsOnPrefixes ReplyHeader.readFrom ∧
      FailsOnPrefixes ConnectResponse.readFrom ∧ FailsOnPrefixes GetDataResponse.readFrom :=
  have hS := Streaming.composes (E := ShortRead) (.inl rfl)
  have hE := Streaming.composes (E := (· = eofError)) rfl
  have hF := Framed.composes
  have hP := PanicsOnly.composes (P := fun _ => False)
  ⟨Streaming.readBuffer.exists_err_iff Framed.readBuffer PanicsOnly.readBuffer,
    hE.stat_readFrom.exists_err_iff hF.stat_readFrom hP.stat_readFrom,
    hE.statResponse_readFrom.exists_err_iff hF.statResponse_readFrom hP.statResponse_readFrom,
    hE.replyHeader_readFrom.exists_err_iff hF.replyHeader_readFrom hP.replyHeader_readFrom,
    (hS.connectResponse_readFrom Streaming.readBuffer).exists_err_iff
      (hF.connectResponse_readFrom Framed.readBuffer)
      (hP.connectResponse_readFrom PanicsOnly.readBuffer),
    (hS.getDataResponse_readFrom Streaming.readBuffer).exists_err_iff
      (hF.getDataResponse_readFrom Framed.readBuffer)
      (hP.getDataResponse_readFrom PanicsOnly.readBuffer)⟩

end ZkProto
