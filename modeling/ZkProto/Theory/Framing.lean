import ZkProto.Theory.Compose

/-!
# Decoders Read Whole Fields

No decoder returns a value built from a cut-off field. If a decoder succeeds
on some bytes, consuming a prefix of them, then on any strict prefix of what
it consumed it returns `Err`. It does not return a shorter value, and it does
not panic.

The property does not compose on its own. A decoder made of two reads cut
short in the second needs to know that the first read behaves the same on
the shorter bytes, and where the first stopped. `Framed` adds those two
facts: a successful decoder consumes a prefix of its input (`suffix`), and
its value and the rest depend only on that prefix (`frame`). The three
together are preserved by `bind`, and hold for the fixed reads, for a pure
value, and for anything that panics without reading.

`read_buffer` is the one decoder whose primitive read is not framed: `read`
succeeds on a short input, with a short count. The count check right after
it turns it into a framed read (`readBuffer_eq`), with `read_buffer failed`
as its error.

So `Framed` composes (`Framed.composes`), and every decoder of the codec is
framed by the one chain of reads `Theory.Compose` follows for it.
`decoders_fail_on_truncation` collects the cut-off property for all of them.

## Main definitions

* `Framed`: Consumes a prefix, is decided by it, and fails on every strict
  prefix of it.
* `TruncationFails`: The last of the three, on its own: a successful run's
  input cut short fails.

## Theorems

* `Framed.bind`: Framed decoders compose.
* `Framed.composes`: Framing is a property every decoder keeps.
* `readBuffer_of_lt`: A buffer with fewer bytes than its non-negative
  length is an `Err`.
* `decoders_fail_on_truncation`: Every decoder of the codec fails on a
  truncated input.
-/

namespace ZkProto

variable {α β : Type}

/-- A decoder that reads a prefix of its input, is decided by it, and fails
    with `Err` on every strict prefix of it. -/
structure Framed (d : Decoder α) : Prop where
  suffix : ∀ {b a r}, d b = .ok a r → ∃ q, b = q ++ r
  frame : ∀ {q r a} (r' : List UInt8), d (q ++ r) = .ok a r → d (q ++ r') = .ok a r'
  truncate : ∀ {q r a}, d (q ++ r) = .ok a r → ∀ k < q.length, ∃ e, d (q.take k) = .err e

/-- On a successful run, `d` run on a cursor over any strict prefix of what it
    consumed returns `Err`. -/
def TruncationFails (d : Decoder α) : Prop :=
  ∀ b a r q, d b = .ok a r → b = q ++ r → ∀ k < q.length, ∃ e, d (q.take k) = .err e

theorem Framed.truncationFails {d : Decoder α} (h : Framed d) : TruncationFails d := by
  rintro b a r q hd rfl
  exact h.truncate hd

namespace Framed

theorem pure (x : α) : Framed (pure x : Decoder α) where
  suffix := by
    intro b a r hd
    obtain ⟨-, rfl⟩ := Outcome.ok.inj hd
    exact ⟨[], rfl⟩
  frame := by
    intro q r a r' hd
    obtain ⟨rfl, hq⟩ := Outcome.ok.inj hd
    obtain rfl : q = [] := List.append_left_eq_self.mp hq
    rfl
  truncate := by
    intro q r a hd k hk
    obtain ⟨-, hq⟩ := Outcome.ok.inj hd
    simp [List.append_left_eq_self.mp hq] at hk

/-- A decoder that never returns `Ok` is framed, vacuously. -/
theorem of_not_ok {d : Decoder α} (h : ∀ b a r, d b ≠ .ok a r) : Framed d where
  suffix hd := absurd hd (h _ _ _)
  frame _ hd := absurd hd (h _ _ _)
  truncate hd := absurd hd (h _ _ _)

theorem panic (m : String) : Framed (Decoder.panic m : Decoder α) :=
  of_not_ok fun _ _ _ => by simp

theorem unwrap {ε : Type} (r : Except ε α) : Framed (Decoder.unwrap r) := by
  cases r
  · exact panic _
  · exact pure _

theorem ofOption (m : String) (o : Option α) : Framed (Decoder.ofOption m o) := by
  cases o
  · exact panic _
  · exact pure _

theorem vecWithCapacity (size n : Nat) : Framed (vecWithCapacity size n) := by
  unfold ZkProto.vecWithCapacity
  split
  · exact pure _
  · exact panic _

/-- A fixed read that leaves `r` after `q ++ r` took exactly `q`. -/
theorem length_of_takeOr {e : IoError} {n : Nat} {q r a : List UInt8}
    (hd : ZkProto.takeOr e n (q ++ r) = .ok a r) : a = q ∧ q.length = n := by
  obtain ⟨hl, hq⟩ := takeOr_eq_ok hd
  obtain rfl := List.append_cancel_right hq
  exact ⟨rfl, hl⟩

theorem takeOr (e : IoError) (n : Nat) : Framed (takeOr e n) where
  suffix hd := ⟨_, (takeOr_eq_ok hd).2⟩
  frame := by
    intro q r a r' hd
    obtain ⟨rfl, rfl⟩ := length_of_takeOr hd
    exact takeOr_append e r'
  truncate := by
    intro q r a hd k hk
    obtain ⟨-, rfl⟩ := length_of_takeOr hd
    exact ⟨e, takeOr_of_lt e (by simp; omega)⟩

/-- A successful `d >>= f` over `q ++ r` splits `q` where `d` stopped. -/
theorem bind_split {d : Decoder α} {f : α → Decoder β} (hd : Framed d)
    (hf : ∀ a, Framed (f a)) {q r : List UInt8} {v : β} (h : (d >>= f) (q ++ r) = .ok v r) :
    ∃ a q₁ q₂, q = q₁ ++ q₂ ∧ d (q₁ ++ (q₂ ++ r)) = .ok a (q₂ ++ r) ∧
      f a (q₂ ++ r) = .ok v r := by
  rw [Decoder.bind_apply] at h
  obtain ⟨a, s, hs, hfs⟩ := Outcome.bind_eq_ok h
  obtain ⟨q₂, rfl⟩ := (hf a).suffix hfs
  obtain ⟨q₁, hq⟩ := hd.suffix hs
  exact ⟨a, q₁, q₂, List.append_cancel_right (hq.trans (List.append_assoc _ _ _).symm),
    hq ▸ hs, hfs⟩

theorem bind {d : Decoder α} {f : α → Decoder β} (hd : Framed d) (hf : ∀ a, Framed (f a)) :
    Framed (d >>= f) where
  suffix := by
    intro b v r h
    rw [Decoder.bind_apply] at h
    obtain ⟨a, s, hs, hfs⟩ := Outcome.bind_eq_ok h
    obtain ⟨q₂, rfl⟩ := (hf a).suffix hfs
    obtain ⟨q₁, rfl⟩ := hd.suffix hs
    exact ⟨q₁ ++ q₂, by simp⟩
  frame := by
    intro q r v r' h
    obtain ⟨a, q₁, q₂, rfl, hs, hfs⟩ := bind_split hd hf h
    rw [List.append_assoc, Decoder.bind_apply, hd.frame (q₂ ++ r') hs, Outcome.ok_bind]
    exact (hf a).frame r' hfs
  truncate := by
    intro q r v h k hk
    obtain ⟨a, q₁, q₂, rfl, hs, hfs⟩ := bind_split hd hf h
    rw [Decoder.bind_apply]
    by_cases hk₁ : k < q₁.length
    · -- Cut inside the first read: it fails on its own.
      obtain ⟨e, he⟩ := hd.truncate hs k hk₁
      rw [List.take_append_of_le_length (by omega), he]
      exact ⟨e, rfl⟩
    · -- Cut inside the second: the first reads as before, and the second fails.
      rw [List.take_append_eq_append_take, List.take_of_length_le (by omega),
        hd.frame _ hs, Outcome.ok_bind]
      exact (hf a).truncate hfs _ (by simp only [List.length_append] at hk; omega)

/-- Framing is kept by every decoder: it holds of `read_exact` and of a pure
    value, and `?` keeps it. -/
theorem composes : Composes fun d _ => Framed d :=
  ⟨pure, fun hd hf => hd.bind hf, fun _ => takeOr _ _⟩

theorem readBuffer : Framed readBuffer := composes.readBuffer fun _ => takeOr _ _

theorem readString : Framed readString := composes.readString readBuffer unwrap

end Framed

/-- A buffer with fewer bytes than its non-negative length is an `Err`. -/
theorem readBuffer_of_lt {len : BitVec 32} {b : List UInt8} (hlen : 0 ≤ len.toInt)
    (h : b.length < len.toNat) :
    readBuffer (writeI32 len ++ b) = .err (error "read_buffer failed") := by
  rw [readBuffer_writeI32_append, takeOr_of_lt]
  simpa [bufferLen, Int.not_lt.mpr hlen] using h

/-- Every decoder of the codec fails with `Err` on a strict prefix of what it
    consumes on a successful run, and `read_buffer` fails whenever fewer bytes
    remain than its non-negative length. -/
theorem decoders_fail_on_truncation {P E S : Type} (fromRaw : BitVec 32 → P)
    (eventTypeFrom : BitVec 32 → Option E) (keeperStateFrom : BitVec 32 → Option S) :
    TruncationFails readBuffer ∧ TruncationFails readString ∧
      TruncationFails (Acl.readFrom fromRaw) ∧ TruncationFails Stat.readFrom ∧
      TruncationFails ReplyHeader.readFrom ∧ TruncationFails ConnectResponse.readFrom ∧
      TruncationFails CreateResponse.readFrom ∧ TruncationFails StatResponse.readFrom ∧
      TruncationFails (GetAclResponse.readFrom fromRaw) ∧
      TruncationFails GetChildrenResponse.readFrom ∧ TruncationFails GetDataResponse.readFrom ∧
      TruncationFails (WatchedEvent.readFrom eventTypeFrom keeperStateFrom) ∧
      ∀ (len : BitVec 32) (b : List UInt8), 0 ≤ len.toInt → b.length < len.toNat →
        ∃ e, readBuffer (writeI32 len ++ b) = .err e :=
  have h := Framed.composes
  have hs := Framed.readString
  ⟨Framed.readBuffer.truncationFails, hs.truncationFails,
    (h.acl_readFrom fromRaw hs).truncationFails, h.stat_readFrom.truncationFails,
    h.replyHeader_readFrom.truncationFails,
    (h.connectResponse_readFrom Framed.readBuffer).truncationFails,
    (h.createResponse_readFrom hs).truncationFails, h.statResponse_readFrom.truncationFails,
    (h.getAclResponse_readFrom fromRaw hs (Framed.vecWithCapacity _)).truncationFails,
    (h.getChildrenResponse_readFrom hs (Framed.vecWithCapacity _)).truncationFails,
    (h.getDataResponse_readFrom Framed.readBuffer).truncationFails,
    (h.watchedEvent_readFrom eventTypeFrom keeperStateFrom hs Framed.ofOption).truncationFails,
    fun _ _ hlen h => ⟨_, readBuffer_of_lt hlen h⟩⟩

/-- The string `"a"` read whole and then cut after its length field, and a
    buffer of length three with one byte behind it. -/
theorem readString_cut_after_length :
    readString [0, 0, 0, 1, 0x61] = .ok (RustString.mk [0x61] rfl) [] ∧
      (∃ e, readString ([0, 0, 0, 1, 0x61].take 4) = .err e) ∧
      ∃ e, readBuffer (writeI32 3 ++ [1]) = .err e :=
  have h := decoders_fail_on_truncation (P := Unit) (E := Unit) (S := Unit) (fun _ => ())
    (fun _ => none) (fun _ => none)
  have hs : readString [0, 0, 0, 1, 0x61] = .ok (RustString.mk [0x61] rfl) [] := by decide
  ⟨hs, h.2.1 _ _ _ [0, 0, 0, 1, 0x61] hs (List.append_nil _).symm 4 (by decide),
    h.2.2.2.2.2.2.2.2.2.2.2.2 3 [1] (by decide) (by decide)⟩

end ZkProto
