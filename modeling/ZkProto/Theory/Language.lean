import ZkProto.Theory.Faults

/-!
# What Each Decoder Accepts

The round trips say that a decoder reads back what its encoder wrote. They
do not say what else it accepts. A reply comes from the server, not from
this code's encoders, so the question that matters to the client is the
converse: on which inputs does a decoder return `Ok`, and what does it
return there?

`Parses d R` is the answer as one statement: `d` returns `Ok x` and leaves
`r` exactly when the input is some field `q` that `R` relates to `x`,
followed by `r`. It is soundness and completeness at once, and it pins down
where the cursor stops. The relation is read off the code: a buffer field is
an `i32` length that `read_buffer` reads as the buffer's length, then the
bytes, and since a negative length reads as zero, an empty buffer has
`2 ^ 31` length fields, not one.

`Parses.bind_eq_ok_iff` is the one composition lemma. It peels one read off
a chain of reads, and with the relations of the fixed-width reads being
equations, simp peels a whole record. The counted loop has its own rule,
`Parses.readMany`: `n` values are `n` consecutive fields, related pointwise.

## Main definitions

* `BufferField`: A length and the bytes `read_buffer` reads with it.
* `AclField`: The fields `Acl::read_from` reads an entry from.
* `Parses`: A decoder accepts exactly the fields a relation describes.

## Theorems

* `Parses.bind_eq_ok_iff`: A read followed by the rest of a decoder.
* `Parses.map`: A read whose value is wrapped.
* `Parses.readMany`: A counted loop reads consecutive fields.
* `Parses.readBE`: A fixed-width reader accepts what its writer writes.
* `Parses.readBuffer`, `Parses.readString`, `Parses.acl_readFrom`,
  `Parses.stat_readFrom`: The languages of the shared readers.
-/

namespace ZkProto


variable {α β P : Type}

/-- `q` is a buffer field holding `pw`: an `i32` length that `read_buffer`
    reads as the length of `pw`, then the bytes of `pw`. -/
def BufferField (pw q : List UInt8) : Prop :=
  ∃ len, bufferLen len = pw.length ∧ q = writeI32 len ++ pw

/-- `q` is an ACL entry field holding `a`: permission bits that `fromRaw`
    takes to `a`'s permissions, then the scheme and the id as string
    fields. -/
def AclField (fromRaw : BitVec 32 → P) (a : Acl P) (q : List UInt8) : Prop :=
  ∃ bits q₁ q₂, fromRaw bits = a.perms ∧ BufferField a.scheme.bytes q₁ ∧
    BufferField a.id.bytes q₂ ∧ q = writeU32 bits ++ q₁ ++ q₂

/-- `d` returns `x` and leaves `r` exactly on the inputs made of a field `q`
    that `R` relates to `x`, followed by `r`. -/
def Parses (d : Decoder α) (R : α → List UInt8 → Prop) : Prop :=
  ∀ b x r, d b = .ok x r ↔ ∃ q, R x q ∧ b = q ++ r

theorem takeOr_eq_ok_iff {e : IoError} {n : Nat} {b bs r : List UInt8} :
    takeOr e n b = .ok bs r ↔ bs.length = n ∧ b = bs ++ r :=
  ⟨takeOr_eq_ok, by rintro ⟨rfl, rfl⟩; exact takeOr_append e r⟩

theorem takeOr_eq_err_iff {e e' : IoError} {n : Nat} {b : List UInt8} :
    takeOr e n b = .err e' ↔ b.length < n ∧ e' = e := by
  unfold takeOr
  split <;> simp [eq_comm] <;> omega

theorem unwrap_fromUtf8_eq_ok_iff {raw s r : List UInt8} {x : RustString} :
    Decoder.unwrap (RustString.fromUtf8 raw) s = .ok x r ↔ x.bytes = raw ∧ s = r := by
  unfold RustString.fromUtf8
  split
  · simp only [Decoder.unwrap, Decoder.pure_apply, Outcome.ok.injEq]
    constructor <;> rintro ⟨rfl, rfl⟩ <;> exact ⟨rfl, rfl⟩
  · simp only [Decoder.unwrap, Decoder.panic_apply, reduceCtorEq, false_iff, not_and]
    rintro rfl
    exact absurd x.valid ‹_›

namespace Parses

variable {R : α → List UInt8 → Prop}

/-- A read with a known language, followed by the rest of a decoder: the
    rest runs on what follows one of the read's fields. -/
theorem bind_eq_ok_iff {d : Decoder α} (hd : Parses d R) {f : α → Decoder β} {b : List UInt8}
    {y : β} {r : List UInt8} :
    (d b).bind f = .ok y r ↔ ∃ x q s, R x q ∧ b = q ++ s ∧ f x s = .ok y r := by
  constructor
  · intro h
    obtain ⟨x, s, h1, h2⟩ := Outcome.bind_eq_ok h
    obtain ⟨q, hq, rfl⟩ := (hd b x s).1 h1
    exact ⟨x, q, s, hq, rfl, h2⟩
  · rintro ⟨x, q, s, hq, rfl, h⟩
    rw [(hd _ x s).2 ⟨q, hq, rfl⟩]
    exact h

/-- A read whose value is wrapped, as a response wraps its fields: the
    language of the wrapper is the read's, through the wrapping. -/
theorem map {d : Decoder α} (hd : Parses d R) {g : α → β} {S : β → List UInt8 → Prop}
    (hS : ∀ x q, S (g x) q ↔ R x q) (hg : Function.Surjective g) :
    Parses (d >>= fun x => pure (g x)) S := by
  intro b y r
  rw [Decoder.bind_apply, hd.bind_eq_ok_iff]
  simp only [Decoder.pure_apply, Outcome.ok.injEq]
  constructor
  · rintro ⟨x, q, s, hq, rfl, rfl, rfl⟩
    exact ⟨q, (hS x q).2 hq, rfl⟩
  · rintro ⟨q, hq, rfl⟩
    obtain ⟨x, rfl⟩ := hg y
    exact ⟨x, q, r, (hS x q).1 hq, rfl, rfl, rfl⟩

/-- A fixed-width reader accepts exactly what the writer of its width
    writes. -/
theorem readBE (k : Nat) : Parses (readBE k) (fun x q => q = writeBE k x) := fun _ x r =>
  ⟨fun h => ⟨_, rfl, readBE_eq_ok h⟩, by rintro ⟨q, rfl, rfl⟩; exact readBE_append x r⟩

theorem readU8 : Parses readU8 (fun x q => q = [x]) := fun _ x r =>
  ⟨fun h => ⟨_, rfl, readU8_eq_ok h⟩, by
    rintro ⟨q, rfl, rfl⟩
    simp [ZkProto.readU8, readExact, takeOr, ofBE, uInt8_ofNat_toNat]⟩

theorem readBuffer : Parses readBuffer BufferField := by
  intro b pw r
  rw [readBuffer_eq, Decoder.bind_apply, (readBE 4).bind_eq_ok_iff]
  simp only [takeOr_eq_ok_iff, BufferField]
  constructor
  · rintro ⟨len, _, s, rfl, rfl, hl, rfl⟩
    exact ⟨_, ⟨len, hl.symm, rfl⟩, by simp⟩
  · rintro ⟨_, ⟨len, hl, rfl⟩, rfl⟩
    exact ⟨len, _, pw ++ r, rfl, by simp, hl.symm, rfl⟩

/-- A string is a buffer field holding its bytes; ill-formed bytes are not
    in the language, and end in a panic instead. -/
theorem readString : Parses readString fun s => BufferField s.bytes := by
  intro b s r
  rw [ZkProto.readString, Decoder.bind_apply, readBuffer.bind_eq_ok_iff]
  simp only [unwrap_fromUtf8_eq_ok_iff]
  constructor
  · rintro ⟨_, q, _, hq, rfl, rfl, rfl⟩
    exact ⟨q, hq, rfl⟩
  · rintro ⟨q, hq, rfl⟩
    exact ⟨_, q, r, hq, rfl, rfl, rfl⟩

/-- `n` reads of `d` take `n` consecutive fields, the `i`th holding the
    `i`th value. -/
theorem readMany {d : Decoder α} (hd : Parses d R) :
    ∀ n, Parses (ZkProto.readMany d n) fun xs q =>
      xs.length = n ∧ ∃ qs, List.Forall₂ R xs qs ∧ q = qs.flatten
  | 0 => by
    intro b xs r
    simp only [ZkProto.readMany, Decoder.pure_apply, Outcome.ok.injEq, List.length_eq_zero]
    constructor
    · rintro ⟨rfl, rfl⟩
      exact ⟨[], ⟨rfl, [], .nil, rfl⟩, rfl⟩
    · rintro ⟨_, ⟨rfl, qs, h, rfl⟩, rfl⟩
      cases h
      exact ⟨rfl, rfl⟩
  | n + 1 => by
    intro b xs r
    simp only [ZkProto.readMany, Decoder.bind_apply, hd.bind_eq_ok_iff,
      (readMany hd n).bind_eq_ok_iff, Decoder.pure_apply, Outcome.ok.injEq]
    constructor
    · rintro ⟨x, q, s, hx, rfl, xs', _, _, ⟨hl, qs, hqs, rfl⟩, rfl, rfl, rfl⟩
      exact ⟨q ++ qs.flatten, ⟨by simp [hl], q :: qs, .cons hx hqs, rfl⟩, by simp⟩
    · rintro ⟨_, ⟨hl, qs, h, rfl⟩, rfl⟩
      match xs, qs, h with
      | x :: xs', q :: qs', .cons hx h' =>
        exact ⟨x, q, qs'.flatten ++ r, hx, by simp, xs', qs'.flatten, r,
          ⟨by simpa using hl, qs', h', rfl⟩, rfl, rfl, rfl⟩

theorem readMany_bind_eq_ok_iff {d : Decoder α} (hd : Parses d R) {n : Nat}
    {f : List α → Decoder β} {b : List UInt8} {y : β} {r : List UInt8} :
    (ZkProto.readMany d n b).bind f = .ok y r ↔
      ∃ xs qs s, xs.length = n ∧ List.Forall₂ R xs qs ∧ b = qs.flatten ++ s ∧ f xs s = .ok y r := by
  rw [(readMany hd n).bind_eq_ok_iff]
  constructor
  · rintro ⟨xs, _, s, ⟨hl, qs, hqs, rfl⟩, rfl, h⟩
    exact ⟨xs, qs, s, hl, hqs, rfl, h⟩
  · rintro ⟨xs, qs, s, hl, hqs, rfl, h⟩
    exact ⟨xs, _, s, ⟨hl, qs, hqs, rfl⟩, rfl, h⟩

theorem acl_readFrom (fromRaw : BitVec 32 → P) :
    Parses (Acl.readFrom fromRaw) (AclField fromRaw) := by
  intro b a r
  simp only [Acl.readFrom, Decoder.bind_apply, (readBE 4).bind_eq_ok_iff, readString.bind_eq_ok_iff,
    Decoder.pure_apply, Outcome.ok.injEq, AclField]
  constructor
  · rintro ⟨bits, _, _, rfl, rfl, sc, q₁, _, h₁, rfl, id, q₂, _, h₂, rfl, rfl, rfl⟩
    exact ⟨_, ⟨bits, q₁, q₂, rfl, h₁, h₂, rfl⟩, by simp⟩
  · rintro ⟨_, ⟨bits, q₁, q₂, hp, h₁, h₂, rfl⟩, rfl⟩
    obtain ⟨perms, sc, id⟩ := a
    subst hp
    exact ⟨bits, _, _, rfl, by simp, sc, q₁, _, h₁, rfl, id, q₂, r, h₂, rfl, rfl, rfl⟩

end Parses

/-- A fixed-width read followed by `f` succeeds when the input starts with a
    written value and `f` succeeds on it and the rest. -/
theorem readBE_bind_eq_ok_iff {k : Nat} {f : BitVec (8 * k) → Decoder β}
    {b : List UInt8} {y : β} {r : List UInt8} :
    (readBE k b).bind f = .ok y r ↔ ∃ x s, b = writeBE k x ++ s ∧ f x s = .ok y r := by
  simp [(Parses.readBE k).bind_eq_ok_iff]

@[simp] theorem readU8_bind_eq_ok_iff {f : UInt8 → Decoder β} {b : List UInt8} {y : β}
    {r : List UInt8} :
    (readU8 b).bind f = .ok y r ↔ ∃ x s, b = x :: s ∧ f x s = .ok y r := by
  simp [Parses.readU8.bind_eq_ok_iff]

@[simp] theorem vecWithCapacity_bind_eq_ok_iff {size n : Nat} {f : Unit → Decoder β}
    {b : List UInt8} {y : β} {r : List UInt8} :
    (vecWithCapacity size n b).bind f = .ok y r ↔ n * size ≤ isizeMax ∧ f () b = .ok y r := by
  unfold vecWithCapacity
  split <;> simp [*]

@[simp] theorem ofOption_bind_eq_ok_iff {m : String} {o : Option α} {f : α → Decoder β}
    {b : List UInt8} {y : β} {r : List UInt8} :
    (Decoder.ofOption m o b).bind f = .ok y r ↔ ∃ a, o = some a ∧ f a b = .ok y r := by
  cases o <;> simp [Decoder.ofOption]

/-- The eleven fixed-width reads of a `Stat` accept exactly its 68 bytes. -/
theorem stat_readFrom_eq_ok_iff {b r : List UInt8} {s : Stat} :
    Stat.readFrom b = .ok s r ↔ b = s.toWire ++ r := by
  refine ⟨fun h => ?_, fun h => h ▸ stat_readFrom_append s r⟩
  simp only [Stat.readFrom, Decoder.bind_apply, readBE_bind_eq_ok_iff (k := 4),
    readBE_bind_eq_ok_iff (k := 8), Decoder.pure_apply, Outcome.ok.injEq] at h
  -- Follow the cursor through the eleven fields, rewriting rather than substituting.
  obtain ⟨_, _, h₁, _, _, h₂, _, _, h₃, _, _, h₄, _, _, h₅, _, _, h₆, _, _, h₇, _, _, h₈,
    _, _, h₉, _, _, h₁₀, _, _, h₁₁, hs, hr⟩ := h
  rw [h₁, h₂, h₃, h₄, h₅, h₆, h₇, h₈, h₉, h₁₀, h₁₁, hr, ← hs]
  simp only [Stat.toWire, List.append_assoc]

theorem Parses.stat_readFrom : Parses Stat.readFrom fun s q => q = s.toWire := by
  intro b s r
  constructor
  · intro h
    exact ⟨_, rfl, stat_readFrom_eq_ok_iff.1 h⟩
  -- `subst` on an equation with `toWire` unfolds it; rewrite instead.
  · rintro ⟨q, hq, rfl⟩
    rw [hq]
    exact stat_readFrom_append s r

@[simp] theorem stat_readFrom_bind_eq_ok_iff {f : Stat → Decoder β} {b : List UInt8} {y : β}
    {r : List UInt8} :
    (Stat.readFrom b).bind f = .ok y r ↔ ∃ st s, b = st.toWire ++ s ∧ f st s = .ok y r := by
  simp [Parses.stat_readFrom.bind_eq_ok_iff]

end ZkProto
