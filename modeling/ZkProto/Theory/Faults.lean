import ZkProto.Theory.RoundTrip

/-!
# Where the Decoders Panic

Every failure of a read is an `Err`, with two exceptions, and both end the
thread in a panic instead.

`read_string` gets its `String` with `unwrap`. It returns a string exactly
when `read_buffer` returns well-formed bytes, and the string is those bytes;
on ill-formed bytes the `unwrap` panics. Every decoder with a string field
inherits this.

`GetChildrenResponse` and `GetAclResponse` allocate before their loops with
`Vec::with_capacity(len as usize)`. For a negative count the cast extends
the sign, the capacity asked for is past `isize::MAX` bytes, and the
allocation panics, for every negative count and whatever follows it.
`read_buffer`, by contrast, treats a negative length as zero before it
allocates.

Nothing else panics. `PanicsOnly d P`, every panic of `d` has a message in
`P`, holds of the fixed reads and of a pure value for every `P`, and `?`
keeps it (`PanicsOnly.composes`); `read_string` has it for the message of
`unwrap`. So every decoder built without a string field, an allocation from
a count or a derived conversion returns `Ok` or `Err` on every input, and the
panics of the others are those `Theory.Outcomes` lists.

## Main definitions

* `PanicsOnly`: Every panic of a decoder has an allowed message.
* `NoPanic`: A decoder that returns `Ok` or `Err` on every input.

## Theorems

* `readString_panics_on_ff`: A string field of one byte `0xFF` makes
  `read_string` panic.
* `getChildrenResponse_readFrom_of_neg`,
  `getAclResponse_readFrom_of_neg`: A negative count makes the sequence
  decoders panic.
* `PanicsOnly.bind`, `PanicsOnly.composes`: The messages of a composite
  decoder's panics are those of its parts.
-/

namespace ZkProto

open Decoder (unwrapMsg)

/-- A string of the one byte `0xFF`, which is not UTF-8: `read_string`, and
    the create reply that holds it, panic instead of returning `Err`. -/
theorem readString_panics_on_ff :
    readBuffer [0, 0, 0, 1, 0xFF] = .ok [0xFF] [] ∧ utf8Valid [0xFF] = false ∧
      readString [0, 0, 0, 1, 0xFF] = .panic unwrapMsg ∧
      CreateResponse.readFrom [0, 0, 0, 1, 0xFF] = .panic unwrapMsg := by
  decide

/-- A negative count asks `Vec::with_capacity` for more than `isize::MAX`
    bytes. -/
theorem isizeMax_lt_asUsize {c : BitVec 32} (hc : c.toInt < 0) {size : Nat} (hs : 0 < size) :
    isizeMax < asUsize c * size := by
  have h := asUsize_of_neg hc
  have : asUsize c ≤ asUsize c * size := Nat.le_mul_of_pos_right _ hs
  rw [isizeMax]
  omega

theorem getChildrenResponse_readFrom_of_neg {c : BitVec 32} (hc : c.toInt < 0)
    (rest : List UInt8) :
    GetChildrenResponse.readFrom (writeI32 c ++ rest) = .panic "capacity overflow" := by
  simp [GetChildrenResponse.readFrom,
    vecWithCapacity_of_lt (isizeMax_lt_asUsize hc (by decide : 0 < sizeOfString))]

theorem getAclResponse_readFrom_of_neg {P : Type} (fromRaw : BitVec 32 → P) {c : BitVec 32}
    (hc : c.toInt < 0) (rest : List UInt8) :
    GetAclResponse.readFrom fromRaw (writeI32 c ++ rest) = .panic "capacity overflow" := by
  simp [GetAclResponse.readFrom,
    vecWithCapacity_of_lt (isizeMax_lt_asUsize hc (by decide : 0 < sizeOfAcl))]

/-- A count of `-1`: both sequence decoders panic where an `Err` or an empty
    list was due. -/
theorem sequence_decoders_panic_on_minus_one {P : Type} (fromRaw : BitVec 32 → P) :
    GetChildrenResponse.readFrom [0xFF, 0xFF, 0xFF, 0xFF] = .panic "capacity overflow" ∧
      GetAclResponse.readFrom fromRaw [0xFF, 0xFF, 0xFF, 0xFF] = .panic "capacity overflow" := by
  have hb : ([0xFF, 0xFF, 0xFF, 0xFF] : List UInt8) = writeI32 (-1) ++ [] := by decide
  rw [hb]
  exact ⟨getChildrenResponse_readFrom_of_neg (by decide) [],
    getAclResponse_readFrom_of_neg fromRaw (by decide) []⟩

section Panics

variable {α β : Type}

/-- Every panic of `d` has a message that `P` allows. -/
def PanicsOnly (d : Decoder α) (P : String → Prop) : Prop := ∀ b m, d b = .panic m → P m

/-- `d` returns `Ok` or `Err` on every input, and never panics. -/
def NoPanic (d : Decoder α) : Prop := PanicsOnly d fun _ => False

namespace PanicsOnly

variable {P : String → Prop}

theorem pure (a : α) : PanicsOnly (pure a : Decoder α) P := fun _ _ h => by cases h

theorem takeOr (e : IoError) (n : Nat) : PanicsOnly (takeOr e n) P := by
  intro b m h
  unfold ZkProto.takeOr at h
  split at h <;> cases h

theorem bind {d : Decoder α} {f : α → Decoder β} (hd : PanicsOnly d P)
    (hf : ∀ a, PanicsOnly (f a) P) : PanicsOnly (d >>= f) P := by
  intro b m h
  rw [Decoder.bind_apply] at h
  cases hb : d b with
  | ok a s => rw [hb] at h; exact hf a s m h
  | err e => rw [hb] at h; cases h
  | panic m' => rw [hb] at h; cases h; exact hd b _ hb

/-- No read panics, and `?` adds no message of its own. -/
theorem composes : Composes fun d _ => PanicsOnly d P :=
  ⟨pure, fun hd hf => hd.bind hf, fun _ => takeOr _ _⟩

theorem readBuffer : PanicsOnly readBuffer P := composes.readBuffer fun _ => takeOr _ _

/-- `unwrap` panics with its own message only. -/
theorem unwrap {ε : Type} (r : Except ε α) : PanicsOnly (Decoder.unwrap r) (· = unwrapMsg) := by
  intro b m h
  cases r with
  | ok a => cases h
  | error e => cases h; rfl

theorem readString : PanicsOnly readString (· = unwrapMsg) :=
  composes.readString readBuffer unwrap

theorem mono {d : Decoder α} {Q : String → Prop} (hd : PanicsOnly d P) (h : ∀ m, P m → Q m) :
    PanicsOnly d Q := fun b m hb => h m (hd b m hb)

theorem vecWithCapacity (size n : Nat) :
    PanicsOnly (vecWithCapacity size n) (· = "capacity overflow") := by
  intro b m h
  unfold ZkProto.vecWithCapacity at h
  split at h <;> cases h
  rfl

end PanicsOnly

end Panics

end ZkProto
