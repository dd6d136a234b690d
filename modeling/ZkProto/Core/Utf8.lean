import Mathlib.Algebra.Group.Nat.Basic
import Mathlib.Data.List.Basic

/-!
# UTF-8 Strings

A Rust `String` is a byte vector that holds well-formed UTF-8. `RustString`
carries that invariant as a field, so no ill-formed string can be built and
a decoder that returns one has necessarily checked it.

`utf8Valid` is the check `core::str::from_utf8` makes: a byte below `0x80`
stands alone, a lead byte opens a sequence of two, three or four bytes, every
byte after the lead lies in `0x80 ..= 0xBF`, and the second byte's range is
narrowed after `0xE0`, `0xED`, `0xF0` and `0xF4`, which rules out overlong
forms, surrogates and code points past `U+10FFFF`. The recursion is on the
list, so the check runs by `decide`.

`RustString.fromUtf8` is `String::from_utf8`: it returns the string exactly
when the check passes.

## Main definitions

* `utf8Valid`: Well-formed UTF-8, as `from_utf8` decides it.
* `RustString`: A byte list with its well-formedness.
* `RustString.fromUtf8`: `String::from_utf8`.

## Theorems

* `fromUtf8_bytes`: Every string converts back from its own bytes.
* `fromUtf8_eq_ok_iff`: The conversion succeeds exactly on well-formed bytes,
  and returns them.
-/

namespace ZkProto

/-- A continuation byte, `0x80 ..= 0xBF`. -/
def isCont (c : UInt8) : Bool := 0x80 ≤ c && c ≤ 0xBF

/-- The least second byte a lead byte allows. -/
def secondLo (b : UInt8) : UInt8 :=
  if b = 0xE0 then 0xA0 else if b = 0xF0 then 0x90 else 0x80

/-- The greatest second byte a lead byte allows. -/
def secondHi (b : UInt8) : UInt8 :=
  if b = 0xED then 0x9F else if b = 0xF4 then 0x8F else 0xBF

/-- Well-formed UTF-8, as `core::str::from_utf8` decides it. -/
def utf8Valid : List UInt8 → Bool
  | [] => true
  | b :: rest =>
    if b < 0x80 then utf8Valid rest
    else if b < 0xC2 then false
    else match rest with
      | [] => false
      | c1 :: rest1 =>
        if b < 0xE0 then isCont c1 && utf8Valid rest1
        else if b > 0xF4 then false
        else (secondLo b ≤ c1 && c1 ≤ secondHi b) && match rest1 with
          | [] => false
          | c2 :: rest2 =>
            if b < 0xF0 then isCont c2 && utf8Valid rest2
            else isCont c2 && match rest2 with
              | [] => false
              | c3 :: rest3 => isCont c3 && utf8Valid rest3

/-- A Rust `String`: bytes that are well-formed UTF-8. -/
structure RustString where
  bytes : List UInt8
  valid : utf8Valid bytes = true
  deriving DecidableEq

/-- The error of `String::from_utf8`, holding the rejected bytes. -/
structure FromUtf8Error where
  bytes : List UInt8
  deriving DecidableEq, Repr

namespace RustString

/-- `String::from_utf8`. -/
def fromUtf8 (raw : List UInt8) : Except FromUtf8Error RustString :=
  if h : utf8Valid raw = true then .ok ⟨raw, h⟩ else .error ⟨raw⟩

/-- `String::len`, a count of bytes. -/
def len (s : RustString) : Nat := s.bytes.length

theorem fromUtf8_bytes (s : RustString) : fromUtf8 s.bytes = .ok s := by
  simp [fromUtf8, s.valid]

theorem fromUtf8_eq_ok_iff {raw : List UInt8} {s : RustString} :
    fromUtf8 raw = .ok s ↔ utf8Valid raw = true ∧ s.bytes = raw := by
  unfold fromUtf8
  split
  · constructor
    · rintro ⟨⟩; exact ⟨‹_›, rfl⟩
    · rintro ⟨-, rfl⟩; rfl
  · simp [*]

end RustString

end ZkProto
