import ZkProto.Theory.Unambiguous

/-!
# Well-Formed UTF-8 Is the Encoding of a String

`utf8Valid` transcribes the checks `core::str::from_utf8` makes, one range
of byte values at a time. A table of ranges is easy to get subtly wrong, so
this module says what the table is for: it accepts exactly the byte strings
that encode a sequence of Unicode scalar values, each encoded as Lean's own
`String.utf8EncodeChar` encodes it. `read_string` unwraps `from_utf8`, so
this is what decides when it panics: exactly on a field whose bytes encode
no string at all.

The proof goes through the values of the bytes. `natEncode` is
`utf8EncodeChar` on numbers: the base-64 digits of a scalar value under the
tag bits of its length. The validator takes one character off the front at
a time. A lead byte below `0x80` stands alone, the other lead bytes fix the
length, and the narrower second-byte ranges after `E0`, `ED`, `F0` and `F4`
are exactly what keeps the value from being overlong, a surrogate, or past
`U+10FFFF`. So every step of the validator consumes the bytes of one valid
scalar value, and the bytes of every valid scalar value pass a step.

The encoding also loses nothing. A lead byte announces how long its
character is (`leadLength`), and the digits under the tags give the value
back (`natDecode`), so UTF-8 is a prefix code and two strings with the same
bytes are the same string. A `RustString`, which the model keeps as bytes
together with their check, is therefore exactly a Lean `String`.

## Main definitions

* `natEncode`: The byte values of a scalar value's UTF-8 encoding.
* `natDecode`: The scalar value an encoding's byte values give back.
* `leadLength`: The length of a character, read off its lead byte.

## Theorems

* `natEncode_cases`: The four shapes of an encoding.
* `map_toNat_utf8EncodeChar`: `String.utf8EncodeChar` computes `natEncode`.
* `PrefixCode.utf8EncodeChar`: A character's bytes followed by anything
  determine the character.
* `string_eq_of_toUTF8_eq`: Different strings have different bytes.
* `utf8Valid_natEncode_append`: The validator passes the bytes of a
  character and goes on after them.
* `exists_natEncode_of_utf8Valid`: What the validator passes starts with
  the bytes of a character.
* `utf8Valid_iff_chars`: The validator accepts exactly the encodings of
  lists of characters.
* `fromUtf8_ok_iff_unique_string`: `String::from_utf8` accepts exactly the
  bytes of strings, each the bytes of one string only.
-/

namespace ZkProto

section Bytes

/-- A byte literal's value, read off without evaluating the literal. -/
theorem toNat_uInt8_lit (n : Nat) : (no_index (OfNat.ofNat n : UInt8)).toNat = n % 256 := rfl

/-- A byte equals a literal when their values agree. -/
theorem uInt8_eq_lit_iff {b : UInt8} {n : Nat} : b = no_index (OfNat.ofNat n) ↔ b.toNat = n % 256 :=
  ⟨congrArg UInt8.toNat, fun h => UInt8.toNat.inj (h.trans (toNat_uInt8_lit n).symm)⟩

/-- A continuation byte lies in `80..BF`. -/
theorem isCont_iff {c : UInt8} : isCont c = true ↔ 0x80 ≤ c.toNat ∧ c.toNat ≤ 0xBF := by
  simp only [isCont, Bool.and_eq_true, decide_eq_true_eq]
  exact Iff.rfl

/-- A digit under the continuation tag is a continuation byte. -/
theorem isCont_ofNat {y : Nat} (hy : y < 64) : isCont (UInt8.ofNat (y + 0x80)) = true :=
  isCont_iff.2 (by rw [toNat_uInt8_ofNat]; omega)

/-- The least second byte a lead byte allows. -/
theorem secondLo_toNat (b : UInt8) :
    (secondLo b).toNat = if b.toNat = 0xE0 then 0xA0 else if b.toNat = 0xF0 then 0x90 else 0x80 := by
  unfold secondLo
  simp only [uInt8_eq_lit_iff]
  split_ifs <;> rfl

/-- The greatest second byte a lead byte allows. -/
theorem secondHi_toNat (b : UInt8) :
    (secondHi b).toNat = if b.toNat = 0xED then 0x9F else if b.toNat = 0xF4 then 0x8F else 0xBF := by
  unfold secondHi
  simp only [uInt8_eq_lit_iff]
  split_ifs <;> rfl

/-- The lower bound on a second byte, as conditions on values. -/
theorem secondLo_le_iff {b c : UInt8} : secondLo b ≤ c ↔
    0x80 ≤ c.toNat ∧ (b.toNat = 0xE0 → 0xA0 ≤ c.toNat) ∧ (b.toNat = 0xF0 → 0x90 ≤ c.toNat) := by
  show (secondLo b).toNat ≤ c.toNat ↔ _
  rw [secondLo_toNat]
  split_ifs <;> omega

/-- The upper bound on a second byte, as conditions on values. -/
theorem le_secondHi_iff {b c : UInt8} : c ≤ secondHi b ↔
    c.toNat ≤ 0xBF ∧ (b.toNat = 0xED → c.toNat ≤ 0x9F) ∧ (b.toNat = 0xF4 → c.toNat ≤ 0x8F) := by
  show c.toNat ≤ (secondHi b).toNat ↔ _
  rw [secondHi_toNat]
  split_ifs <;> omega

end Bytes

section Encoder

/-- The byte values of the UTF-8 encoding of the scalar value `v`: the
    value itself below `0x80`, and otherwise its base-64 digits, the first
    under the tag of the length and the others under `0x80`. -/
def natEncode (v : Nat) : List Nat :=
  if v ≤ 0x7f then [v]
  else if v ≤ 0x7ff then [v / 64 + 0xc0, v % 64 + 0x80]
  else if v ≤ 0xffff then [v / 64 / 64 + 0xe0, v / 64 % 64 + 0x80, v % 64 + 0x80]
  else [v / 64 / 64 / 64 + 0xf0, v / 64 / 64 % 64 + 0x80, v / 64 % 64 + 0x80, v % 64 + 0x80]

/-- Dividing off the last base-64 digit. -/
theorem div_mod_mul_add (a x : Nat) (hx : x < 64) : (a * 64 + x) / 64 = a ∧ (a * 64 + x) % 64 = x := by
  omega

/-- A value below `0x80` is its own byte. -/
theorem natEncode_one {v : Nat} (hv : v < 0x80) : natEncode v = [v] :=
  if_pos (Nat.le_of_lt_succ hv)

/-- A two-byte value, given by its digits. -/
theorem natEncode_two {x y : Nat} (hx : 2 ≤ x ∧ x < 32) (hy : y < 64) :
    natEncode (x * 64 + y) = [x + 0xc0, y + 0x80] := by
  rw [natEncode, if_neg (by omega), if_pos (by omega), (div_mod_mul_add x y hy).1, (div_mod_mul_add x y hy).2]

/-- A three-byte value, given by its digits. -/
theorem natEncode_three {x y z : Nat} (hx : x < 16) (hy : y < 64) (hz : z < 64)
    (hv : 0x800 ≤ (x * 64 + y) * 64 + z) :
    natEncode ((x * 64 + y) * 64 + z) = [x + 0xe0, y + 0x80, z + 0x80] := by
  rw [natEncode, if_neg (by omega), if_neg (by omega), if_pos (by omega), (div_mod_mul_add _ z hz).1,
    (div_mod_mul_add _ z hz).2, (div_mod_mul_add x y hy).1, (div_mod_mul_add x y hy).2]

/-- A four-byte value, given by its digits. -/
theorem natEncode_four {w x y z : Nat} (hx : x < 64) (hy : y < 64) (hz : z < 64)
    (hv : 0x10000 ≤ ((w * 64 + x) * 64 + y) * 64 + z) :
    natEncode (((w * 64 + x) * 64 + y) * 64 + z) = [w + 0xf0, x + 0x80, y + 0x80, z + 0x80] := by
  rw [natEncode, if_neg (by omega), if_neg (by omega), if_neg (by omega), (div_mod_mul_add _ z hz).1,
    (div_mod_mul_add _ z hz).2, (div_mod_mul_add _ y hy).1, (div_mod_mul_add _ y hy).2, (div_mod_mul_add w x hx).1, (div_mod_mul_add w x hx).2]

/-- Every number has a last base-64 digit. -/
theorem exists_digit (v : Nat) : ∃ a x, x < 64 ∧ v = a * 64 + x :=
  ⟨v / 64, v % 64, Nat.mod_lt _ (by decide), (Nat.div_add_mod' v 64).symm⟩

/-- The shapes of a scalar value's encoding: the value alone below `0x80`,
    and otherwise its base-64 digits under the tags of two, three or four
    bytes. Every fact about encodings below is read off this one lemma. -/
theorem natEncode_cases {v : Nat} (hv : v < 0x110000) :
    (v < 0x80 ∧ natEncode v = [v]) ∨
    (∃ x y, 0x80 ≤ x * 64 + y ∧ x < 32 ∧ y < 64 ∧ v = x * 64 + y ∧
      natEncode v = [x + 0xc0, y + 0x80]) ∨
    (∃ x y z, 0x800 ≤ (x * 64 + y) * 64 + z ∧ x < 16 ∧ y < 64 ∧ z < 64 ∧
      v = (x * 64 + y) * 64 + z ∧ natEncode v = [x + 0xe0, y + 0x80, z + 0x80]) ∨
    (∃ w x y z, 0x10000 ≤ ((w * 64 + x) * 64 + y) * 64 + z ∧ x < 64 ∧ y < 64 ∧ z < 64 ∧
      v = ((w * 64 + x) * 64 + y) * 64 + z ∧
      natEncode v = [w + 0xf0, x + 0x80, y + 0x80, z + 0x80]) := by
  rcases Nat.lt_or_ge v 0x80 with h1 | h1
  · exact .inl ⟨h1, natEncode_one h1⟩
  -- Split off base-64 digits as far as the length needs; what is left is linear.
  obtain ⟨v, z, hz, rfl⟩ := exists_digit v
  obtain ⟨v, y, hy, rfl⟩ := exists_digit v
  rcases Nat.lt_or_ge ((v * 64 + y) * 64 + z) 0x800 with h2 | h2
  · exact .inr (.inl ⟨_, _, h1, by omega, hz, rfl, natEncode_two (by omega) hz⟩)
  rcases Nat.lt_or_ge ((v * 64 + y) * 64 + z) 0x10000 with h3 | h3
  · exact .inr (.inr (.inl ⟨_, _, _, h2, by omega, hy, hz, rfl, natEncode_three (by omega) hy hz h2⟩))
  obtain ⟨w, x, hx, rfl⟩ := exists_digit v
  exact .inr (.inr (.inr ⟨_, _, _, _, h3, hx, hy, hz, rfl, natEncode_four hx hy hz h3⟩))

/-- A shift of a `UInt32` by less than its width divides its value. -/
theorem toNat_shiftRight (v k : UInt32) (hk : k.toNat < 32) :
    (v >>> k).toNat = v.toNat / 2 ^ k.toNat := by
  show (v.toBitVec >>> (k.mod 32).toBitVec.toNat).toNat = _
  rw [BitVec.toNat_ushiftRight, Nat.shiftRight_eq_div_pow]
  show _ / 2 ^ (k.toNat % 32) = _
  rw [Nat.mod_eq_of_lt hk]
  rfl

/-- Masking a byte to its low `k` bits and setting tag bits above them
    adds the tag to the low bits' value. -/
theorem toNat_and_or {x m t : UInt8} (k : Nat) (hm : m.toNat = 2 ^ k - 1)
    (ht : ∀ y < 2 ^ k, y ||| t.toNat = y + t.toNat) :
    (x &&& m ||| t).toNat = x.toNat % 2 ^ k + t.toNat := by
  show (x &&& m).toNat ||| t.toNat = _
  rw [UInt8.and_toNat, hm, Nat.and_pow_two_sub_one_eq_mod]
  exact ht _ (Nat.mod_lt _ (Nat.two_pow_pos k))

/-- The four masks and tags `utf8EncodeChar` uses. -/
theorem toNat_mask_tag (x : UInt8) :
    (x &&& 0x3f ||| 0x80).toNat = x.toNat % 64 + 0x80 ∧
      (x &&& 0x1f ||| 0xc0).toNat = x.toNat % 32 + 0xc0 ∧
      (x &&& 0x0f ||| 0xe0).toNat = x.toNat % 16 + 0xe0 ∧
      (x &&& 0x07 ||| 0xf0).toNat = x.toNat % 8 + 0xf0 :=
  ⟨toNat_and_or 6 rfl (by decide), toNat_and_or 5 rfl (by decide), toNat_and_or 4 rfl (by decide),
    toNat_and_or 3 rfl (by decide)⟩

/-- `String.utf8EncodeChar` computes `natEncode`: its shifts, masks and tags
    take the base-64 digits of the value. -/
theorem map_toNat_utf8EncodeChar (c : Char) :
    (String.utf8EncodeChar c).map UInt8.toNat = natEncode c.toNat := by
  have h6 : (c.val >>> 6).toNat = c.toNat / 64 := toNat_shiftRight c.val 6 (by decide)
  have h12 : (c.val >>> 12).toNat = c.toNat / 64 / 64 := by
    rw [Nat.div_div_eq_div_mul]
    exact toNat_shiftRight c.val 12 (by decide)
  have h18 : (c.val >>> 18).toNat = c.toNat / 64 / 64 / 64 := by
    rw [Nat.div_div_eq_div_mul, Nat.div_div_eq_div_mul]
    exact toNat_shiftRight c.val 18 (by decide)
  have l1 : c.val ≤ 0x7f ↔ c.toNat ≤ 0x7f := Iff.rfl
  have l2 : c.val ≤ 0x7ff ↔ c.toNat ≤ 0x7ff := Iff.rfl
  have l3 : c.val ≤ 0xffff ↔ c.toNat ≤ 0xffff := Iff.rfl
  have hv : c.val.toNat = c.toNat := rfl
  -- Truncating to a byte keeps every low-bit mask the encoder takes.
  have hm : ∀ k, k ∣ 256 → ∀ n, n % 256 % k = n % k := fun k hk n => Nat.mod_mod_of_dvd n hk
  have hc := c.valid
  unfold Nat.isValidChar at hc
  simp only [String.utf8EncodeChar, natEncode, l1, l2, l3, apply_ite (List.map UInt8.toNat)]
  -- Both sides branch on the same bounds; compare them branch by branch.
  refine ite_congr rfl (fun h1 => ?_) fun h1 => ite_congr rfl (fun h2 => ?_) fun h2 =>
    ite_congr rfl (fun h3 => ?_) fun h3 => ?_ <;>
  simp only [List.map_cons, List.map_nil, toNat_mask_tag, toNat_uInt8_ofNat,
    UInt32.toUInt8, h6, h12, h18, hv, List.cons.injEq, and_true, hm 8 (by decide),
    hm 16 (by decide), hm 32 (by decide), hm 64 (by decide), Nat.add_right_cancel_iff, true_and] <;>
  omega

/-- Bytes whose values `natEncode` lists are its bytes. -/
theorem map_ofNat_natEncode {v : Nat} {l : List UInt8} (h : natEncode v = l.map UInt8.toNat) :
    (natEncode v).map UInt8.ofNat = l := by
  rw [h, List.map_map]
  exact (List.map_congr_left fun x _ => uInt8_ofNat_toNat x).trans (List.map_id l)

/-- A character's bytes are those whose values `natEncode` lists. -/
theorem utf8EncodeChar_eq (c : Char) :
    String.utf8EncodeChar c = (natEncode c.toNat).map UInt8.ofNat :=
  (map_ofNat_natEncode (map_toNat_utf8EncodeChar c).symm).symm

end Encoder

section Decoding

/-- The value a character's byte values encode: the digits under the tags,
    read back. -/
def natDecode : List Nat → Nat
  | [a] => a
  | [a, b] => (a - 0xc0) * 64 + (b - 0x80)
  | [a, b, c] => ((a - 0xe0) * 64 + (b - 0x80)) * 64 + (c - 0x80)
  | [a, b, c, d] => (((a - 0xf0) * 64 + (b - 0x80)) * 64 + (c - 0x80)) * 64 + (d - 0x80)
  | _ => 0

/-- How many bytes the character a lead byte opens has. -/
def leadLength (a : Nat) : Nat :=
  if a < 0x80 then 1 else if a < 0xe0 then 2 else if a < 0xf0 then 3 else 4

theorem natDecode_natEncode {v : Nat} (hv : v < 0x110000) : natDecode (natEncode v) = v := by
  rcases natEncode_cases hv with ⟨-, he⟩ | ⟨x, y, -, -, -, rfl, he⟩ |
      ⟨x, y, z, -, -, -, -, rfl, he⟩ | ⟨w, x, y, z, -, -, -, -, rfl, he⟩ <;>
    simp only [he, natDecode, Nat.add_sub_cancel]

/-- The lead byte of an encoding says how long it is, whatever follows it. -/
theorem length_natEncode {v : Nat} (hv : v < 0x110000) (r : List Nat) :
    (natEncode v).length = leadLength ((natEncode v ++ r).headD 0) := by
  unfold leadLength
  rcases natEncode_cases hv with ⟨h1, he⟩ | ⟨x, y, h2, hx, -, -, he⟩ |
      ⟨x, y, z, -, hx, -, -, -, he⟩ | ⟨w, x, y, z, -, -, -, -, -, he⟩ <;>
    rw [he, List.cons_append, List.headD_cons]
  · rw [if_pos h1]; rfl
  · rw [if_neg (by omega), if_pos (by omega)]; rfl
  · rw [if_neg (by omega), if_neg (by omega), if_pos (by omega)]; rfl
  · rw [if_neg (by omega), if_neg (by omega), if_neg (by omega)]; rfl

/-- Encodings of scalar values followed by anything determine the value and
    what follows. -/
theorem natEncode_append_inj {v v' : Nat} (hv : v < 0x110000) (hv' : v' < 0x110000)
    {r s : List Nat} (h : natEncode v ++ r = natEncode v' ++ s) : v = v' ∧ r = s := by
  have hl : (natEncode v).length = (natEncode v').length := by
    rw [length_natEncode hv r, length_natEncode hv' s, h]
  obtain ⟨he, rfl⟩ := List.append_inj h hl
  exact ⟨by rw [← natDecode_natEncode hv, he, natDecode_natEncode hv'], rfl⟩

/-- UTF-8 is a prefix code: a character's bytes followed by anything
    determine the character. -/
theorem PrefixCode.utf8EncodeChar : PrefixCode String.utf8EncodeChar fun _ => True := by
  intro c d r s h _ _
  have hn := congrArg (List.map UInt8.toNat) h
  simp only [List.map_append, map_toNat_utf8EncodeChar] at hn
  have hv : ∀ c : Char, c.toNat < 0x110000 := fun c => by
    have := c.valid
    unfold Nat.isValidChar at this
    show c.val.toNat < 0x110000
    omega
  have hcd : c = d := Char.ext (UInt32.toNat.inj (natEncode_append_inj (hv c) (hv d) hn).1)
  subst hcd
  exact ⟨rfl, List.append_cancel_left h⟩

/-- Different strings have different bytes. -/
theorem string_eq_of_toUTF8_eq {s t : String}
    (h : s.toUTF8.data.toList = t.toUTF8.data.toList) : s = t :=
  String.ext (PrefixCode.utf8EncodeChar.flatMap_inj
    (fun c _ => List.ne_nil_of_length_pos (by rw [String.length_utf8EncodeChar]; exact c.utf8Size_pos))
    (fun _ _ => trivial) (fun _ _ => trivial) h)

end Decoding

section Validator

variable {b c d e : UInt8}

/-! The validator's equations split its input by length, so each step below
is proved by cases on how many bytes follow. -/

/-- An ASCII byte passes alone. -/
theorem utf8Valid_one (hb : b.toNat < 0x80) (rest : List UInt8) :
    utf8Valid (b :: rest) = utf8Valid rest := by
  have h1 : b < 0x80 := hb
  rcases rest with _ | ⟨c, _ | ⟨d, _ | ⟨e, r⟩⟩⟩ <;>
    simp only [utf8Valid.eq_2, utf8Valid.eq_3, utf8Valid.eq_4, utf8Valid.eq_5, if_pos h1]

/-- A two-byte lead asks for one continuation byte. -/
theorem utf8Valid_two (hb : 0xC2 ≤ b.toNat ∧ b.toNat < 0xE0) (rest : List UInt8) :
    utf8Valid (b :: c :: rest) = (isCont c && utf8Valid rest) := by
  have h1 : ¬ b < 0x80 := by show ¬ b.toNat < 0x80; omega
  have h2 : ¬ b < 0xC2 := by show ¬ b.toNat < 0xC2; omega
  have h3 : b < 0xE0 := hb.2
  rcases rest with _ | ⟨d, _ | ⟨e, r⟩⟩ <;>
    simp only [utf8Valid.eq_3, utf8Valid.eq_4, utf8Valid.eq_5, if_neg h1, if_neg h2, if_pos h3]

/-- A three-byte lead asks for a second byte in its own range, then one
    continuation byte. -/
theorem utf8Valid_three (hb : 0xE0 ≤ b.toNat ∧ b.toNat < 0xF0) (rest : List UInt8) :
    utf8Valid (b :: c :: d :: rest) =
      (decide (secondLo b ≤ c) && decide (c ≤ secondHi b) && (isCont d && utf8Valid rest)) := by
  have h1 : ¬ b < 0x80 := by show ¬ b.toNat < 0x80; omega
  have h2 : ¬ b < 0xC2 := by show ¬ b.toNat < 0xC2; omega
  have h3 : ¬ b < 0xE0 := by show ¬ b.toNat < 0xE0; omega
  have h4 : ¬ b > 0xF4 := by show ¬ 0xF4 < b.toNat; omega
  have h5 : b < 0xF0 := hb.2
  rcases rest with _ | ⟨e, r⟩ <;>
    simp only [utf8Valid.eq_4, utf8Valid.eq_5, if_neg h1, if_neg h2, if_neg h3, if_neg h4, if_pos h5]

/-- A four-byte lead asks for a second byte in its own range, then two
    continuation bytes. -/
theorem utf8Valid_four (hb : 0xF0 ≤ b.toNat ∧ b.toNat ≤ 0xF4) (rest : List UInt8) :
    utf8Valid (b :: c :: d :: e :: rest) = (decide (secondLo b ≤ c) && decide (c ≤ secondHi b) &&
      (isCont d && (isCont e && utf8Valid rest))) := by
  have h1 : ¬ b < 0x80 := by show ¬ b.toNat < 0x80; omega
  have h2 : ¬ b < 0xC2 := by show ¬ b.toNat < 0xC2; omega
  have h3 : ¬ b < 0xE0 := by show ¬ b.toNat < 0xE0; omega
  have h4 : ¬ b > 0xF4 := by show ¬ 0xF4 < b.toNat; omega
  have h5 : ¬ b < 0xF0 := by show ¬ b.toNat < 0xF0; omega
  simp only [utf8Valid.eq_5, if_neg h1, if_neg h2, if_neg h3, if_neg h4, if_neg h5]

/-- A lead byte the table has no row for fails, whatever follows. -/
theorem utf8Valid_of_bad_lead (hb : 0x80 ≤ b.toNat ∧ b.toNat < 0xC2 ∨ 0xF4 < b.toNat)
    (rest : List UInt8) : utf8Valid (b :: rest) = false := by
  have h1 : ¬ b < 0x80 := by show ¬ b.toNat < 0x80; omega
  rcases hb with hb | hb
  · have h2 : b < 0xC2 := hb.2
    rcases rest with _ | ⟨c, _ | ⟨d, _ | ⟨e, r⟩⟩⟩ <;>
      simp only [utf8Valid.eq_2, utf8Valid.eq_3, utf8Valid.eq_4, utf8Valid.eq_5, if_neg h1, if_pos h2]
  · have h2 : ¬ b < 0xC2 := by show ¬ b.toNat < 0xC2; omega
    have h3 : ¬ b < 0xE0 := by show ¬ b.toNat < 0xE0; omega
    have h4 : b > 0xF4 := hb
    rcases rest with _ | ⟨c, _ | ⟨d, _ | ⟨e, r⟩⟩⟩ <;>
      simp only [utf8Valid.eq_2, utf8Valid.eq_3, utf8Valid.eq_4, utf8Valid.eq_5, if_neg h1,
        if_neg h2, if_neg h3, if_pos h4]

/-- A lead byte of a longer character fails when the input stops after it. -/
theorem utf8Valid_lone (hb : 0xC2 ≤ b.toNat) : utf8Valid [b] = false := by
  have h1 : ¬ b < 0x80 := by show ¬ b.toNat < 0x80; omega
  have h2 : ¬ b < 0xC2 := by show ¬ b.toNat < 0xC2; omega
  simp only [utf8Valid.eq_2, if_neg h1, if_neg h2]

/-- A lead byte of three or four bytes fails when one byte follows it. -/
theorem utf8Valid_pair (hb : 0xE0 ≤ b.toNat) (c : UInt8) : utf8Valid [b, c] = false := by
  have h1 : ¬ b < 0x80 := by show ¬ b.toNat < 0x80; omega
  have h2 : ¬ b < 0xC2 := by show ¬ b.toNat < 0xC2; omega
  have h3 : ¬ b < 0xE0 := by show ¬ b.toNat < 0xE0; omega
  simp only [utf8Valid.eq_3, if_neg h1, if_neg h2, if_neg h3, Bool.and_false, ite_self]

/-- A four-byte lead fails when two bytes follow it. -/
theorem utf8Valid_triple (hb : 0xF0 ≤ b.toNat) (c d : UInt8) : utf8Valid [b, c, d] = false := by
  have h1 : ¬ b < 0x80 := by show ¬ b.toNat < 0x80; omega
  have h2 : ¬ b < 0xC2 := by show ¬ b.toNat < 0xC2; omega
  have h3 : ¬ b < 0xE0 := by show ¬ b.toNat < 0xE0; omega
  have h5 : ¬ b < 0xF0 := by show ¬ b.toNat < 0xF0; omega
  simp only [utf8Valid.eq_4, if_neg h1, if_neg h2, if_neg h3, if_neg h5, Bool.and_false, ite_self]

/-- A value below `256` is a byte's value unchanged. -/
theorem toNat_ofNat_of_lt {n : Nat} (h : n < 256) : (UInt8.ofNat n).toNat = n := by
  rw [toNat_uInt8_ofNat, Nat.mod_eq_of_lt h]

/-- The validator passes the bytes of every scalar value, and then goes on
    as it would have without them. -/
theorem utf8Valid_natEncode_append {v : Nat} (hv : v.isValidChar) (t : List UInt8) :
    utf8Valid ((natEncode v).map UInt8.ofNat ++ t) = utf8Valid t := by
  unfold Nat.isValidChar at hv
  rcases natEncode_cases (v := v) (by omega) with ⟨h1, he⟩ | ⟨x, y, h2, hx, hy, rfl, he⟩ |
      ⟨x, y, z, h3, hx, hy, hz, rfl, he⟩ | ⟨w, x, y, z, h4, hx, hy, hz, rfl, he⟩ <;>
    simp only [he, List.map_cons, List.map_nil, List.cons_append, List.nil_append]
  case inl => exact utf8Valid_one (by rw [toNat_ofNat_of_lt (by omega)]; exact h1) t
  case inr.inl =>
    rw [utf8Valid_two (by rw [toNat_ofNat_of_lt (by omega)]; omega), isCont_ofNat hy, Bool.true_and]
  case inr.inr.inl =>
    -- The surrogates are the values the range after `ED` leaves out.
    have hb := toNat_ofNat_of_lt (n := x + 0xe0) (by omega)
    have hc := toNat_ofNat_of_lt (n := y + 0x80) (by omega)
    rw [utf8Valid_three (by omega), isCont_ofNat hz,
      decide_eq_true (secondLo_le_iff.2 (by rw [hb, hc]; omega)),
      decide_eq_true (le_secondHi_iff.2 (by rw [hb, hc]; omega))]
    rfl
  case inr.inr.inr =>
    have hb := toNat_ofNat_of_lt (n := w + 0xf0) (by omega)
    have hc := toNat_ofNat_of_lt (n := x + 0x80) (by omega)
    rw [utf8Valid_four (by omega), isCont_ofNat hy, isCont_ofNat hz,
      decide_eq_true (secondLo_le_iff.2 (by rw [hb, hc]; omega)),
      decide_eq_true (le_secondHi_iff.2 (by rw [hb, hc]; omega))]
    rfl

/-- Bytes whose values are those of a scalar value's encoding start with
    that encoding. -/
theorem exists_natEncode_of_eq {v : Nat} {l rest : List UInt8} (hv : v.isValidChar)
    (he : natEncode v = l.map UInt8.toNat) (hr : utf8Valid rest = true) :
    ∃ v r, v.isValidChar ∧ l ++ rest = (natEncode v).map UInt8.ofNat ++ r ∧ utf8Valid r = true :=
  ⟨v, rest, hv, by rw [map_ofNat_natEncode he], hr⟩

/-- An ASCII byte is the encoding of its value. -/
theorem exists_natEncode_one {rest : List UInt8} (hb : b.toNat < 0x80)
    (h : utf8Valid (b :: rest) = true) :
    ∃ v r, v.isValidChar ∧ b :: rest = (natEncode v).map UInt8.ofNat ++ r ∧ utf8Valid r = true :=
  exists_natEncode_of_eq (l := [b]) (.inl (by omega)) (natEncode_one hb)
    (utf8Valid_one hb rest ▸ h)

/-- A byte at least `k` is `k` plus its offset, named so that `omega` sees
    no subtraction. -/
theorem exists_offset {k : Nat} {b : UInt8} (h : k ≤ b.toNat) : ∃ x, b.toNat = x + k :=
  ⟨_, (Nat.sub_add_cancel h).symm⟩

/-- A two-byte character the validator passes is one scalar value's
    encoding: the lead's table row rules out overlong values. -/
theorem exists_natEncode_two {rest : List UInt8} (hb : 0xC2 ≤ b.toNat ∧ b.toNat < 0xE0)
    (h : utf8Valid (b :: rest) = true) :
    ∃ v r, v.isValidChar ∧ b :: rest = (natEncode v).map UInt8.ofNat ++ r ∧ utf8Valid r = true := by
  rcases rest with _ | ⟨c, r⟩
  · simp only [utf8Valid_lone hb.1, Bool.false_eq_true] at h
  rw [utf8Valid_two hb, Bool.and_eq_true, isCont_iff] at h
  obtain ⟨⟨hc1, hc2⟩, hr⟩ := h
  obtain ⟨x, hx⟩ := exists_offset (k := 0xc0) (b := b) (by omega)
  obtain ⟨y, hy⟩ := exists_offset hc1
  refine exists_natEncode_of_eq (l := [b, c]) (.inl (by omega))
    ((natEncode_two (x := x) (y := y) (by omega) (by omega)).trans ?_) hr
  simp only [List.map_cons, List.map_nil, hx, hy]

/-- A three-byte character the validator passes is one scalar value's
    encoding: the ranges after `E0` and `ED` rule out overlong values and
    surrogates. -/
theorem exists_natEncode_three {rest : List UInt8} (hb : 0xE0 ≤ b.toNat ∧ b.toNat < 0xF0)
    (h : utf8Valid (b :: rest) = true) :
    ∃ v r, v.isValidChar ∧ b :: rest = (natEncode v).map UInt8.ofNat ++ r ∧ utf8Valid r = true := by
  rcases rest with _ | ⟨c, _ | ⟨d, r⟩⟩
  · simp only [utf8Valid_lone (b := b) (by omega), Bool.false_eq_true] at h
  · simp only [utf8Valid_pair hb.1, Bool.false_eq_true] at h
  rw [utf8Valid_three hb] at h
  simp only [Bool.and_eq_true, decide_eq_true_eq, isCont_iff, secondLo_le_iff, le_secondHi_iff] at h
  obtain ⟨⟨⟨hc1, hc2, -⟩, hc3, hc4, -⟩, ⟨hd1, hd2⟩, hr⟩ := h
  obtain ⟨x, hx⟩ := exists_offset hb.1
  obtain ⟨y, hy⟩ := exists_offset hc1
  obtain ⟨z, hz⟩ := exists_offset hd1
  refine exists_natEncode_of_eq (l := [b, c, d]) (by unfold Nat.isValidChar; omega)
    ((natEncode_three (x := x) (y := y) (z := z) (by omega) (by omega) (by omega) (by omega)).trans ?_) hr
  simp only [List.map_cons, List.map_nil, hx, hy, hz]

/-- A four-byte character the validator passes is one scalar value's
    encoding: the ranges after `F0` and `F4` rule out overlong values and
    values past `U+10FFFF`. -/
theorem exists_natEncode_four {rest : List UInt8} (hb : 0xF0 ≤ b.toNat ∧ b.toNat ≤ 0xF4)
    (h : utf8Valid (b :: rest) = true) :
    ∃ v r, v.isValidChar ∧ b :: rest = (natEncode v).map UInt8.ofNat ++ r ∧ utf8Valid r = true := by
  rcases rest with _ | ⟨c, _ | ⟨d, _ | ⟨e, r⟩⟩⟩
  · simp only [utf8Valid_lone (b := b) (by omega), Bool.false_eq_true] at h
  · simp only [utf8Valid_pair (b := b) (by omega), Bool.false_eq_true] at h
  · simp only [utf8Valid_triple hb.1, Bool.false_eq_true] at h
  rw [utf8Valid_four hb] at h
  simp only [Bool.and_eq_true, decide_eq_true_eq, isCont_iff, secondLo_le_iff, le_secondHi_iff] at h
  obtain ⟨⟨⟨hc1, -, hc2⟩, hc3, -, hc4⟩, ⟨hd1, hd2⟩, ⟨he1, he2⟩, hr⟩ := h
  obtain ⟨w, hw⟩ := exists_offset hb.1
  obtain ⟨x, hx⟩ := exists_offset hc1
  obtain ⟨y, hy⟩ := exists_offset hd1
  obtain ⟨z, hz⟩ := exists_offset he1
  refine exists_natEncode_of_eq (l := [b, c, d, e]) (.inr ⟨by omega, by omega⟩)
    ((natEncode_four (w := w) (x := x) (y := y) (z := z) (by omega) (by omega) (by omega)
      (by omega)).trans ?_) hr
  simp only [List.map_cons, List.map_nil, hw, hx, hy, hz]

/-- What the validator passes starts with the bytes of one scalar value,
    and the validator passes what follows them. -/
theorem exists_natEncode_of_utf8Valid {rest : List UInt8} (h : utf8Valid (b :: rest) = true) :
    ∃ v r, v.isValidChar ∧ b :: rest = (natEncode v).map UInt8.ofNat ++ r ∧ utf8Valid r = true := by
  by_cases h1 : b.toNat < 0x80
  · exact exists_natEncode_one h1 h
  by_cases h2 : b.toNat < 0xC2 ∨ 0xF4 < b.toNat
  · simp only [utf8Valid_of_bad_lead (b := b) (by omega) rest, Bool.false_eq_true] at h
  by_cases h3 : b.toNat < 0xE0
  · exact exists_natEncode_two (by omega) h
  by_cases h4 : b.toNat < 0xF0
  · exact exists_natEncode_three (by omega) h
  · exact exists_natEncode_four (by omega) h

end Validator

/-- What the validator passes is the encoding of a list of characters,
    taken off one at a time. -/
theorem exists_chars_of_utf8Valid : ∀ {b : List UInt8}, utf8Valid b = true →
    ∃ cs : List Char, b = cs.flatMap String.utf8EncodeChar
  | [], _ => ⟨[], rfl⟩
  | x :: rest, h => by
    obtain ⟨v, r, hv, he, hr⟩ := exists_natEncode_of_utf8Valid h
    have hlt : r.length < rest.length + 1 := by
      have hl := congrArg List.length he
      have hn : (natEncode v).length ≠ 0 := by unfold natEncode; split_ifs <;> simp
      simp only [List.length_cons, List.length_append, List.length_map] at hl
      omega
    obtain ⟨cs, rfl⟩ := exists_chars_of_utf8Valid hr
    exact ⟨Char.ofNatAux v hv :: cs, by rw [List.flatMap_cons, utf8EncodeChar_eq, he]; rfl⟩
termination_by b => b.length

/-- `from_utf8` accepts exactly the UTF-8 encodings of lists of Unicode
    scalar values. -/
theorem utf8Valid_iff_chars (b : List UInt8) :
    utf8Valid b = true ↔ ∃ cs : List Char, b = cs.flatMap String.utf8EncodeChar := by
  refine ⟨exists_chars_of_utf8Valid, ?_⟩
  rintro ⟨cs, rfl⟩
  induction cs with
  | nil => rfl
  | cons c cs ih =>
    rw [List.flatMap_cons, utf8EncodeChar_eq, utf8Valid_natEncode_append (v := c.toNat) c.valid, ih]

/-- `from_utf8` accepts exactly the bytes of Lean strings. -/
theorem utf8Valid_iff_string_bytes (b : List UInt8) :
    utf8Valid b = true ↔ ∃ s : String, s.toUTF8.data.toList = b := by
  rw [utf8Valid_iff_chars]
  exact ⟨fun ⟨cs, h⟩ => ⟨⟨cs⟩, h.symm⟩, fun ⟨s, h⟩ => ⟨s.data, h.symm⟩⟩

/-- `String::from_utf8` succeeds on exactly the bytes of a string, and those
    bytes are the bytes of one string only: a `RustString` is a Lean
    `String`, stored as its UTF-8 encoding. -/
theorem fromUtf8_ok_iff_unique_string (raw : List UInt8) :
    (∃ s, RustString.fromUtf8 raw = .ok s) ↔ ∃! t : String, t.toUTF8.data.toList = raw := by
  simp only [RustString.fromUtf8_eq_ok_iff]
  refine ⟨fun ⟨_, hv, _⟩ => ?_, fun ⟨t, ht, _⟩ => ⟨⟨raw, ?_⟩, ?_, rfl⟩⟩
  · obtain ⟨t, ht⟩ := (utf8Valid_iff_string_bytes raw).1 hv
    exact ⟨t, ht, fun t' ht' => string_eq_of_toUTF8_eq (ht'.trans ht.symm)⟩
  all_goals exact (utf8Valid_iff_string_bytes raw).2 ⟨t, ht⟩

end ZkProto
