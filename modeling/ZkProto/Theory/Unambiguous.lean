import ZkProto.Theory.Transaction
import ZkProto.Theory.Frame

/-!
# Requests the Server Can Read Back

The code has no decoder for its requests: the server reads them. What the
client owes the server is that every request it writes can be read back in
one way only, field by field, and without knowing in advance where it ends.

`PrefixCode enc fits` says this of an encoder: an encoding followed by any
bytes determines the value and the bytes that follow. A round trip with an
injective result gives it (`RoundTrip.prefixCode`), which settles the
strings, the byte buffers and the fixed-width numbers, and it is kept by
concatenation and by the counted sequences. Every request encoder of
`proto.rs` is then a prefix code on the values whose lengths fit an `i32`,
and whose permission sets `Permission::code` keeps apart.

A transaction is the one encoder with a loop and a terminator, so it needs
an induction. Its entries are the standalone requests behind an entry
header, and the closing header's type `-1` is no operation's code, so the
list of operations is read back entry by entry. One thing is lost, by
design of the protocol: an absent version is written as `-1`, the version
that matches any. `transactionRequest_writeTo_eq_iff` says that this is the
only thing lost.

Frames keep requests apart on the connection: a run of frames written one
after another splits back into the requests by their lengths. A frame is
never empty, so the bytes of a whole connection determine how many frames
it carries and each header and body, even with request kinds mixed.

## Main definitions

* `PrefixCode`: An encoding followed by anything determines the value.
* `Op.Fits`: Every length and count an operation writes fits an `i32`.
* `Op.normalize`: An operation with an absent version made `-1`.

## Theorems

* `RoundTrip.prefixCode`: A round trip makes a prefix code.
* `PrefixCode.vec`: A counted sequence of a prefix code is one.
* `request_encoders_prefix_free`: Every request encoder is a prefix code.
* `transactionRequest_writeTo_eq_iff`: Two transactions are written alike
  exactly when their operations agree up to absent versions.
* `frames_split_by_length`: Consecutive frames read back as their requests.
* `PrefixCode.flatMap_inj`: Runs of a prefix code without empty encodings
  are equal only element for element.
* `request_stream_determines_frames`: A connection's bytes determine its
  headers and request bodies.
-/

namespace ZkProto

variable {α β P M : Type}

/-- `enc` is a prefix code on the values that `fits`: an encoding followed by
    any bytes determines both the value and the bytes. -/
def PrefixCode (enc : β → List UInt8) (fits : β → Prop) : Prop :=
  ∀ ⦃x y r s⦄, enc x ++ r = enc y ++ s → fits x → fits y → x = y ∧ r = s

/-- A decoder that inverts `enc` up to an injective `back` makes it a prefix
    code. -/
theorem RoundTrip.prefixCode {d : Decoder α} {enc : β → List UInt8} {fits : β → Prop}
    {back : β → α} (h : RoundTrip d enc fits back) (hb : Function.Injective back) :
    PrefixCode enc fits := by
  intro x y r s he hx hy
  have h' := h x r hx
  rw [he, h y s hy] at h'
  obtain ⟨hxy, hrs⟩ := Outcome.ok.inj h'
  exact ⟨hb hxy.symm, hrs.symm⟩

namespace PrefixCode

/-- A fixed-width number, read back by the reader of its width. -/
theorem writeBE (k : Nat) : PrefixCode (writeBE k) fun _ => True :=
  RoundTrip.prefixCode (fun x r _ => readBE_append x r) Function.injective_id

/-- A flag written `as u8`. -/
theorem flag : PrefixCode (fun b : Bool => writeU8 (if b then 1 else 0)) fun _ => True := by
  intro x y r s he _ _
  cases x <;> cases y <;> simp_all [writeU8]

theorem string : PrefixCode RustString.writeTo fun s => s.len < 2 ^ 31 :=
  RoundTrip.prefixCode (fun _ r h => readString_append h r) Function.injective_id

theorem bytes : PrefixCode (Vec.writeTo writeU8) fun xs => xs.length < 2 ^ 31 :=
  RoundTrip.prefixCode (fun _ r h => readBuffer_append h r) Function.injective_id

/-- Two runs of the same number of encodings are equal element for element. -/
theorem flatMap {enc : β → List UInt8} {fits : β → Prop} (h : PrefixCode enc fits) :
    ∀ {xs ys : List β} {r s : List UInt8}, xs.length = ys.length → (∀ x ∈ xs, fits x) →
      (∀ y ∈ ys, fits y) → xs.flatMap enc ++ r = ys.flatMap enc ++ s → xs = ys ∧ r = s
  | [], [], _, _, _, _, _, he => ⟨rfl, by simpa using he⟩
  | x :: xs, y :: ys, r, s, hl, hx, hy, he => by
    simp only [List.flatMap_cons, List.append_assoc] at he
    obtain ⟨rfl, he'⟩ := h he (hx x (.head _)) (hy y (.head _))
    obtain ⟨rfl, rfl⟩ := flatMap h (Nat.succ.inj hl) (fun z hz => hx z (.tail _ hz))
      (fun z hz => hy z (.tail _ hz)) he'
    exact ⟨rfl, rfl⟩

/-- Runs of any lengths of a prefix code with no empty encoding are equal
    only element for element. -/
theorem flatMap_inj {enc : β → List UInt8} {fits : β → Prop} (h : PrefixCode enc fits)
    (hne : ∀ x, fits x → enc x ≠ []) :
    ∀ {xs ys : List β}, (∀ x ∈ xs, fits x) → (∀ y ∈ ys, fits y) →
      xs.flatMap enc = ys.flatMap enc → xs = ys
  | [], [], _, _, _ => rfl
  | [], y :: _, _, hy, he => by simp [hne y (hy y (.head _))] at he
  | x :: _, [], hx, _, he => by simp [hne x (hx x (.head _))] at he
  | x :: xs, y :: ys, hx, hy, he => by
    simp only [List.flatMap_cons] at he
    obtain ⟨rfl, he'⟩ := h he (hx x (.head _)) (hy y (.head _))
    rw [flatMap_inj h hne (fun z hz => hx z (.tail _ hz)) (fun z hz => hy z (.tail _ hz)) he']

/-- Below `2 ^ 31`, `len() as i32` tells lengths apart. -/
theorem ofNat_inj {a b : Nat} (ha : a < 2 ^ 31) (hb : b < 2 ^ 31)
    (h : BitVec.ofNat 32 a = BitVec.ofNat 32 b) : a = b := by
  have := congrArg BitVec.toInt h
  rw [toInt_ofNat_of_lt ha, toInt_ofNat_of_lt hb] at this
  exact_mod_cast this

/-- The count of a sequence tells how many encodings follow it. -/
theorem vec {enc : β → List UInt8} {fits : β → Prop} (h : PrefixCode enc fits) :
    PrefixCode (Vec.writeTo enc) fun xs => xs.length < 2 ^ 31 ∧ ∀ x ∈ xs, fits x := by
  intro xs ys r s he hx hy
  simp only [Vec.writeTo, List.append_assoc] at he
  obtain ⟨hl, he₁⟩ := writeBE 4 he trivial trivial
  exact h.flatMap (ofNat_inj hx.1 hy.1 hl) hx.2 hy.2 he₁

theorem acl {code : P → BitVec 32} (hcode : Function.Injective code) :
    PrefixCode (Acl.writeTo code) Acl.Fits := by
  rintro ⟨p, sc, id⟩ ⟨p', sc', id'⟩ r s he ⟨h₁, h₂⟩ ⟨h₁', h₂'⟩
  simp only [Acl.writeTo, List.append_assoc] at he
  obtain ⟨hp, he₁⟩ := writeBE 4 he trivial trivial
  obtain ⟨rfl, he₂⟩ := string he₁ h₁ h₁'
  obtain ⟨rfl, rfl⟩ := string he₂ h₂ h₂'
  rw [hcode hp]
  exact ⟨rfl, rfl⟩

/-- The operation codes are distinct `i32`s. -/
theorem opCode : PrefixCode (fun c : OpCode => ZkProto.writeI32 c.toI32) fun _ => True := by
  intro c c' r s he _ _
  obtain ⟨hc, rfl⟩ := writeBE 4 he trivial trivial
  refine ⟨?_, rfl⟩
  cases c <;> cases c' <;> first | rfl | exact absurd hc (by decide)

theorem requestHeader : PrefixCode RequestHeader.writeTo fun _ => True := by
  rintro ⟨x, c⟩ ⟨x', c'⟩ r s he _ _
  simp only [RequestHeader.writeTo, List.append_assoc] at he
  obtain ⟨rfl, he₁⟩ := writeBE 4 he trivial trivial
  obtain ⟨rfl, rfl⟩ := opCode he₁ trivial trivial
  exact ⟨rfl, rfl⟩

theorem connectRequest : PrefixCode ConnectRequest.writeTo fun r => r.passwd.length < 2 ^ 31 := by
  rintro ⟨pv, z, t, sid, pw, ro⟩ ⟨pv', z', t', sid', pw', ro'⟩ r s he h h'
  simp only [ConnectRequest.writeTo, List.append_assoc] at he
  obtain ⟨rfl, he₁⟩ := writeBE 4 he trivial trivial
  obtain ⟨rfl, he₂⟩ := writeBE 8 he₁ trivial trivial
  obtain ⟨rfl, he₃⟩ := writeBE 4 he₂ trivial trivial
  obtain ⟨rfl, he₄⟩ := writeBE 8 he₃ trivial trivial
  obtain ⟨rfl, he₅⟩ := bytes he₄ h h'
  obtain ⟨rfl, rfl⟩ := flag he₅ trivial trivial
  exact ⟨rfl, rfl⟩

theorem createRequest {code : P → BitVec 32} (hcode : Function.Injective code) :
    PrefixCode (CreateRequest.writeTo code) fun r => r.path.len < 2 ^ 31 ∧
      r.data.length < 2 ^ 31 ∧ r.acl.length < 2 ^ 31 ∧ ∀ a ∈ r.acl, a.Fits := by
  rintro ⟨p, d, a, f⟩ ⟨p', d', a', f'⟩ r s he ⟨hp, hd, ha⟩ ⟨hp', hd', ha'⟩
  simp only [CreateRequest.writeTo, List.append_assoc] at he
  obtain ⟨rfl, he₁⟩ := string he hp hp'
  obtain ⟨rfl, he₂⟩ := bytes he₁ hd hd'
  obtain ⟨rfl, he₃⟩ := (acl hcode).vec he₂ ha ha'
  obtain ⟨rfl, rfl⟩ := writeBE 4 he₃ trivial trivial
  exact ⟨rfl, rfl⟩

theorem deleteRequest : PrefixCode DeleteRequest.writeTo fun r => r.path.len < 2 ^ 31 := by
  rintro ⟨p, v⟩ ⟨p', v'⟩ r s he h h'
  simp only [DeleteRequest.writeTo, List.append_assoc] at he
  obtain ⟨rfl, he₁⟩ := string he h h'
  obtain ⟨rfl, rfl⟩ := writeBE 4 he₁ trivial trivial
  exact ⟨rfl, rfl⟩

theorem stringAndBoolRequest :
    PrefixCode StringAndBoolRequest.writeTo fun r => r.path.len < 2 ^ 31 := by
  rintro ⟨p, w⟩ ⟨p', w'⟩ r s he h h'
  simp only [StringAndBoolRequest.writeTo, List.append_assoc] at he
  obtain ⟨rfl, he₁⟩ := string he h h'
  obtain ⟨rfl, rfl⟩ := flag he₁ trivial trivial
  exact ⟨rfl, rfl⟩

theorem getAclRequest : PrefixCode GetAclRequest.writeTo fun r => r.path.len < 2 ^ 31 := by
  rintro ⟨p⟩ ⟨p'⟩ r s he h h'
  obtain ⟨rfl, rfl⟩ := string he h h'
  exact ⟨rfl, rfl⟩

theorem setAclRequest {code : P → BitVec 32} (hcode : Function.Injective code) :
    PrefixCode (SetAclRequest.writeTo code) fun r => r.path.len < 2 ^ 31 ∧
      r.acl.length < 2 ^ 31 ∧ ∀ a ∈ r.acl, a.Fits := by
  rintro ⟨p, a, v⟩ ⟨p', a', v'⟩ r s he ⟨hp, ha⟩ ⟨hp', ha'⟩
  simp only [SetAclRequest.writeTo, List.append_assoc] at he
  obtain ⟨rfl, he₁⟩ := string he hp hp'
  obtain ⟨rfl, he₂⟩ := (acl hcode).vec he₁ ha ha'
  obtain ⟨rfl, rfl⟩ := writeBE 4 he₂ trivial trivial
  exact ⟨rfl, rfl⟩

theorem setDataRequest :
    PrefixCode SetDataRequest.writeTo fun r => r.path.len < 2 ^ 31 ∧ r.data.length < 2 ^ 31 := by
  rintro ⟨p, d, v⟩ ⟨p', d', v'⟩ r s he ⟨hp, hd⟩ ⟨hp', hd'⟩
  simp only [SetDataRequest.writeTo, List.append_assoc] at he
  obtain ⟨rfl, he₁⟩ := string he hp hp'
  obtain ⟨rfl, he₂⟩ := bytes he₁ hd hd'
  obtain ⟨rfl, rfl⟩ := writeBE 4 he₂ trivial trivial
  exact ⟨rfl, rfl⟩

theorem authRequest :
    PrefixCode AuthRequest.writeTo fun r => r.scheme.len < 2 ^ 31 ∧ r.auth.length < 2 ^ 31 := by
  rintro ⟨t, sc, a⟩ ⟨t', sc', a'⟩ r s he ⟨hs, ha⟩ ⟨hs', ha'⟩
  simp only [AuthRequest.writeTo, List.append_assoc] at he
  obtain ⟨rfl, he₁⟩ := writeBE 4 he trivial trivial
  obtain ⟨rfl, he₂⟩ := string he₁ hs hs'
  obtain ⟨rfl, rfl⟩ := bytes he₂ ha ha'
  exact ⟨rfl, rfl⟩

/-- A request frame, a header and the bytes of any body, is a prefix code on
    the frames shorter than `2 ^ 31` bytes. -/
theorem frame : PrefixCode (fun p : RequestHeader × List UInt8 => (toLenPrefixedBuf id p.1 p.2).inner)
    fun p => (p.1.writeTo ++ p.2).length < 2 ^ 31 := by
  rintro ⟨rh, body⟩ ⟨rh', body'⟩ r s he hx hy
  simp only [toLenPrefixedBuf_inner, id] at he
  obtain ⟨hb, rfl⟩ := bytes he hx hy
  obtain ⟨rfl, rfl⟩ := requestHeader hb trivial trivial
  exact ⟨rfl, rfl⟩

end PrefixCode

/-- Every request encoder is a prefix code on the requests whose lengths and
    counts fit an `i32`, when `Permission::code` tells permission sets
    apart: a server reading a request finds each field where it was
    written, and where the request ends. -/
theorem request_encoders_prefix_free {code : P → BitVec 32} (hcode : Function.Injective code) :
    PrefixCode RequestHeader.writeTo (fun _ => True) ∧
      PrefixCode ConnectRequest.writeTo (fun r => r.passwd.length < 2 ^ 31) ∧
      PrefixCode (CreateRequest.writeTo code) (fun r => r.path.len < 2 ^ 31 ∧
        r.data.length < 2 ^ 31 ∧ r.acl.length < 2 ^ 31 ∧ ∀ a ∈ r.acl, a.Fits) ∧
      PrefixCode DeleteRequest.writeTo (fun r => r.path.len < 2 ^ 31) ∧
      PrefixCode StringAndBoolRequest.writeTo (fun r => r.path.len < 2 ^ 31) ∧
      PrefixCode GetAclRequest.writeTo (fun r => r.path.len < 2 ^ 31) ∧
      PrefixCode (SetAclRequest.writeTo code) (fun r => r.path.len < 2 ^ 31 ∧
        r.acl.length < 2 ^ 31 ∧ ∀ a ∈ r.acl, a.Fits) ∧
      PrefixCode SetDataRequest.writeTo (fun r => r.path.len < 2 ^ 31 ∧ r.data.length < 2 ^ 31) ∧
      PrefixCode AuthRequest.writeTo (fun r => r.scheme.len < 2 ^ 31 ∧ r.auth.length < 2 ^ 31) :=
  ⟨PrefixCode.requestHeader, PrefixCode.connectRequest, PrefixCode.createRequest hcode,
    PrefixCode.deleteRequest, PrefixCode.stringAndBoolRequest, PrefixCode.getAclRequest,
    PrefixCode.setAclRequest hcode, PrefixCode.setDataRequest, PrefixCode.authRequest⟩

/-- With permission sets given by their bits, a set-ACL request is read back
    as written. -/
theorem setAclRequest_bits_prefix_free :
    Function.Injective (id : BitVec 32 → BitVec 32) ∧
      PrefixCode (SetAclRequest.writeTo (id : BitVec 32 → BitVec 32)) (fun r => r.path.len < 2 ^ 31 ∧
        r.acl.length < 2 ^ 31 ∧ ∀ a ∈ r.acl, a.Fits) :=
  ⟨Function.injective_id, (request_encoders_prefix_free Function.injective_id).2.2.2.2.2.2.1⟩

/-- Every length and count an operation's entry writes fits an `i32`. -/
def Op.Fits : Op P M → Prop
  | .check path _ => path.len < 2 ^ 31
  | .create path data acl _ =>
      path.len < 2 ^ 31 ∧ data.length < 2 ^ 31 ∧ acl.length < 2 ^ 31 ∧ ∀ a ∈ acl, a.Fits
  | .delete path _ => path.len < 2 ^ 31
  | .setData path data _ => path.len < 2 ^ 31 ∧ data.length < 2 ^ 31

/-- An operation as its entry records it: an absent version is the version
    `-1`, which matches any version. -/
def Op.normalize : Op P M → Op P M
  | .check path version => .check path (some (version.getD (-1)))
  | .create path data acl mode => .create path data acl mode
  | .delete path version => .delete path (some (version.getD (-1)))
  | .setData path data version => .setData path data (some (version.getD (-1)))

theorem Op.standalone_normalize (code : P → BitVec 32) (modeCode : M → BitVec 32) (op : Op P M) :
    op.normalize.standalone code modeCode = op.standalone code modeCode := by
  cases op <;> rfl

theorem entryHeader_append_inj {c c' : OpCode} {r s : List UInt8}
    (h : entryHeader c ++ r = entryHeader c' ++ s) : c = c' ∧ r = s := by
  simp only [entryHeader, List.append_assoc] at h
  obtain ⟨rfl, h₁⟩ := PrefixCode.opCode h trivial trivial
  exact ⟨rfl, List.append_cancel_left (List.append_cancel_left h₁)⟩

/-- An entry followed by anything determines the operation, up to an absent
    version, and what follows. -/
theorem Op.standalone_prefix {code : P → BitVec 32} {modeCode : M → BitVec 32}
    (hcode : Function.Injective code) (hmode : Function.Injective modeCode) {op op' : Op P M}
    {r s : List UInt8} (h : op.Fits) (h' : op'.Fits)
    (he : op.standalone code modeCode ++ r = op'.standalone code modeCode ++ s) :
    op.normalize = op'.normalize ∧ r = s := by
  -- The headers name the same operation, which leaves the four diagonal cases.
  cases op <;> cases op' <;> simp only [Op.standalone, List.append_assoc] at he <;>
    obtain ⟨hc, he₁⟩ := entryHeader_append_inj he <;> cases hc
  case check.check =>
    obtain ⟨hr, rfl⟩ := PrefixCode.deleteRequest he₁ h h'
    simp only [DeleteRequest.mk.injEq] at hr
    obtain ⟨rfl, hv⟩ := hr
    exact ⟨by simp only [Op.normalize, hv], rfl⟩
  case create.create =>
    obtain ⟨hr, rfl⟩ := PrefixCode.createRequest hcode he₁ h h'
    simp only [CreateRequest.mk.injEq] at hr
    obtain ⟨rfl, rfl, rfl, hm⟩ := hr
    exact ⟨by rw [hmode hm], rfl⟩
  case delete.delete =>
    obtain ⟨hr, rfl⟩ := PrefixCode.deleteRequest he₁ h h'
    simp only [DeleteRequest.mk.injEq] at hr
    obtain ⟨rfl, hv⟩ := hr
    exact ⟨by simp only [Op.normalize, hv], rfl⟩
  case setData.setData =>
    obtain ⟨hr, rfl⟩ := PrefixCode.setDataRequest he₁ h h'
    simp only [SetDataRequest.mk.injEq] at hr
    obtain ⟨rfl, rfl, hv⟩ := hr
    exact ⟨by simp only [Op.normalize, hv], rfl⟩

/-- No entry starts with the closing header's type `-1`. -/
theorem Op.standalone_append_ne (code : P → BitVec 32) (modeCode : M → BitVec 32) (op : Op P M)
    (r s : List UInt8) : op.standalone code modeCode ++ r ≠ writeI32 (-1) ++ s := by
  intro he
  cases op <;> simp only [Op.standalone, entryHeader, List.append_assoc] at he <;>
    exact absurd (PrefixCode.writeBE 4 he trivial trivial).1 (by decide)

theorem flatMap_standalone_normalize (code : P → BitVec 32) (modeCode : M → BitVec 32)
    (ops : List (Op P M)) :
    (ops.map Op.normalize).flatMap (Op.standalone code modeCode) =
      ops.flatMap (Op.standalone code modeCode) := by
  simp only [List.flatMap_map, Op.standalone_normalize]

/-- Entries followed by the closing header are read back operation by
    operation; the closing header ends both lists at once. -/
theorem map_normalize_of_flatMap {code : P → BitVec 32} {modeCode : M → BitVec 32}
    (hcode : Function.Injective code) (hmode : Function.Injective modeCode) {t : List UInt8} :
    ∀ {ops ops' : List (Op P M)}, (∀ op ∈ ops, op.Fits) → (∀ op ∈ ops', op.Fits) →
      ops.flatMap (Op.standalone code modeCode) ++ writeI32 (-1) ++ t =
        ops'.flatMap (Op.standalone code modeCode) ++ writeI32 (-1) ++ t →
      ops.map Op.normalize = ops'.map Op.normalize
  | [], [], _, _, _ => rfl
  | [], op' :: ops', _, _, he => by
    simp only [List.flatMap_nil, List.flatMap_cons, List.nil_append, List.append_assoc] at he
    exact absurd he.symm (op'.standalone_append_ne code modeCode _ _)
  | op :: ops, [], _, _, he => by
    simp only [List.flatMap_nil, List.flatMap_cons, List.nil_append, List.append_assoc] at he
    exact absurd he (op.standalone_append_ne code modeCode _ _)
  | op :: ops, op' :: ops', h, h', he => by
    simp only [List.flatMap_cons, List.append_assoc] at he
    obtain ⟨hn, he'⟩ := Op.standalone_prefix hcode hmode (h op (.head _)) (h' op' (.head _)) he
    rw [List.map_cons, List.map_cons, hn, map_normalize_of_flatMap hcode hmode
      (fun o ho => h o (.tail _ ho)) (fun o ho => h' o (.tail _ ho))
      (by simpa only [List.append_assoc] using he')]

/-- Two transactions whose lengths and counts fit an `i32` are written alike
    exactly when they hold the same operations in the same order, an absent
    version counting as `-1`, provided `Permission::code` and
    `CreateMode as i32` tell their values apart. -/
theorem transactionRequest_writeTo_eq_iff {code : P → BitVec 32} {modeCode : M → BitVec 32}
    (hcode : Function.Injective code) (hmode : Function.Injective modeCode)
    {ops ops' : List (Op P M)} (h : ∀ op ∈ ops, op.Fits) (h' : ∀ op ∈ ops', op.Fits) :
    TransactionRequest.writeTo code modeCode ⟨ops⟩ =
        TransactionRequest.writeTo code modeCode ⟨ops'⟩ ↔
      ops.map Op.normalize = ops'.map Op.normalize := by
  rw [TransactionRequest.writeTo, TransactionRequest.writeTo, op_entry_eq_standalone]
  constructor
  · intro he
    exact map_normalize_of_flatMap hcode hmode h h' (by simpa only [List.append_assoc] using he)
  · intro hn
    rw [← flatMap_standalone_normalize code modeCode ops,
      ← flatMap_standalone_normalize code modeCode ops', hn]

/-- A check with no version and a check at version `-1` are the same
    bytes. -/
theorem check_without_version_written_as_minus_one :
    TransactionRequest.writeTo (P := BitVec 32) (M := BitVec 32) id id
        ⟨[.check ⟨[0x61], rfl⟩ none]⟩ =
      TransactionRequest.writeTo id id ⟨[.check ⟨[0x61], rfl⟩ (some (-1))]⟩ :=
  (transactionRequest_writeTo_eq_iff Function.injective_id Function.injective_id
    (by simp [Op.Fits, RustString.len]) (by simp [Op.Fits, RustString.len])).2 rfl

/-- Request frames written one after another on a connection, each shorter
    than `2 ^ 31` bytes, are split back into their headers and bodies, in
    order, by reading length-prefixed buffers. -/
theorem frames_split_by_length (w : α → List UInt8) (reqs : List (RequestHeader × α))
    (h : ∀ p ∈ reqs, (p.1.writeTo ++ w p.2).length < 2 ^ 31) :
    readMany readBuffer reqs.length (reqs.flatMap fun p => (toLenPrefixedBuf w p.1 p.2).inner) =
      .ok (reqs.map fun p => p.1.writeTo ++ w p.2) [] := by
  have hm : readMany readBuffer reqs.length
      ((reqs.flatMap fun p => (toLenPrefixedBuf w p.1 p.2).inner) ++ []) =
      .ok (reqs.map fun p => p.1.writeTo ++ w p.2) [] :=
    readMany_flatMap reqs (fun p hp r => by
      rw [toLenPrefixedBuf_inner]
      exact readBuffer_append (h p hp) r) []
  simpa using hm

/-- Two pings on one connection. -/
theorem two_pings_split_by_length :
    readMany readBuffer 2 ([((⟨1, .ping⟩ : RequestHeader), EmptyRequest.mk),
        (⟨2, .ping⟩, EmptyRequest.mk)].flatMap fun p =>
          (toLenPrefixedBuf EmptyRequest.writeTo p.1 p.2).inner) =
      .ok ([((⟨1, .ping⟩ : RequestHeader), EmptyRequest.mk), (⟨2, .ping⟩, EmptyRequest.mk)].map
        fun p => p.1.writeTo ++ EmptyRequest.writeTo p.2) [] :=
  frames_split_by_length EmptyRequest.writeTo [(⟨1, .ping⟩, ⟨⟩), (⟨2, .ping⟩, ⟨⟩)] (by decide)

/-- The bytes of a connection determine the requests sent on it: frames of
    headers and bodies, each shorter than `2 ^ 31` bytes and written one
    after another, are equal only when the headers and bodies are, in order.
    The bodies may come from different request encoders; each is then read
    back by its own prefix code. -/
theorem request_stream_determines_frames {reqs reqs' : List (RequestHeader × List UInt8)}
    (h : ∀ p ∈ reqs, (p.1.writeTo ++ p.2).length < 2 ^ 31)
    (h' : ∀ p ∈ reqs', (p.1.writeTo ++ p.2).length < 2 ^ 31)
    (he : reqs.flatMap (fun p => (toLenPrefixedBuf id p.1 p.2).inner) =
      reqs'.flatMap fun p => (toLenPrefixedBuf id p.1 p.2).inner) :
    reqs = reqs' :=
  PrefixCode.frame.flatMap_inj (fun p _ hp => by
    simpa [toLenPrefixedBuf_inner, vec_writeTo_writeU8] using congrArg List.length hp) h h' he

/-- A ping and a `getData` request of path `/` on one connection. -/
theorem ping_then_get_data_determined :
    (∀ p ∈ [((⟨1, .ping⟩ : RequestHeader), ([] : List UInt8)), (⟨2, .getData⟩, [0, 0, 0, 1, 47, 0])],
        (p.1.writeTo ++ p.2).length < 2 ^ 31) ∧
      [((⟨1, .ping⟩ : RequestHeader), ([] : List UInt8)), (⟨2, .getData⟩, [0, 0, 0, 1, 47, 0])] =
        [(⟨1, .ping⟩, []), (⟨2, .getData⟩, [0, 0, 0, 1, 47, 0])] :=
  have h : ∀ p ∈ [((⟨1, .ping⟩ : RequestHeader), ([] : List UInt8)),
      (⟨2, .getData⟩, [0, 0, 0, 1, 47, 0])], (p.1.writeTo ++ p.2).length < 2 ^ 31 := by decide
  ⟨h, request_stream_determines_frames h h rfl⟩

end ZkProto
