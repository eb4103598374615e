import AaSdk.Types

/-! # The packers (`utils.go`, `paymaster.go`)

`PackInt`, `PackPaymasterAndData`, `EncodePaymasterData` and `PackUserOperation`,
and the readers of EntryPoint v0.7 and of its verifying paymaster that take
their output apart again.
-/

namespace AaSdk

/-- `PackInt`: `a` and `b` left-padded to 16 bytes each, copied into one word. A nil argument
panics. -/
def packInt (a b : Option Int) : Except Fault Hash :=
  match a, b with
  | some a, some b => .ok (copyToHash (leftPadBytes (bigBytes a) 16 ++ leftPadBytes (bigBytes b) 16))
  | _, _ => .error (.panic "nil data")

def paymasterValidationGasOffset : Nat := 20
def paymasterPostOpGasOffset : Nat := 36
def paymasterDataOffset : Nat := 52

/-- `PackPaymasterAndData`: the address, the two gas limits left-padded to 16 bytes, then `data`.
`Bytes()` of a nil gas limit panics. -/
def packPaymasterAndData (paymaster : Address) (verGasLimit postOpGasLimit : Option Int)
    (data : List UInt8) : Except Fault (List UInt8) :=
  match verGasLimit, postOpGasLimit with
  | some v, some p =>
    .ok (paymaster.bytes ++ leftPadBytes (bigBytes v) 16 ++ leftPadBytes (bigBytes p) 16 ++ data)
  | _, _ => .error (.panic nilDeref)

/-- `EmptySignature`: 65 zero bytes. -/
def emptySignature : List UInt8 := List.replicate 65 0

/-- `EncodePaymasterData`: `validUntil` and `validAfter` as two `uint48` words, then the
signature. -/
def encodePaymasterData (validUntil validAfter : Option Int) (signature : List UInt8) :
    Except Fault (List UInt8) := do
  let data ← abiPack [.uint validUntil, .uint validAfter]
  pure (data ++ signature)

/-- `PackUserOperation`. -/
def packUserOperation (u : UserOperation) : Except Fault PackedUserOperation := do
  let accountGasLimits ← packInt u.verificationGasLimit u.callGasLimit
  let gasFees ← packInt u.maxPriorityFeePerGas u.maxFeePerGas
  let paymasterAndData ← packPaymasterAndData u.paymaster u.paymasterVerificationGasLimit
    u.paymasterPostOpGasLimit u.paymasterData
  pure { sender := u.sender, nonce := u.nonce, callData := u.callData, accountGasLimits,
         preVerificationGas := u.preVerificationGas, gasFees, paymasterAndData,
         signature := u.signature, initCode := u.initCode }

/-! ## How EntryPoint v0.7 reads the packed form -/

/-- `UserOperationLib.unpackUints`: the high and the low 128 bits of a word. -/
def unpackUints (packed : Hash) : Nat × Nat :=
  (setBytes (packed.bytes.take 16), setBytes (packed.bytes.drop 16))

/-- `UserOperationLib.unpackPaymasterStaticFields`: bytes `[0:20]`, `[20:36]` and `[36:52]`. -/
def unpackPaymasterStaticFields (paymasterAndData : List UInt8) : List UInt8 × Nat × Nat :=
  (paymasterAndData.take paymasterValidationGasOffset,
   setBytes ((paymasterAndData.take paymasterPostOpGasOffset).drop paymasterValidationGasOffset),
   setBytes ((paymasterAndData.take paymasterDataOffset).drop paymasterPostOpGasOffset))

/-- `VerifyingPaymaster.parsePaymasterAndData`: the `uint48` words at `[52:84]` and `[84:116]`,
and the signature after them. -/
def parsePaymasterAndData (paymasterAndData : List UInt8) : Nat × Nat × List UInt8 :=
  (setBytes ((paymasterAndData.take 84).drop paymasterDataOffset),
   setBytes ((paymasterAndData.take 116).drop 84), paymasterAndData.drop 116)

/-! ## Padding -/

/-- `LeftPadBytes(x.Bytes(), 16)`. -/
def pad16 (x : Int) : List UInt8 := leftPadBytes (bigBytes x) 16

theorem pad16_length_ge (x : Int) : 16 ≤ (pad16 x).length := by
  simp [pad16]

theorem pad16_length {x : Int} (h : x.natAbs < 2 ^ 128) : (pad16 x).length = 16 := by
  have : (bigBytes x).length ≤ 16 := (bigBytes_length_le_iff x 16).mpr (by simpa using h)
  simp [pad16]; omega

@[simp] theorem setBytes_pad16 (x : Int) : setBytes (pad16 x) = x.natAbs := by
  simp [pad16]

theorem pad16_natCast_length {n : Nat} (h : n < 2 ^ 128) : (pad16 n).length = 16 :=
  pad16_length (by simpa using h)

theorem pad16_eq_beBytes {n : Nat} (h : n < 2 ^ 128) : pad16 n = beBytes 16 n :=
  eq_of_setBytes_eq (by rw [pad16_natCast_length h, beBytes_length])
    (by rw [setBytes_pad16, setBytes_beBytes, Nat.mod_eq_of_lt (by norm_num; omega)]; rfl)

theorem packInt_some (a b : Int) :
    packInt (some a) (some b) = .ok (copyToHash (pad16 a ++ pad16 b)) := rfl

theorem packPaymasterAndData_some (pm : Address) (v p : Int) (data : List UInt8) :
    packPaymasterAndData pm (some v) (some p) data = .ok (pm.bytes ++ pad16 v ++ pad16 p ++ data) :=
  rfl

theorem packInt_bytes {a b : Nat} (ha : a < 2 ^ 128) (hb : b < 2 ^ 128) :
    packInt (some a) (some b) = .ok ⟨pad16 a ++ pad16 b, by
      rw [List.length_append, pad16_natCast_length ha, pad16_natCast_length hb]⟩ := by
  rw [packInt_some]
  congr 1
  exact Word.ext_bytes (copyToHash_of_length (by
    rw [List.length_append, pad16_natCast_length ha, pad16_natCast_length hb]))

theorem unpackUints_copyToHash {a b : Nat} (ha : a < 2 ^ 128) (hb : b < 2 ^ 128) :
    unpackUints (copyToHash (pad16 a ++ pad16 b)) = (a, b) := by
  have h16 := pad16_natCast_length ha
  rw [unpackUints, copyToHash_of_length (by rw [List.length_append, h16, pad16_natCast_length hb])]
  simp [List.take_append_eq_append_take, List.drop_append_eq_append_drop, h16]

theorem slices_of_lengths {A B C D : List UInt8} (hA : A.length = 20) (hB : B.length = 16)
    (hC : C.length = 16) :
    (A ++ B ++ C ++ D).take paymasterValidationGasOffset = A ∧
    ((A ++ B ++ C ++ D).take paymasterPostOpGasOffset).drop paymasterValidationGasOffset = B ∧
    ((A ++ B ++ C ++ D).take paymasterDataOffset).drop paymasterPostOpGasOffset = C ∧
    ((A ++ B ++ C ++ D).take paymasterDataOffset).drop paymasterValidationGasOffset = B ++ C ∧
    (A ++ B ++ C ++ D).drop paymasterDataOffset = D := by
  simp [List.take_append_eq_append_take, List.drop_append_eq_append_drop, hA, hB, hC,
    paymasterValidationGasOffset, paymasterPostOpGasOffset, paymasterDataOffset,
    List.drop_eq_nil_of_le]

theorem packPaymasterAndData_length {pm : Address} {v p : Option Int} {data a : List UInt8}
    (h : packPaymasterAndData pm v p data = .ok a) : paymasterDataOffset ≤ a.length := by
  rcases v with _ | v <;> rcases p with _ | p <;> cases h
  have := pad16_length_ge v; have := pad16_length_ge p
  simp only [List.length_append, pm.length_eq, paymasterDataOffset, pad16] at *
  omega

theorem packInt_ne_error (a b : Option Int) (msg : String) : packInt a b ≠ .error (.error msg) := by
  rcases a with _ | _ <;> rcases b with _ | _ <;> nofun

theorem packPaymasterAndData_ne_error (pm : Address) (v p : Option Int) (data : List UInt8)
    (msg : String) : packPaymasterAndData pm v p data ≠ .error (.error msg) := by
  rcases v with _ | _ <;> rcases p with _ | _ <;> nofun

theorem encodePaymasterData_some (vu va : Int) (sig : List UInt8) :
    encodePaymasterData (some vu) (some va) sig = .ok (u256Bytes vu ++ u256Bytes va ++ sig) := by
  simp [encodePaymasterData, abiPack, abiWord, pure, Except.pure]

theorem setBytes_u256Bytes {n : Nat} (h : n < 2 ^ 256) : setBytes (u256Bytes n) = n := by
  rw [u256Bytes, setBytes_beBytes, show (256 : Nat) ^ 32 = 2 ^ 256 by norm_num,
    Int.emod_eq_of_lt (by positivity) (by exact_mod_cast h), Int.toNat_natCast,
    Nat.mod_eq_of_lt h]

@[simp] theorem u256Bytes_length (x : Int) : (u256Bytes x).length = 32 := by simp [u256Bytes]

theorem parsePaymasterAndData_of_encode {X sig : List UInt8} (hX : X.length = paymasterDataOffset)
    {vu va : Nat} (hvu : vu < 2 ^ 48) (hva : va < 2 ^ 48) :
    parsePaymasterAndData (X ++ (u256Bytes vu ++ u256Bytes va ++ sig)) = (vu, va, sig) := by
  have h256 : ∀ n : Nat, n < 2 ^ 48 → n < 2 ^ 256 := fun n h => lt_trans h (by norm_num)
  simp [parsePaymasterAndData, List.take_append_eq_append_take, List.drop_append_eq_append_drop,
    hX, paymasterDataOffset, List.drop_eq_nil_of_le, setBytes_u256Bytes (h256 vu hvu),
    setBytes_u256Bytes (h256 va hva)]

theorem packUserOperation_of_gas (u : UserOperation) {a b c d e f : Int}
    (h1 : u.verificationGasLimit = some a) (h2 : u.callGasLimit = some b)
    (h3 : u.maxPriorityFeePerGas = some c) (h4 : u.maxFeePerGas = some d)
    (h5 : u.paymasterVerificationGasLimit = some e) (h6 : u.paymasterPostOpGasLimit = some f) :
    packUserOperation u = .ok
      { sender := u.sender, nonce := u.nonce, callData := u.callData,
        accountGasLimits := copyToHash (pad16 a ++ pad16 b),
        preVerificationGas := u.preVerificationGas, gasFees := copyToHash (pad16 c ++ pad16 d),
        paymasterAndData := u.paymaster.bytes ++ pad16 e ++ pad16 f ++ u.paymasterData,
        signature := u.signature, initCode := u.initCode } := by
  simp only [packUserOperation, h1, h2, h3, h4, h5, h6, packInt_some, packPaymasterAndData_some,
    except_ok_bind]
  rfl

theorem packInt_eq_ok {a b : Option Int} {w : Hash} (h : packInt a b = .ok w) :
    ∃ x y, a = some x ∧ b = some y := by
  rcases a with _ | x <;> rcases b with _ | y <;> first | exact ⟨x, y, rfl, rfl⟩ | cases h

theorem packPaymasterAndData_eq_ok {pm : Address} {v p : Option Int} {data w : List UInt8}
    (h : packPaymasterAndData pm v p data = .ok w) : ∃ x y, v = some x ∧ p = some y := by
  rcases v with _ | x <;> rcases p with _ | y <;> first | exact ⟨x, y, rfl, rfl⟩ | cases h

theorem packUserOperation_eq_ok {u : UserOperation} {p : PackedUserOperation}
    (h : packUserOperation u = .ok p) :
    ∃ a b c d e f, u.verificationGasLimit = some a ∧ u.callGasLimit = some b ∧
      u.maxPriorityFeePerGas = some c ∧ u.maxFeePerGas = some d ∧
      u.paymasterVerificationGasLimit = some e ∧ u.paymasterPostOpGasLimit = some f := by
  obtain ⟨_, h1, h⟩ := except_bind_eq_ok.mp h
  obtain ⟨_, h2, h⟩ := except_bind_eq_ok.mp h
  obtain ⟨_, h3, -⟩ := except_bind_eq_ok.mp h
  obtain ⟨a, b, ha, hb⟩ := packInt_eq_ok h1
  obtain ⟨c, d, hc, hd⟩ := packInt_eq_ok h2
  obtain ⟨e, f, he, hf⟩ := packPaymasterAndData_eq_ok h3
  exact ⟨a, b, c, d, e, f, ha, hb, hc, hd, he, hf⟩

theorem packUserOperation_paymasterAndData {u : UserOperation} {p : PackedUserOperation}
    (h : packUserOperation u = .ok p) :
    packPaymasterAndData u.paymaster u.paymasterVerificationGasLimit u.paymasterPostOpGasLimit
      u.paymasterData = .ok p.paymasterAndData := by
  obtain ⟨_, -, h⟩ := except_bind_eq_ok.mp h
  obtain ⟨_, -, h⟩ := except_bind_eq_ok.mp h
  obtain ⟨_, hpd, h⟩ := except_bind_eq_ok.mp h
  cases h
  exact hpd

theorem packUserOperation_initCode {u : UserOperation} {p : PackedUserOperation}
    (h : packUserOperation u = .ok p) : p.initCode = u.initCode := by
  obtain ⟨_, -, h⟩ := except_bind_eq_ok.mp h
  obtain ⟨_, -, h⟩ := except_bind_eq_ok.mp h
  obtain ⟨_, -, h⟩ := except_bind_eq_ok.mp h
  cases h
  rfl

/-! ## Separate fields -/

theorem packInt_neg (a : Int) (b : Option Int) : packInt (some (-a)) b = packInt (some a) b := by
  cases b <;> simp [packInt, bigBytes]

theorem pad16_natCast_inj {a b : Nat} (h : pad16 a = pad16 b) : a = b := by
  simpa using congrArg setBytes h

/-! ## Out of range -/

theorem pad16_of_le {x : Int} (h : 16 ≤ (bigBytes x).length) : pad16 x = bigBytes x :=
  leftPadBytes_of_le h

theorem sixteen_lt_length_bigBytes {x : Int} (h : 2 ^ 128 ≤ x.natAbs) : 16 < (bigBytes x).length :=
  Nat.lt_of_not_le fun hk => absurd ((bigBytes_length_le_iff x 16).mp hk) (by norm_num; omega)

theorem sixteen_lt_length_pad16 {x : Int} (h : 2 ^ 128 ≤ x.natAbs) : 16 < (pad16 x).length :=
  (sixteen_lt_length_bigBytes h).trans_le (by simp [pad16])

theorem packInt_neg_right (a b : Int) :
    packInt (some a) (some (-b)) = packInt (some a) (some b) := by
  simp [packInt]

theorem packPaymasterAndData_neg (pm : Address) (v p : Int) (data : List UInt8) :
    packPaymasterAndData pm (some (-v)) (some p) data =
        packPaymasterAndData pm (some v) (some p) data ∧
      packPaymasterAndData pm (some v) (some (-p)) data =
        packPaymasterAndData pm (some v) (some p) data := by
  simp [packPaymasterAndData]

theorem unpackUints_packInt (a b : Int) :
    (packInt (some a) (some b)).map unpackUints =
      .ok (setBytes (((pad16 a ++ pad16 b).take 32).take 16),
        setBytes (((pad16 a ++ pad16 b).take 32).drop 16)) := by
  have h32 : 32 ≤ (pad16 a ++ pad16 b).length := by
    have := pad16_length_ge a; have := pad16_length_ge b
    rw [List.length_append]; omega
  simp only [packInt_some, Except.map, unpackUints, copyToHash_bytes h32]

theorem unpackUints_packInt_of_lt {a : Nat} (ha : a < 2 ^ 128) (b : Int) :
    (packInt (some (a : Int)) (some b)).map unpackUints =
      .ok (a, b.natAbs / 256 ^ ((pad16 b).length - 16)) := by
  have hA := pad16_natCast_length ha
  have hT : (pad16 a ++ pad16 b).take 32 = pad16 a ++ (pad16 b).take 16 := by
    rw [List.take_append_eq_append_take, List.take_of_length_le (l := pad16 (a : Int)) (by omega), hA]
  rw [unpackUints_packInt, hT, List.take_left' hA, List.drop_left' hA, setBytes_pad16, setBytes_take,
    setBytes_pad16]
  rfl

theorem unpackUints_packInt_wide {a : Int} (ha : 2 ^ 128 ≤ a.natAbs) (hk : (bigBytes a).length ≤ 32)
    (b : Int) :
    (packInt (some a) (some b)).map unpackUints =
      .ok (a.natAbs / 256 ^ ((bigBytes a).length - 16),
        a.natAbs % 256 ^ ((bigBytes a).length - 16) * 256 ^ (32 - (bigBytes a).length) +
          b.natAbs / 256 ^ ((pad16 b).length - (32 - (bigBytes a).length))) := by
  have h16 := sixteen_lt_length_bigBytes ha
  have hB := pad16_length_ge b
  have hT : (bigBytes a ++ pad16 b).take 32 = bigBytes a ++ (pad16 b).take (32 - (bigBytes a).length) := by
    rw [List.take_append_eq_append_take, List.take_of_length_le hk]
  have hBk : ((pad16 b).take (32 - (bigBytes a).length)).length = 32 - (bigBytes a).length := by
    rw [List.length_take]; omega
  rw [unpackUints_packInt, pad16_of_le h16.le, hT, List.take_append_of_le_length h16.le,
    List.drop_append_of_le_length h16.le, setBytes_append, hBk, setBytes_take, setBytes_drop,
    setBytes_take, setBytes_bigBytes, setBytes_pad16]

theorem unpackUints_packInt_wider {a : Int} (hk : 32 ≤ (bigBytes a).length) (b : Int) :
    (packInt (some a) (some b)).map unpackUints =
      .ok (a.natAbs / 256 ^ ((bigBytes a).length - 16),
        a.natAbs / 256 ^ ((bigBytes a).length - 32) % 2 ^ 128) := by
  have h32 : ((bigBytes a).take 32).length = 32 := by rw [List.length_take]; omega
  have hT : ((bigBytes a).take 32).take 16 = (bigBytes a).take 16 := by
    rw [List.take_take]; rfl
  rw [unpackUints_packInt, pad16_of_le (by omega), List.take_append_of_le_length hk, hT,
    setBytes_take, setBytes_drop, h32, setBytes_take, setBytes_bigBytes]
  norm_num

theorem packPaymasterAndData_wide (pm : Address) (v p : Int) (data : List UInt8)
    (h : 2 ^ 128 ≤ v.natAbs ∨ 2 ^ 128 ≤ p.natAbs) :
    ∃ off, paymasterDataOffset < off ∧
      (packPaymasterAndData pm (some v) (some p) data).map (fun r => (r.length, r.drop off)) =
        .ok (off + data.length, data) := by
  have hv := pad16_length_ge v
  have hp := pad16_length_ge p
  have hwide := h.imp sixteen_lt_length_pad16 sixteen_lt_length_pad16
  refine ⟨(pm.bytes ++ pad16 v ++ pad16 p).length, ?_, ?_⟩
  · simp only [List.length_append, pm.length_eq, paymasterDataOffset]
    omega
  · simp [packPaymasterAndData_some, Except.map]
    omega

/-- The packers never fail on set values. On 128-bit values the halves of a word stay apart and
`paymasterAndData` keeps its fields at their offsets: both packers are injective. Out of range
the fields mix: a negative value packs as its magnitude; what `unpackUints` reads is, for a first
value that fits, that value and the 16 high bytes of the second; for a wider first value, its 16
high bytes, then its other bytes run into the low half with what is left of the second; and a
gas limit of `2^128` or more moves `paymasterData` past byte 52. -/
theorem packers_separate_128_bit_fields :
    (∀ a b : Int, ∃ w, packInt (some a) (some b) = .ok w) ∧
    (∀ (pm : Address) (v p : Int) (data : List UInt8),
      ∃ r, packPaymasterAndData pm (some v) (some p) data = .ok r) ∧
    Function.Injective2 (fun a b : {n : Nat // n < 2 ^ 128} =>
      packInt (some (a.1 : Int)) (some (b.1 : Int))) ∧
    (∀ a a' b : {n : Nat // n < 2 ^ 128},
      (packInt (some (a.1 : Int)) (some (b.1 : Int))).map (fun w => w.bytes.drop 16) =
        (packInt (some (a'.1 : Int)) (some (b.1 : Int))).map (fun w => w.bytes.drop 16)) ∧
    (∀ (pm : Address) (v p : {n : Nat // n < 2 ^ 128}) (data : List UInt8),
      (packPaymasterAndData pm (some (v.1 : Int)) (some (p.1 : Int)) data).map
          (fun r => (r.length, r.drop paymasterDataOffset)) =
        .ok (paymasterDataOffset + data.length, data)) ∧
    Function.Injective (fun x : Address × {n : Nat // n < 2 ^ 128} × {n : Nat // n < 2 ^ 128} ×
        List UInt8 => packPaymasterAndData x.1 (some (x.2.1.1 : Int)) (some (x.2.2.1.1 : Int)) x.2.2.2) ∧
    (∀ a b : Int, packInt (some (-a)) (some b) = packInt (some a) (some b) ∧
      packInt (some a) (some (-b)) = packInt (some a) (some b)) ∧
    (∀ (pm : Address) (v p : Int) (data : List UInt8),
      packPaymasterAndData pm (some (-v)) (some p) data =
          packPaymasterAndData pm (some v) (some p) data ∧
        packPaymasterAndData pm (some v) (some (-p)) data =
          packPaymasterAndData pm (some v) (some p) data) ∧
    (∀ (a : {n : Nat // n < 2 ^ 128}) (b : Int), (packInt (some (a.1 : Int)) (some b)).map unpackUints =
      .ok (a.1, b.natAbs / 256 ^ ((pad16 b).length - 16))) ∧
    (∀ a b : Int, 2 ^ 128 ≤ a.natAbs → (bigBytes a).length ≤ 32 →
      (packInt (some a) (some b)).map unpackUints =
        .ok (a.natAbs / 256 ^ ((bigBytes a).length - 16),
          a.natAbs % 256 ^ ((bigBytes a).length - 16) * 256 ^ (32 - (bigBytes a).length) +
            b.natAbs / 256 ^ ((pad16 b).length - (32 - (bigBytes a).length)))) ∧
    (∀ a b : Int, 32 ≤ (bigBytes a).length →
      (packInt (some a) (some b)).map unpackUints =
        .ok (a.natAbs / 256 ^ ((bigBytes a).length - 16),
          a.natAbs / 256 ^ ((bigBytes a).length - 32) % 2 ^ 128)) ∧
    (∀ (pm : Address) (v p : Int) (data : List UInt8), 2 ^ 128 ≤ v.natAbs ∨ 2 ^ 128 ≤ p.natAbs →
      ∃ off, paymasterDataOffset < off ∧
        (packPaymasterAndData pm (some v) (some p) data).map (fun r => (r.length, r.drop off)) =
          .ok (off + data.length, data)) := by
  refine ⟨fun a b => ⟨_, packInt_some a b⟩, fun pm v p data => ⟨_, packPaymasterAndData_some pm v p data⟩,
    ?inj, ?low, ?layout, ?injPm, fun a b => ⟨packInt_neg a (some b), packInt_neg_right a b⟩,
    packPaymasterAndData_neg, fun a b => unpackUints_packInt_of_lt a.2 b,
    fun a b ha hk => unpackUints_packInt_wide ha hk b, fun a b hk => unpackUints_packInt_wider hk b,
    packPaymasterAndData_wide⟩
  case inj =>
    rintro ⟨a, ha⟩ ⟨a', ha'⟩ ⟨b, hb⟩ ⟨b', hb'⟩ h
    simp only [packInt_bytes ha hb, packInt_bytes ha' hb', Except.ok.injEq] at h
    obtain ⟨h1, h2⟩ := List.append_inj (congrArg Word.bytes h)
      (by rw [pad16_natCast_length ha, pad16_natCast_length ha'])
    exact ⟨Subtype.ext (pad16_natCast_inj h1), Subtype.ext (pad16_natCast_inj h2)⟩
  case low =>
    rintro ⟨a, ha⟩ ⟨a', ha'⟩ ⟨b, hb⟩
    simp only [packInt_bytes ha hb, packInt_bytes ha' hb, Except.map,
      List.drop_left' (pad16_natCast_length ha), List.drop_left' (pad16_natCast_length ha')]
  case layout =>
    rintro pm ⟨v, hv⟩ ⟨p, hp⟩ data
    have hv' := pad16_natCast_length hv
    have hp' := pad16_natCast_length hp
    simp only [packPaymasterAndData_some, Except.map, (slices_of_lengths pm.length_eq hv' hp').2.2.2.2,
      List.length_append, pm.length_eq, hv', hp']
    rfl
  case injPm =>
    rintro ⟨pm, ⟨v, hv⟩, ⟨p, hp⟩, data⟩ ⟨pm', ⟨v', hv'⟩, ⟨p', hp'⟩, data'⟩ h
    simp only [packPaymasterAndData_some, Except.ok.injEq] at h
    -- Both sides are cut at the same offsets, and each slice is one field.
    have s := slices_of_lengths (D := data) pm.length_eq (pad16_natCast_length hv)
      (pad16_natCast_length hp)
    have s' := slices_of_lengths (D := data') pm'.length_eq (pad16_natCast_length hv')
      (pad16_natCast_length hp')
    rw [h] at s
    simp only [Prod.mk.injEq, Subtype.mk.injEq]
    exact ⟨Word.ext_bytes (s.1.symm.trans s'.1), pad16_natCast_inj (s.2.1.symm.trans s'.2.1),
      pad16_natCast_inj (s.2.2.1.symm.trans s'.2.2.1), s.2.2.2.2.symm.trans s'.2.2.2.2⟩

/-- Out of range the fields mix: `-1` packs as `1`; `2^128` takes 17 bytes, so `PackInt` shifts
it and cuts off the low byte of the other half, and `paymasterAndData` is 53 bytes long. -/
theorem packers_mix_fields_out_of_range :
    packInt (some 1) (some 0) = packInt (some (-1)) (some 0) ∧
    (packInt (some (2 ^ 128)) (some 1)).map unpackUints = .ok (2 ^ 120, 0) ∧
    (packPaymasterAndData (Word.zero 20) (some (2 ^ 128)) (some 0) []).map List.length = .ok 53 := by
  have h128 : bigBytes (2 ^ 128) = 1 :: List.replicate 16 0 := by norm_num [bigBytes]; rfl
  have h1 : bigBytes 1 = [1] := by norm_num [bigBytes]
  have h0 : bigBytes 0 = [] := by simp [bigBytes]
  refine ⟨(packInt_neg 1 _).symm, ?_, ?_⟩
  · simp only [packInt, h128, h1]
    rfl
  · simp only [packPaymasterAndData, h128, h0]
    rfl

end AaSdk
