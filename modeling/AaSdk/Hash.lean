import AaSdk.Pack

/-! # Hashes and signatures (`utils.go`, `paymaster.go`)

`HashedUserOp` and `GetUserOpHash`, the sponsorship hash `GetPaymasterHash`,
and `SignMessage`. Keccak-256 and ECDSA come from a `Crypto` record.
-/

namespace AaSdk

variable (cr : Crypto)

/-- The arguments `HashedUserOp` packs: the fixed fields and the hashes of the three byte
strings. -/
def hashedUserOpArgs (userOp : PackedUserOperation) : List AbiArg :=
  [.address userOp.sender, .uint userOp.nonce,
   .bytes32 (cr.keccak256 userOp.initCode), .bytes32 (cr.keccak256 userOp.callData),
   .bytes32 userOp.accountGasLimits, .uint userOp.preVerificationGas, .bytes32 userOp.gasFees,
   .bytes32 (cr.keccak256 userOp.paymasterAndData)]

/-- `HashedUserOp`: Keccak-256 of the packed `hashedUserOpArgs`. -/
def hashedUserOp (userOp : PackedUserOperation) : Except Fault Hash := do
  let packed ← abiPack (hashedUserOpArgs cr userOp)
  pure (cr.keccak256 packed)

/-- `GetUserOpHash`: `HashedUserOp` bound to the entry point and the chain. -/
def getUserOpHash (packed : PackedUserOperation) (entrypoint : Address) (chainId : Option Int) :
    Except Fault Hash := do
  let hashed ← hashedUserOp cr packed
  let packedHash ← abiPack [.bytes32 hashed, .address entrypoint, .uint chainId]
  pure (cr.keccak256 packedHash)

/-- The arguments `GetPaymasterHash` packs, given the paymaster address and the validation gas
it read. -/
def paymasterHashArgs (packedUserOp : PackedUserOperation) (chainId : Option Int)
    (paymaster : Address) (paymasterValidationGas : Nat) (validUntil validAfter : Option Int) :
    List AbiArg :=
  [.address packedUserOp.sender, .uint packedUserOp.nonce,
   .bytes32 (cr.keccak256 packedUserOp.initCode), .bytes32 (cr.keccak256 packedUserOp.callData),
   .bytes32 packedUserOp.accountGasLimits, .uint (some paymasterValidationGas),
   .uint packedUserOp.preVerificationGas, .bytes32 packedUserOp.gasFees, .uint chainId,
   .address paymaster, .uint validUntil, .uint validAfter]

/-- `GetPaymasterHash`: the hash the verifying paymaster signs. The paymaster address is
`paymasterAndData[:20]`, the validation gas `paymasterAndData[20:52]` read as one integer. -/
def getPaymasterHash (packedUserOp : PackedUserOperation) (chainId validUntil validAfter : Option Int) :
    Except Fault Hash :=
  if packedUserOp.paymasterAndData.length < paymasterDataOffset then
    .error (.error "PaymasterAndData too short")
  else do
    let paymaster :=
      bytesToAddress (packedUserOp.paymasterAndData.take paymasterValidationGasOffset)
    let packed ← wrapError "pack error in GetPaymasterHash: " (abiPack (paymasterHashArgs cr
      packedUserOp chainId paymaster
      (setBytes ((packedUserOp.paymasterAndData.take paymasterDataOffset).drop
        paymasterValidationGasOffset))
      validUntil validAfter))
    pure (cr.keccak256 packed)

def messagePrefix : String := "\x19Ethereum Signed Message:\n"

/-- The bytes of an ASCII string, as `[]byte(s)` gives them. -/
def asciiBytes (s : String) : List UInt8 := s.data.map fun c => UInt8.ofNat c.toNat

/-- `SignMessage`: sign the Keccak-256 hash of the prefixed message, then add 27 to the recovery
id at byte 64. A nil key panics inside `crypto.Sign`. -/
def signMessage (privateKey : Option PrivateKey) (message : List UInt8) :
    Except Fault (List UInt8) :=
  let prefixedMessage := messagePrefix ++ toString message.length
  let hash := cr.keccak256 (asciiBytes prefixedMessage ++ message)
  match privateKey with
  | none => .error (.panic nilDeref)
  | some key =>
    match cr.sign key hash with
    | .error err => .error (.error ("failed to sign message: " ++ err))
    | .ok signature =>
      match signature[64]? with
      | some v => .ok (signature.set 64 (v + 27))
      | none => .error (.panic "runtime error: index out of range [64]")

theorem signMessage_of_sign {key : PrivateKey} {m s : List UInt8}
    (hs : cr.sign key (cr.keccak256 (asciiBytes (messagePrefix ++ toString m.length) ++ m)) = .ok s)
    (hlen : 65 ≤ s.length) : signMessage cr (some key) m = .ok (s.set 64 (s[64] + 27)) := by
  simp [signMessage, hs, List.getElem?_eq_getElem (show 64 < s.length by omega)]

theorem signMessage_length (hsign : ∀ k h s, cr.sign k h = .ok s → s.length = 65)
    {key : Option PrivateKey} {m s : List UInt8} (h : signMessage cr key m = .ok s) :
    s.length = 65 := by
  rcases key with _ | key
  · cases h
  simp only [signMessage] at h
  split at h
  · cases h
  · next s0 hs0 =>
    split at h
    · cases h
      rw [List.length_set, hsign _ _ _ hs0]
    · cases h

/-! ## What the hashes read -/

@[simp] theorem hashedUserOp_signature (p : PackedUserOperation) (s : List UInt8) :
    hashedUserOp cr { p with signature := s } = hashedUserOp cr p := rfl

@[simp] theorem getUserOpHash_signature (p : PackedUserOperation) (s : List UInt8)
    (entrypoint : Address) (chainId : Option Int) :
    getUserOpHash cr { p with signature := s } entrypoint chainId =
      getUserOpHash cr p entrypoint chainId := rfl

theorem getPaymasterHash_of_length {p : PackedUserOperation} (h : paymasterDataOffset ≤ p.paymasterAndData.length)
    (chainId validUntil validAfter : Option Int) :
    getPaymasterHash cr p chainId validUntil validAfter =
      (wrapError "pack error in GetPaymasterHash: " (abiPack (paymasterHashArgs cr p chainId
        (bytesToAddress (p.paymasterAndData.take paymasterValidationGasOffset))
        (setBytes ((p.paymasterAndData.take paymasterDataOffset).drop paymasterValidationGasOffset))
        validUntil validAfter))).map cr.keccak256 := by
  rw [getPaymasterHash, if_neg (by omega)]
  dsimp only
  cases wrapError _ _ <;> rfl

theorem getPaymasterHash_congr {p q : PackedUserOperation}
    (hp : paymasterDataOffset ≤ p.paymasterAndData.length)
    (hq : paymasterDataOffset ≤ q.paymasterAndData.length)
    (htake : p.paymasterAndData.take paymasterDataOffset = q.paymasterAndData.take paymasterDataOffset)
    (hrest : { p with paymasterAndData := [], signature := [] } =
      { q with paymasterAndData := [], signature := [] })
    (chainId validUntil validAfter : Option Int) :
    getPaymasterHash cr p chainId validUntil validAfter =
      getPaymasterHash cr q chainId validUntil validAfter := by
  have h20 : ∀ l : List UInt8, l.take paymasterValidationGasOffset =
      (l.take paymasterDataOffset).take paymasterValidationGasOffset := fun l => by
    rw [List.take_take]; rfl
  cases p; cases q
  simp only [PackedUserOperation.mk.injEq] at hrest
  obtain ⟨rfl, rfl, rfl, rfl, rfl, rfl, rfl, -, -⟩ := hrest
  rw [getPaymasterHash_of_length cr hp, getPaymasterHash_of_length cr hq, h20, htake, ← h20]
  rfl

@[simp] theorem getPaymasterHash_signature (p : PackedUserOperation) (s : List UInt8)
    (chainId validUntil validAfter : Option Int) :
    getPaymasterHash cr { p with signature := s } chainId validUntil validAfter =
      getPaymasterHash cr p chainId validUntil validAfter := rfl

theorem getPaymasterHash_append {p : PackedUserOperation}
    (h : paymasterDataOffset ≤ p.paymasterAndData.length) (d : List UInt8)
    (chainId validUntil validAfter : Option Int) :
    getPaymasterHash cr { p with paymasterAndData := p.paymasterAndData ++ d } chainId validUntil
      validAfter = getPaymasterHash cr p chainId validUntil validAfter :=
  getPaymasterHash_congr cr (p := { p with paymasterAndData := p.paymasterAndData ++ d })
    (by simp only [List.length_append]; omega) h
    (List.take_append_of_le_length h) rfl chainId validUntil validAfter

theorem getPaymasterHash_ne_error {p : PackedUserOperation}
    (h : paymasterDataOffset ≤ p.paymasterAndData.length) (chainId validUntil validAfter : Option Int)
    (msg : String) : getPaymasterHash cr p chainId validUntil validAfter ≠ .error (.error msg) := by
  rw [getPaymasterHash_of_length cr h]
  generalize hw : wrapError _ _ = w
  have := hw ▸ wrapError_ne_error (fun m => abiPack_ne_error _ m) msg
  rcases w with e | a <;> simp_all [Except.map]

theorem getPaymasterHash_succeeds {p : PackedUserOperation}
    (h : paymasterDataOffset ≤ p.paymasterAndData.length) {n v : Int} (hn : p.nonce = some n)
    (hv : p.preVerificationGas = some v) (chainId validUntil validAfter : Int) :
    ∃ ph, getPaymasterHash cr p (some chainId) (some validUntil) (some validAfter) = .ok ph := by
  obtain ⟨b, hb⟩ := @abiPack_of_isSet (paymasterHashArgs cr p (some chainId)
    (bytesToAddress (p.paymasterAndData.take paymasterValidationGasOffset))
    (setBytes ((p.paymasterAndData.take paymasterDataOffset).drop paymasterValidationGasOffset))
    (some validUntil) (some validAfter)) (by simp [paymasterHashArgs, hn, hv, AbiArg.isSet])
  exact ⟨_, by rw [getPaymasterHash_of_length cr h, hb]; rfl⟩

/-! ## What the two hashes hash -/

theorem hashedUserOp_eq_keccak {p : PackedUserOperation} {n v : Int} (hn : p.nonce = some n)
    (hv : p.preVerificationGas = some v) :
    ∃ b : List UInt8, b.length = 256 ∧ hashedUserOp cr p = .ok (cr.keccak256 b) := by
  obtain ⟨b, hb⟩ := @abiPack_of_isSet (hashedUserOpArgs cr p)
    (by simp [hashedUserOpArgs, hn, hv, AbiArg.isSet])
  exact ⟨b, abiPack_length hb, by simp [hashedUserOp, hb, pure, Except.pure]⟩

theorem getUserOpHash_eq_keccak {p : PackedUserOperation} {h : Hash}
    (hh : hashedUserOp cr p = .ok h) (entrypoint : Address) (chainId : Int) :
    ∃ b : List UInt8, b.length = 96 ∧
      getUserOpHash cr p entrypoint (some chainId) = .ok (cr.keccak256 b) := by
  obtain ⟨b, hb⟩ := @abiPack_of_isSet [.bytes32 h, .address entrypoint, .uint (some chainId)]
    (by simp [AbiArg.isSet])
  exact ⟨b, abiPack_length hb, by simp [getUserOpHash, hh, hb, pure, Except.pure]⟩

/-! ## The packed layout read back -/

/-- What EntryPoint v0.7 and the verifying paymaster read back from `p`, the packed form of `u`:
the two gas words, the paymaster address, gas limits and data at their offsets, the copied
fields, the `EncodePaymasterData` fields at `[52:84]`, `[84:116]` and `[116:]`; and the paymaster
and the validation gas `GetPaymasterHash` reads. -/
def ReadsBack (u : UserOperation) (p : PackedUserOperation) (vgl cgl mpf mf pvgl ppogl : Nat) :
    Prop :=
  unpackUints p.accountGasLimits = (vgl, cgl) ∧ unpackUints p.gasFees = (mpf, mf) ∧
  unpackPaymasterStaticFields p.paymasterAndData = (u.paymaster.bytes, pvgl, ppogl) ∧
  p.paymasterAndData.drop paymasterDataOffset = u.paymasterData ∧
  p.sender = u.sender ∧ p.nonce = u.nonce ∧ p.callData = u.callData ∧
  p.preVerificationGas = u.preVerificationGas ∧ p.signature = u.signature ∧
  p.initCode = u.initCode ∧
  (∀ (validUntil validAfter : Nat) (sig : List UInt8), validUntil < 2 ^ 48 →
    validAfter < 2 ^ 48 →
    encodePaymasterData (some validUntil) (some validAfter) sig = .ok u.paymasterData →
    parsePaymasterAndData p.paymasterAndData = (validUntil, validAfter, sig)) ∧
  (∀ (cr : Crypto) (chainId validUntil validAfter : Option Int),
    getPaymasterHash cr p chainId validUntil validAfter =
      (wrapError "pack error in GetPaymasterHash: " (abiPack (paymasterHashArgs cr p chainId
        u.paymaster (pvgl * 2 ^ 128 + ppogl) validUntil validAfter))).map cr.keccak256)

/-- On 128-bit gas values, everything `PackUserOperation` writes is read back at its place. -/
theorem packed_operation_decodes (u : UserOperation) (vgl cgl mpf mf pvgl ppogl : Nat)
    (h1 : u.verificationGasLimit = some (vgl : Int)) (h2 : u.callGasLimit = some (cgl : Int))
    (h3 : u.maxPriorityFeePerGas = some (mpf : Int)) (h4 : u.maxFeePerGas = some (mf : Int))
    (h5 : u.paymasterVerificationGasLimit = some (pvgl : Int))
    (h6 : u.paymasterPostOpGasLimit = some (ppogl : Int))
    (b1 : vgl < 2 ^ 128) (b2 : cgl < 2 ^ 128) (b3 : mpf < 2 ^ 128) (b4 : mf < 2 ^ 128)
    (b5 : pvgl < 2 ^ 128) (b6 : ppogl < 2 ^ 128) :
    ∃ p, packUserOperation u = .ok p ∧ ReadsBack u p vgl cgl mpf mf pvgl ppogl := by
  have l5 := pad16_natCast_length b5
  have l6 := pad16_natCast_length b6
  obtain ⟨s20, s36, s52, s2052, sdata⟩ := slices_of_lengths (D := u.paymasterData)
    u.paymaster.length_eq l5 l6
  refine ⟨_, packUserOperation_of_gas u h1 h2 h3 h4 h5 h6, unpackUints_copyToHash b1 b2,
    unpackUints_copyToHash b3 b4, ?_, sdata, rfl, rfl, rfl, rfl, rfl, rfl, ?_, ?_⟩
  · simp only [unpackPaymasterStaticFields, s20, s36, s52, setBytes_pad16, Int.natAbs_ofNat]
  · intro vu va sig hvu hva henc
    rw [encodePaymasterData_some, Except.ok.injEq] at henc
    have hX : (u.paymaster.bytes ++ pad16 pvgl ++ pad16 ppogl).length = paymasterDataOffset := by
      simp [u.paymaster.length_eq, l5, l6, paymasterDataOffset]
    simp only [← henc]
    exact parsePaymasterAndData_of_encode hX hvu hva
  · intro cr chainId vu va
    have hlen : paymasterDataOffset ≤ (u.paymaster.bytes ++ pad16 pvgl ++ pad16 ppogl ++
        u.paymasterData).length := by
      simp [u.paymaster.length_eq, l5, l6, paymasterDataOffset]; omega
    rw [getPaymasterHash_of_length cr hlen]
    simp only [s20, s2052, bytesToAddress_of_length u.paymaster.length_eq, setBytes_append,
      setBytes_pad16, Int.natAbs_ofNat, l6]
    norm_num

theorem packed_operation_decodes_default :
    ∃ p, packUserOperation (newUserOpWithDefault (Word.zero 20) [] none) = .ok p ∧
      ReadsBack (newUserOpWithDefault (Word.zero 20) [] none) p 200000 2000000 1000000
        25000000000 300000 100 :=
  packed_operation_decodes _ 200000 2000000 1000000 25000000000 300000 100 rfl rfl rfl rfl rfl rfl
    (by norm_num) (by norm_num) (by norm_num) (by norm_num) (by norm_num) (by norm_num)

end AaSdk
