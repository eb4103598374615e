import AaSdk.Bundler

/-! # One operation through several calls (`client.go`)

`FillAndSign` takes a `*UserOperation` and writes the caller's operation as
it goes: the nonce, the init code fields, the paymaster, its data, and last
the signature. `GetUserOpHash` and `SendUserOp` hand it the caller's pointer,
so one operation can go through several calls. `fillAndSignAt` is the Go
function with that pointer as explicit state; it returns what `fillAndSign`
returns, and a failed call leaves a partly filled operation behind. Calling it
again on the same pointer, with the same answers from the node, changes
nothing. When the account gets deployed between two calls, the second empties
the init code it signs but keeps the factory the first one wrote, and the
body `ToBody` makes of it carries that factory to the bundler.
-/

namespace AaSdk

variable (cr : Crypto) (c : Client)

/-! ## `FillAndSign` on the caller's pointer -/

/-- Lines 108–130 on `*userOp`: the nonce is written as soon as it is fetched, the init code
fields once `getInitCodeData` has answered. -/
def prepareAt (userOp : UserOperation) (signer : Option PrivateKey) :
    Except Fault Unit × UserOperation :=
  if userOp.sender = Word.zero 20 then (.error (.error "sender address is empty"), userOp) else
  match fillNonce c userOp with
  | .error e => (.error e, userOp)
  | .ok userOp =>
    match signerAddress cr signer >>= fun owner => wrapError "error getting account init code: "
        (getInitCodeData c userOp.sender owner userOp.salt) with
    | .error e => (.error e, userOp)
    | .ok (initCode, data) => (.ok (), setInitCode initCode data c.config.accountFactory userOp)

/-- Lines 132–167 on `*userOp`: `Paymaster` is written before `GetPaymasterHash` is called and
`PaymasterData` after the last encoding, so a failure in between leaves the new paymaster beside
the old data. -/
def fillPaymasterAt (userOp : UserOperation) : Except Fault Unit × UserOperation :=
  match c.config.paymasterAddress with
  | none => (.ok (), userOp)
  | some paymasterAddress =>
    match wrapError "error encoding paymaster data: "
        (encodePaymasterData (some maxInt32) (some 0) emptySignature) with
    | .error e => (.error e, userOp)
    | .ok paymasterData =>
      let userOp := { userOp with paymaster := paymasterAddress }
      match (do
          let packed ← provisionalPacked userOp paymasterData
          let paymasterHash ← wrapError "error getting paymaster data: "
            (getPaymasterHash cr packed c.chainId (some maxInt32) (some 0))
          let paymasterSig ← wrapError "error signing paymaster data: "
            (signMessage cr c.config.verifyingSigner paymasterHash.bytes)
          wrapError "error encoding paymaster data: "
            (encodePaymasterData (some maxInt32) (some 0) paymasterSig)) with
      | .error e => (.error e, userOp)
      | .ok paymasterData => (.ok (), { userOp with paymasterData := paymasterData })

/-- Lines 169–177 on `*userOp`: pack, sign, and write the signature last. -/
def signAt (userOp : UserOperation) (signer : Option PrivateKey) :
    Except Fault Hash × UserOperation :=
  match packUserOperation userOp with
  | .error e => (.error e, userOp)
  | .ok packed =>
    match wrapError "error signing user operation: " (signUserOp cr c packed signer) with
    | .error e => (.error e, userOp)
    | .ok (sig, hash) => (.ok hash, { userOp with signature := sig })

/-- `FillAndSign` as Go runs it on `*userOp`: the hash, or the error, beside the caller's
operation after the call. Every block writes its fields before the next one runs, so an error
return keeps the writes of the blocks before it; on success the caller's operation is the one
returned. -/
def fillAndSignAt (userOp : UserOperation) (signer : Option PrivateKey) :
    Except Fault Hash × UserOperation :=
  match prepareAt cr c userOp signer with
  | (.error e, userOp) => (.error e, userOp)
  | (.ok (), userOp) =>
    match fillPaymasterAt cr c userOp with
    | (.error e, userOp) => (.error e, userOp)
    | (.ok (), userOp) => signAt cr c userOp signer

/-! ## Each block against `fillAndSign` -/

theorem prepareAt_eq (u : UserOperation) (signer : Option PrivateKey) :
    ∃ w, (w = u ∨ u.sender ≠ Word.zero 20 ∧ fillNonce c u = .ok w) ∧
      prepareAt cr c u signer = match prepare cr c u signer with
        | .ok u2 => (.ok (), u2)
        | .error e => (.error e, w) := by
  unfold prepareAt prepare
  by_cases hs : u.sender = Word.zero 20
  · exact ⟨u, .inl rfl, by simp only [hs, if_true]⟩
  simp only [hs, if_false]
  rcases hn : fillNonce c u with e | u1
  · exact ⟨u, .inl rfl, rfl⟩
  refine ⟨u1, .inr ⟨hs, rfl⟩, ?_⟩
  simp only [except_ok_bind]
  rcases signerAddress cr signer with e | owner
  · rfl
  simp only [except_ok_bind]
  rcases wrapError "error getting account init code: "
    (getInitCodeData c u1.sender owner u1.salt) with e | ⟨ic, data⟩ <;> rfl

theorem fillPaymasterAt_eq (u : UserOperation) :
    fillPaymasterAt cr c u = match fillPaymaster cr c u with
      | .ok u3 => (.ok (), u3)
      | .error e =>
        (.error e, { u with paymaster := c.config.paymasterAddress.getD u.paymaster }) := by
  unfold fillPaymasterAt fillPaymaster sponsorshipHash
  rcases c.config.paymasterAddress with _ | pm
  · rfl
  simp only [encodePaymasterData_some, wrapError_ok, except_ok_bind, Option.getD_some]
  rcases provisionalPacked { u with paymaster := pm }
    (u256Bytes maxInt32 ++ u256Bytes 0 ++ emptySignature) with e | packed
  · rfl
  simp only [except_ok_bind]
  rcases wrapError "error getting paymaster data: "
    (getPaymasterHash cr packed c.chainId (some maxInt32) (some 0)) with e | ph
  · rfl
  simp only [except_ok_bind]
  rcases wrapError "error signing paymaster data: "
    (signMessage cr c.config.verifyingSigner ph.bytes) with e | psig
  · rfl
  simp only [except_ok_bind, encodePaymasterData_some, wrapError_ok]
  rfl

/-- What a failed `FillAndSign` may have written into the caller's operation: the nonce the entry
point gave for a nil one, the init code fields and the paymaster fields; never the signature,
the sender, the call data, the salt or a gas value. -/
def PartlyFilled (u w : UserOperation) : Prop :=
  ∃ n ic f fd pm pd,
    w = { u with nonce := n, initCode := ic, factory := f, factoryData := fd, paymaster := pm,
                 paymasterData := pd } ∧
    (n = u.nonce ∨ u.nonce = none ∧ ∃ k, c.chain.getNonce u.sender u.salt = .ok k ∧ n = some k)

theorem partlyFilled_self (u : UserOperation) : PartlyFilled c u u :=
  ⟨_, _, _, _, _, _, rfl, .inl rfl⟩

theorem partlyFilled_of_fillNonce {u w : UserOperation} (h : fillNonce c u = .ok w) :
    PartlyFilled c u w := by
  unfold fillNonce at h
  split at h
  · cases h; exact partlyFilled_self c u
  · next hn =>
    obtain ⟨k, hk, h⟩ := except_bind_eq_ok.mp h
    cases h
    exact ⟨_, _, _, _, _, _, rfl, .inr ⟨hn, k, wrapError_eq_ok.mp hk, rfl⟩⟩

theorem PartlyFilled.update {u w : UserOperation} (h : PartlyFilled c u w)
    (ic : List UInt8) (f : Address) (fd : List UInt8) (pm : Address) (pd : List UInt8) :
    PartlyFilled c u { w with initCode := ic, factory := f, factoryData := fd, paymaster := pm,
                              paymasterData := pd } := by
  obtain ⟨n, -, -, -, -, -, rfl, hn⟩ := h
  exact ⟨n, ic, f, fd, pm, pd, rfl, hn⟩

/-- The caller's operation after the call: the one returned on success, and a partly filled one
on failure. -/
theorem fill_and_sign_in_place (u : UserOperation) (signer : Option PrivateKey) :
    ∃ w, PartlyFilled c u w ∧ fillAndSignAt cr c u signer = match fillAndSign cr c u signer with
      | .ok (op', h) => (.ok h, op')
      | .error e => (.error e, w) := by
  obtain ⟨w, hw, hp⟩ := prepareAt_eq cr c u signer
  unfold fillAndSignAt fillAndSign
  rw [hp]
  rcases hprep : prepare cr c u signer with e | u2
  · exact ⟨w, hw.elim (fun h => h ▸ partlyFilled_self c u) fun h => partlyFilled_of_fillNonce c h.2,
      rfl⟩
  obtain ⟨u1, -, ic, data, -, hn, -, -, rfl⟩ := prepare_eq_ok cr c hprep
  have h2 : PartlyFilled c u (setInitCode ic data c.config.accountFactory u1) := by
    rw [setInitCode_eq]
    exact (partlyFilled_of_fillNonce c hn).update c _ _ _ _ _
  simp only [except_ok_bind]
  rw [fillPaymasterAt_eq]
  rcases hfp : fillPaymaster cr c (setInitCode ic data c.config.accountFactory u1) with e | u3
  · exact ⟨_, h2.update c _ _ _ _ _, rfl⟩
  obtain ⟨pm, pd, rfl⟩ := fillPaymaster_frame cr c hfp
  set u2 := setInitCode ic data c.config.accountFactory u1
  refine ⟨_, h2.update c u2.initCode u2.factory u2.factoryData pm pd, ?_⟩
  simp only [except_ok_bind, signAt]
  rcases packUserOperation _ with e | packed
  · rfl
  simp only [except_ok_bind]
  rcases wrapError "error signing user operation: " (signUserOp cr c packed signer) with
    e | ⟨sig, h⟩ <;> rfl

/-! ## Running it again on the same pointer -/

theorem prepareAt_fillNonce {u u1 : UserOperation} (signer : Option PrivateKey)
    (hs : u.sender ≠ Word.zero 20) (h : fillNonce c u = .ok u1) :
    prepareAt cr c u1 signer = prepareAt cr c u signer := by
  obtain ⟨n, rfl, -⟩ := fillNonce_eq_ok c h
  have h1 : fillNonce c { u with nonce := some n } = .ok { u with nonce := some n } := rfl
  simp only [prepareAt, h, h1, hs, if_false]

theorem prepare_writes {u u2 : UserOperation} {signer : Option PrivateKey}
    (h : prepare cr c u signer = .ok u2) (pm : Address) (pd s : List UInt8) :
    prepare cr c { u2 with paymaster := pm, paymasterData := pd, signature := s } signer =
      .ok { u2 with paymaster := pm, paymasterData := pd, signature := s } := by
  obtain ⟨u1, owner, ic, data, hs, hn, ho, hi, rfl⟩ := prepare_eq_ok cr c h
  obtain ⟨n, rfl, -⟩ := fillNonce_eq_ok c hn
  have := prepare_of_nonce cr c (w := { (setInitCode ic data c.config.accountFactory
    { u with nonce := some n }) with paymaster := pm, paymasterData := pd, signature := s })
    (n := n) (by simpa using hs) (by simp) ho (by simpa using hi)
  rwa [setInitCode_idem] at this

theorem prepareAt_writes {u u2 : UserOperation} {signer : Option PrivateKey}
    (h : prepare cr c u signer = .ok u2) (pm : Address) (pd s : List UInt8) :
    prepareAt cr c { u2 with paymaster := pm, paymasterData := pd, signature := s } signer =
      (.ok (), { u2 with paymaster := pm, paymasterData := pd, signature := s }) := by
  obtain ⟨w, -, hp⟩ := prepareAt_eq cr c
    { u2 with paymaster := pm, paymasterData := pd, signature := s } signer
  rw [hp, prepare_writes cr c h]

theorem fillPaymaster_paymaster {pm : Address} (hpm : c.config.paymasterAddress = some pm)
    (u : UserOperation) : fillPaymaster cr c { u with paymaster := pm } = fillPaymaster cr c u := by
  simp only [fillPaymaster, hpm]
  rfl

theorem signAt_frame (u : UserOperation) (signer : Option PrivateKey) :
    (signAt cr c u signer).2 = u ∨
      ∃ sig, (signAt cr c u signer).2 = { u with signature := sig } := by
  unfold signAt
  split
  · exact .inl rfl
  · split
    · exact .inl rfl
    · exact .inr ⟨_, rfl⟩

theorem signAt_idem (u : UserOperation) (signer : Option PrivateKey) :
    signAt cr c (signAt cr c u signer).2 signer = signAt cr c u signer := by
  unfold signAt
  rcases hp : packUserOperation u with e | packed
  · simp only [hp]
  rcases hs : wrapError "error signing user operation: " (signUserOp cr c packed signer) with
    e | ⟨sig, h⟩
  · simp only [hp, hs]
  · simp only [packUserOperation_signature, hp, Except.map, signUserOp_signature, hs]

/-- `FillAndSign` on the same pointer twice, with the same answers from the node, does what it did
once: a failure fails again in the same way and leaves the operation as the first call did, and a
success returns the same hash and leaves the same operation. -/
theorem fill_and_sign_in_place_idempotent (u : UserOperation) (signer : Option PrivateKey) :
    fillAndSignAt cr c (fillAndSignAt cr c u signer).2 signer = fillAndSignAt cr c u signer := by
  obtain ⟨w, hw, hp⟩ := prepareAt_eq cr c u signer
  rcases hprep : prepare cr c u signer with e | u2 <;> rw [hprep] at hp
  case error =>
    have hrun : fillAndSignAt cr c u signer = (.error e, w) := by simp only [fillAndSignAt, hp]
    rw [hrun]
    rcases hw with rfl | ⟨hs, hn⟩
    · exact hrun
    · simp only [fillAndSignAt, prepareAt_fillNonce cr c signer hs hn, hp]
  case ok =>
    have hrun : fillAndSignAt cr c u signer = match fillPaymasterAt cr c u2 with
        | (.error e, userOp) => (.error e, userOp)
        | (.ok (), userOp) => signAt cr c userOp signer := by
      simp only [fillAndSignAt, hp]
    rw [hrun, fillPaymasterAt_eq]
    rcases hfp : fillPaymaster cr c u2 with e | u3
    · obtain ⟨pm, hpm⟩ : ∃ pm, c.config.paymasterAddress = some pm := by
        rcases hpm : c.config.paymasterAddress with _ | pm
        · rw [fillPaymaster_none cr c hpm] at hfp; cases hfp
        · exact ⟨pm, rfl⟩
      simp only [hpm, Option.getD_some]
      simp only [fillAndSignAt, prepareAt_writes cr c hprep pm u2.paymasterData u2.signature]
      rw [fillPaymasterAt_eq]
      simp only [fillPaymaster_paymaster cr c hpm, hfp, hpm, Option.getD_some]
    · obtain ⟨pm, pd, rfl⟩ := fillPaymaster_frame cr c hfp
      have hidem := signAt_idem cr c { u2 with paymaster := pm, paymasterData := pd } signer
      rcases signAt_frame cr c { u2 with paymaster := pm, paymasterData := pd } signer with
        h | ⟨sig, h⟩ <;> dsimp only <;> rw [h] at hidem ⊢
      · simp only [fillAndSignAt, prepareAt_writes cr c hprep pm pd u2.signature,
          fillPaymasterAt_eq, fillPaymaster_idem cr c hfp]
      · simp only [fillAndSignAt, prepareAt_writes cr c hprep pm pd sig, fillPaymasterAt_eq,
          fillPaymaster_signature cr c sig (fillPaymaster_idem cr c hfp)]
        exact hidem

/-! ## The account deployed between two calls -/

theorem fillAndSign_deployed {u op' : UserOperation} {signer : Option PrivateKey} {h : Hash}
    (hcode : ∀ code, c.chain.codeAt u.sender = .ok code → 0 < code.length)
    (hrun : fillAndSign cr c u signer = .ok (op', h)) :
    op'.initCode = [] ∧ op'.factory = u.factory ∧ op'.factoryData = u.factoryData := by
  obtain ⟨u2, u3, packed, sig, h1, h2, -, -, rfl⟩ := fillAndSign_eq_ok cr c hrun
  obtain ⟨u1, owner, ic, data, -, hn, -, hi, rfl⟩ := prepare_eq_ok cr c h1
  obtain ⟨n, rfl, -⟩ := fillNonce_eq_ok c hn
  obtain ⟨rfl, rfl⟩ := getInitCodeData_deployed c hcode hi
  obtain ⟨pm, pd, rfl⟩ := fillPaymaster_frame cr c h2
  exact ⟨rfl, rfl, rfl⟩

theorem fillAndSign_undeployed {u op' : UserOperation} {signer : Option PrivateKey} {h : Hash}
    (hcode : c.chain.codeAt u.sender = .ok [])
    (hrun : fillAndSign cr c u signer = .ok (op', h)) :
    op'.factory = c.config.accountFactory := by
  obtain ⟨u2, u3, packed, sig, h1, h2, -, -, rfl⟩ := fillAndSign_eq_ok cr c hrun
  obtain ⟨u1, owner, ic, data, -, hn, -, hi, rfl⟩ := prepare_eq_ok cr c h1
  obtain ⟨n, rfl, -⟩ := fillNonce_eq_ok c hn
  have hic := getInitCodeData_undeployed c hcode hi
  obtain ⟨pm, pd, rfl⟩ := fillPaymaster_frame cr c h2
  have hne : ic.length ≠ 0 := by simp [hic, c.config.accountFactory.length_eq]
  simp [setInitCode, hne]

/-- `FillAndSign` once while the account has no code, then again on the operation it returned,
once the account has code (as `GetUserOpHash` and then `SendUserOp` do on one `*UserOperation`):
both succeed, but the second empties the init code it signs and keeps the factory the first wrote,
so the bundler rebuilds a non-empty `initCode` from the body it is sent. -/
theorem refill_after_deployment_sends_stale_factory (keccak256 : List UInt8 → Hash)
    (sign : PrivateKey → Hash → {l : List UInt8 // l.length = 65})
    (pubkeyToAddress : PrivateKey → Address) (ch : Chain) (nonce : Address → Option Int → Int)
    (code code' : Address → List UInt8) (data : Address → Option Int → List UInt8) (chainId : Int)
    (entrypoint accountFactory : Address) (verifyingSigner executorSigner : Option PrivateKey)
    (hfac : accountFactory ≠ Word.zero 20) (u : UserOperation) (hs : u.sender ≠ Word.zero 20)
    (hnew : code u.sender = []) (hdep : 0 < (code' u.sender).length) {g1 g2 g3 g4 g5 g6 v : Int}
    (h1 : u.verificationGasLimit = some g1) (h2 : u.callGasLimit = some g2)
    (h3 : u.maxPriorityFeePerGas = some g3) (h4 : u.maxFeePerGas = some g4)
    (h5 : u.paymasterVerificationGasLimit = some g5) (h6 : u.paymasterPostOpGasLimit = some g6)
    (hv : u.preVerificationGas = some v) (key : PrivateKey) :
    ∃ op1 hash1 op2 hash2 packed,
      fillAndSign (signingCrypto keccak256 sign pubkeyToAddress)
        ⟨some chainId, ⟨entrypoint, accountFactory, none, verifyingSigner, executorSigner⟩,
          answering ch nonce code data⟩ u (some key) = .ok (op1, hash1) ∧
      fillAndSign (signingCrypto keccak256 sign pubkeyToAddress)
        ⟨some chainId, ⟨entrypoint, accountFactory, none, verifyingSigner, executorSigner⟩,
          answering ch nonce code' data⟩ op1 (some key) = .ok (op2, hash2) ∧
      op1.factory = accountFactory ∧ op2.factory = accountFactory ∧ op2.initCode = [] ∧
      packUserOperation op2 = .ok packed ∧ packed.initCode = [] ∧
      ∀ p, readPacked (op2.toBody keccak256) = some p → p.initCode ≠ [] := by
  set cr := signingCrypto keccak256 sign pubkeyToAddress
  set config : Config := ⟨entrypoint, accountFactory, none, verifyingSigner, executorSigner⟩
  obtain ⟨op1, hash1, hrun1⟩ := fillAndSign_succeeds ⟨some chainId, config, answering ch nonce code data⟩
    keccak256 sign pubkeyToAddress rfl (fun _ _ => ⟨_, rfl⟩) (fun _ => ⟨_, rfl⟩)
    (fun _ _ => ⟨_, rfl⟩) (.inl rfl) hs h1 h2 h3 h4 h5 h6 hv key
  have hf1 := fillAndSign_undeployed cr _ (by rw [← hnew]; rfl) hrun1
  obtain ⟨n, ic, f, fd, pm, pd, s, rfl⟩ := fillAndSign_frame cr _ hrun1
  obtain ⟨op2, hash2, hrun2⟩ := fillAndSign_succeeds
    ⟨some chainId, config, answering ch nonce code' data⟩ keccak256 sign pubkeyToAddress rfl
    (fun _ _ => ⟨_, rfl⟩) (fun _ => ⟨_, rfl⟩) (fun _ _ => ⟨_, rfl⟩) (.inl rfl)
    (u := { u with nonce := n, initCode := ic, factory := f, factoryData := fd, paymaster := pm,
                   paymasterData := pd, signature := s })
    hs h1 h2 h3 h4 h5 h6 hv key
  obtain ⟨hic, hf2, -⟩ := fillAndSign_deployed cr _ (fun _ h => by cases h; exact hdep) hrun2
  obtain ⟨u2, u3, packed, sig, -, -, hpk, -, rfl⟩ := fillAndSign_eq_ok cr _ hrun2
  have hpk' :
      packUserOperation { u3 with signature := sig } = .ok { packed with signature := sig } := by
    rw [packUserOperation_signature, hpk]; rfl
  refine ⟨_, hash1, _, hash2, _, hrun1, hrun2, hf1, hf2.trans hf1, hic, hpk',
    (packUserOperation_initCode hpk').trans hic, fun p hp =>
    readPacked_of_factory (f := addressHex keccak256 u3.factory) ?_ hp⟩
  rw [lookup_toBody_factory, if_pos (by rw [hf2.trans hf1]; exact hfac)]

theorem refill_after_deployment_sends_stale_factory_default :
    (⟨List.replicate 20 1, rfl⟩ : Address) ≠ Word.zero 20 ∧
    (newUserOpWithDefault ⟨List.replicate 20 3, rfl⟩ [] none).sender ≠ Word.zero 20 ∧
    (fun _ => [] : Address → List UInt8)
      (newUserOpWithDefault ⟨List.replicate 20 3, rfl⟩ [] none).sender = [] ∧
    0 < ((fun _ => [1] : Address → List UInt8)
      (newUserOpWithDefault ⟨List.replicate 20 3, rfl⟩ [] none).sender).length ∧
    ∃ op1 hash1 op2 hash2 packed,
      fillAndSign (signingCrypto lengthCrypto.keccak256 (fun _ _ => ⟨List.replicate 65 0, rfl⟩)
          (fun _ => Word.zero 20))
        ⟨some 1, ⟨Word.zero 20, ⟨List.replicate 20 1, rfl⟩, none, none, none⟩,
          answering executorClient.chain (fun _ _ => 0) (fun _ => []) (fun _ _ => [])⟩
        (newUserOpWithDefault ⟨List.replicate 20 3, rfl⟩ [] none) (some ⟨1⟩) = .ok (op1, hash1) ∧
      fillAndSign (signingCrypto lengthCrypto.keccak256 (fun _ _ => ⟨List.replicate 65 0, rfl⟩)
          (fun _ => Word.zero 20))
        ⟨some 1, ⟨Word.zero 20, ⟨List.replicate 20 1, rfl⟩, none, none, none⟩,
          answering executorClient.chain (fun _ _ => 0) (fun _ => [1]) (fun _ _ => [])⟩
        op1 (some ⟨1⟩) = .ok (op2, hash2) ∧
      op1.factory = ⟨List.replicate 20 1, rfl⟩ ∧ op2.factory = ⟨List.replicate 20 1, rfl⟩ ∧
      op2.initCode = [] ∧ packUserOperation op2 = .ok packed ∧ packed.initCode = [] ∧
      ∀ p, readPacked (op2.toBody lengthCrypto.keccak256) = some p → p.initCode ≠ [] :=
  ⟨by decide, by decide, rfl, by decide,
    refill_after_deployment_sends_stale_factory _ _ _ _ _ _ _ _ 1 _ _ _ _ (by decide) _ (by decide)
      rfl (by decide) rfl rfl rfl rfl rfl rfl rfl ⟨1⟩⟩

end AaSdk
