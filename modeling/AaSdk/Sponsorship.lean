import AaSdk.Bundler

/-! # The sponsorship the verifying paymaster checks (`client.go`, `paymaster.go`)

`FillAndSign` is one half of a two-party exchange: it asks the verifying key
to sign `GetPaymasterHash` of the operation and writes the signature into
`paymasterData`; on chain, `VerifyingPaymaster._validatePaymasterUserOp`
parses `paymasterAndData` back, recomputes the hash over the validity window it
read and checks the signature against its signer. Here the second half is a
predicate, and the theorem joins the two: what the first leaves in the packed
operation is what the second needs. Signing is deterministic (RFC 6979), so
"the signature recovers to the verifying signer" is stated as "the signature is
the one the verifying key makes".
-/

namespace AaSdk

variable (cr : Crypto)

/-- `VerifyingPaymaster._validatePaymasterUserOp` on `packed`: the signature
`parsePaymasterAndData` reads is 64 or 65 bytes, and is the verifying key's `SignMessage` of
`getHash` over the validity window read with it. -/
def paymasterValidates (verifyingSigner : Option PrivateKey) (chainId : Option Int)
    (packed : PackedUserOperation) : Prop :=
  let (validUntil, validAfter, signature) := parsePaymasterAndData packed.paymasterAndData
  (signature.length = 64 ∨ signature.length = 65) ∧
    ∃ h, getPaymasterHash cr packed chainId (some validUntil) (some validAfter) = .ok h ∧
      signMessage cr verifyingSigner h.bytes = .ok signature

/-- What the verifying paymaster sees of a successful `FillAndSign`: the packed operation carries
the window `[0, MaxInt32]` and a signature it accepts. -/
def SponsorshipAccepted (c : Client) : Except Fault (UserOperation × Hash) → Prop
  | .error _ => True
  | .ok (op', _) => ∃ packed, packUserOperation op' = .ok packed ∧
      ((parsePaymasterAndData packed.paymasterAndData).1 : Int) = maxInt32 ∧
      (parsePaymasterAndData packed.paymasterAndData).2.1 = 0 ∧
      paymasterValidates cr c.config.verifyingSigner c.chainId packed

/-- With a paymaster configured, a key that signs in 65 bytes, and paymaster gas limits that fit
their 16-byte slots, every operation `FillAndSign` returns is accepted by the verifying paymaster:
it parses back the window that was signed, and the signature checks against `getHash` of the
operation as packed. -/
theorem fill_and_sign_sponsorship_accepted (c : Client) {pm : Address}
    (hpm : c.config.paymasterAddress = some pm)
    (hsign : ∀ k h s, cr.sign k h = .ok s → s.length = 65) (u : UserOperation)
    (signer : Option PrivateKey) {v p : Nat} (hv : v < 2 ^ 128) (hp : p < 2 ^ 128)
    (hpv : u.paymasterVerificationGasLimit = some (v : Int))
    (hpp : u.paymasterPostOpGasLimit = some (p : Int)) :
    SponsorshipAccepted cr c (fillAndSign cr c u signer) := by
  rcases hrun : fillAndSign cr c u signer with _ | ⟨op', h⟩
  · trivial
  obtain ⟨u2, u3, packed, sig, h1, h2, h3, -, rfl⟩ := fillAndSign_eq_ok cr c hrun
  obtain ⟨ph, psig, pd, hph, hpsig, hpd, rfl⟩ := fillPaymaster_some cr c hpm h2
  obtain ⟨n, ic, f, fd, rfl⟩ := prepare_frame cr c h1
  rw [encodePaymasterData_some, Except.ok.injEq] at hpd
  -- The packed `paymasterAndData`: 52 static bytes, then the two window words and `psig`.
  have hpad := packUserOperation_paymasterAndData h3
  simp only [hpv, hpp, packPaymasterAndData, Except.ok.injEq] at hpad
  have hX : (pm.bytes ++ pad16 v ++ pad16 p).length = paymasterDataOffset := by
    simp [pm.length_eq, pad16_natCast_length hv, pad16_natCast_length hp, paymasterDataOffset]
  have hparse : parsePaymasterAndData packed.paymasterAndData = (2147483647, 0, psig) := by
    rw [← hpad, ← hpd]
    exact parsePaymasterAndData_of_encode hX (by norm_num) (by norm_num)
  refine ⟨{ packed with signature := sig }, by rw [packUserOperation_signature, h3]; rfl, ?_⟩
  simp only [paymasterValidates, hparse, true_and]
  exact ⟨rfl, .inr (signMessage_length cr hsign hpsig), ph,
    (getPaymasterHash_signature cr packed sig _ _ _).trans (getPaymasterHash_packed cr c hph h3),
    hpsig⟩

theorem fill_and_sign_sponsorship_accepted_default :
    (∀ k h s, (signingCrypto lengthCrypto.keccak256 (fun _ _ => ⟨List.replicate 65 0, rfl⟩)
        (fun _ => Word.zero 20)).sign k h = .ok s → s.length = 65) ∧
    SponsorshipAccepted
      (signingCrypto lengthCrypto.keccak256 (fun _ _ => ⟨List.replicate 65 0, rfl⟩)
        (fun _ => Word.zero 20)) sponsoringClient
      (fillAndSign (signingCrypto lengthCrypto.keccak256 (fun _ _ => ⟨List.replicate 65 0, rfl⟩)
          (fun _ => Word.zero 20)) sponsoringClient
        (newUserOpWithDefault ⟨List.replicate 20 3, rfl⟩ [] none) (some ⟨1⟩)) :=
  have hsign : ∀ k h s, (signingCrypto lengthCrypto.keccak256
      (fun _ _ => ⟨List.replicate 65 0, rfl⟩) (fun _ => Word.zero 20)).sign k h = .ok s →
      s.length = 65 := fun _ _ _ h => by cases h; rfl
  ⟨hsign, fill_and_sign_sponsorship_accepted _ sponsoringClient rfl hsign _ _
    (v := 300000) (p := 100) (by norm_num) (by norm_num) rfl rfl⟩

end AaSdk
