import AaSdk.Client

/-! # What `FillAndSign` signs

Both signatures `FillAndSign` makes cover the packed form of the operation it
returns, and running it again on that operation gives the same operation and
hash.
-/

namespace AaSdk

variable (cr : Crypto) (c : Client)

/-! ## Frames: the signature is written last and read by nothing -/

theorem packUserOperation_signature (u : UserOperation) (s : List UInt8) :
    packUserOperation { u with signature := s } =
      (packUserOperation u).map fun p => { p with signature := s } := by
  simp only [packUserOperation]
  cases packInt u.verificationGasLimit u.callGasLimit <;>
    cases packInt u.maxPriorityFeePerGas u.maxFeePerGas <;>
    cases packPaymasterAndData u.paymaster u.paymasterVerificationGasLimit
      u.paymasterPostOpGasLimit u.paymasterData <;> rfl

@[simp] theorem signUserOp_signature (p : PackedUserOperation) (s : List UInt8)
    (signer : Option PrivateKey) :
    signUserOp cr c { p with signature := s } signer = signUserOp cr c p signer := rfl

@[simp] theorem provisionalPacked_paymasterData (u : UserOperation) (d pd : List UInt8) :
    provisionalPacked { u with paymasterData := d } pd = provisionalPacked u pd := rfl

/-! ## One lemma per block -/

theorem fillPaymaster_none {u : UserOperation} (hpm : c.config.paymasterAddress = none) :
    fillPaymaster cr c u = .ok u := by
  simp only [fillPaymaster, hpm]; rfl

theorem fillPaymaster_some {u u' : UserOperation} {pm : Address}
    (hpm : c.config.paymasterAddress = some pm) (h : fillPaymaster cr c u = .ok u') :
    ∃ ph psig pd, sponsorshipHash cr c u pm = .ok ph ∧
      signMessage cr c.config.verifyingSigner ph.bytes = .ok psig ∧
      encodePaymasterData (some maxInt32) (some 0) psig = .ok pd ∧
      u' = { u with paymaster := pm, paymasterData := pd } := by
  simp only [fillPaymaster, hpm, except_bind_eq_ok, wrapError_eq_ok] at h
  obtain ⟨ph, h1, psig, h2, pd, h3, h⟩ := h
  exact ⟨ph, psig, pd, h1, h2, h3, (Except.ok.inj h).symm⟩

@[simp] theorem sponsorshipHash_paymasterData (u : UserOperation) (pm : Address) (d : List UInt8) :
    sponsorshipHash cr c { u with paymasterData := d } pm = sponsorshipHash cr c u pm := rfl

@[simp] theorem sponsorshipHash_signature (u : UserOperation) (pm : Address) (s : List UInt8) :
    sponsorshipHash cr c { u with signature := s } pm = sponsorshipHash cr c u pm := rfl

theorem fillPaymaster_idem {u u' : UserOperation} (h : fillPaymaster cr c u = .ok u') :
    fillPaymaster cr c u' = .ok u' := by
  rcases hpm : c.config.paymasterAddress with _ | pm
  · exact fillPaymaster_none cr c hpm
  · obtain ⟨ph, psig, pd, h1, h2, h3, rfl⟩ := fillPaymaster_some cr c hpm h
    have h1' : sponsorshipHash cr c { u with paymaster := pm, paymasterData := pd } pm = .ok ph :=
      h1
    simp only [fillPaymaster, hpm, h1', h2, h3, wrapError_ok, except_ok_bind]
    rfl

theorem fillPaymaster_signature {u u' : UserOperation} (s : List UInt8)
    (h : fillPaymaster cr c u = .ok u') :
    fillPaymaster cr c { u with signature := s } = .ok { u' with signature := s } := by
  rcases hpm : c.config.paymasterAddress with _ | pm
  · rw [fillPaymaster_none cr c hpm] at h ⊢
    cases h; rfl
  · obtain ⟨ph, psig, pd, h1, h2, h3, rfl⟩ := fillPaymaster_some cr c hpm h
    simp only [fillPaymaster, hpm, sponsorshipHash_signature, h1, h2, h3, wrapError_ok,
      except_ok_bind]
    rfl

theorem fillPaymaster_frame {u u3 : UserOperation} (h : fillPaymaster cr c u = .ok u3) :
    ∃ pm pd, u3 = { u with paymaster := pm, paymasterData := pd } := by
  rcases hpm : c.config.paymasterAddress with _ | pm
  · rw [fillPaymaster_none cr c hpm] at h
    cases h
    exact ⟨_, _, rfl⟩
  · obtain ⟨-, -, pd, -, -, -, rfl⟩ := fillPaymaster_some cr c hpm h
    exact ⟨pm, pd, rfl⟩

theorem fillNonce_eq_ok {u u1 : UserOperation} (h : fillNonce c u = .ok u1) :
    ∃ n, u1 = { u with nonce := some n } ∧
      (u.nonce = some n ∨ c.chain.getNonce u.sender u.salt = .ok n) := by
  unfold fillNonce at h
  split at h
  · next n hn =>
    cases h
    exact ⟨n, by rw [← hn], .inl hn⟩
  · obtain ⟨n, hn, h⟩ := except_bind_eq_ok.mp h
    exact ⟨n, (Except.ok.inj h).symm, .inr (wrapError_eq_ok.mp hn)⟩

theorem getInitCodeData_eq_ok {a o : Address} {s : Option Int} {ic data : List UInt8}
    (h : getInitCodeData c a o s = .ok (ic, data)) :
    ic = [] ∨ ic = c.config.accountFactory.bytes ++ data := by
  obtain ⟨d, -, h⟩ := except_bind_eq_ok.mp h
  split at h
  · cases h
    exact .inl rfl
  · obtain ⟨_, -, h⟩ := except_bind_eq_ok.mp h
    cases h
    exact .inr rfl

theorem getInitCodeData_deployed {a o : Address} {s : Option Int} {ic data : List UInt8}
    (hcode : ∀ code, c.chain.codeAt a = .ok code → 0 < code.length)
    (h : getInitCodeData c a o s = .ok (ic, data)) : ic = [] ∧ data = [] := by
  obtain ⟨d, hd, h⟩ := except_bind_eq_ok.mp h
  obtain ⟨code, hc, hd⟩ := except_bind_eq_ok.mp (wrapError_eq_ok.mp hd)
  cases hd
  rw [if_pos (decide_eq_true (hcode code hc))] at h
  cases h
  exact ⟨rfl, rfl⟩

theorem getInitCodeData_undeployed {a o : Address} {s : Option Int} {ic data : List UInt8}
    (hcode : c.chain.codeAt a = .ok [])
    (h : getInitCodeData c a o s = .ok (ic, data)) : ic = c.config.accountFactory.bytes ++ data := by
  obtain ⟨d, hd, h⟩ := except_bind_eq_ok.mp h
  obtain ⟨code, hc, hd⟩ := except_bind_eq_ok.mp (wrapError_eq_ok.mp hd)
  rw [hcode] at hc
  cases hc
  cases hd
  obtain ⟨_, -, h⟩ := except_bind_eq_ok.mp h
  cases h
  rfl

theorem prepare_eq_ok {u u2 : UserOperation} {signer : Option PrivateKey}
    (h : prepare cr c u signer = .ok u2) :
    ∃ u1 owner ic data, u.sender ≠ Word.zero 20 ∧ fillNonce c u = .ok u1 ∧
      signerAddress cr signer = .ok owner ∧
      getInitCodeData c u1.sender owner u1.salt = .ok (ic, data) ∧
      u2 = setInitCode ic data c.config.accountFactory u1 := by
  unfold prepare at h
  split at h
  · cases h
  · simp only [except_bind_eq_ok, wrapError_eq_ok, Prod.exists] at h
    obtain ⟨u1, h1, owner, h2, ic, data, h3, h⟩ := h
    exact ⟨u1, owner, ic, data, ‹_›, h1, h2, h3, (Except.ok.inj h).symm⟩

theorem prepare_of_nonce {w : UserOperation} {signer : Option PrivateKey} {n : Int}
    {owner : Address} {ic data : List UInt8} (hs : w.sender ≠ Word.zero 20)
    (hn : w.nonce = some n) (ho : signerAddress cr signer = .ok owner)
    (hi : getInitCodeData c w.sender owner w.salt = .ok (ic, data)) :
    prepare cr c w signer = .ok (setInitCode ic data c.config.accountFactory w) := by
  simp only [prepare, if_neg hs, fillNonce, hn, ho, hi, pure, Except.pure, except_ok_bind,
    wrapError_ok]

@[simp] theorem setInitCode_sender (ic data : List UInt8) (f : Address) (u : UserOperation) :
    (setInitCode ic data f u).sender = u.sender := by
  unfold setInitCode; split <;> rfl

@[simp] theorem setInitCode_nonce (ic data : List UInt8) (f : Address) (u : UserOperation) :
    (setInitCode ic data f u).nonce = u.nonce := by
  unfold setInitCode; split <;> rfl

@[simp] theorem setInitCode_salt (ic data : List UInt8) (f : Address) (u : UserOperation) :
    (setInitCode ic data f u).salt = u.salt := by
  unfold setInitCode; split <;> rfl

theorem setInitCode_eq (ic data : List UInt8) (f : Address) (u : UserOperation) :
    setInitCode ic data f u =
      { u with initCode := ic, factory := if ic = [] then u.factory else f,
               factoryData := if ic = [] then u.factoryData else data } := by
  unfold setInitCode
  split
  · next h => simp [List.length_eq_zero.not.mp h]
  · next h => simp [List.length_eq_zero.mp (not_not.mp h)]

theorem prepare_frame {u u2 : UserOperation} {signer : Option PrivateKey}
    (h : prepare cr c u signer = .ok u2) :
    ∃ n ic f fd, u2 = { u with nonce := n, initCode := ic, factory := f, factoryData := fd } := by
  obtain ⟨u1, -, ic, data, -, hu1, -, -, rfl⟩ := prepare_eq_ok cr c h
  obtain ⟨n, rfl, -⟩ := fillNonce_eq_ok c hu1
  rw [setInitCode_eq]
  exact ⟨_, _, _, _, rfl⟩

theorem setInitCode_idem (ic data : List UInt8) (f pm : Address) (pd s : List UInt8)
    (u : UserOperation) :
    setInitCode ic data f
        { (setInitCode ic data f u) with paymaster := pm, paymasterData := pd, signature := s } =
      { (setInitCode ic data f u) with paymaster := pm, paymasterData := pd, signature := s } := by
  by_cases hic : ic.length = 0 <;> simp [setInitCode, hic]

theorem prepare_fixpoint {u u2 u3 : UserOperation} {signer : Option PrivateKey} (s : List UInt8)
    (h1 : prepare cr c u signer = .ok u2) (h2 : fillPaymaster cr c u2 = .ok u3) :
    prepare cr c { u3 with signature := s } signer = .ok { u3 with signature := s } := by
  obtain ⟨u1, owner, ic, data, hs, hn, ho, hi, rfl⟩ := prepare_eq_ok cr c h1
  obtain ⟨pm, pd, rfl⟩ := fillPaymaster_frame cr c h2
  obtain ⟨n, rfl, -⟩ := fillNonce_eq_ok c hn
  have := prepare_of_nonce cr c (w := { (setInitCode ic data c.config.accountFactory
    { u with nonce := some n }) with paymaster := pm, paymasterData := pd, signature := s })
    (n := n) (by simpa using hs) (by simp) ho (by simpa using hi)
  rwa [setInitCode_idem] at this

theorem signUserOp_eq_ok {p : PackedUserOperation} {signer : Option PrivateKey}
    {sig : List UInt8} {h : Hash} :
    signUserOp cr c p signer = .ok (sig, h) ↔
      getUserOpHash cr p c.config.entrypoint c.chainId = .ok h ∧
      signMessage cr signer h.bytes = .ok sig := by
  simp only [signUserOp, except_bind_eq_ok, pure, Except.pure, Except.ok.injEq, Prod.mk.injEq]
  constructor
  · rintro ⟨_, hh, _, hs, rfl, rfl⟩
    exact ⟨hh, hs⟩
  · rintro ⟨hh, hs⟩
    exact ⟨h, hh, sig, hs, rfl, rfl⟩

theorem fillAndSign_eq_ok {u op' : UserOperation} {signer : Option PrivateKey} {hash : Hash}
    (h : fillAndSign cr c u signer = .ok (op', hash)) :
    ∃ u2 u3 packed sig, prepare cr c u signer = .ok u2 ∧ fillPaymaster cr c u2 = .ok u3 ∧
      packUserOperation u3 = .ok packed ∧ signUserOp cr c packed signer = .ok (sig, hash) ∧
      op' = { u3 with signature := sig } := by
  simp only [fillAndSign, except_bind_eq_ok, wrapError_eq_ok, Prod.exists] at h
  obtain ⟨u2, h1, u3, h2, packed, h3, sig, hash', h4, h⟩ := h
  simp only [pure, Except.pure, Except.ok.injEq, Prod.mk.injEq] at h
  obtain ⟨rfl, rfl⟩ := h
  exact ⟨u2, u3, packed, sig, h1, h2, h3, h4, rfl⟩

theorem fillAndSign_frame {u op' : UserOperation} {signer : Option PrivateKey} {hash : Hash}
    (h : fillAndSign cr c u signer = .ok (op', hash)) :
    ∃ n ic f fd pm pd s, op' = { u with nonce := n, initCode := ic, factory := f, factoryData := fd,
                                        paymaster := pm, paymasterData := pd, signature := s } := by
  obtain ⟨u2, u3, packed, sig, h1, h2, -, -, rfl⟩ := fillAndSign_eq_ok cr c h
  obtain ⟨n, ic, f, fd, rfl⟩ := prepare_frame cr c h1
  obtain ⟨pm, pd, rfl⟩ := fillPaymaster_frame cr c h2
  exact ⟨_, _, _, _, _, _, _, rfl⟩

/-! ## The sponsorship hash survives the writes after it -/

theorem packUserOperation_eq_provisional (u : UserOperation) :
    packUserOperation u =
      (provisionalPacked u u.paymasterData).map fun p => { p with signature := u.signature } := by
  simp only [packUserOperation, provisionalPacked]
  cases packInt u.verificationGasLimit u.callGasLimit <;>
    cases packInt u.maxPriorityFeePerGas u.maxFeePerGas <;>
    cases packPaymasterAndData u.paymaster u.paymasterVerificationGasLimit
      u.paymasterPostOpGasLimit u.paymasterData <;> rfl

theorem provisionalPacked_append (u : UserOperation) (d : List UInt8) :
    provisionalPacked u d = (provisionalPacked u []).map
      fun p => { p with paymasterAndData := p.paymasterAndData ++ d } := by
  simp only [provisionalPacked]
  cases packInt u.verificationGasLimit u.callGasLimit <;>
    cases packInt u.maxPriorityFeePerGas u.maxFeePerGas <;>
    cases u.paymasterVerificationGasLimit <;> cases u.paymasterPostOpGasLimit <;>
    simp [packPaymasterAndData, Except.map]

theorem provisionalPacked_length {u : UserOperation} {d : List UInt8} {p : PackedUserOperation}
    (h : provisionalPacked u d = .ok p) : paymasterDataOffset ≤ p.paymasterAndData.length := by
  obtain ⟨_, -, h⟩ := except_bind_eq_ok.mp h
  obtain ⟨_, -, h⟩ := except_bind_eq_ok.mp h
  obtain ⟨_, hpd, h⟩ := except_bind_eq_ok.mp h
  cases h
  exact packPaymasterAndData_length hpd

theorem provisionalPacked_getPaymasterHash_ne_error (u : UserOperation) (pd : List UInt8)
    (chainId validUntil validAfter : Option Int) (msg : String) :
    (provisionalPacked u pd >>= fun p => getPaymasterHash cr p chainId validUntil validAfter) ≠
      .error (.error msg) := by
  rcases hp : provisionalPacked u pd with e | p
  · intro he
    cases he
    revert hp
    exact except_bind_ne_error (packInt_ne_error _ _ msg) fun _ =>
      except_bind_ne_error (packInt_ne_error _ _ msg) fun _ =>
      except_bind_ne_error (packPaymasterAndData_ne_error _ _ _ _ msg) fun _ h => Except.noConfusion h
  · exact getPaymasterHash_ne_error cr (provisionalPacked_length hp) chainId validUntil validAfter msg

theorem getPaymasterHash_packed {u : UserOperation} {pm : Address} {ph : Hash} {pd : List UInt8}
    {packed : PackedUserOperation} (hph : sponsorshipHash cr c u pm = .ok ph)
    (hpk : packUserOperation { u with paymaster := pm, paymasterData := pd } = .ok packed) :
    getPaymasterHash cr packed c.chainId (some maxInt32) (some 0) = .ok ph := by
  simp only [sponsorshipHash, except_bind_eq_ok, wrapError_eq_ok] at hph
  obtain ⟨pd0, -, p0, hp0, hph⟩ := hph
  rw [provisionalPacked_append, except_map_eq_ok] at hp0
  obtain ⟨r, hr, rfl⟩ := hp0
  have hq : provisionalPacked { u with paymaster := pm, paymasterData := pd } pd =
      provisionalPacked { u with paymaster := pm } pd := rfl
  rw [packUserOperation_eq_provisional, hq, provisionalPacked_append, hr] at hpk
  cases hpk
  have hlen := provisionalPacked_length hr
  calc getPaymasterHash cr _ c.chainId (some maxInt32) (some 0)
      = getPaymasterHash cr { r with paymasterAndData := r.paymasterAndData ++ pd } c.chainId
          (some maxInt32) (some 0) := rfl
    _ = getPaymasterHash cr r c.chainId (some maxInt32) (some 0) :=
          getPaymasterHash_append cr hlen pd _ _ _
    _ = .ok ph := (getPaymasterHash_append cr hlen pd0 _ _ _).symm.trans hph

/-! ## Runs that succeed -/

theorem fillNonce_succeeds (hnonce : ∀ a s, ∃ n, c.chain.getNonce a s = .ok n) (u : UserOperation) :
    ∃ n, fillNonce c u = .ok { u with nonce := some n } := by
  unfold fillNonce
  split
  · next n hn => exact ⟨n, by rw [← hn]; rfl⟩
  · obtain ⟨n, hn⟩ := hnonce u.sender u.salt
    exact ⟨n, by rw [hn]; rfl⟩

theorem getInitCodeData_succeeds (hcode : ∀ a, ∃ code, c.chain.codeAt a = .ok code)
    (hdata : ∀ o s, ∃ d, c.chain.packCreateAccount o s = .ok d) (a o : Address) (s : Option Int) :
    ∃ r, getInitCodeData c a o s = .ok r := by
  obtain ⟨code, hcd⟩ := hcode a
  obtain ⟨d, hd⟩ := hdata o s
  by_cases h : 0 < code.length <;>
    simp [getInitCodeData, isAccountDeployed, hcd, hd, h, pure, Except.pure]

theorem prepare_succeeds (hnonce : ∀ a s, ∃ n, c.chain.getNonce a s = .ok n)
    (hcode : ∀ a, ∃ code, c.chain.codeAt a = .ok code)
    (hdata : ∀ o s, ∃ d, c.chain.packCreateAccount o s = .ok d) {u : UserOperation}
    (hs : u.sender ≠ Word.zero 20) (key : PrivateKey) :
    ∃ n ic f fd, prepare cr c u (some key) =
      .ok { u with nonce := some n, initCode := ic, factory := f, factoryData := fd } := by
  obtain ⟨n, hn⟩ := fillNonce_succeeds c hnonce u
  obtain ⟨⟨ic, data⟩, hi⟩ :=
    getInitCodeData_succeeds c hcode hdata u.sender (cr.pubkeyToAddress key) u.salt
  have hprep : prepare cr c u (some key) =
      .ok (setInitCode ic data c.config.accountFactory { u with nonce := some n }) := by
    simp only [prepare, hs, if_false, hn, except_ok_bind, signerAddress, hi, wrapError_ok]
    rfl
  rw [hprep, setInitCode_eq]
  exact ⟨n, ic, _, _, rfl⟩

theorem provisionalPacked_succeeds {u : UserOperation} {g1 g2 g3 g4 g5 g6 : Int}
    (h1 : u.verificationGasLimit = some g1) (h2 : u.callGasLimit = some g2)
    (h3 : u.maxPriorityFeePerGas = some g3) (h4 : u.maxFeePerGas = some g4)
    (h5 : u.paymasterVerificationGasLimit = some g5) (h6 : u.paymasterPostOpGasLimit = some g6)
    (d : List UInt8) :
    ∃ p, provisionalPacked u d = .ok p ∧ p.nonce = u.nonce ∧
      p.preVerificationGas = u.preVerificationGas := by
  simp only [provisionalPacked, h1, h2, h3, h4, h5, h6, packInt_some, packPaymasterAndData_some,
    except_ok_bind]
  exact ⟨_, rfl, rfl, rfl⟩

theorem fillPaymaster_succeeds {chainId : Int} (hc : c.chainId = some chainId)
    (hsig : ∀ pm, c.config.paymasterAddress = some pm →
      ∀ m, ∃ s, signMessage cr c.config.verifyingSigner m = .ok s)
    {u : UserOperation} {n v g1 g2 g3 g4 g5 g6 : Int} (hn : u.nonce = some n)
    (hv : u.preVerificationGas = some v)
    (h1 : u.verificationGasLimit = some g1) (h2 : u.callGasLimit = some g2)
    (h3 : u.maxPriorityFeePerGas = some g3) (h4 : u.maxFeePerGas = some g4)
    (h5 : u.paymasterVerificationGasLimit = some g5) (h6 : u.paymasterPostOpGasLimit = some g6) :
    ∃ u3, fillPaymaster cr c u = .ok u3 := by
  rcases hpm : c.config.paymasterAddress with _ | pm
  · exact ⟨u, fillPaymaster_none cr c hpm⟩
  obtain ⟨p, hp, hpn, hpv⟩ := provisionalPacked_succeeds (u := { u with paymaster := pm })
    h1 h2 h3 h4 h5 h6 (u256Bytes maxInt32 ++ u256Bytes 0 ++ emptySignature)
  obtain ⟨ph, hph⟩ := getPaymasterHash_succeeds cr (provisionalPacked_length hp) (hpn.trans hn)
    (hpv.trans hv) chainId maxInt32 0
  obtain ⟨psig, hps⟩ := hsig pm hpm ph.bytes
  simp only [fillPaymaster, hpm, sponsorshipHash, encodePaymasterData_some, wrapError_ok,
    except_ok_bind, hp, hc, hph, hps]
  exact ⟨_, rfl⟩

theorem fillAndSign_succeeds (keccak256 : List UInt8 → Hash)
    (sign : PrivateKey → Hash → {l : List UInt8 // l.length = 65})
    (pubkeyToAddress : PrivateKey → Address) {chainId : Int} (hc : c.chainId = some chainId)
    (hnonce : ∀ a s, ∃ n, c.chain.getNonce a s = .ok n)
    (hcode : ∀ a, ∃ code, c.chain.codeAt a = .ok code)
    (hdata : ∀ o s, ∃ d, c.chain.packCreateAccount o s = .ok d)
    (hvs : c.config.paymasterAddress = none ∨ ∃ k, c.config.verifyingSigner = some k)
    {u : UserOperation} (hs : u.sender ≠ Word.zero 20) {g1 g2 g3 g4 g5 g6 v : Int}
    (h1 : u.verificationGasLimit = some g1) (h2 : u.callGasLimit = some g2)
    (h3 : u.maxPriorityFeePerGas = some g3) (h4 : u.maxFeePerGas = some g4)
    (h5 : u.paymasterVerificationGasLimit = some g5) (h6 : u.paymasterPostOpGasLimit = some g6)
    (hv : u.preVerificationGas = some v) (key : PrivateKey) :
    ∃ op' h, fillAndSign (signingCrypto keccak256 sign pubkeyToAddress) c u (some key) =
      .ok (op', h) := by
  set cr := signingCrypto keccak256 sign pubkeyToAddress
  have hsigns : ∀ k m, ∃ s, signMessage cr (some k) m = .ok s :=
    fun k _ => ⟨_, signMessage_of_sign cr rfl (sign k _).2.ge⟩
  obtain ⟨n, ic, f, fd, hprep⟩ := prepare_succeeds cr c hnonce hcode hdata hs key
  obtain ⟨u3, hfp⟩ := fillPaymaster_succeeds cr c hc
    (fun pm hpm m => by
      obtain ⟨k, hk⟩ := hvs.resolve_left (by rw [hpm]; exact Option.some_ne_none pm)
      rw [hk]; exact hsigns k m)
    (u := { u with nonce := some n, initCode := ic, factory := f, factoryData := fd })
    rfl hv h1 h2 h3 h4 h5 h6
  obtain ⟨P, hpack, hPn, hPv⟩ : ∃ P, packUserOperation u3 = .ok P ∧ P.nonce = some n ∧
      P.preVerificationGas = some v := by
    obtain ⟨pm, pd, rfl⟩ := fillPaymaster_frame cr c hfp
    exact ⟨_, packUserOperation_of_gas _ h1 h2 h3 h4 h5 h6, rfl, hv⟩
  obtain ⟨bh, -, hh⟩ := hashedUserOp_eq_keccak cr hPn hPv
  obtain ⟨bg, -, hg⟩ := getUserOpHash_eq_keccak cr hh c.config.entrypoint chainId
  obtain ⟨sig, hsig⟩ := hsigns key (cr.keccak256 bg).bytes
  rw [← hc] at hg
  simp only [fillAndSign, hprep, hfp, hpack, (signUserOp_eq_ok cr c).mpr ⟨hg, hsig⟩,
    except_ok_bind, wrapError_ok]
  exact ⟨_, _, rfl⟩

/-! ## What a successful run signed -/

/-- What `FillAndSign` of `u` guarantees when it returns `(op', h)`: `h` is the operation hash of
the packed `op'` and `op'.Signature` signs it; with a paymaster, the hash the verifying signer
signed over the provisional data is `GetPaymasterHash` of the packed `op'`, and its signature is
the one in `op'.PaymasterData`. -/
def SignsPacked (u : UserOperation) (signer : Option PrivateKey) :
    Except Fault (UserOperation × Hash) → Prop
  | .error _ => True
  | .ok (op', h) => ∃ packed, packUserOperation op' = .ok packed ∧
      getUserOpHash cr packed c.config.entrypoint c.chainId = .ok h ∧
      signMessage cr signer h.bytes = .ok op'.signature ∧
      ∀ pm, c.config.paymasterAddress = some pm → ∃ u2 ph psig,
        prepare cr c u signer = .ok u2 ∧ sponsorshipHash cr c u2 pm = .ok ph ∧
        signMessage cr c.config.verifyingSigner ph.bytes = .ok psig ∧
        encodePaymasterData (some maxInt32) (some 0) psig = .ok op'.paymasterData ∧
        getPaymasterHash cr packed c.chainId (some maxInt32) (some 0) = .ok ph

theorem fill_and_sign_signs_packed :
    (∀ u signer, SignsPacked cr c u signer (fillAndSign cr c u signer)) ∧
    ∀ u pd chainId validUntil validAfter,
      (provisionalPacked u pd >>= fun p => getPaymasterHash cr p chainId validUntil validAfter) ≠
        .error (.error "PaymasterAndData too short") := by
  refine ⟨fun u signer => ?_, fun u pd chainId vu va =>
    provisionalPacked_getPaymasterHash_ne_error cr u pd chainId vu va _⟩
  rcases hrun : fillAndSign cr c u signer with _ | ⟨op', h⟩
  · trivial
  obtain ⟨u2, u3, packed, sig, h1, h2, h3, h4, rfl⟩ := fillAndSign_eq_ok cr c hrun
  obtain ⟨hh, hs⟩ := (signUserOp_eq_ok cr c).mp h4
  refine ⟨{ packed with signature := sig }, by rw [packUserOperation_signature, h3]; rfl, hh, hs,
    fun pm hpm => ?_⟩
  obtain ⟨ph, psig, pd, hph, hpsig, hpd, rfl⟩ := fillPaymaster_some cr c hpm h2
  exact ⟨u2, ph, psig, h1, hph, hpsig, hpd,
    (getPaymasterHash_signature cr packed sig _ _ _).trans (getPaymasterHash_packed cr c hph h3)⟩

theorem fill_and_sign_signs_packed_sponsored :
    (∃ r, fillAndSign (signingCrypto lengthCrypto.keccak256 (fun _ _ => ⟨List.replicate 65 0, rfl⟩)
        (fun _ => Word.zero 20)) sponsoringClient
        (newUserOpWithDefault ⟨List.replicate 20 3, rfl⟩ [] none) (some ⟨1⟩) = .ok r) ∧
    SignsPacked (signingCrypto lengthCrypto.keccak256 (fun _ _ => ⟨List.replicate 65 0, rfl⟩)
        (fun _ => Word.zero 20)) sponsoringClient
      (newUserOpWithDefault ⟨List.replicate 20 3, rfl⟩ [] none) (some ⟨1⟩)
      (fillAndSign (signingCrypto lengthCrypto.keccak256 (fun _ _ => ⟨List.replicate 65 0, rfl⟩)
        (fun _ => Word.zero 20)) sponsoringClient
        (newUserOpWithDefault ⟨List.replicate 20 3, rfl⟩ [] none) (some ⟨1⟩)) := by
  obtain ⟨op', h, hrun⟩ := fillAndSign_succeeds sponsoringClient lengthCrypto.keccak256
    (fun _ _ => ⟨List.replicate 65 0, rfl⟩) (fun _ => Word.zero 20) rfl (fun _ _ => ⟨_, rfl⟩)
    (fun _ => ⟨_, rfl⟩) (fun _ _ => ⟨_, rfl⟩) (.inr ⟨_, rfl⟩)
    (u := newUserOpWithDefault ⟨List.replicate 20 3, rfl⟩ [] none) (by decide) rfl rfl rfl rfl rfl
    rfl rfl ⟨1⟩
  exact ⟨⟨_, hrun⟩, (fill_and_sign_signs_packed _ sponsoringClient).1 _ _⟩

/-! ## Running `FillAndSign` twice -/

theorem fillAndSign_fixpoint {u op' : UserOperation} {signer : Option PrivateKey} {hash : Hash}
    (h : fillAndSign cr c u signer = .ok (op', hash)) :
    fillAndSign cr c op' signer = .ok (op', hash) := by
  obtain ⟨u2, u3, packed, sig, h1, h2, h3, h4, rfl⟩ := fillAndSign_eq_ok cr c h
  have hpk := packUserOperation_signature u3 sig
  rw [h3] at hpk
  simp only [fillAndSign, prepare_fixpoint cr c sig h1 h2, except_ok_bind,
    fillPaymaster_signature cr c sig (fillPaymaster_idem cr c h2), hpk, Except.map,
    signUserOp_signature, h4, wrapError_ok]
  rfl

theorem fill_and_sign_idempotent (u : UserOperation) (signer : Option PrivateKey) :
    (fillAndSign cr c u signer >>= fun r => fillAndSign cr c r.1 signer) =
      fillAndSign cr c u signer := by
  rcases h : fillAndSign cr c u signer with _ | ⟨op', hash⟩
  · rfl
  · exact fillAndSign_fixpoint cr c h

/-! ## The hashes `HandleOps` reports -/

def zeroPackedOp : PackedUserOperation where
  sender := Word.zero 20
  nonce := some 0
  initCode := []
  callData := []
  accountGasLimits := Word.zero 32
  preVerificationGas := some 0
  gasFees := Word.zero 32
  paymasterAndData := []
  signature := []

theorem handleOps_zeroPackedOp :
    handleOps lengthCrypto executorClient [zeroPackedOp] = .ok ([lengthHash 256], Word.zero 32) := by
  obtain ⟨b, hb, hh⟩ := hashedUserOp_eq_keccak lengthCrypto (p := zeroPackedOp) rfl rfl
  have hm : [zeroPackedOp].mapM (fun op => wrapError "error hashing user operation: "
      (hashedUserOp lengthCrypto op)) = .ok [lengthHash 256] :=
    mapM_eq_ok.mpr (.cons (by rw [hh, ← hb]; rfl) .nil)
  unfold handleOps handleOpsWith
  rw [hm]
  rfl

/-- `HandleOps` reports the inner hash of the operation (Keccak-256 of its 256-byte encoding),
not its `GetUserOpHash` (Keccak-256 of the 96-byte `hash ‖ entrypoint ‖ chainId`). -/
theorem handle_ops_reports_inner_hash :
    handleOps lengthCrypto executorClient [zeroPackedOp] = .ok ([lengthHash 256], Word.zero 32) ∧
    getUserOpHash lengthCrypto zeroPackedOp executorClient.config.entrypoint
      executorClient.chainId = .ok (lengthHash 96) ∧
    lengthHash 256 ≠ lengthHash 96 := by
  obtain ⟨b, -, hh⟩ := hashedUserOp_eq_keccak lengthCrypto (p := zeroPackedOp) rfl rfl
  obtain ⟨b', hb', hg⟩ := getUserOpHash_eq_keccak lengthCrypto hh (Word.zero 20) 1
  exact ⟨handleOps_zeroPackedOp, hg.trans (by rw [← hb']; rfl), by decide⟩

end AaSdk
