import AaSdk.Signing
import AaSdk.Wire

/-! # The bundler client (`bundler.go`)

Each JSON-RPC method takes the next id of the client's counter, sends one
request through `call`, unmarshals the response and fails on its `error`
member. The HTTP exchange and `json.Unmarshal` up to the `error` member are an
`Rpc` record; `errorResponse.UnmarshalJSON` and `String` are modelled. The
counter is passed in and handed back.
-/

namespace AaSdk

def jsonrpcVersion : String := "2.0"

/-- A parameter of a request: the `ToBody` map, an address or a hash. -/
inductive Param
  | body (b : Body)
  | address (a : Address)
  | hash (h : Hash)

/-- The object `call` marshals: `{"jsonrpc", "id", "method", "params"}`. -/
structure Request where
  jsonrpc : String
  id : UInt64
  method : String
  params : List Param

/-! ## The `error` member -/

/-- `errorResponse`. -/
structure ErrorResponse where
  code : Option Int
  message : Option String
  deriving DecidableEq, Repr

/-- The JSON value of an `error` member, as far as `UnmarshalJSON` tells values apart. -/
inductive ErrorJson
  | str (s : String)
  | obj (code : Option Int) (message : Option String)
  /-- A number, a boolean or an array, by its JSON kind. -/
  | other (kind : String)

/-- The `UnmarshalTypeError` of decoding a JSON value of `kind` into the local `Alias` struct. -/
def cannotUnmarshal (kind : String) : String :=
  "json: cannot unmarshal " ++ kind ++ " into Go value of type aasdk.Alias"

/-- `errorResponse.UnmarshalJSON`: a non-empty string is the message; anything else must be a
`{code, message}` object, whose code must fit the 64-bit `int` of `Alias.Code`. -/
def ErrorResponse.unmarshalJSON : ErrorJson → Except String ErrorResponse
  | .str s => if s ≠ "" then .ok ⟨none, some s⟩ else .error (cannotUnmarshal "string")
  | .obj (some code) message =>
    if -2 ^ 63 ≤ code ∧ code < 2 ^ 63 then .ok ⟨some code, message⟩
    else .error ("json: cannot unmarshal number " ++ ToString.toString code ++
      " into Go struct field Alias.code of type int")
  | .obj none message => .ok ⟨none, message⟩
  | .other kind => .error (cannotUnmarshal kind)

/-- `errorResponse.String`. -/
def ErrorResponse.toString (e : ErrorResponse) : String :=
  let result := match e.code with
    | some code => "code: " ++ ToString.toString code
    | none => ""
  match e.message with
  | some message => (if result ≠ "" then result ++ ", " else result) ++ "message: " ++ message
  | none => result

/-! ## Calls and responses -/

/-- The fields of the local `gasEstimates` struct: the hex strings the bundler returned. -/
structure RawGasEstimates where
  preVerificationGas : Option String
  verificationGasLimit : Option String
  callGasLimit : Option String
  verificationGas : Option String
  maxFeePerGas : Option String
  maxPriorityFeePerGas : Option String

/-- `GasEstimates`. -/
structure GasEstimates where
  preVerificationGas : Option Int
  verificationGasLimit : Option Int
  callGasLimit : Option Int
  verificationGas : Option Int
  maxFeePerGas : Option Int
  maxPriorityFeePerGas : Option Int
  deriving DecidableEq, Repr

/-- A response as `json.Unmarshal` reads it into `jsonRpcResponse[T]`, the `error` member still
JSON. -/
structure RawResponse (α : Type) where
  result : α
  error : Option ErrorJson

/-- The HTTP exchange of `call` and the decoding of a response body, for each result type.
`Receipt` is `*UserOpReceipt`, which the client passes on without reading. -/
structure Rpc (Receipt : Type) where
  /-- The response body of a request, or the error `call` returns for it. -/
  post : Request → Except String (List UInt8)
  readReceipt : List UInt8 → Except String (RawResponse (Option Receipt))
  readGasEstimates : List UInt8 → Except String (RawResponse (Option RawGasEstimates))
  readEntryPoints : List UInt8 → Except String (RawResponse (List Address))
  readHash : List UInt8 → Except String (RawResponse Hash)

/-- `json.Unmarshal(bytes, &response)`: the `error` member goes through `UnmarshalJSON`. -/
def unmarshalResponse {α : Type} (read : List UInt8 → Except String (RawResponse α))
    (bytes : List UInt8) : Except String (α × Option ErrorResponse) := do
  let raw ← read bytes
  match raw.error with
  | none => pure (raw.result, none)
  | some e => do
    let e ← ErrorResponse.unmarshalJSON e
    pure (raw.result, some e)

section Methods

variable {Receipt : Type} (rpc : Rpc Receipt)

/-- `call`: one request with the next id of the counter (`c.id.Add(1)`). -/
def call (id : UInt64) (method : String) (params : List Param) :
    Except Fault (List UInt8) × UInt64 :=
  ((rpc.post ⟨jsonrpcVersion, id + 1, method, params⟩).mapError Fault.error, id + 1)

/-- What every method does with the body `call` returned: unmarshal it, and turn an `error`
member into `error from bundler: ...`. -/
def readResponse {α : Type} (method unmarshalError : String)
    (read : List UInt8 → Except String (RawResponse α)) (bytes : Except Fault (List UInt8)) :
    Except Fault α := do
  let bytes ← wrapError ("error calling " ++ method ++ ": ") bytes
  match unmarshalResponse read bytes with
  | .error e => throw (.error (unmarshalError ++ e))
  | .ok (_, some e) => throw (.error ("error from bundler: " ++ e.toString))
  | .ok (result, none) => pure result

/-- `GetUserOpReceipt`: `none` while the operation is not included. -/
def getUserOpReceipt (id : UInt64) (hash : Hash) : Except Fault (Option Receipt) × UInt64 :=
  let (bytes, id) := call rpc id "eth_getUserOperationReceipt" [.hash hash]
  (readResponse "eth_getUserOperationReceipt" "error unmarshalling user op receipt: "
    rpc.readReceipt bytes, id)

/-- The `HexToBigInt` of each field the bundler returned. -/
def GasEstimates.ofRaw (r : RawGasEstimates) : GasEstimates where
  preVerificationGas := r.preVerificationGas.map hexToBigInt
  verificationGasLimit := r.verificationGasLimit.map hexToBigInt
  callGasLimit := r.callGasLimit.map hexToBigInt
  verificationGas := r.verificationGas.map hexToBigInt
  maxFeePerGas := r.maxFeePerGas.map hexToBigInt
  maxPriorityFeePerGas := r.maxPriorityFeePerGas.map hexToBigInt

variable (cr : Crypto) (c : Client)

/-- `EstimateUserOpGas`. -/
def estimateUserOpGas (id : UInt64) (userOp : UserOperation) :
    Except Fault GasEstimates × UInt64 :=
  let (bytes, id) := call rpc id "eth_estimateUserOperationGas"
    [.body (userOp.toBody cr.keccak256), .address c.config.entrypoint]
  (do
    let result ← readResponse "eth_estimateUserOperationGas"
      "error unmarshalling user gas estimates: " rpc.readGasEstimates bytes
    match result with
    | none => throw (.error "no gas estimates response")
    | some r => pure (GasEstimates.ofRaw r), id)

/-- `SupportedEntryPoints`. -/
def supportedEntryPoints (id : UInt64) : Except Fault (List Address) × UInt64 :=
  let (bytes, id) := call rpc id "eth_supportedEntryPoints" []
  (readResponse "eth_supportedEntryPoints" "error unmarshalling entry points: "
    rpc.readEntryPoints bytes, id)

/-- `SendUserOp`: fill and sign the operation, then submit its `ToBody`. The hash returned is
the one in the bundler's response. -/
def sendUserOp (id : UInt64) (userOp : UserOperation) (signer : Option PrivateKey) :
    Except Fault Hash × UInt64 :=
  match fillAndSign cr c userOp signer with
  | .error e => (wrapError "error fill and sign userop: " (.error e), id)
  | .ok (signed, _) =>
    let (bytes, id) := call rpc id "eth_sendUserOperation"
      [.body (signed.toBody cr.keccak256), .address c.config.entrypoint]
    (readResponse "eth_sendUserOperation" "error unmarshalling when sending user operation: "
      rpc.readHash bytes, id)

/-- `Client.GetUserOpHash`: the hash `FillAndSign` signs. -/
def Client.getUserOpHash (userOp : UserOperation) (signer : Option PrivateKey) :
    Except Fault Hash :=
  wrapError "error fill and sign userop: " ((fillAndSign cr c userOp signer).map Prod.snd)

/-- `Hash.Hex`: `0x` and the lower-case digits. -/
def hashHex (h : Hash) : String := "0x" ++ encodeToString h.bytes

/-- The `for`/`select` loop of `WaitForUserOperation`: poll `GetUserOpReceipt` at each tick;
`ticks` is how many ticks fall before the 30 s deadline or the caller's cancellation. -/
def pollReceipt (id : UInt64) (hash : Hash) : Nat → Except Fault Receipt × UInt64
  | 0 => (.error (.error ("no receipt found for user operation " ++ hashHex hash)), id)
  | ticks + 1 =>
    let (receipt, id) := getUserOpReceipt rpc id hash
    match receipt with
    | .error e => (wrapError "error getting user operation receipt: " (.error e), id)
    | .ok (some r) => (.ok r, id)
    | .ok none => pollReceipt id hash ticks

/-- `WaitForUserOperation`: `time.NewTicker(c.config.WaitReceiptInterval)` panics on an interval
(in nanoseconds) that is not positive; otherwise the poll loop runs. -/
def waitForUserOperation (waitReceiptInterval : Int) (id : UInt64) (hash : Hash) (ticks : Nat) :
    Except Fault Receipt × UInt64 :=
  if waitReceiptInterval ≤ 0 then (.error (.panic "non-positive interval for NewTicker"), id)
  else pollReceipt rpc id hash ticks

end Methods

/-! ## Polling for a receipt -/

theorem counter_succ (id : UInt64) (k : Nat) :
    id + 1 + UInt64.ofNat k = id + UInt64.ofNat (k + 1) := by
  apply UInt64.toNat.inj
  have e1 : ∀ a b : UInt64, (a + b).toNat = (a.toNat + b.toNat) % 2 ^ 64 := fun _ _ => rfl
  have e2 : ∀ n, (UInt64.ofNat n).toNat = n % 2 ^ 64 := fun _ => rfl
  rw [e1, e1, e1, e2, e2, show (1 : UInt64).toNat = 1 from rfl]
  omega

theorem counter_zero (id : UInt64) : id + UInt64.ofNat 0 = id := by
  apply UInt64.toNat.inj
  have e1 : ∀ a b : UInt64, (a + b).toNat = (a.toNat + b.toNat) % 2 ^ 64 := fun _ _ => rfl
  rw [e1, show (UInt64.ofNat 0).toNat = 0 from rfl, Nat.add_zero]
  exact Nat.mod_eq_of_lt (UInt64.toNat_lt_size id)

theorem timeout_ne_wrapError {α : Type} (e : Fault) (m : String) :
    (wrapError "error getting user operation receipt: " (.error e) : Except Fault α) ≠
      .error (.error ("no receipt found for user operation " ++ m)) := by
  intro h
  rcases e with m' | p
  · have h' := congrArg (fun x : Except Fault α => match x with
      | .error (.error s) => s.data.head?
      | _ => none) h
    change (some 'e' : Option Char) = some 'n' at h'
    cases h'
  · cases h

section Polling

variable {Receipt : Type} (rpc : Rpc Receipt) (hash : Hash)

theorem pollReceipt_succ (id : UInt64) (t : Nat) :
    pollReceipt rpc id hash (t + 1) =
      match (getUserOpReceipt rpc id hash).1 with
      | .error e => (wrapError "error getting user operation receipt: " (.error e), id + 1)
      | .ok (some r) => (.ok r, id + 1)
      | .ok none => pollReceipt rpc (id + 1) hash t := by
  simp only [pollReceipt]
  rfl

theorem pollReceipt_skip (id : UInt64) {k ticks : Nat} (hk : k ≤ ticks)
    (hnone : ∀ j < k, (getUserOpReceipt rpc (id + UInt64.ofNat j) hash).1 = .ok none) :
    pollReceipt rpc id hash ticks = pollReceipt rpc (id + UInt64.ofNat k) hash (ticks - k) := by
  induction k generalizing id ticks with
  | zero => rw [counter_zero, Nat.sub_zero]
  | succ k ih =>
    obtain ⟨t, rfl⟩ : ∃ t, ticks = t + 1 := ⟨ticks - 1, by omega⟩
    have h0 := hnone 0 (Nat.succ_pos k)
    rw [counter_zero] at h0
    rw [pollReceipt_succ, h0, ih (id + 1) (by omega) fun j hj => by
      rw [counter_succ]; exact hnone (j + 1) (by omega), counter_succ]
    simp only [Nat.add_sub_add_right]

/-- `WaitForUserOperation` panics in `time.NewTicker` when the interval is not positive.
Otherwise it polls once per tick, each time with the next request id, and ends at the first poll
that does not answer "not yet": it returns the receipt, or the lookup's error wrapped and not
retried; when all its ticks answer "not yet" it times out, with an error that no wrapped lookup
error equals. -/
theorem wait_for_user_operation_first_answer (waitReceiptInterval : Int) (id : UInt64)
    (ticks : Nat) {k : Nat}
    (hnone : ∀ j < k, (getUserOpReceipt rpc (id + UInt64.ofNat j) hash).1 = .ok none) :
    (waitReceiptInterval ≤ 0 → waitForUserOperation rpc waitReceiptInterval id hash ticks =
      (.error (.panic "non-positive interval for NewTicker"), id)) ∧
    (0 < waitReceiptInterval → k = ticks →
      waitForUserOperation rpc waitReceiptInterval id hash ticks =
        (.error (.error ("no receipt found for user operation " ++ hashHex hash)),
          id + UInt64.ofNat ticks)) ∧
    (0 < waitReceiptInterval → k < ticks →
      ∀ r, (getUserOpReceipt rpc (id + UInt64.ofNat k) hash).1 = .ok (some r) →
        waitForUserOperation rpc waitReceiptInterval id hash ticks =
          (.ok r, id + UInt64.ofNat k + 1)) ∧
    (0 < waitReceiptInterval → k < ticks →
      ∀ e, (getUserOpReceipt rpc (id + UInt64.ofNat k) hash).1 = .error e →
        waitForUserOperation rpc waitReceiptInterval id hash ticks =
          (wrapError "error getting user operation receipt: " (.error e),
            id + UInt64.ofNat k + 1)) ∧
    ∀ e, (wrapError "error getting user operation receipt: " (.error e) : Except Fault Receipt) ≠
      .error (.error ("no receipt found for user operation " ++ hashHex hash)) := by
  have hpoll : 0 < waitReceiptInterval →
      waitForUserOperation rpc waitReceiptInterval id hash ticks = pollReceipt rpc id hash ticks :=
    fun hd => if_neg (not_le.mpr hd)
  refine ⟨fun hd => if_pos hd, fun hd hk => ?timeout, fun hd hk r hr => ?found,
    fun hd hk e he => ?failed, fun e => timeout_ne_wrapError e _⟩
  case timeout =>
    subst hk
    rw [hpoll hd, pollReceipt_skip rpc hash id le_rfl hnone, Nat.sub_self]
    rfl
  case found =>
    obtain ⟨t, ht⟩ : ∃ t, ticks - k = t + 1 := ⟨ticks - k - 1, by omega⟩
    rw [hpoll hd, pollReceipt_skip rpc hash id hk.le hnone, ht, pollReceipt_succ, hr]
  case failed =>
    obtain ⟨t, ht⟩ : ∃ t, ticks - k = t + 1 := ⟨ticks - k - 1, by omega⟩
    rw [hpoll hd, pollReceipt_skip rpc hash id hk.le hnone, ht, pollReceipt_succ, he]

end Polling

/-- A bundler that has not included the operation yet: every receipt lookup answers `null`. -/
def pendingRpc : Rpc Unit where
  post _ := .ok []
  readReceipt _ := .ok ⟨none, none⟩
  readGasEstimates _ := .error "unexpected"
  readEntryPoints _ := .error "unexpected"
  readHash _ := .error "unexpected"

theorem wait_for_user_operation_first_answer_pending :
    (∀ j < 2, (getUserOpReceipt pendingRpc (0 + UInt64.ofNat j) (Word.zero 32)).1 = .ok none) ∧
    (((2000000000 : Int) ≤ 0 → waitForUserOperation pendingRpc 2000000000 0 (Word.zero 32) 2 =
      (.error (.panic "non-positive interval for NewTicker"), 0)) ∧
    ((0 : Int) < 2000000000 → 2 = 2 → waitForUserOperation pendingRpc 2000000000 0 (Word.zero 32) 2 =
      (.error (.error ("no receipt found for user operation " ++ hashHex (Word.zero 32))),
        0 + UInt64.ofNat 2)) ∧
    ((0 : Int) < 2000000000 → 2 < 2 → ∀ r, (getUserOpReceipt pendingRpc (0 + UInt64.ofNat 2)
        (Word.zero 32)).1 = .ok (some r) →
      waitForUserOperation pendingRpc 2000000000 0 (Word.zero 32) 2 =
        (.ok r, 0 + UInt64.ofNat 2 + 1)) ∧
    ((0 : Int) < 2000000000 → 2 < 2 → ∀ e, (getUserOpReceipt pendingRpc (0 + UInt64.ofNat 2)
        (Word.zero 32)).1 = .error e →
      waitForUserOperation pendingRpc 2000000000 0 (Word.zero 32) 2 =
        (wrapError "error getting user operation receipt: " (.error e), 0 + UInt64.ofNat 2 + 1)) ∧
    ∀ e, (wrapError "error getting user operation receipt: " (.error e) : Except Fault Unit) ≠
      .error (.error ("no receipt found for user operation " ++ hashHex (Word.zero 32)))) :=
  have h : ∀ j < 2, (getUserOpReceipt pendingRpc (0 + UInt64.ofNat j) (Word.zero 32)).1 =
      .ok none := fun _ _ => rfl
  ⟨h, wait_for_user_operation_first_answer pendingRpc (Word.zero 32) 2000000000 0 2 h⟩

/-! ## What `SendUserOp` submits -/

/-- A chain whose nonce, code and factory calls answer with the given functions. -/
def answering (ch : Chain) (nonce : Address → Option Int → Int) (code : Address → List UInt8)
    (data : Address → Option Int → List UInt8) : Chain :=
  { ch with getNonce := fun a s => .ok (nonce a s), codeAt := fun a => .ok (code a),
            packCreateAccount := fun o s => .ok (data o s) }

/-- With no paymaster configured, `FillAndSign` of a default operation succeeds whatever the node
answers, and packs a 52-byte `paymasterAndData` for the zero paymaster; but `ToBody` leaves the
zero paymaster out, so the body `SendUserOp` submits is read as another packed operation. -/
theorem fill_and_sign_body_drops_paymaster (keccak256 : List UInt8 → Hash)
    (sign : PrivateKey → Hash → {l : List UInt8 // l.length = 65})
    (pubkeyToAddress : PrivateKey → Address) (ch : Chain) (nonce : Address → Option Int → Int)
    (code : Address → List UInt8) (data : Address → Option Int → List UInt8) (chainId : Int)
    (entrypoint accountFactory : Address) (verifyingSigner executorSigner : Option PrivateKey)
    (sender : {a : Address // a ≠ Word.zero 20}) (calldata : List UInt8) (salt : Option Int)
    (key : PrivateKey) :
    ∃ op' h packed,
      fillAndSign (signingCrypto keccak256 sign pubkeyToAddress)
        ⟨some chainId, ⟨entrypoint, accountFactory, none, verifyingSigner, executorSigner⟩,
          answering ch nonce code data⟩
        (newUserOpWithDefault sender.1 calldata salt) (some key) = .ok (op', h) ∧
      packUserOperation op' = .ok packed ∧ packed.paymasterAndData.length = paymasterDataOffset ∧
      readPacked (op'.toBody keccak256) ≠ some packed := by
  set cr := signingCrypto keccak256 sign pubkeyToAddress
  obtain ⟨op', h, hrun⟩ := fillAndSign_succeeds
    ⟨some chainId, ⟨entrypoint, accountFactory, none, verifyingSigner, executorSigner⟩,
      answering ch nonce code data⟩ keccak256 sign pubkeyToAddress rfl (fun _ _ => ⟨_, rfl⟩)
    (fun _ => ⟨_, rfl⟩) (fun _ _ => ⟨_, rfl⟩) (.inl rfl)
    (u := newUserOpWithDefault sender.1 calldata salt) sender.2 rfl rfl rfl rfl rfl rfl rfl key
  obtain ⟨u2, u3, packed, sig, h1, h2, h3, -, rfl⟩ := fillAndSign_eq_ok cr _ hrun
  rw [fillPaymaster_none cr _ rfl, Except.ok.injEq] at h2
  subst h2
  obtain ⟨n, ic, f, fd, rfl⟩ := prepare_frame cr _ h1
  -- The zero paymaster is packed: 20 bytes and two 16-byte gas limits.
  have hlen : packed.paymasterAndData.length = paymasterDataOffset := by
    rw [packUserOperation_of_gas _ rfl rfl rfl rfl rfl rfl, Except.ok.injEq] at h3
    simp [← h3, newUserOpWithDefault,
      pad16_length (show defaultPaymasterVerificationGasLimit.natAbs < 2 ^ 128 by decide),
      pad16_length (show defaultPaymasterPostOpGasLimit.natAbs < 2 ^ 128 by decide),
      (Word.zero 20).length_eq, paymasterDataOffset]
  refine ⟨_, h, { packed with signature := sig }, hrun,
    by rw [packUserOperation_signature, h3]; rfl, hlen, fun hread => ?_⟩
  -- `ToBody` leaves the zero paymaster out, so the bundler reads no `paymasterAndData`.
  have hempty := readPacked_of_no_paymaster
    (by rw [lookup_toBody_paymaster]; exact if_neg (not_not.mpr rfl)) hread
  rw [hempty] at hlen
  cases hlen

/-- What a v0.7 bundler reads from the body of a successful `FillAndSign`: the packed operation
whose hash was signed. -/
def BodyDenotesSigned (cr : Crypto) (c : Client) : Except Fault (UserOperation × Hash) → Prop
  | .error _ => True
  | .ok (op', h) => ∃ packed, packUserOperation op' = .ok packed ∧
      readPacked (op'.toBody cr.keccak256) = some packed ∧
      getUserOpHash cr packed c.config.entrypoint c.chainId = .ok h

/-- With a paymaster and an account factory configured, nonces from the entry point that fit a
`uint256`, and an operation whose nonce and `preVerificationGas` fit a `uint256`, whose gas values
fit their 16-byte slots, and that names no factory of its own, the body of what `FillAndSign`
returns is read by a v0.7 bundler as the packed operation whose hash it signed. -/
theorem fill_and_sign_body_matches_with_paymaster (cr : Crypto) (c : Client) {pm : Address}
    (hpm : c.config.paymasterAddress = some pm) (hpm0 : pm ≠ Word.zero 20)
    (hfac : c.config.accountFactory ≠ Word.zero 20)
    (hnonce : ∀ a s n, c.chain.getNonce a s = .ok n → 0 ≤ n ∧ n < 2 ^ 256) (u : UserOperation)
    (signer : Option PrivateKey)
    (hgas : ∀ x ∈ [u.callGasLimit, u.verificationGasLimit, u.maxFeePerGas,
      u.maxPriorityFeePerGas, u.paymasterVerificationGasLimit, u.paymasterPostOpGasLimit],
      readableUint 128 x = true)
    (hpvg : readableUint 256 u.preVerificationGas = true)
    (hn : u.nonce = none ∨ readableUint 256 u.nonce = true) (hf : u.factory = Word.zero 20) :
    BodyDenotesSigned cr c (fillAndSign cr c u signer) := by
  rcases hrun : fillAndSign cr c u signer with _ | ⟨op', h⟩
  · trivial
  obtain ⟨u2, u3, packed, sig, h1, h2, h3, h4, rfl⟩ := fillAndSign_eq_ok cr c hrun
  have hread : BodyReadable { u3 with signature := sig } := by
    obtain ⟨-, -, pd, -, -, -, rfl⟩ := fillPaymaster_some cr c hpm h2
    obtain ⟨u1, owner, ic, data, hs, hu1, -, hi, rfl⟩ := prepare_eq_ok cr c h1
    obtain ⟨n, rfl, hn'⟩ := fillNonce_eq_ok c hu1
    have hn0 : readableUint 256 (some n) = true := by
      rcases hn' with hn' | hn'
      · rcases hn with hn | hn <;> rw [hn'] at hn
        · cases hn
        · exact hn
      · simp only [readableUint, decide_eq_true_eq]
        exact hnonce _ _ _ hn'
    rw [setInitCode_eq]
    refine ⟨hs, hpm0, ?_, hgas, ?_⟩
    · simp only [List.mem_cons, List.mem_nil_iff, or_false, forall_eq_or_imp, forall_eq]
      exact ⟨hn0, hpvg⟩
    · rcases getInitCodeData_eq_ok c hi with rfl | rfl
      · exact .inl ⟨by simpa using hf, rfl⟩
      · have hne : c.config.accountFactory.bytes ++ data ≠ [] := by
          simp [c.config.accountFactory.length_eq, ← List.length_pos]
        exact .inr ⟨by simpa [hne] using hfac, by simp [hne]⟩
  obtain ⟨p, hp, hr⟩ := readPacked_toBody cr.keccak256 hread
  have hsig : p = { packed with signature := sig } := by
    rw [packUserOperation_signature, h3] at hp
    exact (Except.ok.inj hp).symm
  subst hsig
  exact ⟨_, hp, hr, (getUserOpHash_signature cr packed sig _ _).trans
    ((signUserOp_eq_ok cr c).mp h4).1⟩

theorem fill_and_sign_body_matches_with_paymaster_sponsored :
    sponsoringClient.config.paymasterAddress = some ⟨List.replicate 20 2, rfl⟩ ∧
    (⟨List.replicate 20 2, rfl⟩ : Address) ≠ Word.zero 20 ∧
    sponsoringClient.config.accountFactory ≠ Word.zero 20 ∧
    (∀ a s n, sponsoringClient.chain.getNonce a s = .ok n → 0 ≤ n ∧ n < 2 ^ 256) ∧
    (∃ r, fillAndSign (signingCrypto lengthCrypto.keccak256 (fun _ _ => ⟨List.replicate 65 0, rfl⟩)
        (fun _ => Word.zero 20)) sponsoringClient
        (newUserOpWithDefault ⟨List.replicate 20 3, rfl⟩ [] none) (some ⟨1⟩) = .ok r) ∧
    BodyDenotesSigned (signingCrypto lengthCrypto.keccak256 (fun _ _ => ⟨List.replicate 65 0, rfl⟩)
        (fun _ => Word.zero 20)) sponsoringClient
      (fillAndSign (signingCrypto lengthCrypto.keccak256 (fun _ _ => ⟨List.replicate 65 0, rfl⟩)
        (fun _ => Word.zero 20)) sponsoringClient
        (newUserOpWithDefault ⟨List.replicate 20 3, rfl⟩ [] none) (some ⟨1⟩)) := by
  have hnonce : ∀ a s n, sponsoringClient.chain.getNonce a s = .ok n → 0 ≤ n ∧ n < 2 ^ 256 :=
    fun _ _ _ h => by cases h; exact ⟨le_rfl, pow_pos two_pos _⟩
  obtain ⟨op', h, hrun⟩ := fillAndSign_succeeds sponsoringClient lengthCrypto.keccak256
    (fun _ _ => ⟨List.replicate 65 0, rfl⟩) (fun _ => Word.zero 20) rfl (fun _ _ => ⟨_, rfl⟩)
    (fun _ => ⟨_, rfl⟩) (fun _ _ => ⟨_, rfl⟩) (.inr ⟨_, rfl⟩)
    (u := newUserOpWithDefault ⟨List.replicate 20 3, rfl⟩ [] none) (by decide) rfl rfl rfl rfl rfl
    rfl rfl ⟨1⟩
  exact ⟨rfl, by decide, by decide, hnonce, ⟨_, hrun⟩,
    fill_and_sign_body_matches_with_paymaster _ sponsoringClient rfl (by decide) (by decide) hnonce
      _ _ (newUserOpWithDefault_fits _ _ _).1 (newUserOpWithDefault_fits _ _ _).2 (.inl rfl) rfl⟩

/-! ## Hex quantities -/

/-- A bundler that answers every request with estimates: `preVerificationGas` is `0x186a0`
(100000, as `Text(16)` writes it) and `callGasLimit` is `0xzz`. -/
def oddQuantityRpc : Rpc Unit where
  post _ := .ok []
  readReceipt _ := .error "unexpected"
  readGasEstimates _ := .ok ⟨some ⟨some "0x186a0", none, some "0xzz", none, none, none⟩, none⟩
  readEntryPoints _ := .error "unexpected"
  readHash _ := .error "unexpected"

/-- `HexToBigInt` reads `0x186a0`, the form `ToBody` writes for 100000, as 6250, and
`EstimateUserOpGas` returns such misread values, and `0` for `0xzz`, with no error. -/
theorem estimate_user_op_gas_misreads_quantities :
    bigText 16 (some 100000) = "186a0" ∧
    hexToBigInt ("0x" ++ bigText 16 (some 100000)) = 6250 ∧
    (estimateUserOpGas oddQuantityRpc lengthCrypto executorClient 0
      (newUserOpWithDefault (Word.zero 20) [] none)).1 =
      .ok ⟨some 6250, none, some 0, none, none, none⟩ := by
  have htext : bigText 16 (some 100000) = "186a0" := by
    simp [bigText, natText]
    decide
  refine ⟨htext, by rw [htext]; decide, ?_⟩
  show Except.ok (GasEstimates.ofRaw ⟨some "0x186a0", none, some "0xzz", none, none, none⟩) = _
  exact congrArg Except.ok (by decide)

end AaSdk
