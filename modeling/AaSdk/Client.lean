import AaSdk.Hash

/-! # Filling, signing and sending operations directly (`client.go`)

`FillAndSign` with `getInitCodeData` and `SignUserOp`, and `HandleOps` /
`HandleAtomicOps`. The node, the entry point and the account factory are a
`Chain` record of functions, so a theorem over every `Chain` is a theorem over
every answer those calls can give.
-/

namespace AaSdk

/-- `bind.TransactOpts` from `NewKeyedTransactorWithChainID`: the signing key and the chain. -/
structure TransactOpts where
  signer : PrivateKey
  chainId : Option Int

/-- The contract and node calls of the client. -/
structure Chain where
  /-- `entrypoint.GetNonce(&bind.CallOpts{}, sender, key)`. -/
  getNonce : Address → Option Int → Except Fault Int
  /-- `eth.CodeAt(ctx, address, nil)`. -/
  codeAt : Address → Except Fault (List UInt8)
  /-- `simpleFactoryABI.Pack("createAccount", owner, salt)`. -/
  packCreateAccount : Address → Option Int → Except Fault (List UInt8)
  /-- `simpleFactory.GetAddress(&bind.CallOpts{}, owner, salt)`. -/
  getAddress : Address → Option Int → Except Fault Address
  /-- `bind.NewKeyedTransactorWithChainID(key, chainId)`. -/
  newKeyedTransactor : PrivateKey → Option Int → Except Fault TransactOpts
  /-- The hash of the transaction `entrypoint.HandleOps(opts, ops, beneficiary)` sends. -/
  handleOps : TransactOpts → List PackedUserOperation → Address → Except Fault Hash
  /-- The hash of the transaction `entrypoint.HandleAtomicOps(opts, ops, beneficiary)` sends. -/
  handleAtomicOps : TransactOpts → List PackedUserOperation → Address → Except Fault Hash

/-- `Client`: the chain id read by `NewClient`, the configuration and the chain calls. -/
structure Client where
  chainId : Option Int
  config : Config
  chain : Chain

/-- `math.MaxInt32`, the `validUntil` of a sponsorship. -/
def maxInt32 : Int := 2147483647

variable (cr : Crypto) (c : Client)

/-- `crypto.PubkeyToAddress(signer.PublicKey)`; a nil signer panics. -/
def signerAddress (signer : Option PrivateKey) : Except Fault Address :=
  match signer with
  | some key => .ok (cr.pubkeyToAddress key)
  | none => .error (.panic nilDeref)

/-- `IsAccountDeployed`: whether the address has code. -/
def isAccountDeployed (address : Address) : Except Fault Bool := do
  let code ← c.chain.codeAt address
  pure (0 < code.length)

/-- `getInitCodeData`: nothing for a deployed account; otherwise `AccountFactory ‖ data` and the
factory call data. -/
def getInitCodeData (account owner : Address) (salt : Option Int) :
    Except Fault (List UInt8 × List UInt8) := do
  let isDeployed ← wrapError "error checking if account is deployed: " (isAccountDeployed c account)
  if isDeployed then
    pure ([], [])
  else
    let data ← wrapError "error packing account init code: " (c.chain.packCreateAccount owner salt)
    pure (c.config.accountFactory.bytes ++ data, data)

/-- `SignUserOp`: the operation hash, signed with `SignMessage`. -/
def signUserOp (packed : PackedUserOperation) (privateKey : Option PrivateKey) :
    Except Fault (List UInt8 × Hash) := do
  let hash ← getUserOpHash cr packed c.config.entrypoint c.chainId
  let sig ← signMessage cr privateKey hash.bytes
  pure (sig, hash)

/-! ## `FillAndSign`, block by block -/

/-- Lines 111–117: fetch the nonce when it is nil. -/
def fillNonce (userOp : UserOperation) : Except Fault UserOperation :=
  match userOp.nonce with
  | some _ => pure userOp
  | none => do
    let nonce ← wrapError "error getting nonce: " (c.chain.getNonce userOp.sender userOp.salt)
    pure { userOp with nonce := some nonce }

/-- Lines 124–130: set the init code, factory and factory data of an account still to be
deployed; clear the init code otherwise. -/
def setInitCode (initCode data : List UInt8) (factory : Address) (userOp : UserOperation) :
    UserOperation :=
  if initCode.length ≠ 0 then { userOp with initCode := initCode, factory := factory, factoryData := data }
  else { userOp with initCode := [] }

/-- Lines 144–154: the operation handed to `GetPaymasterHash`, with the provisional paymaster
data and an empty signature. -/
def provisionalPacked (userOp : UserOperation) (paymasterData : List UInt8) :
    Except Fault PackedUserOperation := do
  let accountGasLimits ← packInt userOp.verificationGasLimit userOp.callGasLimit
  let gasFees ← packInt userOp.maxPriorityFeePerGas userOp.maxFeePerGas
  let paymasterAndData ← packPaymasterAndData userOp.paymaster userOp.paymasterVerificationGasLimit
    userOp.paymasterPostOpGasLimit paymasterData
  pure { sender := userOp.sender, nonce := userOp.nonce, initCode := userOp.initCode,
         callData := userOp.callData, accountGasLimits,
         preVerificationGas := userOp.preVerificationGas, gasFees, paymasterAndData,
         signature := [] }

/-- Lines 133–157: the sponsorship hash of `userOp` with `paymasterAddress` set, computed over
the provisional data `EncodePaymasterData(validUntil, validAfter, EmptySignature)`. -/
def sponsorshipHash (userOp : UserOperation) (paymasterAddress : Address) :
    Except Fault Hash := do
  let paymasterData ← wrapError "error encoding paymaster data: "
    (encodePaymasterData (some maxInt32) (some 0) emptySignature)
  let packed ← provisionalPacked { userOp with paymaster := paymasterAddress } paymasterData
  wrapError "error getting paymaster data: "
    (getPaymasterHash cr packed c.chainId (some maxInt32) (some 0))

/-- Lines 132–167: with a paymaster configured, sign the sponsorship hash with the verifying key
and put the signed `paymasterData` in the operation. -/
def fillPaymaster (userOp : UserOperation) : Except Fault UserOperation :=
  match c.config.paymasterAddress with
  | none => pure userOp
  | some paymasterAddress => do
    let paymasterHash ← sponsorshipHash cr c userOp paymasterAddress
    let paymasterSig ← wrapError "error signing paymaster data: "
      (signMessage cr c.config.verifyingSigner paymasterHash.bytes)
    let paymasterData ← wrapError "error encoding paymaster data: "
      (encodePaymasterData (some maxInt32) (some 0) paymasterSig)
    pure { userOp with paymaster := paymasterAddress, paymasterData := paymasterData }

/-- Lines 108–130: check the sender, then fill the nonce and the init code. -/
def prepare (userOp : UserOperation) (signer : Option PrivateKey) : Except Fault UserOperation :=
  if userOp.sender = Word.zero 20 then .error (.error "sender address is empty") else do
    let userOp ← fillNonce c userOp
    let owner ← signerAddress cr signer
    let (initCode, data) ← wrapError "error getting account init code: "
      (getInitCodeData c userOp.sender owner userOp.salt)
    pure (setInitCode initCode data c.config.accountFactory userOp)

/-- `FillAndSign`: fill the nonce, the init code and the paymaster data, pack, then sign the
operation hash. -/
def fillAndSign (userOp : UserOperation) (signer : Option PrivateKey) :
    Except Fault (UserOperation × Hash) := do
  let userOp ← prepare cr c userOp signer
  let userOp ← fillPaymaster cr c userOp
  let packed ← packUserOperation userOp
  let (sig, hash) ← wrapError "error signing user operation: " (signUserOp cr c packed signer)
  pure ({ userOp with signature := sig }, hash)

/-! ## `HandleOps` and `HandleAtomicOps` -/

/-- The body `HandleOps` and `HandleAtomicOps` share: send the operations with the executor's
key through `send`, then hash each operation with `HashedUserOp`. A nil executor panics. -/
def handleOpsWith
    (send : Chain → TransactOpts → List PackedUserOperation → Address → Except Fault Hash)
    (sendError : String) (ops : List PackedUserOperation) : Except Fault (List Hash × Hash) := do
  let executor ← match c.config.executorSigner with
    | some key => pure key
    | none => throw (.panic "executor signer is nil")
  let txOpts ← wrapError "error creating transaction options: "
    (c.chain.newKeyedTransactor executor c.chainId)
  let tx ← wrapError sendError (send c.chain txOpts ops (cr.pubkeyToAddress executor))
  let opHashes ← ops.mapM fun op => wrapError "error hashing user operation: " (hashedUserOp cr op)
  pure (opHashes, tx)

/-- `HandleOps`. -/
def handleOps (ops : List PackedUserOperation) : Except Fault (List Hash × Hash) :=
  handleOpsWith cr c Chain.handleOps "error handling ops: " ops

/-- `HandleAtomicOps`. -/
def handleAtomicOps (ops : List PackedUserOperation) : Except Fault (List Hash × Hash) :=
  handleOpsWith cr c Chain.handleAtomicOps "error handling atomic ops: " ops

/-! ## A client to run the model on -/

/-- A stand-in for Keccak-256 under which hashes of inputs of different lengths differ: the
length in 32 bytes. -/
def lengthHash (n : Nat) : Hash := ⟨beBytes 32 n, beBytes_length 32 n⟩

def lengthCrypto : Crypto where
  keccak256 b := lengthHash b.length
  sign _ _ := .error "no key"
  pubkeyToAddress _ := Word.zero 20

/-- A client whose executor key is set and whose chain calls all succeed. -/
def executorClient : Client where
  chainId := some 1
  config :=
    { entrypoint := Word.zero 20, accountFactory := Word.zero 20, paymasterAddress := none,
      verifyingSigner := none, executorSigner := some ⟨1⟩ }
  chain :=
    { getNonce := fun _ _ => .ok 0, codeAt := fun _ => .ok [], packCreateAccount := fun _ _ => .ok [],
      getAddress := fun _ _ => .ok (Word.zero 20), newKeyedTransactor := fun k i => .ok ⟨k, i⟩,
      handleOps := fun _ _ _ => .ok (Word.zero 32),
      handleAtomicOps := fun _ _ _ => .ok (Word.zero 32) }

/-- A `Crypto` whose signer always returns a 65-byte signature. -/
def signingCrypto (keccak256 : List UInt8 → Hash)
    (sign : PrivateKey → Hash → {l : List UInt8 // l.length = 65})
    (pubkeyToAddress : PrivateKey → Address) : Crypto :=
  ⟨keccak256, fun k h => .ok (sign k h).1, pubkeyToAddress⟩

/-- A client with a paymaster and an account factory, on a node that answers nonce 0 and no code. -/
def sponsoringClient : Client where
  chainId := some 1
  config :=
    { entrypoint := Word.zero 20, accountFactory := ⟨List.replicate 20 1, rfl⟩,
      paymasterAddress := some ⟨List.replicate 20 2, rfl⟩, verifyingSigner := some ⟨2⟩,
      executorSigner := none }
  chain := executorClient.chain

end AaSdk
