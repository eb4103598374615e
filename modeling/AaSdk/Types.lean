import AaSdk.Text
import AaSdk.Abi

/-! # Operations and configuration (`types.go`)

The verbose `UserOperation`, the EntryPoint v0.7 `PackedUserOperation` of the
`entrypoint` bindings, the client `Config`, and `ToBody`, the JSON-RPC form of
an operation.
-/

namespace AaSdk

/-- `UserOperation` (EntryPoint v0.7). A `*big.Int` field is `none` when nil. -/
structure UserOperation where
  sender : Address
  nonce : Option Int
  callData : List UInt8
  callGasLimit : Option Int
  verificationGasLimit : Option Int
  preVerificationGas : Option Int
  maxFeePerGas : Option Int
  maxPriorityFeePerGas : Option Int
  signature : List UInt8
  paymaster : Address
  paymasterData : List UInt8
  paymasterVerificationGasLimit : Option Int
  paymasterPostOpGasLimit : Option Int
  factory : Address
  factoryData : List UInt8
  initCode : List UInt8
  salt : Option Int
  deriving DecidableEq, Repr

/-- `entrypoint.PackedUserOperation`, the on-chain form. -/
structure PackedUserOperation where
  sender : Address
  nonce : Option Int
  initCode : List UInt8
  callData : List UInt8
  accountGasLimits : Hash
  preVerificationGas : Option Int
  gasFees : Hash
  paymasterAndData : List UInt8
  signature : List UInt8
  deriving DecidableEq, Repr

/-- `Config`, the fields the modelled functions read. -/
structure Config where
  entrypoint : Address
  accountFactory : Address
  paymasterAddress : Option Address
  verifyingSigner : Option PrivateKey
  executorSigner : Option PrivateKey
  deriving DecidableEq, Repr

/-! ## Defaults -/

def defaultCallGasLimit : Int := 2000000
def defaultVerificationGasLimit : Int := 200000
def defaultPreVerificationGas : Int := 20000
def defaultMaxFeePerGas : Int := 25000000000
def defaultMaxPriorityFeePerGas : Int := 1000000
def defaultPaymasterVerificationGasLimit : Int := 300000
def defaultPaymasterPostOpGasLimit : Int := 100

/-- `NewUserOpWithDefault`: the default gas values; every other field is its zero value. -/
def newUserOpWithDefault (sender : Address) (calldata : List UInt8) (salt : Option Int) :
    UserOperation where
  sender := sender
  nonce := none
  callData := calldata
  callGasLimit := some defaultCallGasLimit
  verificationGasLimit := some defaultVerificationGasLimit
  preVerificationGas := some defaultPreVerificationGas
  maxFeePerGas := some defaultMaxFeePerGas
  maxPriorityFeePerGas := some defaultMaxPriorityFeePerGas
  signature := []
  paymaster := Word.zero 20
  paymasterData := []
  paymasterVerificationGasLimit := some defaultPaymasterVerificationGasLimit
  paymasterPostOpGasLimit := some defaultPaymasterPostOpGasLimit
  factory := Word.zero 20
  factoryData := []
  initCode := []
  salt := salt

/-! ## `ToBody` -/

/-- The request body: Go's `map[string]string`, one entry per key. -/
abbrev Body := List (String × String)

/-- An address entry, present when the address is not zero: `Address.Hex()`. -/
def addressField (keccak256 : List UInt8 → Hash) (key : String) (a : Address) :
    Option (String × String) :=
  if a ≠ Word.zero 20 then some (key, addressHex keccak256 a) else none

/-- A quantity entry, present when the pointer is not nil: `"0x" + x.Text(16)`. -/
def quantityField (key : String) (x : Option Int) : Option (String × String) :=
  x.map fun v => (key, "0x" ++ bigText 16 (some v))

/-- A byte-string entry, present when it is not empty: `"0x" + hex.EncodeToString(b)`. -/
def bytesField (key : String) (b : List UInt8) : Option (String × String) :=
  if 0 < b.length then some (key, "0x" ++ encodeToString b) else none

/-- `UserOperation.ToBody`: each field under its JSON name, only when it is set. -/
def UserOperation.toBody (keccak256 : List UInt8 → Hash) (u : UserOperation) : Body :=
  [ addressField keccak256 "sender" u.sender,
    quantityField "nonce" u.nonce,
    bytesField "callData" u.callData,
    quantityField "callGasLimit" u.callGasLimit,
    quantityField "verificationGasLimit" u.verificationGasLimit,
    quantityField "preVerificationGas" u.preVerificationGas,
    quantityField "maxFeePerGas" u.maxFeePerGas,
    quantityField "maxPriorityFeePerGas" u.maxPriorityFeePerGas,
    bytesField "signature" u.signature,
    addressField keccak256 "paymaster" u.paymaster,
    bytesField "paymasterData" u.paymasterData,
    quantityField "paymasterVerificationGasLimit" u.paymasterVerificationGasLimit,
    quantityField "paymasterPostOpGasLimit" u.paymasterPostOpGasLimit,
    addressField keccak256 "factory" u.factory,
    bytesField "factoryData" u.factoryData ].filterMap id

end AaSdk
