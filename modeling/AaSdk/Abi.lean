import AaSdk.Bytes

/-! # Static ABI encoding and the crypto primitives

`abi.Arguments.Pack` of go-ethereum for the static types the hashes use
(`address`, `uint256`, `uint48`, `bytes32`: one 32-byte word each), and the
Keccak-256 and ECDSA functions of `go-ethereum/crypto`, which stay abstract.
-/

namespace AaSdk

/-- The message of the runtime panic on a nil pointer. -/
def nilDeref : String := "runtime error: invalid memory address or nil pointer dereference"

/-- `fmt.Errorf(prefix + "%v", err)` on a returned error; a panic passes through unchanged. -/
def wrapError {α : Type} (pre : String) : Except Fault α → Except Fault α
  | .error (.error msg) => .error (.error (pre ++ msg))
  | r => r

@[simp] theorem wrapError_ok {α : Type} (pre : String) (a : α) :
    wrapError pre (.ok a) = .ok a := rfl

theorem wrapError_eq_ok {α : Type} {pre : String} {r : Except Fault α} {a : α} :
    wrapError pre r = .ok a ↔ r = .ok a := by
  unfold wrapError
  split <;> simp_all

theorem wrapError_ne_error {α : Type} {pre : String} {r : Except Fault α}
    (h : ∀ m, r ≠ .error (.error m)) (msg : String) : wrapError pre r ≠ .error (.error msg) := by
  rcases r with (m | m) | a
  · exact absurd rfl (h m)
  · nofun
  · nofun

/-- One argument of `abi.Arguments.Pack`: its ABI type with the Go value passed for it. -/
inductive AbiArg
  | address (a : Address)
  /-- `uint256` or `uint48`, given a `*big.Int`. -/
  | uint (x : Option Int)
  | bytes32 (h : Hash)
  deriving DecidableEq, Repr

/-- `math.U256Bytes`: the value modulo `2^256` (two's complement when negative), in 32 bytes. -/
def u256Bytes (x : Int) : List UInt8 := beBytes 32 (x % 2 ^ 256).toNat

/-- The word `packElement` writes. `packNum` checks no range, for `uint48` either; a nil
`*big.Int` panics in `reflect`. -/
def abiWord : AbiArg → Except Fault (List UInt8)
  | .address a => .ok (List.replicate 12 0 ++ a.bytes)
  | .uint none => .error (.panic "reflect: call of reflect.Value.Type on zero Value")
  | .uint (some x) => .ok (u256Bytes x)
  | .bytes32 h => .ok h.bytes

/-- `abi.Arguments.Pack` on static arguments: their words one after another. -/
def abiPack : List AbiArg → Except Fault (List UInt8)
  | [] => .ok []
  | a :: as => do
    let w ← abiWord a
    let rest ← abiPack as
    pure (w ++ rest)

theorem abiWord_length {a : AbiArg} {w : List UInt8} (h : abiWord a = .ok w) : w.length = 32 := by
  cases a with
  | address a =>
    simp only [abiWord, Except.ok.injEq] at h
    simp [← h, a.length_eq]
  | uint x =>
    cases x with
    | none => simp [abiWord] at h
    | some x =>
      simp only [abiWord, Except.ok.injEq] at h
      rw [← h, u256Bytes, beBytes_length]
  | bytes32 h' =>
    simp only [abiWord, Except.ok.injEq] at h
    rw [← h, h'.length_eq]

theorem abiPack_length {as : List AbiArg} {p : List UInt8} (h : abiPack as = .ok p) :
    p.length = 32 * as.length := by
  induction as generalizing p with
  | nil => cases h; rfl
  | cons a as ih =>
    obtain ⟨w, hw, h⟩ := except_bind_eq_ok.mp h
    obtain ⟨rest, hrest, h⟩ := except_bind_eq_ok.mp h
    simp only [pure, Except.pure, Except.ok.injEq] at h
    rw [← h, List.length_append, abiWord_length hw, ih hrest, List.length_cons]
    ring

/-- Packing succeeds exactly when no `*big.Int` argument is nil. -/
def AbiArg.isSet : AbiArg → Bool
  | .uint none => false
  | _ => true

theorem abiPack_of_isSet {as : List AbiArg} (h : ∀ a ∈ as, a.isSet = true) :
    ∃ p, abiPack as = .ok p := by
  induction as with
  | nil => exact ⟨[], rfl⟩
  | cons a as ih =>
    obtain ⟨rest, hrest⟩ := ih fun b hb => h b (List.mem_cons_of_mem a hb)
    have ha := h a (List.mem_cons_self a as)
    obtain ⟨w, hw⟩ : ∃ w, abiWord a = .ok w := by
      cases a with
      | uint x => cases x with
        | none => cases ha
        | some x => exact ⟨_, rfl⟩
      | _ => exact ⟨_, rfl⟩
    exact ⟨w ++ rest, by simp [abiPack, hw, hrest]⟩

theorem abiPack_ne_error (as : List AbiArg) (msg : String) : abiPack as ≠ .error (.error msg) := by
  induction as with
  | nil => nofun
  | cons a as ih =>
    refine except_bind_ne_error ?_ fun _ => except_bind_ne_error ih fun _ h => Except.noConfusion h
    rcases a with _ | (_ | _) | _ <;> nofun

/-! ## Crypto -/

/-- An `ecdsa.PrivateKey`, by its secret scalar. -/
structure PrivateKey where
  d : Nat
  deriving DecidableEq, Repr

/-- The primitives of `go-ethereum/crypto` the SDK calls. `sign` is a function: secp256k1
signing in go-ethereum is deterministic (RFC 6979). -/
structure Crypto where
  /-- `crypto.Keccak256Hash`. -/
  keccak256 : List UInt8 → Hash
  /-- `crypto.Sign`: the 65-byte `[R || S || V]` signature of a hash, or an error. -/
  sign : PrivateKey → Hash → Except String (List UInt8)
  /-- `crypto.PubkeyToAddress(key.PublicKey)`. -/
  pubkeyToAddress : PrivateKey → Address

end AaSdk
