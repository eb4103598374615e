import AaSdk.Pack

/-! # The request body as an EntryPoint v0.7 bundler reads it

`ToBody` sends the verbose fields; the bundler rebuilds the packed operation
from them and hashes that. This module looks keys up in a `ToBody` map, and
states the bundler's reading: an absent field is empty or zero, `initCode` is
`factory ‖ factoryData` when a factory is given, `paymasterAndData` is
`paymaster ‖ pad16(verification gas) ‖ pad16(post-op gas) ‖ paymasterData`
when a paymaster is given, and the gas pairs are 16+16-byte words. Each value
is read into the unsigned integer of its slot: a gas value goes into 16 bytes,
so the bundler refuses one of `2^128` or more, and the nonce and
`preVerificationGas` are `uint256`.
-/

namespace AaSdk

/-! ## Looking keys up in `ToBody` -/

theorem lookup_cons_of_ne {e : Option (String × String)} {k : String} (h : ∀ p ∈ e, p.1 ≠ k)
    (l : List (Option (String × String))) :
    List.lookup k ((e :: l).filterMap id) = List.lookup k (l.filterMap id) := by
  rcases e with _ | ⟨k', v⟩
  · rfl
  · have : (k == k') = false := beq_eq_false_iff_ne.mpr fun h' => h _ rfl h'.symm
    simp [List.lookup_cons, this]

theorem lookup_addressField_cons (keccak256 : List UInt8 → Hash) {key k : String} (a : Address)
    (hk : key ≠ k) (l : List (Option (String × String))) :
    List.lookup k ((addressField keccak256 key a :: l).filterMap id) =
      List.lookup k (l.filterMap id) :=
  lookup_cons_of_ne (by unfold addressField; split <;> simp [hk]) l

theorem lookup_quantityField_cons {key k : String} (x : Option Int) (hk : key ≠ k)
    (l : List (Option (String × String))) :
    List.lookup k ((quantityField key x :: l).filterMap id) = List.lookup k (l.filterMap id) :=
  lookup_cons_of_ne (by cases x <;> simp [quantityField, hk]) l

theorem lookup_bytesField_cons {key k : String} (b : List UInt8) (hk : key ≠ k)
    (l : List (Option (String × String))) :
    List.lookup k ((bytesField key b :: l).filterMap id) = List.lookup k (l.filterMap id) :=
  lookup_cons_of_ne (by unfold bytesField; split <;> simp [hk]) l

theorem lookup_addressField_self (keccak256 : List UInt8 → Hash) (key : String) (a : Address)
    (l : List (Option (String × String))) :
    List.lookup key ((addressField keccak256 key a :: l).filterMap id) =
      if a ≠ Word.zero 20 then some (addressHex keccak256 a) else List.lookup key (l.filterMap id) := by
  unfold addressField; split <;> simp [List.lookup_cons]

theorem lookup_quantityField_self (key : String) (v : Int) (l : List (Option (String × String))) :
    List.lookup key ((quantityField key (some v) :: l).filterMap id) =
      some ("0x" ++ bigText 16 (some v)) := by
  simp [quantityField, List.lookup_cons]

theorem lookup_bytesField_self (key : String) (b : List UInt8) (l : List (Option (String × String))) :
    List.lookup key ((bytesField key b :: l).filterMap id) =
      if 0 < b.length then some ("0x" ++ encodeToString b) else List.lookup key (l.filterMap id) := by
  unfold bytesField; split <;> simp [List.lookup_cons]

theorem lookup_toBody_factory (keccak256 : List UInt8 → Hash) (u : UserOperation) :
    List.lookup "factory" (u.toBody keccak256) =
      if u.factory ≠ Word.zero 20 then some (addressHex keccak256 u.factory) else none := by
  simp (disch := decide) only [UserOperation.toBody, lookup_addressField_cons,
    lookup_quantityField_cons, lookup_bytesField_cons, lookup_addressField_self]
  rfl

theorem lookup_toBody_paymaster (keccak256 : List UInt8 → Hash) (u : UserOperation) :
    List.lookup "paymaster" (u.toBody keccak256) =
      if u.paymaster ≠ Word.zero 20 then some (addressHex keccak256 u.paymaster) else none := by
  simp (disch := decide) only [UserOperation.toBody, lookup_addressField_cons,
    lookup_quantityField_cons, lookup_bytesField_cons, lookup_addressField_self]
  rfl

/-! ## The bundler's reading -/

/-- A `0x`-prefixed hex string with no bad digit and an even number of digits. -/
def readHex (s : String) : Option (List UInt8) :=
  match s.data with
  | '0' :: 'x' :: digits =>
    match decodeHex digits with
    | (b, none) => some b
    | _ => none
  | _ => none

def readAddress (s : String) : Option Address :=
  (readHex s).bind fun b => if h : b.length = 20 then some ⟨b, h⟩ else none

/-- A `0x`-prefixed hex quantity. -/
def readQuantity (s : String) : Option Nat :=
  match s.data with
  | '0' :: 'x' :: digits => digitsValue 16 digits
  | _ => none

/-- An optional field: its default when absent, its reading when present. -/
def readOr {α : Type} (read : String → Option α) (default : α) : Option String → Option α
  | none => some default
  | some s => read s

def readInitCode (body : Body) : Option (List UInt8) :=
  match List.lookup "factory" body with
  | none => some []
  | some f => do
    let factory ← readAddress f
    let factoryData ← readOr readHex [] (List.lookup "factoryData" body)
    pure (factory.bytes ++ factoryData)

/-- A quantity for a `uint<bits>` slot of the packed form: zero when absent, and refused when it
does not fit. -/
def readUint (bits : Nat) (field : Option String) : Option Nat :=
  (readOr readQuantity 0 field).bind fun n => if n < 2 ^ bits then some n else none

def readPaymasterAndData (body : Body) : Option (List UInt8) :=
  match List.lookup "paymaster" body with
  | none => some []
  | some p => do
    let paymaster ← readAddress p
    let verificationGas ← readUint 128 (List.lookup "paymasterVerificationGasLimit" body)
    let postOpGas ← readUint 128 (List.lookup "paymasterPostOpGasLimit" body)
    let paymasterData ← readOr readHex [] (List.lookup "paymasterData" body)
    pure (paymaster.bytes ++ beBytes 16 verificationGas ++ beBytes 16 postOpGas ++ paymasterData)

/-- A pair of gas values as one word, the first in the high 16 bytes. -/
def readGasWord (body : Body) (high low : String) : Option Hash := do
  let a ← readUint 128 (List.lookup high body)
  let b ← readUint 128 (List.lookup low body)
  pure ⟨beBytes 16 a ++ beBytes 16 b, by simp⟩

/-- The packed operation an EntryPoint v0.7 bundler rebuilds from a request body. -/
def readPacked (body : Body) : Option PackedUserOperation :=
  match (List.lookup "sender" body).bind readAddress,
      readUint 256 (List.lookup "nonce" body),
      readOr readHex [] (List.lookup "callData" body),
      readGasWord body "verificationGasLimit" "callGasLimit",
      readUint 256 (List.lookup "preVerificationGas" body),
      readGasWord body "maxPriorityFeePerGas" "maxFeePerGas",
      readOr readHex [] (List.lookup "signature" body), readInitCode body,
      readPaymasterAndData body with
  | some sender, some nonce, some callData, some accountGasLimits, some preVerificationGas,
    some gasFees, some signature, some initCode, some paymasterAndData =>
    some { sender, nonce := some nonce, initCode, callData, accountGasLimits,
           preVerificationGas := some preVerificationGas, gasFees, paymasterAndData, signature }
  | _, _, _, _, _, _, _, _, _ => none

theorem readPacked_paymasterAndData {body : Body} {p : PackedUserOperation}
    (h : readPacked body = some p) : readPaymasterAndData body = some p.paymasterAndData := by
  unfold readPacked at h
  split at h
  · next hpd => cases h; exact hpd
  · cases h

theorem readPacked_of_no_paymaster {body : Body} {p : PackedUserOperation}
    (hpm : List.lookup "paymaster" body = none) (h : readPacked body = some p) :
    p.paymasterAndData = [] := by
  have := readPacked_paymasterAndData h
  rw [readPaymasterAndData, hpm, Option.some.injEq] at this
  exact this.symm

theorem readPacked_initCode {body : Body} {p : PackedUserOperation}
    (h : readPacked body = some p) : readInitCode body = some p.initCode := by
  unfold readPacked at h
  split at h
  · next hic _ => cases h; exact hic
  · cases h

theorem readPacked_of_factory {body : Body} {p : PackedUserOperation} {f : String}
    (hf : List.lookup "factory" body = some f) (h : readPacked body = some p) :
    p.initCode ≠ [] := by
  have := readPacked_initCode h
  rw [readInitCode, hf] at this
  obtain ⟨factory, -, hrest⟩ := Option.bind_eq_some.mp this
  obtain ⟨fd, -, hpure⟩ := Option.bind_eq_some.mp hrest
  rw [← Option.some.inj hpure]
  simp [← List.length_pos, factory.length_eq]

/-! ## Bodies read back -/

theorem hex_data (s : String) : ("0x" ++ s).data = '0' :: 'x' :: s.data := rfl

theorem readHex_encodeToString (b : List UInt8) : readHex ("0x" ++ encodeToString b) = some b := by
  simp only [readHex, hex_data, decodeHex_encodeToString]

theorem readQuantity_bigText (n : Nat) :
    readQuantity ("0x" ++ bigText 16 (some (n : Int))) = some n := by
  rw [readQuantity, hex_data]
  simp only [bigText, Int.natAbs_ofNat, if_neg (show ¬(n : Int) < 0 by omega), List.nil_append]
  exact digitsValue_natText (by norm_num) (by norm_num) n

theorem readAddress_addressHex (keccak256 : List UInt8 → Hash) (a : Address) :
    readAddress (addressHex keccak256 a) = some a := by
  have hlen : 2 * a.bytes.length ≤ (nibbles (keccak256 ((encodeToString a.bytes).data.map
      fun c => UInt8.ofNat c.toNat)).bytes).length := by
    rw [nibbles_length, Word.length_eq, Word.length_eq]; omega
  simp only [readAddress, readHex, addressHex, decodeHex_checksum _ _ hlen, Option.some_bind,
    dif_pos a.length_eq]

theorem readOr_readHex_bytes (b : List UInt8) :
    readOr readHex [] (if 0 < b.length then some ("0x" ++ encodeToString b) else none) = some b := by
  split
  · exact readHex_encodeToString b
  · next h => simp_all [readOr]

theorem eq_of_readQuantity_bigText {v : Int} {m : Nat}
    (h : readQuantity ("0x" ++ bigText 16 (some v)) = some m) : v = m := by
  rcases Int.lt_or_le v 0 with hv | hv
  · have : hexDigitVal '-' = none := by decide
    simp [readQuantity, hex_data, bigText, hv, digitsValue, isDigits, this] at h
  · obtain ⟨n, rfl⟩ := Int.eq_ofNat_of_zero_le hv
    rw [readQuantity_bigText, Option.some.injEq] at h
    exact congrArg _ h

/-- A quantity the bundler reads back into a `uint<bits>` slot: set, not negative, and below
`2^bits`. -/
def readableUint (bits : Nat) : Option Int → Bool
  | some v => 0 ≤ v ∧ v < 2 ^ bits
  | none => false

theorem readableUint_iff {bits : Nat} {x : Option Int} :
    readableUint bits x = true ↔ ∃ n : Nat, n < 2 ^ bits ∧ x = some (n : Int) := by
  rcases x with _ | v
  · simp [readableUint]
  · simp only [readableUint, decide_eq_true_eq, Option.some.injEq]
    have hb : ((2 ^ bits : Nat) : Int) = 2 ^ bits := by norm_cast
    constructor
    · rintro ⟨h0, h1⟩
      exact ⟨v.toNat, by omega, by omega⟩
    · rintro ⟨n, hn, rfl⟩
      exact ⟨by omega, by omega⟩

theorem readUint_bigText {bits n : Nat} (h : n < 2 ^ bits) :
    readUint bits (some ("0x" ++ bigText 16 (some (n : Int)))) = some n := by
  simp only [readUint, readOr, readQuantity_bigText, Option.some_bind, if_pos h]

theorem readUint_bigText_eq {bits : Nat} {v : Int} {m : Nat}
    (h : readUint bits (some ("0x" ++ bigText 16 (some v))) = some m) : v = m ∧ m < 2 ^ bits := by
  obtain ⟨n, hn, h⟩ := Option.bind_eq_some.mp h
  split at h
  · next hlt => cases h; exact ⟨eq_of_readQuantity_bigText hn, hlt⟩
  · cases h

theorem readUint_lt {bits : Nat} {field : Option String} {m : Nat}
    (h : readUint bits field = some m) : m < 2 ^ bits := by
  obtain ⟨n, -, h⟩ := Option.bind_eq_some.mp h
  split at h
  · next hlt => cases h; exact hlt
  · cases h

theorem copyToHash_beBytes (a b : Nat) :
    copyToHash (beBytes 16 a ++ beBytes 16 b) = ⟨beBytes 16 a ++ beBytes 16 b, by simp⟩ :=
  Word.ext_bytes (copyToHash_of_length (by simp))

/-- The operations whose body the bundler reads as their packed form: a sender and a paymaster,
the nonce and `preVerificationGas` set, not negative and below `2^256`, every gas value set, not
negative and below `2^128`, and init code that is empty with no factory, or is the factory and its
data. -/
structure BodyReadable (u : UserOperation) : Prop where
  sender_ne : u.sender ≠ Word.zero 20
  paymaster_ne : u.paymaster ≠ Word.zero 20
  quantities : ∀ x ∈ [u.nonce, u.preVerificationGas], readableUint 256 x = true
  gas : ∀ x ∈ [u.callGasLimit, u.verificationGasLimit, u.maxFeePerGas, u.maxPriorityFeePerGas,
    u.paymasterVerificationGasLimit, u.paymasterPostOpGasLimit], readableUint 128 x = true
  initCode_eq : u.factory = Word.zero 20 ∧ u.initCode = [] ∨
    u.factory ≠ Word.zero 20 ∧ u.initCode = u.factory.bytes ++ u.factoryData

theorem newUserOpWithDefault_fits (sender : Address) (calldata : List UInt8) (salt : Option Int) :
    (∀ x ∈ [(newUserOpWithDefault sender calldata salt).callGasLimit,
      (newUserOpWithDefault sender calldata salt).verificationGasLimit,
      (newUserOpWithDefault sender calldata salt).maxFeePerGas,
      (newUserOpWithDefault sender calldata salt).maxPriorityFeePerGas,
      (newUserOpWithDefault sender calldata salt).paymasterVerificationGasLimit,
      (newUserOpWithDefault sender calldata salt).paymasterPostOpGasLimit],
      readableUint 128 x = true) ∧
    readableUint 256 (newUserOpWithDefault sender calldata salt).preVerificationGas = true := by
  simp only [newUserOpWithDefault, List.mem_cons, List.mem_nil_iff, or_false, forall_eq_or_imp,
    forall_eq]
  norm_num [readableUint, defaultCallGasLimit, defaultVerificationGasLimit, defaultMaxFeePerGas,
    defaultMaxPriorityFeePerGas, defaultPaymasterVerificationGasLimit,
    defaultPaymasterPostOpGasLimit, defaultPreVerificationGas]

theorem readPacked_toBody (keccak256 : List UInt8 → Hash) {u : UserOperation}
    (h : BodyReadable u) :
    ∃ p, packUserOperation u = .ok p ∧ readPacked (u.toBody keccak256) = some p := by
  obtain ⟨hs, hpm, hq, hg, hic⟩ := h
  simp only [List.mem_cons, List.mem_nil_iff, or_false, forall_eq_or_imp, forall_eq,
    readableUint_iff] at hq hg
  obtain ⟨⟨n0, b0, h0⟩, ⟨n3, b3, h3⟩⟩ := hq
  obtain ⟨⟨n1, b1, h1⟩, ⟨n2, b2, h2⟩, ⟨n4, b4, h4⟩, ⟨n5, b5, h5⟩, ⟨n6, b6, h6⟩, ⟨n7, b7, h7⟩⟩ := hg
  refine ⟨_, packUserOperation_of_gas u h2 h1 h5 h4 h6 h7, ?_⟩
  rcases hic with ⟨hf, hi⟩ | ⟨hf, hi⟩ <;>
  simp (disch := decide) only [readPacked, readGasWord, readInitCode, readPaymasterAndData,
    UserOperation.toBody, lookup_addressField_cons, lookup_quantityField_cons,
    lookup_bytesField_cons, lookup_addressField_self, lookup_quantityField_self,
    lookup_bytesField_self, h0, h1, h2, h3, h4, h5, h6, h7, hs, hpm, hf, hi, ne_eq,
    not_false_eq_true, not_true_eq_false, if_true, if_false, List.filterMap_nil, List.lookup_nil,
    readAddress_addressHex, Option.bind_eq_bind, Option.some_bind, Option.pure_def,
    readOr_readHex_bytes, readUint_bigText b0, readUint_bigText b3, readUint_bigText b1,
    readUint_bigText b2, readUint_bigText b4, readUint_bigText b5, readUint_bigText b6,
    readUint_bigText b7, pad16_eq_beBytes b1, pad16_eq_beBytes b2, pad16_eq_beBytes b4,
    pad16_eq_beBytes b5, pad16_eq_beBytes b6, pad16_eq_beBytes b7, copyToHash_beBytes]

theorem readPacked_eq_some {body : Body} {p : PackedUserOperation} (h : readPacked body = some p) :
    (List.lookup "sender" body).bind readAddress = some p.sender ∧
      (∃ n : Nat, n < 2 ^ 256 ∧ p.nonce = some (n : Int)) ∧
      (∃ n : Nat, n < 2 ^ 256 ∧ p.preVerificationGas = some (n : Int)) ∧
      readGasWord body "verificationGasLimit" "callGasLimit" = some p.accountGasLimits ∧
      readGasWord body "maxPriorityFeePerGas" "maxFeePerGas" = some p.gasFees ∧
      readInitCode body = some p.initCode ∧ readPaymasterAndData body = some p.paymasterAndData := by
  unfold readPacked at h
  split at h
  · next hs hn _ hagl hv hgf _ hic hpmd =>
    cases h
    exact ⟨hs, ⟨_, readUint_lt hn, rfl⟩, ⟨_, readUint_lt hv, rfl⟩, hagl, hgf, hic, hpmd⟩
  · cases h

theorem readGasWord_eq_some {body : Body} {high low : String} {w : Hash}
    (h : readGasWord body high low = some w) :
    (∃ x, readUint 128 (List.lookup high body) = some x) ∧
      ∃ y, readUint 128 (List.lookup low body) = some y := by
  obtain ⟨x, hx, h⟩ := Option.bind_eq_some.mp h
  obtain ⟨y, hy, -⟩ := Option.bind_eq_some.mp h
  exact ⟨⟨x, hx⟩, y, hy⟩

theorem readPaymasterAndData_gas {body : Body} {pm : String} {w : List UInt8}
    (hpm : List.lookup "paymaster" body = some pm) (h : readPaymasterAndData body = some w) :
    (∃ x, readUint 128 (List.lookup "paymasterVerificationGasLimit" body) = some x) ∧
      ∃ y, readUint 128 (List.lookup "paymasterPostOpGasLimit" body) = some y := by
  rw [readPaymasterAndData, hpm] at h
  obtain ⟨_, -, h⟩ := Option.bind_eq_some.mp h
  obtain ⟨x, hx, h⟩ := Option.bind_eq_some.mp h
  obtain ⟨y, hy, -⟩ := Option.bind_eq_some.mp h
  exact ⟨⟨x, hx⟩, y, hy⟩

theorem paymaster_ne_of_readPaymasterAndData (keccak256 : List UInt8 → Hash) {u : UserOperation}
    {w : List UInt8} (hw : w ≠ []) (h : readPaymasterAndData (u.toBody keccak256) = some w) :
    u.paymaster ≠ Word.zero 20 := fun hz => by
  rw [readPaymasterAndData, lookup_toBody_paymaster, if_neg (not_not.mpr hz)] at h
  exact hw (Option.some.inj h).symm

theorem initCode_eq_of_readInitCode (keccak256 : List UInt8 → Hash) {u : UserOperation}
    (h : readInitCode (u.toBody keccak256) = some u.initCode) :
    u.factory = Word.zero 20 ∧ u.initCode = [] ∨
      u.factory ≠ Word.zero 20 ∧ u.initCode = u.factory.bytes ++ u.factoryData := by
  rw [readInitCode, lookup_toBody_factory] at h
  by_cases hf : u.factory = Word.zero 20
  · rw [if_neg (not_not.mpr hf), Option.some.injEq] at h
    exact .inl ⟨hf, h.symm⟩
  · simp (disch := decide) only [if_pos hf, readAddress_addressHex, Option.some_bind,
      UserOperation.toBody, lookup_addressField_cons, lookup_quantityField_cons,
      lookup_bytesField_cons, lookup_bytesField_self, List.filterMap_nil, List.lookup_nil,
      readOr_readHex_bytes, Option.bind_eq_bind, Option.pure_def, Option.some.injEq] at h
    exact .inr ⟨hf, h.symm⟩

theorem bodyReadable_of_readPacked (keccak256 : List UInt8 → Hash) {u : UserOperation}
    {p : PackedUserOperation} (hp : packUserOperation u = .ok p)
    (h : readPacked (u.toBody keccak256) = some p) : BodyReadable u := by
  obtain ⟨a, b, c, d, e, f, h1, h2, h3, h4, h5, h6⟩ := packUserOperation_eq_ok hp
  rw [packUserOperation_of_gas u h1 h2 h3 h4 h5 h6, Except.ok.injEq] at hp
  subst hp
  obtain ⟨hs, hn, hv, hagl, hgf, hic, hpmd⟩ := readPacked_eq_some h
  dsimp only at hs hn hv hagl hgf hic hpmd
  clear h
  have hpne := paymaster_ne_of_readPaymasterAndData keccak256
    (by simp [← List.length_pos, u.paymaster.length_eq]) hpmd
  obtain ⟨⟨x1, hx1⟩, x2, hx2⟩ := readGasWord_eq_some hagl
  obtain ⟨⟨x4, hx4⟩, x5, hx5⟩ := readGasWord_eq_some hgf
  obtain ⟨⟨x6, hx6⟩, x7, hx7⟩ :=
    readPaymasterAndData_gas ((lookup_toBody_paymaster keccak256 u).trans (if_pos hpne)) hpmd
  simp (disch := decide) only [UserOperation.toBody, lookup_addressField_cons,
    lookup_quantityField_cons, lookup_bytesField_cons, lookup_addressField_self,
    lookup_quantityField_self, lookup_bytesField_self, h1, h2, h3, h4, h5, h6, List.filterMap_nil,
    List.lookup_nil] at hs hx1 hx2 hx4 hx5 hx6 hx7
  have hq : ∀ {x : Option Int} {v : Int} {m : Nat}, x = some v →
      readUint 128 (some ("0x" ++ bigText 16 (some v))) = some m →
      ∃ n : Nat, n < 2 ^ 128 ∧ x = some (n : Int) := fun hx hm =>
    ⟨_, (readUint_bigText_eq hm).2, hx.trans (congrArg some (readUint_bigText_eq hm).1)⟩
  refine ⟨fun hz => by simp [hz] at hs, hpne, ?_, ?_, initCode_eq_of_readInitCode keccak256 hic⟩
  · simp only [List.mem_cons, List.mem_nil_iff, or_false, forall_eq_or_imp, forall_eq,
      readableUint_iff]
    exact ⟨hn, hv⟩
  · simp only [List.mem_cons, List.mem_nil_iff, or_false, forall_eq_or_imp, forall_eq,
      readableUint_iff]
    exact ⟨hq h2 hx2, hq h1 hx1, hq h4 hx5, hq h3 hx4, hq h5 hx6, hq h6 hx7⟩

/-- The bundler reads the body `ToBody` sends as the operation `PackUserOperation` packs exactly
when the operation is `BodyReadable`: a sender and a paymaster, no quantity unset, negative or
too wide for its slot, and init code that is what the factory fields say. -/
theorem to_body_reads_as_packed_iff (keccak256 : List UInt8 → Hash) (u : UserOperation) :
    (∃ p, packUserOperation u = .ok p ∧ readPacked (u.toBody keccak256) = some p) ↔
      BodyReadable u :=
  ⟨fun ⟨_, hp, h⟩ => bodyReadable_of_readPacked keccak256 hp h, readPacked_toBody keccak256⟩

end AaSdk
