import AaSdk.Hash

/-! # The account calls `PackTransferData` and `PackBatchTransferData` build (`utils.go`)

Both encode a call of the SimpleAccount ABI with go-ethereum's `abi.ABI.Pack`: the method's
four-byte ID, then `Arguments.Pack` of the arguments, where a dynamic argument (`bytes`, a
slice) leaves an offset word in the head and its encoding after all heads. The other party is
`SimpleAccount.execute` and `SimpleAccount.executeBatch`, which read the call data back with
Solidity's calldata decoder and make the calls. The reader here checks what that decoder checks
for these types (every word in bounds, the 12 high bytes of an address zero) and leaves out its
`2^64` limits on offsets and lengths; of the account's methods it keeps these two.
-/

namespace AaSdk

/-! ## `abi.Arguments.Pack` with dynamic arguments -/

/-- An argument of the account's methods as `Arguments.Pack` gets it: a static value, `bytes`,
a slice of static values, or a slice of `bytes`. -/
inductive AbiInput
  | static (a : AbiArg)
  | bytes (b : List UInt8)
  | staticSlice (as : List AbiArg)
  | bytesSlice (bs : List (List UInt8))

/-- `isDynamicType`: all but a static value are encoded after the heads. -/
def AbiInput.isDynamic : AbiInput → Bool
  | .static _ => false
  | _ => true

/-- `packBytesSlice`: the length as a word, then the bytes right-padded to whole words. -/
def packBytesSlice (b : List UInt8) : List UInt8 :=
  u256Bytes b.length ++ b ++ List.replicate ((b.length + 31) / 32 * 32 - b.length) 0

/-- The offset words `Type.pack` writes for a slice of a dynamic type: an element's offset,
counted from the first of these words, is their length plus the encodings before it. -/
def offsetHeads (offset : Nat) : List (List UInt8) → List UInt8
  | [] => []
  | v :: vs => u256Bytes offset ++ offsetHeads (offset + v.length) vs

/-- `Type.pack` of one argument; a slice writes its length first. -/
def AbiInput.pack : AbiInput → Except Fault (List UInt8)
  | .static a => abiWord a
  | .bytes b => .ok (packBytesSlice b)
  | .staticSlice as => do
    let elems ← abiPack as
    pure (u256Bytes as.length ++ elems)
  | .bytesSlice bs =>
    let elems := bs.map packBytesSlice
    .ok (u256Bytes bs.length ++ offsetHeads (32 * bs.length) elems ++ elems.flatten)

/-- The loop of `Arguments.Pack`: a static argument is written in place, a dynamic one leaves
the offset of its encoding, which goes after all heads. -/
def packArguments (inputOffset : Nat) : List AbiInput → Except Fault (List UInt8 × List UInt8)
  | [] => .ok ([], [])
  | a :: as => do
    let packed ← a.pack
    if a.isDynamic then
      let (ret, variableInput) ← packArguments (inputOffset + packed.length) as
      pure (u256Bytes inputOffset ++ ret, packed ++ variableInput)
    else
      let (ret, variableInput) ← packArguments inputOffset as
      pure (packed ++ ret, variableInput)

/-- `abi.Arguments.Pack`; each argument here takes one word of the head (`getTypeSize`). -/
def argumentsPack (args : List AbiInput) : Except Fault (List UInt8) := do
  let (ret, variableInput) ← packArguments (32 * args.length) args
  pure (ret ++ variableInput)

/-- `Method.ID`: the first four bytes of the Keccak-256 hash of the method's signature. -/
def methodId (cr : Crypto) (sig : String) : List UInt8 := (cr.keccak256 (asciiBytes sig)).bytes.take 4

def executeSig : String := "execute(address,uint256,bytes)"

def executeBatchSig : String := "executeBatch(address[],uint256[],bytes[])"

/-- `abi.ABI.Pack` of a method of the SimpleAccount ABI: its ID, then its arguments. -/
def packMethod (cr : Crypto) (sig : String) (args : List AbiInput) : Except Fault (List UInt8) := do
  let arguments ← argumentsPack args
  pure (methodId cr sig ++ arguments)

/-- `PackTransferData`: `execute(target, value, "")`. -/
def packTransferData (cr : Crypto) (target : Address) (value : Option Int) :
    Except Fault (List UInt8) :=
  packMethod cr executeSig [.static (.address target), .static (.uint value), .bytes []]

/-- `PackBatchTransferData`: `executeBatch(dest, value, data)` with one empty call per target. -/
def packBatchTransferData (cr : Crypto) (dest : List Address) (value : List (Option Int)) :
    Except Fault (List UInt8) :=
  if dest.length ≠ value.length then
    .error (.error ("dest and value length mismatch: " ++ toString dest.length ++ " != " ++
      toString value.length))
  else
    packMethod cr executeBatchSig [.staticSlice (dest.map .address), .staticSlice (value.map .uint),
      .bytesSlice (List.replicate dest.length [])]

/-! ## How SimpleAccount reads the call data -/

/-- The word at byte `i`, if the data reaches that far. -/
def wordAt (d : List UInt8) (i : Nat) : Option Nat :=
  if i + 32 ≤ d.length then some (setBytes ((d.drop i).take 32)) else none

/-- An `address` word; the decoder reverts unless its 12 high bytes are zero. -/
def addressAt (d : List UInt8) (i : Nat) : Option Address :=
  if h : i + 32 ≤ d.length ∧ (d.drop i).take 12 = List.replicate 12 0 then
    some ⟨(d.drop (i + 12)).take 20, List.length_take_of_le (by rw [List.length_drop]; omega)⟩
  else none

/-- `bytes` at byte `i`: its length word, then that many bytes. -/
def bytesAt (d : List UInt8) (i : Nat) : Option (List UInt8) := do
  let n ← wordAt d i
  if i + 32 + n ≤ d.length then some ((d.drop (i + 32)).take n) else none

/-- `n` consecutive head words from byte `i`, each read by `read`. -/
def readWords {α : Type} (read : List UInt8 → Nat → Option α) (d : List UInt8) :
    Nat → Nat → Option (List α)
  | _, 0 => some []
  | i, n + 1 => do
    let x ← read d i
    let xs ← readWords read d (i + 32) n
    pure (x :: xs)

/-- A slice at byte `i`: its length word, then its elements' heads; `read start` reads an
element whose offsets count from `start`, the first byte after the length. -/
def sliceAt {α : Type} (read : Nat → List UInt8 → Nat → Option α) (d : List UInt8) (i : Nat) :
    Option (List α) := do
  let n ← wordAt d i
  readWords (read (i + 32)) d (i + 32) n

/-- A `bytes` element of a slice: its offset word, counted from `start`. -/
def bytesElemAt (start : Nat) (d : List UInt8) (i : Nat) : Option (List UInt8) := do
  let o ← wordAt d i
  bytesAt d (start + o)

/-- The arguments of `execute(address,uint256,bytes)`. -/
def readExecute (args : List UInt8) : Option (Address × Nat × List UInt8) := do
  let dest ← addressAt args 0
  let value ← wordAt args 32
  let func ← (wordAt args 64).bind (bytesAt args)
  pure (dest, value, func)

/-- The arguments of `executeBatch(address[],uint256[],bytes[])`. -/
def readExecuteBatch (args : List UInt8) : Option (List Address × List Nat × List (List UInt8)) := do
  let dest ← (wordAt args 0).bind (sliceAt (fun _ => addressAt) args)
  let value ← (wordAt args 32).bind (sliceAt (fun _ => wordAt) args)
  let func ← (wordAt args 64).bind (sliceAt bytesElemAt args)
  pure (dest, value, func)

/-- A call the account makes: `_call(target, value, data)`. -/
structure AccountCall where
  target : Address
  value : Nat
  data : List UInt8
  deriving DecidableEq, Repr

/-- `SimpleAccount.executeBatch`: `wrong array lengths` unless `dest` and `func` have one length
and `value` is empty or has it too; with no values every call sends none. -/
def executeBatch (dest : List Address) (value : List Nat) (func : List (List UInt8)) :
    Option (List AccountCall) :=
  if dest.length = func.length ∧ (value.length = 0 ∨ value.length = func.length) then
    some (List.zipWith3 AccountCall.mk dest
      (if value.length = 0 then List.replicate dest.length 0 else value) func)
  else none

/-- The calls the account makes for call data, by its selector; any other selector reverts. -/
def accountCalls (cr : Crypto) (calldata : List UInt8) : Option (List AccountCall) :=
  if calldata.take 4 = methodId cr executeSig then
    (readExecute (calldata.drop 4)).map fun (dest, value, func) => [⟨dest, value, func⟩]
  else if calldata.take 4 = methodId cr executeBatchSig then
    (readExecuteBatch (calldata.drop 4)).bind fun (dest, value, func) => executeBatch dest value func
  else none

/-! ## Reading at an offset -/

theorem prefix_drop_append {a b d : List UInt8} {i : Nat} (h : a ++ b <+: d.drop i) :
    a <+: d.drop i ∧ b <+: d.drop (i + a.length) := by
  obtain ⟨t, ht⟩ := h
  refine ⟨⟨b ++ t, by rw [← ht, List.append_assoc]⟩, t, ?_⟩
  rw [← List.drop_drop, ← ht, List.append_assoc, List.drop_left]

theorem wordAt_of_segment {d w : List UInt8} {i : Nat} (hw : w.length = 32) (h : w <+: d.drop i) :
    wordAt d i = some (setBytes w) := by
  have hle := h.length_le
  rw [List.length_drop, hw] at hle
  rw [wordAt, if_pos (by omega), ← hw, ← List.prefix_iff_eq_take.mp h]

theorem wordAt_u256Bytes {d : List UInt8} {i n : Nat} (hn : n < 2 ^ 256)
    (h : u256Bytes n <+: d.drop i) : wordAt d i = some n := by
  rw [wordAt_of_segment (u256Bytes_length _) h, setBytes_u256Bytes hn]

theorem wordAt_u256Bytes_int {d : List UInt8} {i : Nat} (x : Int) (h : u256Bytes x <+: d.drop i) :
    wordAt d i = some (x % 2 ^ 256).toNat := by
  rw [wordAt_of_segment (u256Bytes_length _) h, u256Bytes, setBytes_beBytes,
    show (256 : Nat) ^ 32 = 2 ^ 256 by norm_num, Nat.mod_eq_of_lt]
  rw [Int.toNat_lt (Int.emod_nonneg _ (by positivity))]
  exact_mod_cast Int.emod_lt_of_pos x (by positivity)

theorem addressAt_of_segment {d : List UInt8} {i : Nat} (a : Address)
    (h : List.replicate 12 0 ++ a.bytes <+: d.drop i) : addressAt d i = some a := by
  have hle := h.length_le
  obtain ⟨hz, ha⟩ := prefix_drop_append h
  simp only [List.length_append, List.length_replicate, a.length_eq, List.length_drop] at hle ha
  have hz' := List.prefix_iff_eq_take.mp hz
  have ha' := List.prefix_iff_eq_take.mp ha
  rw [List.length_replicate] at hz'
  rw [a.length_eq] at ha'
  rw [addressAt, dif_pos ⟨by omega, hz'.symm⟩]
  exact congrArg some (Word.ext_bytes ha'.symm)

theorem bytesAt_of_segment {d b : List UInt8} {i : Nat} (hb : b.length < 2 ^ 256)
    (h : packBytesSlice b <+: d.drop i) : bytesAt d i = some b := by
  obtain ⟨h, -⟩ := prefix_drop_append h
  have hle := h.length_le
  obtain ⟨hn, hbytes⟩ := prefix_drop_append h
  simp only [List.length_append, u256Bytes_length, List.length_drop] at hle hbytes
  simp only [bytesAt, wordAt_u256Bytes hb hn, Option.bind_eq_bind, Option.some_bind,
    if_pos (show i + 32 + b.length ≤ d.length by omega)]
  rw [← List.prefix_iff_eq_take.mp hbytes]

theorem length_flatten_map {β : Type} {enc : β → List UInt8} {k : Nat}
    (henc : ∀ x, (enc x).length = k) (xs : List β) : ((xs.map enc).flatten).length = k * xs.length := by
  induction xs with
  | nil => rfl
  | cons x xs ih => simp only [List.map_cons, List.flatten_cons, List.length_append, henc, ih,
      List.length_cons, Nat.mul_succ]; omega

theorem readWords_of_segment {α β : Type} {read : List UInt8 → Nat → Option α}
    {enc : β → List UInt8} {f : β → α} (henc : ∀ x, (enc x).length = 32)
    (hread : ∀ {d i} x, enc x <+: d.drop i → read d i = some (f x)) (xs : List β) :
    ∀ {d i}, (xs.map enc).flatten <+: d.drop i → readWords read d i xs.length = some (xs.map f) := by
  induction xs with
  | nil => intro _ _ _; rfl
  | cons x xs ih =>
    intro d i h
    rw [List.map_cons, List.flatten_cons] at h
    obtain ⟨hx, hxs⟩ := prefix_drop_append h
    rw [henc] at hxs
    simp only [readWords, hread x hx, ih hxs, Option.bind_eq_bind, Option.some_bind,
      List.length_cons, List.map_cons]
    rfl

theorem readWords_offsetHeads {d : List UInt8} {start : Nat} (bs : List (List UInt8)) :
    ∀ {offset i}, (∀ b ∈ bs, b.length < 2 ^ 256) →
      offset + ((bs.map packBytesSlice).flatten).length < 2 ^ 256 →
      offsetHeads offset (bs.map packBytesSlice) <+: d.drop i →
      (bs.map packBytesSlice).flatten <+: d.drop (start + offset) →
      readWords (bytesElemAt start) d i bs.length = some bs := by
  induction bs with
  | nil => intro _ _ _ _ _ _; rfl
  | cons b bs ih =>
    intro offset i hb hoff hheads htail
    simp only [List.map_cons, List.flatten_cons, offsetHeads, List.length_append] at hoff hheads htail
    obtain ⟨ho, hheads⟩ := prefix_drop_append hheads
    obtain ⟨hbytes, htail⟩ := prefix_drop_append htail
    rw [u256Bytes_length] at hheads
    have hrest := ih (fun b' hb' => hb b' (List.mem_cons_of_mem b hb')) (by omega) hheads
      (by rwa [← Nat.add_assoc])
    simp only [readWords, bytesElemAt, wordAt_u256Bytes (by omega) ho,
      bytesAt_of_segment (hb b (List.mem_cons_self b bs)) hbytes, u256Bytes_length, hrest,
      Option.bind_eq_bind, Option.some_bind, List.length_cons]
    rfl

theorem abiPack_map {β : Type} {g : β → AbiArg} {enc : β → List UInt8}
    (h : ∀ x, abiWord (g x) = .ok (enc x)) (xs : List β) :
    abiPack (xs.map g) = .ok ((xs.map enc).flatten) := by
  induction xs with
  | nil => rfl
  | cons x xs ih => simp [abiPack, h, ih, pure, Except.pure]

theorem offsetHeads_length (offset : Nat) (vs : List (List UInt8)) :
    (offsetHeads offset vs).length = 32 * vs.length := by
  induction vs generalizing offset with
  | nil => rfl
  | cons v vs ih => simp only [offsetHeads, List.length_append, u256Bytes_length, ih,
      List.length_cons]; omega

theorem sliceAt_static {α β : Type} {read : List UInt8 → Nat → Option α} {enc : β → List UInt8}
    {f : β → α} (henc : ∀ x, (enc x).length = 32)
    (hread : ∀ {d i} x, enc x <+: d.drop i → read d i = some (f x)) (xs : List β)
    (hn : xs.length < 2 ^ 256) {d : List UInt8} {i : Nat}
    (h : u256Bytes xs.length ++ (xs.map enc).flatten <+: d.drop i) :
    sliceAt (fun _ => read) d i = some (xs.map f) := by
  obtain ⟨hlen, hxs⟩ := prefix_drop_append h
  rw [u256Bytes_length] at hxs
  simp only [sliceAt, wordAt_u256Bytes hn hlen, Option.bind_eq_bind, Option.some_bind]
  exact readWords_of_segment henc hread xs hxs

theorem sliceAt_bytes (bs : List (List UInt8)) (hb : ∀ b ∈ bs, b.length < 2 ^ 256)
    (hbound : 32 * bs.length + ((bs.map packBytesSlice).flatten).length < 2 ^ 256)
    {d : List UInt8} {i : Nat}
    (h : u256Bytes bs.length ++ offsetHeads (32 * bs.length) (bs.map packBytesSlice) ++
      (bs.map packBytesSlice).flatten <+: d.drop i) :
    sliceAt bytesElemAt d i = some bs := by
  obtain ⟨h, htail⟩ := prefix_drop_append h
  obtain ⟨hlen, hheads⟩ := prefix_drop_append h
  simp only [List.length_append, u256Bytes_length, offsetHeads_length, List.length_map] at hheads htail
  rw [← Nat.add_assoc] at htail
  simp only [sliceAt, wordAt_u256Bytes (by omega) hlen, Option.bind_eq_bind, Option.some_bind]
  exact readWords_offsetHeads bs hb hbound hheads htail

theorem methodId_length (cr : Crypto) (sig : String) : (methodId cr sig).length = 4 := by
  simp [methodId, Word.length_eq]

theorem accountCalls_packMethod {cr : Crypto} {sig : String} {args : List AbiInput}
    {data arguments : List UInt8} (h : packMethod cr sig args = .ok data)
    (hargs : argumentsPack args = .ok arguments) :
    data.take 4 = methodId cr sig ∧ data.drop 4 = arguments := by
  rw [packMethod, hargs] at h
  cases h
  exact ⟨List.take_left' (methodId_length cr sig), List.drop_left' (methodId_length cr sig)⟩

theorem prefix_drop_zero_of_eq {d a : List UInt8} (h : d = a) : a <+: d.drop 0 := by
  rw [List.drop_zero, h]

theorem argumentsPack_execute (target : Address) (value : Int) :
    argumentsPack [.static (.address target), .static (.uint (some value)), .bytes []] =
      .ok (List.replicate 12 0 ++ target.bytes ++ u256Bytes value ++ u256Bytes 96 ++
        packBytesSlice []) := by
  simp [argumentsPack, packArguments, AbiInput.pack, abiWord, AbiInput.isDynamic, pure, Except.pure]

/-! ## The account makes the calls the SDK meant -/

/-- For every target and value, `PackTransferData` builds call data on which the account makes
one call: to the target, with the value modulo `2^256` (go-ethereum writes a negative value in
two's complement, so the account sends `2^256 - |value|`), and no data. -/
theorem pack_transfer_data_calls (cr : Crypto) (target : Address) (value : Int) :
    ∃ data, packTransferData cr target (some value) = .ok data ∧
      accountCalls cr data = some [⟨target, (value % 2 ^ 256).toNat, []⟩] := by
  have hargs := argumentsPack_execute target value
  obtain ⟨data, hdata⟩ : ∃ data, packTransferData cr target (some value) = .ok data :=
    ⟨_, by rw [packTransferData, packMethod, hargs]; rfl⟩
  obtain ⟨hsel, hrest⟩ := accountCalls_packMethod hdata hargs
  refine ⟨data, hdata, ?_⟩
  have h := prefix_drop_zero_of_eq hrest
  obtain ⟨h, hfunc⟩ := prefix_drop_append h
  obtain ⟨h, h96⟩ := prefix_drop_append h
  obtain ⟨haddr, hval⟩ := prefix_drop_append h
  simp only [List.length_append, List.length_replicate, target.length_eq, u256Bytes_length,
    zero_add] at hval h96 hfunc
  simp only [accountCalls, hsel, if_true, readExecute, addressAt_of_segment target haddr,
    wordAt_u256Bytes_int value hval, wordAt_u256Bytes (by norm_num) h96,
    bytesAt_of_segment (by norm_num) hfunc, Option.bind_eq_bind, Option.some_bind, Option.pure_def,
    Option.map_some']

theorem pack_staticSlice_address (dest : List Address) :
    (AbiInput.staticSlice (dest.map .address)).pack =
      .ok (u256Bytes dest.length ++ (dest.map fun a => List.replicate 12 0 ++ a.bytes).flatten) := by
  simp only [AbiInput.pack, List.length_map,
    @abiPack_map _ AbiArg.address (fun a => List.replicate 12 0 ++ a.bytes) (fun _ => rfl) dest]
  rfl

theorem argumentsPack_dynamic3 {x y z : AbiInput} {p q r : List UInt8} (hx : x.pack = .ok p)
    (hy : y.pack = .ok q) (hz : z.pack = .ok r) (dx : x.isDynamic = true)
    (dy : y.isDynamic = true) (dz : z.isDynamic = true) :
    argumentsPack [x, y, z] = .ok (u256Bytes 96 ++ u256Bytes ((96 + p.length : Nat) : Int) ++
      u256Bytes ((96 + p.length + q.length : Nat) : Int) ++ p ++ q ++ r) := by
  simp [argumentsPack, packArguments, hx, hy, hz, dx, dy, dz, pure, Except.pure]

theorem zipWith3_replicate_nil (dest : List Address) :
    ∀ (value : List Nat), dest.length = value.length →
      List.zipWith3 AccountCall.mk dest value (List.replicate dest.length []) =
        List.zipWith (fun target v => ⟨target, v, []⟩) dest value := by
  induction dest with
  | nil => intro _ _; rfl
  | cons t dest ih =>
    intro value h
    cases value with
    | nil => cases h
    | cons v value =>
      simp only [List.length_cons, List.replicate_succ, List.zipWith3, List.zipWith_cons_cons,
        ih value (Nat.succ.inj h)]

theorem executeBatch_transfers (dest : List Address) (value : List Nat)
    (h : dest.length = value.length) :
    executeBatch dest value (List.replicate dest.length []) =
      some (List.zipWith (fun target v => ⟨target, v, []⟩) dest value) := by
  rw [executeBatch, if_pos ⟨(List.length_replicate _ _).symm, .inr (by simp [h])⟩]
  congr 1
  split
  · next h0 =>
    rw [List.length_eq_zero.mp h0, List.length_eq_zero.mp (h.trans h0)]
    rfl
  · exact zipWith3_replicate_nil dest value h

/-- For targets and values of one length, `PackBatchTransferData` builds call data on which the
account, whose two method IDs differ, passes the `wrong array lengths` check and makes one call per
target, in order: with its value modulo `2^256` and no data. -/
theorem pack_batch_transfer_data_calls (cr : Crypto)
    (hid : methodId cr executeSig ≠ methodId cr executeBatchSig) (dest : List Address)
    (value : List Int) (hlen : dest.length = value.length) (hn : dest.length < 2 ^ 64) :
    ∃ data, packBatchTransferData cr dest (value.map some) = .ok data ∧
      accountCalls cr data = some (List.zipWith
        (fun target v => ⟨target, (v % 2 ^ 256).toNat, []⟩) dest value) := by
  have hA := pack_staticSlice_address dest
  have hV : (AbiInput.staticSlice ((value.map some).map .uint)).pack =
      .ok (u256Bytes value.length ++ (value.map u256Bytes).flatten) := by
    simp only [AbiInput.pack, List.length_map, List.map_map,
      @abiPack_map _ (AbiArg.uint ∘ some) u256Bytes (fun _ => rfl) value]
    rfl
  have hargs := argumentsPack_dynamic3 (z := .bytesSlice (List.replicate dest.length [])) hA hV rfl
    rfl rfl rfl
  rw [packBatchTransferData, if_neg (by simp [hlen])]
  obtain ⟨data, hdata⟩ : ∃ data, packMethod cr executeBatchSig _ = .ok data :=
    ⟨_, by rw [packMethod, hargs]; rfl⟩
  obtain ⟨hsel, hrest⟩ := accountCalls_packMethod hdata hargs
  refine ⟨data, hdata, ?_⟩
  have h := prefix_drop_zero_of_eq hrest
  obtain ⟨h, hD⟩ := prefix_drop_append h
  obtain ⟨h, hV⟩ := prefix_drop_append h
  obtain ⟨h, hA⟩ := prefix_drop_append h
  obtain ⟨h, h2⟩ := prefix_drop_append h
  obtain ⟨h0, h1⟩ := prefix_drop_append h
  have hpb : ∀ b ∈ List.replicate dest.length ([] : List UInt8), b.length < 2 ^ 256 := by
    simp
  have haddr : ∀ a : Address, (List.replicate 12 0 ++ a.bytes).length = 32 := by
    simp [Word.length_eq]
  have h64 : (2 : Nat) ^ 64 * 256 < 2 ^ 256 := by norm_num
  have hbound : 32 * (List.replicate dest.length ([] : List UInt8)).length +
      ((List.replicate dest.length []).map packBytesSlice).flatten.length < 2 ^ 256 := by
    have h32 : (packBytesSlice []).length = 32 := rfl
    rw [List.map_replicate, List.length_flatten, List.map_replicate, List.sum_replicate,
      List.length_replicate, smul_eq_mul, h32]
    omega
  simp only [List.length_append, u256Bytes_length, zero_add, Nat.reduceAdd,
    length_flatten_map (fun _ => u256Bytes_length _), length_flatten_map haddr] at h1 h2 hA hV hD
  simp only [accountCalls, hsel, if_neg hid.symm, if_true, readExecuteBatch,
    wordAt_u256Bytes (by norm_num) h0, wordAt_u256Bytes (by omega) h1,
    wordAt_u256Bytes (by omega) h2, Option.bind_eq_bind, Option.some_bind,
    sliceAt_static haddr (fun x h => addressAt_of_segment x h) dest (by omega) hA,
    sliceAt_static (fun _ => u256Bytes_length _) (fun x h => wordAt_u256Bytes_int x h) value
      (by omega) hV,
    sliceAt_bytes _ hpb hbound hD]
  rw [Option.pure_def, Option.some_bind, List.map_id',
    executeBatch_transfers dest _ (by rw [List.length_map, hlen]), List.zipWith_map_right]

/-- A stand-in for Keccak-256 whose first byte is the input's length, so that the IDs of the
account's two methods differ, as the real ones do. -/
def idCrypto : Crypto where
  keccak256 b := ⟨(beBytes 32 b.length).reverse, by simp⟩
  sign _ _ := .error "no key"
  pubkeyToAddress _ := Word.zero 20

theorem pack_batch_transfer_data_calls_two :
    methodId idCrypto executeSig ≠ methodId idCrypto executeBatchSig ∧
      ∃ data, packBatchTransferData idCrypto [Word.zero 20, ⟨List.replicate 20 1, rfl⟩]
          (([5, -1] : List Int).map some) = .ok data ∧
        accountCalls idCrypto data = some (List.zipWith
          (fun target v => ⟨target, (v % 2 ^ 256).toNat, []⟩) [Word.zero 20, ⟨List.replicate 20 1, rfl⟩]
          [5, -1]) :=
  ⟨by decide, pack_batch_transfer_data_calls idCrypto (by decide) _ _ rfl (by norm_num)⟩

/-! ## How `PackBatchTransferData` fails -/

theorem abiWord_ne_error (a : AbiArg) (msg : String) : abiWord a ≠ .error (.error msg) := by
  rcases a with _ | (_ | _) | _ <;> nofun

theorem AbiInput.pack_ne_error (x : AbiInput) (msg : String) : x.pack ≠ .error (.error msg) := by
  cases x with
  | static a => exact abiWord_ne_error a msg
  | staticSlice as => exact except_bind_ne_error (abiPack_ne_error as msg) fun _ => nofun
  | _ => nofun

theorem packArguments_ne_error (msg : String) (args : List AbiInput) :
    ∀ o, packArguments o args ≠ .error (.error msg) := by
  induction args with
  | nil => intro _; nofun
  | cons a as ih =>
    intro o
    refine except_bind_ne_error (a.pack_ne_error msg) fun packed => ?_
    split
    · exact except_bind_ne_error (ih _) fun ⟨_, _⟩ => nofun
    · exact except_bind_ne_error (ih _) fun ⟨_, _⟩ => nofun

theorem packMethod_ne_error (cr : Crypto) (sig : String) (args : List AbiInput) (msg : String) :
    packMethod cr sig args ≠ .error (.error msg) :=
  except_bind_ne_error (except_bind_ne_error (packArguments_ne_error msg args _) fun ⟨_, _⟩ => nofun)
    fun _ => nofun

theorem abiPack_of_nil {as : List AbiArg} (h : AbiArg.uint none ∈ as) :
    ∃ m, abiPack as = .error (.panic m) := by
  induction as with
  | nil => cases h
  | cons a as ih =>
    rcases List.mem_cons.mp h with rfl | h
    · exact ⟨_, rfl⟩
    · obtain ⟨m, hm⟩ := ih h
      rcases hw : abiWord a with (msg | m') | w
      · exact absurd hw (abiWord_ne_error a msg)
      · exact ⟨m', by simp [abiPack, hw]⟩
      · exact ⟨m, by simp [abiPack, hw, hm]⟩

/-- `PackBatchTransferData` returns an error value only when the lengths differ, with the message
naming both; with equal lengths it panics exactly when a value is nil, and an error check of its
result does not catch that. -/
theorem pack_batch_transfer_data_fails (cr : Crypto) (dest : List Address)
    (value : List (Option Int)) :
    (∀ msg, packBatchTransferData cr dest value = .error (.error msg) ↔
      dest.length ≠ value.length ∧ msg = "dest and value length mismatch: " ++
        toString dest.length ++ " != " ++ toString value.length) ∧
    ((∃ m, packBatchTransferData cr dest value = .error (.panic m)) ↔
      dest.length = value.length ∧ none ∈ value) := by
  by_cases hlen : dest.length = value.length
  case neg =>
    simp only [packBatchTransferData, if_pos hlen, Except.error.injEq, Fault.error.injEq]
    exact ⟨fun msg => ⟨fun h => ⟨hlen, h.symm⟩, fun h => h.2.symm⟩, by simp [hlen]⟩
  case pos =>
    rw [packBatchTransferData, if_neg (not_not.mpr hlen)]
    refine ⟨fun msg => ⟨fun h => absurd h (packMethod_ne_error _ _ _ msg), fun h => absurd hlen h.1⟩,
      ⟨fun ⟨m, hm⟩ => ⟨hlen, ?_⟩, fun ⟨_, hnone⟩ => ?_⟩⟩
    · -- with every value set, all three arguments pack and so does the call
      by_contra hnone
      obtain ⟨q, hq⟩ := @abiPack_of_isSet (value.map .uint) (by
        simp only [List.mem_map]
        rintro _ ⟨_ | v, hv, rfl⟩
        · exact absurd hv hnone
        · rfl)
      have hV : (AbiInput.staticSlice (value.map .uint)).pack =
          .ok (u256Bytes (value.map AbiArg.uint).length ++ q) := by
        rw [AbiInput.pack, hq]; rfl
      rw [packMethod, argumentsPack_dynamic3 (z := .bytesSlice (List.replicate dest.length []))
        (pack_staticSlice_address dest) hV rfl rfl rfl rfl] at hm
      cases hm
    · obtain ⟨m, hm⟩ := abiPack_of_nil (List.mem_map_of_mem AbiArg.uint hnone)
      have hV : (AbiInput.staticSlice (value.map .uint)).pack = .error (.panic m) := by
        rw [AbiInput.pack, hm]; rfl
      exact ⟨m, by simp [packMethod, argumentsPack, packArguments, pack_staticSlice_address dest,
        hV, AbiInput.isDynamic]⟩

end AaSdk
