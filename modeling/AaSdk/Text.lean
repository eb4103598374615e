import AaSdk.Bytes

/-! # Hex and decimal text

`big.Int.Text`, `hex.EncodeToString`, `hex.DecodeString` under `common.Hex2Bytes`,
`HexToBigInt`, and the EIP-55 `Address.Hex`. The strings these write and read
are ASCII, so one `Char` stands for one byte of the Go string.
-/

namespace AaSdk

/-! ## Digits -/

/-- `reverseHexTable` of `encoding/hex`: the value of a hex digit of either case. -/
def hexDigitVal (c : Char) : Option Nat :=
  if '0' ≤ c ∧ c ≤ '9' then some (c.toNat - 48)
  else if 'a' ≤ c ∧ c ≤ 'f' then some (c.toNat - 87)
  else if 'A' ≤ c ∧ c ≤ 'F' then some (c.toNat - 55)
  else none

/-- A digit's value, `0` for a character that is not one. -/
def digitValue (c : Char) : Nat := (hexDigitVal c).getD 0

/-- Every character is a digit below `b`. -/
def isDigits (b : Nat) (cs : List Char) : Bool :=
  cs.all fun c => match hexDigitVal c with
    | some d => decide (d < b)
    | none => false

/-- The number the digits `cs` denote in base `b`, most significant first. -/
def digitsValue (b : Nat) (cs : List Char) : Option Nat :=
  if isDigits b cs then some (ofDigitsBE b (cs.map digitValue)) else none

theorem hexDigitVal_digitChar {d : Nat} (h : d < 16) : hexDigitVal (Nat.digitChar d) = some d := by
  have key : ∀ d : Fin 16, hexDigitVal (Nat.digitChar d) = some d := by decide
  exact key ⟨d, h⟩

theorem digitValue_digitChar {d : Nat} (h : d < 16) : digitValue (Nat.digitChar d) = d := by
  simp [digitValue, hexDigitVal_digitChar h]

theorem isDigits_cons (b : Nat) (c : Char) (cs : List Char) :
    isDigits b (c :: cs) = true ↔ (∃ d, hexDigitVal c = some d ∧ d < b) ∧ isDigits b cs = true := by
  simp only [isDigits, List.all_cons, Bool.and_eq_true]
  split <;> simp_all

theorem isDigits_iff (b : Nat) (cs : List Char) :
    isDigits b cs = true ↔ ∀ c ∈ cs, ∃ d, hexDigitVal c = some d ∧ d < b := by
  induction cs with
  | nil => simp [isDigits]
  | cons c cs ih => rw [isDigits_cons, ih, List.forall_mem_cons]

theorem isDigits_map_digitChar {b : Nat} (hb : b ≤ 16) {ds : List Nat} (h : ∀ d ∈ ds, d < b) :
    isDigits b (ds.map Nat.digitChar) = true := by
  rw [isDigits_iff]
  intro c hc
  obtain ⟨d, hd, rfl⟩ := List.mem_map.mp hc
  exact ⟨d, hexDigitVal_digitChar (by have := h d hd; omega), h d hd⟩

theorem map_digitValue_digitChar {ds : List Nat} (h : ∀ d ∈ ds, d < 16) :
    (ds.map Nat.digitChar).map digitValue = ds := by
  rw [List.map_map]
  conv_rhs => rw [← List.map_id ds]
  exact List.map_congr_left fun d hd => digitValue_digitChar (h d hd)

/-! ## `big.Int.Text` -/

/-- The digits `Text(b)` writes for `n ≥ 0`: most significant first, lower case, `0` for zero. -/
def natText (b n : Nat) : List Char :=
  if n = 0 then ['0'] else ((Nat.digits b n).map Nat.digitChar).reverse

/-- `(*big.Int).Text(b)`; `String()` is `Text(10)`. A nil pointer prints `<nil>`. -/
def bigText (b : Nat) : Option Int → String
  | none => "<nil>"
  | some x => ⟨(if x < 0 then ['-'] else []) ++ natText b x.natAbs⟩

section Base

variable {b : Nat} (hb : 2 ≤ b) (hb16 : b ≤ 16)
include hb hb16

theorem isDigits_natText (n : Nat) : isDigits b (natText b n) = true := by
  unfold natText
  split
  · simp [isDigits, hexDigitVal]; omega
  · rw [isDigits_iff]
    intro c hc
    rw [List.mem_reverse] at hc
    exact (isDigits_iff b _).mp
      (isDigits_map_digitChar hb16 fun d hd => Nat.digits_lt_base (by omega) hd) c hc

theorem digitsValue_natText (n : Nat) : digitsValue b (natText b n) = some n := by
  rw [digitsValue, if_pos (isDigits_natText hb hb16 n)]
  unfold natText
  split
  · simp [digitValue, hexDigitVal, ofDigitsBE, *]
  · rw [List.map_reverse, map_digitValue_digitChar fun d hd =>
      lt_of_lt_of_le (Nat.digits_lt_base (by omega) hd) hb16, ofDigitsBE_reverse,
      Nat.ofDigits_digits]

end Base

/-- Reads back what `bigText b` writes. -/
def parseBigText (b : Nat) (s : String) : Option (Option Int) :=
  if s.data = "<nil>".data then some none
  else if s.data.head? = some '-' then (digitsValue b s.data.tail).map fun n => some (-(n : Int))
  else (digitsValue b s.data).map fun n => some (n : Int)

theorem not_mem_of_isDigits {b : Nat} {cs : List Char} (h : isDigits b cs = true) {c : Char}
    (hc : hexDigitVal c = none) : c ∉ cs := by
  intro hmem
  obtain ⟨d, hd, -⟩ := (isDigits_iff b cs).mp h c hmem
  simp [hc] at hd

theorem parseBigText_bigText {b : Nat} (hb : 2 ≤ b) (hb16 : b ≤ 16) (x : Option Int) :
    parseBigText b (bigText b x) = some x := by
  have hdig := isDigits_natText hb hb16
  rcases x with _ | x
  · rfl
  · by_cases hx : x < 0
    · have hne : ('-' :: natText b x.natAbs) ≠ "<nil>".data := by simp
      simp [parseBigText, bigText, hx, hne, digitsValue_natText hb hb16, abs_of_neg hx]
    · have hnil : natText b x.natAbs ≠ "<nil>".data := fun h =>
        not_mem_of_isDigits (hdig x.natAbs) (c := '<') (by decide) (by rw [h]; decide)
      have hhead : (natText b x.natAbs).head? ≠ some '-' := fun h =>
        not_mem_of_isDigits (hdig x.natAbs) (c := '-') (by decide) (List.mem_of_mem_head? h)
      simp [parseBigText, bigText, hx, hnil, hhead, digitsValue_natText hb hb16,
        abs_of_nonneg (not_lt.mp hx)]

theorem bigText_injective {b : Nat} (hb : 2 ≤ b) (hb16 : b ≤ 16) {x y : Option Int}
    (h : bigText b x = bigText b y) : x = y := by
  have := parseBigText_bigText hb hb16 x
  rwa [h, parseBigText_bigText hb hb16 y, Option.some.injEq, eq_comm] at this

/-! ## `encoding/hex` -/

/-- `hex.EncodeToString`: two lower-case digits per byte, high half first. -/
def encodeToString (b : List UInt8) : String :=
  ⟨b.flatMap fun x => [Nat.digitChar (x.toNat / 16), Nat.digitChar (x.toNat % 16)]⟩

/-- The errors of `hex.Decode`: `InvalidByteError` and `ErrLength`. -/
inductive HexError
  | invalidByte (c : Char)
  | errLength
  deriving DecidableEq, Repr

/-- `hex.DecodeString`: two digits per byte, stopping at the first bad digit or at an odd last
digit; the bytes decoded before the error come back with it. -/
def decodeHex : List Char → List UInt8 × Option HexError
  | [] => ([], none)
  | [p] => ([], some (if (hexDigitVal p).isSome then .errLength else .invalidByte p))
  | p :: q :: rest =>
    match hexDigitVal p, hexDigitVal q with
    | none, _ => ([], some (.invalidByte p))
    | some _, none => ([], some (.invalidByte q))
    | some a, some b => (UInt8.ofNat (a * 16 + b) :: (decodeHex rest).1, (decodeHex rest).2)

/-- `common.Hex2Bytes`: `hex.DecodeString` with its error dropped. -/
def hex2Bytes (str : String) : List UInt8 := (decodeHex str.data).1

/-- `HexToBigInt`: drop a `0x` prefix, then `SetBytes(common.Hex2Bytes(...))`. -/
def hexToBigInt (hex : String) : Int :=
  if "0x".data.isPrefixOf hex.data then setBytes (hex2Bytes ⟨hex.data.drop 2⟩)
  else setBytes (hex2Bytes hex)

theorem decodeHex_cons_cons {p q : Char} {a b : Nat} (rest : List Char) (ha : hexDigitVal p = some a)
    (hb : hexDigitVal q = some b) :
    decodeHex (p :: q :: rest) =
      (UInt8.ofNat (a * 16 + b) :: (decodeHex rest).1, (decodeHex rest).2) := by
  simp [decodeHex, ha, hb]

theorem encodeToString_cons (x : UInt8) (b : List UInt8) :
    (encodeToString (x :: b)).data =
      Nat.digitChar (x.toNat / 16) :: Nat.digitChar (x.toNat % 16) :: (encodeToString b).data := rfl

theorem byte_halves (x : UInt8) : UInt8.ofNat (x.toNat / 16 * 16 + x.toNat % 16) = x := by
  rw [show x.toNat / 16 * 16 + x.toNat % 16 = x.toNat by omega, uint8_ofNat_toNat]

theorem halves_lt (x : UInt8) : x.toNat / 16 < 16 ∧ x.toNat % 16 < 16 := by
  have := UInt8.toNat_lt_size x
  simp only [UInt8.size] at this
  omega

theorem decodeHex_encodeToString (b : List UInt8) : decodeHex (encodeToString b).data = (b, none) := by
  induction b with
  | nil => rfl
  | cons x b ih =>
    rw [encodeToString_cons, decodeHex_cons_cons _ (hexDigitVal_digitChar (halves_lt x).1)
      (hexDigitVal_digitChar (halves_lt x).2), ih, byte_halves]

theorem decodeHex_length {d : List Char} (hd : isDigits 16 d = true) :
    (decodeHex d).1.length = d.length / 2 := by
  induction d using decodeHex.induct with
  | case1 => rfl
  | case2 p => simp [decodeHex]
  | case3 p q rest hp => simp_all [isDigits_cons]
  | case4 p q rest a hq hp => simp_all [isDigits_cons]
  | case5 p q rest a b hq hp ih =>
    rw [isDigits_cons, isDigits_cons] at hd
    rw [decodeHex_cons_cons rest hp hq, List.length_cons, ih hd.2.2, List.length_cons,
      List.length_cons]
    omega

theorem setBytes_decodeHex {d : List Char} (hd : isDigits 16 d = true) :
    setBytes (decodeHex d).1 = ofDigitsBE 16 ((d.take (2 * (d.length / 2))).map digitValue) := by
  induction d using decodeHex.induct with
  | case1 => rfl
  | case2 p => simp [decodeHex, setBytes, ofDigitsBE]
  | case3 p q rest hp => simp_all [isDigits_cons]
  | case4 p q rest a hq hp => simp_all [isDigits_cons]
  | case5 p q rest a b hq hp ih =>
    rw [isDigits_cons, isDigits_cons] at hd
    obtain ⟨⟨a', ha', ha16⟩, ⟨b', hb', hb16⟩, hrest⟩ := hd
    rw [hp, Option.some.injEq] at ha'
    rw [hq, Option.some.injEq] at hb'
    subst ha' hb'
    have htake : (p :: q :: rest).take (2 * ((p :: q :: rest).length / 2)) =
        [p, q] ++ rest.take (2 * (rest.length / 2)) := by
      simp only [List.length_cons, show 2 * ((rest.length + 1 + 1) / 2) =
        2 * (rest.length / 2) + 1 + 1 by omega, List.take_succ_cons, List.cons_append,
        List.nil_append]
    have hab : (UInt8.ofNat (a * 16 + b)).toNat = a * 16 + b :=
      UInt8.toNat_ofNat_of_lt (by simp only [UInt8.size]; omega)
    rw [decodeHex_cons_cons rest hp hq, htake, List.map_append, ofDigitsBE_append,
      ← List.singleton_append, setBytes_append, ih hrest, decodeHex_length hrest]
    simp only [setBytes_singleton, hab, List.map_cons, List.map_nil, List.length_map,
      List.length_take, digitValue, hp, hq, Option.getD_some, ofDigitsBE, List.foldl_cons,
      List.foldl_nil, zero_mul, zero_add]
    rw [show min (2 * (rest.length / 2)) rest.length = 2 * (rest.length / 2) by omega, pow_mul]
    norm_num

theorem hexToBigInt_prefixed {d : List Char} (hd : isDigits 16 d = true) :
    hexToBigInt ⟨'0' :: 'x' :: d⟩ = ofDigitsBE 16 ((d.take (2 * (d.length / 2))).map digitValue) := by
  have hpre : "0x".data.isPrefixOf ('0' :: 'x' :: d) = true := by
    simp [List.isPrefixOf]
  simp only [hexToBigInt, hpre, if_true, List.drop_succ_cons, List.drop_zero, hex2Bytes,
    setBytes_decodeHex hd]

theorem digitValue_lt_of_isDigits {d : List Char} (hd : isDigits 16 d = true) :
    ∀ x ∈ d.map digitValue, x < 16 := by
  intro x hx
  obtain ⟨c, hc, rfl⟩ := List.mem_map.mp hx
  obtain ⟨v, hv, hv16⟩ := (isDigits_iff 16 d).mp hd c hc
  simpa [digitValue, hv] using hv16

theorem ofDigitsBE_even_prefix {d : List Char} (hd : isDigits 16 d = true) :
    ofDigitsBE 16 ((d.take (2 * (d.length / 2))).map digitValue) =
      ofDigitsBE 16 (d.map digitValue) / 16 ^ (d.length % 2) := by
  have hlen : (d.drop (2 * (d.length / 2))).length = d.length % 2 := by
    rw [List.length_drop]; omega
  have hlt : ofDigitsBE 16 ((d.drop (2 * (d.length / 2))).map digitValue) < 16 ^ (d.length % 2) := by
    have := @ofDigitsBE_lt 16 (by norm_num)
      ((d.drop (2 * (d.length / 2))).map digitValue) fun x hx =>
        digitValue_lt_of_isDigits hd x (List.map_subset _ (List.drop_subset _ _) hx)
    rwa [List.length_map, hlen] at this
  have hsplit : d.map digitValue =
      (d.take (2 * (d.length / 2))).map digitValue ++ (d.drop (2 * (d.length / 2))).map digitValue := by
    rw [← List.map_append, List.take_append_drop]
  rw [hsplit, ofDigitsBE_append, List.length_map, hlen, Nat.mul_comm (ofDigitsBE 16 _),
    Nat.mul_add_div (by positivity), Nat.div_eq_of_lt hlt, Nat.add_zero]

/-- `HexToBigInt` of hex digits, with or without `0x`, drops an odd last digit: it is the value
of the digits divided by 16 when there is an odd number of them. -/
theorem hex_to_big_int_drops_odd_digit {d : List Char} (hd : isDigits 16 d = true) :
    hexToBigInt ⟨'0' :: 'x' :: d⟩ =
        ((ofDigitsBE 16 (d.map digitValue) / 16 ^ (d.length % 2) : Nat) : Int) ∧
      hexToBigInt ⟨d⟩ = ((ofDigitsBE 16 (d.map digitValue) / 16 ^ (d.length % 2) : Nat) : Int) := by
  refine ⟨by rw [hexToBigInt_prefixed hd, ofDigitsBE_even_prefix hd], ?_⟩
  have hpre : "0x".data.isPrefixOf d = false := by
    rw [Bool.eq_false_iff]
    intro h
    exact not_mem_of_isDigits hd (c := 'x') (by decide)
      ((List.isPrefixOf_iff_prefix.mp h).subset (by decide))
  simp only [hexToBigInt, hpre, hex2Bytes, setBytes_decodeHex hd, ofDigitsBE_even_prefix hd]
  rfl

theorem hex_to_big_int_drops_odd_digit_186a0 :
    isDigits 16 "186a0".data = true ∧
    hexToBigInt ⟨'0' :: 'x' :: "186a0".data⟩ =
        ((ofDigitsBE 16 ("186a0".data.map digitValue) / 16 ^ ("186a0".data.length % 2) : Nat) : Int) ∧
      hexToBigInt ⟨"186a0".data⟩ =
        ((ofDigitsBE 16 ("186a0".data.map digitValue) / 16 ^ ("186a0".data.length % 2) : Nat) : Int) :=
  ⟨by decide, hex_to_big_int_drops_odd_digit (by decide)⟩

/-! ## `Address.Hex` -/

/-- One character of EIP-55: `buf[i] -= 32` upper-cases a letter when its nibble of the hash is
above 7. -/
def checksumChar (nibble : Nat) (c : Char) : Char :=
  if '9' < c ∧ 7 < nibble then Char.ofNat (c.toNat - 32) else c

/-- The nibbles of a hash, high half of each byte first: `hash[j/2] >> 4` or `hash[j/2] & 0xf`. -/
def nibbles (b : List UInt8) : List Nat := b.flatMap fun h => [h.toNat / 16, h.toNat % 16]

/-- `Address.Hex`: `0x`, then `hex.Encode` of the address with the EIP-55 checksum taken from
the Keccak-256 hash of the lower-case digits. -/
def addressHex (keccak256 : List UInt8 → Hash) (a : Address) : String :=
  let buf := (encodeToString a.bytes).data
  let hash := keccak256 (buf.map fun c => UInt8.ofNat c.toNat)
  ⟨'0' :: 'x' :: List.zipWith checksumChar (nibbles hash.bytes) buf⟩

theorem nibbles_length (b : List UInt8) : (nibbles b).length = 2 * b.length := by
  induction b with
  | nil => rfl
  | cons x b ih =>
    simp only [nibbles, List.flatMap_cons, List.length_append, List.length_cons,
      List.length_nil] at ih ⊢
    rw [ih]; ring

theorem hexDigitVal_checksumChar (n : Nat) {d : Nat} (h : d < 16) :
    hexDigitVal (checksumChar n (Nat.digitChar d)) = some d := by
  have up : ∀ d : Fin 16, '9' < Nat.digitChar d →
      hexDigitVal (Char.ofNat ((Nat.digitChar d).toNat - 32)) = some d := by decide
  unfold checksumChar
  split
  · exact up ⟨d, h⟩ (by simp_all)
  · exact hexDigitVal_digitChar h

theorem length_encodeToString (b : List UInt8) : (encodeToString b).data.length = 2 * b.length := by
  induction b with
  | nil => rfl
  | cons x b ih => rw [encodeToString_cons, List.length_cons, List.length_cons, ih,
      List.length_cons]; ring

theorem decodeHex_checksum (b : List UInt8) (ns : List Nat) (h : 2 * b.length ≤ ns.length) :
    decodeHex (List.zipWith checksumChar ns (encodeToString b).data) = (b, none) := by
  induction b generalizing ns with
  | nil => simp [encodeToString, decodeHex]
  | cons x b ih =>
    obtain ⟨n1, n2, ns, rfl⟩ : ∃ n1 n2 ns', ns = n1 :: n2 :: ns' := by
      match ns, h with
      | n1 :: n2 :: ns', _ => exact ⟨n1, n2, ns', rfl⟩
    rw [encodeToString_cons, List.zipWith_cons_cons, List.zipWith_cons_cons,
      decodeHex_cons_cons _ (hexDigitVal_checksumChar n1 (halves_lt x).1)
        (hexDigitVal_checksumChar n2 (halves_lt x).2), byte_halves,
      ih ns (by simp at h; omega)]

theorem addressHex_length (keccak256 : List UInt8 → Hash) (a : Address) :
    (addressHex keccak256 a).data.length = 42 := by
  simp only [addressHex, List.length_cons, List.length_zipWith, length_encodeToString, a.length_eq,
    nibbles_length, (keccak256 _).length_eq]
  omega

theorem addressHex_injective (keccak256 : List UInt8 → Hash) {a a' : Address}
    (h : addressHex keccak256 a = addressHex keccak256 a') : a = a' := by
  have hlen : ∀ (w : Hash) (v : Address), 2 * v.bytes.length ≤ (nibbles w.bytes).length :=
    fun w v => by rw [nibbles_length, w.length_eq, v.length_eq]; omega
  have hd := congrArg (fun s : String => decodeHex (s.data.drop 2)) h
  simp only [addressHex, List.drop_succ_cons, List.drop_zero] at hd
  rw [decodeHex_checksum _ _ (hlen _ a), decodeHex_checksum _ _ (hlen _ a')] at hd
  exact Word.ext_bytes (congrArg Prod.fst hd)

end AaSdk
