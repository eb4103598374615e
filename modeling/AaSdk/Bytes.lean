import Mathlib.Data.Nat.Digits

/-! # Byte strings and big integers

Go's `[]byte`, `common.Address` and `common.Hash`, and the byte-level parts of
`math/big` and `go-ethereum/common` that the packers call. A `*big.Int` is an
`Option Int`, `none` being the nil pointer.
-/

namespace AaSdk

/-- How a Go call ends when it does not return normally: it returns an `error`, or it panics. -/
inductive Fault
  | error (msg : String)
  | panic (msg : String)
  deriving DecidableEq, Repr

@[simp] theorem except_ok_bind {ε α β : Type} (a : α) (f : α → Except ε β) :
    (Except.ok a >>= f) = f a := rfl

@[simp] theorem except_error_bind {ε α β : Type} (e : ε) (f : α → Except ε β) :
    (Except.error e >>= f) = Except.error e := rfl

theorem except_bind_eq_ok {ε α β : Type} {x : Except ε α} {f : α → Except ε β} {b : β} :
    x >>= f = .ok b ↔ ∃ a, x = .ok a ∧ f a = .ok b := by
  cases x <;> simp [except_ok_bind, except_error_bind]

theorem except_map_eq_ok {ε α β : Type} {f : α → β} {x : Except ε α} {b : β} :
    x.map f = .ok b ↔ ∃ a, x = .ok a ∧ f a = b := by
  cases x <;> simp [Except.map]

theorem except_bind_ne_error {ε α β : Type} {x : Except ε α} {f : α → Except ε β} {e : ε}
    (hx : x ≠ .error e) (hf : ∀ a, f a ≠ .error e) : x >>= f ≠ .error e := by
  cases x with
  | error e' => simpa using hx
  | ok a => exact hf a

theorem mapM_eq_ok {ε α β : Type} {f : α → Except ε β} {l : List α} {bs : List β} :
    l.mapM f = .ok bs ↔ List.Forall₂ (fun a b => f a = .ok b) l bs := by
  induction l generalizing bs with
  | nil =>
    show Except.ok [] = _ ↔ _
    cases bs <;> simp
  | cons a l ih =>
    simp only [List.mapM_cons, except_bind_eq_ok, ih]
    cases bs with
    | nil => simp [pure, Except.pure]
    | cons b bs => simp [pure, Except.pure, List.forall₂_cons]

/-- A fixed-width byte array: `[20]byte`, `[32]byte`. -/
structure Word (n : Nat) where
  bytes : List UInt8
  length_eq : bytes.length = n
  deriving DecidableEq, Repr

/-- `common.Address`. -/
abbrev Address := Word 20

/-- `common.Hash`. -/
abbrev Hash := Word 32

/-- The zero value of a fixed-width array, e.g. `common.Address{}`. -/
def Word.zero (n : Nat) : Word n := ⟨List.replicate n 0, List.length_replicate n 0⟩

theorem Word.ext_bytes {n : Nat} {a b : Word n} (h : a.bytes = b.bytes) : a = b := by
  cases a; cases b; cases h; rfl

/-! ## Big-endian bytes -/

/-- The number the digits `ds` denote in base `base`, most significant first. -/
def ofDigitsBE (base : Nat) (ds : List Nat) : Nat := ds.foldl (fun acc d => acc * base + d) 0

/-- `new(big.Int).SetBytes(b)`: `b` read as a big-endian unsigned integer. -/
def setBytes (b : List UInt8) : Nat := ofDigitsBE 256 (b.map UInt8.toNat)

/-- `big.Int.Bytes`: the absolute value, big-endian, with no leading zero byte. -/
def bigBytes (x : Int) : List UInt8 := ((Nat.digits 256 x.natAbs).map UInt8.ofNat).reverse

/-- `common.LeftPadBytes`: zeros in front up to length `l`; a longer slice is returned as it is. -/
def leftPadBytes (slice : List UInt8) (l : Nat) : List UInt8 :=
  if l ≤ slice.length then slice else List.replicate (l - slice.length) 0 ++ slice

/-- `k` bytes of `n`, big-endian; the high part of a larger `n` is dropped. -/
def beBytes : Nat → Nat → List UInt8
  | 0, _ => []
  | k + 1, n => beBytes k (n / 256) ++ [UInt8.ofNat (n % 256)]

/-- `var h common.Hash; copy(h[:], src)`: the first 32 bytes of `src`, zero-filled. -/
def copyToHash (src : List UInt8) : Hash :=
  ⟨(src ++ List.replicate 32 0).take 32, by simp⟩

/-- `common.BytesToAddress`: the last 20 bytes, left-padded with zeros. -/
def bytesToAddress (b : List UInt8) : Address :=
  -- `b[len(b)-20:]` when `b` is longer than 20 bytes; `drop 0` leaves a shorter `b` as it is.
  ⟨List.replicate (20 - (b.drop (b.length - 20)).length) 0 ++ b.drop (b.length - 20),
    by simp only [List.length_append, List.length_replicate, List.length_drop]; omega⟩

/-! ## Reading bytes back -/

theorem ofDigitsBE_append (base : Nat) (a b : List Nat) :
    ofDigitsBE base (a ++ b) = ofDigitsBE base a * base ^ b.length + ofDigitsBE base b := by
  induction b using List.reverseRecOn with
  | nil => simp [ofDigitsBE]
  | append_singleton b d ih =>
    rw [← List.append_assoc]
    simp only [ofDigitsBE, List.foldl_append, List.foldl_cons, List.foldl_nil,
      List.length_append, List.length_singleton] at ih ⊢
    rw [ih, pow_succ]
    ring

theorem ofDigitsBE_reverse (base : Nat) (l : List Nat) :
    ofDigitsBE base l.reverse = Nat.ofDigits base l := by
  induction l with
  | nil => rfl
  | cons d l ih =>
    rw [List.reverse_cons, ofDigitsBE_append, ih, Nat.ofDigits_cons]
    simp [ofDigitsBE]
    ring

theorem ofDigitsBE_lt {base : Nat} (hb : 1 < base) {ds : List Nat} (h : ∀ d ∈ ds, d < base) :
    ofDigitsBE base ds < base ^ ds.length := by
  rw [← List.reverse_reverse ds, ofDigitsBE_reverse, List.length_reverse]
  exact Nat.ofDigits_lt_base_pow_length hb (by simpa using h)

theorem setBytes_append (a b : List UInt8) :
    setBytes (a ++ b) = setBytes a * 256 ^ b.length + setBytes b := by
  simp [setBytes, ofDigitsBE_append]

theorem setBytes_lt (b : List UInt8) : setBytes b < 256 ^ b.length := by
  rw [setBytes, ← List.length_map b UInt8.toNat]
  exact ofDigitsBE_lt (by norm_num) fun d hd => by
    obtain ⟨x, -, rfl⟩ := List.mem_map.mp hd
    exact UInt8.toNat_lt_size x

theorem setBytes_take (b : List UInt8) (n : Nat) :
    setBytes (b.take n) = setBytes b / 256 ^ (b.length - n) := by
  have h := setBytes_append (b.take n) (b.drop n)
  rw [List.take_append_drop, List.length_drop] at h
  rw [h, mul_comm, Nat.mul_add_div (by positivity),
    Nat.div_eq_of_lt (List.length_drop n b ▸ setBytes_lt _), add_zero]

theorem setBytes_drop (b : List UInt8) (n : Nat) :
    setBytes (b.drop n) = setBytes b % 256 ^ (b.length - n) := by
  have h := setBytes_append (b.take n) (b.drop n)
  rw [List.take_append_drop, List.length_drop] at h
  rw [h, mul_comm, Nat.mul_add_mod, Nat.mod_eq_of_lt (List.length_drop n b ▸ setBytes_lt _)]

@[simp] theorem setBytes_singleton (d : UInt8) : setBytes [d] = d.toNat := by
  simp [setBytes, ofDigitsBE]

theorem eq_of_setBytes_eq {a b : List UInt8} (hl : a.length = b.length)
    (h : setBytes a = setBytes b) : a = b := by
  induction a using List.reverseRecOn generalizing b with
  | nil => exact (List.length_eq_zero.mp hl.symm).symm
  | append_singleton a x ih =>
    rcases List.eq_nil_or_concat b with rfl | ⟨b, y, rfl⟩
    · simp at hl
    rw [List.concat_eq_append] at hl h ⊢
    simp only [List.length_append, List.length_singleton, Nat.add_right_cancel_iff] at hl
    simp only [setBytes_append, setBytes_singleton, List.length_singleton, pow_one] at h
    have hx : x.toNat < 256 := x.toNat_lt_size
    have hy : y.toNat < 256 := y.toNat_lt_size
    rw [ih hl (by omega), UInt8.toNat.inj (by omega : x.toNat = y.toNat)]

theorem setBytes_replicate_zero (k : Nat) : setBytes (List.replicate k 0) = 0 := by
  induction k with
  | zero => rfl
  | succ k ih =>
    rw [List.replicate_succ', setBytes_append, ih]
    rfl

@[simp] theorem setBytes_zeros_append (k : Nat) (b : List UInt8) :
    setBytes (List.replicate k 0 ++ b) = setBytes b := by
  rw [setBytes_append, setBytes_replicate_zero, zero_mul, zero_add]

theorem uint8_ofNat_toNat (x : UInt8) : UInt8.ofNat x.toNat = x :=
  UInt8.toNat.inj (UInt8.toNat_ofNat_of_lt (UInt8.toNat_lt_size x))

@[simp] theorem setBytes_bigBytes (x : Int) : setBytes (bigBytes x) = x.natAbs := by
  have hmap : ((Nat.digits 256 x.natAbs).map UInt8.ofNat).map UInt8.toNat =
      Nat.digits 256 x.natAbs := by
    rw [List.map_map]
    conv_rhs => rw [← List.map_id (Nat.digits 256 x.natAbs)]
    refine List.map_congr_left fun d hd => ?_
    exact UInt8.toNat_ofNat_of_lt (Nat.digits_lt_base (by norm_num) hd)
  rw [bigBytes, setBytes, List.map_reverse, hmap, ofDigitsBE_reverse, Nat.ofDigits_digits]

@[simp] theorem bigBytes_neg (x : Int) : bigBytes (-x) = bigBytes x := by
  simp [bigBytes]

theorem bigBytes_length (x : Int) : (bigBytes x).length = (Nat.digits 256 x.natAbs).length := by
  simp [bigBytes]

theorem bigBytes_length_le_iff (x : Int) (k : Nat) :
    (bigBytes x).length ≤ k ↔ x.natAbs < 256 ^ k := by
  rw [bigBytes_length]
  constructor
  · intro h
    exact lt_of_lt_of_le (Nat.lt_base_pow_length_digits (by norm_num))
      (Nat.pow_le_pow_right (by norm_num) h)
  · intro h
    rcases Nat.eq_zero_or_pos x.natAbs with h0 | h0
    · simp [h0]
    · rw [Nat.digits_len 256 _ (by norm_num) h0.ne']
      exact Nat.log_lt_of_lt_pow h0.ne' h

@[simp] theorem leftPadBytes_length (s : List UInt8) (l : Nat) :
    (leftPadBytes s l).length = max l s.length := by
  unfold leftPadBytes
  split <;> simp <;> omega

@[simp] theorem setBytes_leftPadBytes (s : List UInt8) (l : Nat) :
    setBytes (leftPadBytes s l) = setBytes s := by
  unfold leftPadBytes
  split <;> simp

@[simp] theorem beBytes_length (k n : Nat) : (beBytes k n).length = k := by
  induction k generalizing n with
  | zero => rfl
  | succ k ih => simp [beBytes, ih]

theorem setBytes_beBytes (k n : Nat) : setBytes (beBytes k n) = n % 256 ^ k := by
  induction k generalizing n with
  | zero => simp [beBytes, setBytes, ofDigitsBE, Nat.mod_one]
  | succ k ih =>
    have hlt : n % 256 < UInt8.size := Nat.mod_lt _ (by decide)
    rw [beBytes, setBytes_append, ih, setBytes_singleton, UInt8.toNat_ofNat_of_lt hlt,
      List.length_singleton, pow_one, pow_succ', Nat.mod_mul]
    ring

theorem leftPadBytes_of_le {s : List UInt8} {l : Nat} (h : l ≤ s.length) : leftPadBytes s l = s :=
  if_pos h

theorem copyToHash_bytes {src : List UInt8} (h : 32 ≤ src.length) :
    (copyToHash src).bytes = src.take 32 := by
  simp [copyToHash, List.take_append_of_le_length h]

theorem copyToHash_of_length {src : List UInt8} (h : src.length = 32) :
    (copyToHash src).bytes = src := by
  simp [copyToHash, List.take_append_eq_append_take, h]

theorem bytesToAddress_of_length {b : List UInt8} (h : b.length = 20) :
    bytesToAddress b = ⟨b, h⟩ := by
  apply Word.ext_bytes
  simp [bytesToAddress, h]

end AaSdk
