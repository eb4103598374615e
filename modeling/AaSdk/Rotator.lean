import AaSdk.Abi

/-! # The signer rotator (`rotator.go`)

`RoundRobinSignerProvider` hands its keys out in turn. Every call holds `p.mu`,
so the calls of any number of callers take effect one whole call after another,
and a run is one list of calls. The cursor is an `atomic.Uint32`: `UInt32`
arithmetic, with Go's panics for a modulus by zero and an index out of range.

`Rotor` says what the provider is for: a cursor that stays inside the key list,
and a key out of every `Next` while there are keys. The provider refines it
while it holds fewer than `2^32` keys; the one difference is that a nil key
comes out of `Next` as the nil it also returns for "no keys".
-/

namespace AaSdk

/-! ## Calls -/

/-- A call of the `Rotator` interface. -/
inductive Call (α : Type)
  | next
  | add (signer : α)
  | count

/-- What a call returns; the error `Add` returns is always nil. -/
inductive Reply (α : Type)
  | next (signer : α)
  | add
  | count (n : Nat)
  deriving DecidableEq, Repr

def Reply.map {α β : Type} (f : α → β) : Reply α → Reply β
  | .next signer => .next (f signer)
  | .add => .add
  | .count n => .count n

/-- The keys the `Add` calls of a run append, in order. -/
def addedKeys {α : Type} : List (Call α) → List α
  | [] => []
  | .add signer :: calls => signer :: addedKeys calls
  | _ :: calls => addedKeys calls

@[simp] theorem addedKeys_append {α : Type} (pre calls : List (Call α)) :
    addedKeys (pre ++ calls) = addedKeys pre ++ addedKeys calls := by
  induction pre with
  | nil => rfl
  | cons call pre ih => cases call <;> simp [addedKeys, ih]

/-! ## `RoundRobinSignerProvider` -/

/-- `RoundRobinSignerProvider`: the keys, nil pointers included, and the cursor. -/
structure RoundRobinSignerProvider where
  signers : List (Option PrivateKey)
  index : UInt32

/-- `NewRoundRobinSignerProvider`: the cursor starts at zero. -/
def newRoundRobinSignerProvider (signers : List (Option PrivateKey)) : RoundRobinSignerProvider :=
  ⟨signers, 0⟩

namespace RoundRobinSignerProvider

/-- `Next`: nil when there are no keys; otherwise store `(current + 1) % uint32(len(p.signers))`
and return `p.signers[current]`. -/
def next (p : RoundRobinSignerProvider) :
    Except Fault (Option PrivateKey × RoundRobinSignerProvider) :=
  if p.signers.length = 0 then .ok (none, p) else
    let current := p.index
    let n := UInt32.ofNat p.signers.length
    if n = 0 then .error (.panic "runtime error: integer divide by zero") else
      match p.signers[current.toNat]? with
      | some signer => .ok (signer, { p with index := (current + 1) % n })
      | none => .error (.panic ("runtime error: index out of range [" ++ toString current.toNat ++
          "] with length " ++ toString p.signers.length))

/-- `Add`: append the key. -/
def add (p : RoundRobinSignerProvider) (signer : Option PrivateKey) : RoundRobinSignerProvider :=
  { p with signers := p.signers ++ [signer] }

/-- `Count`. -/
def count (p : RoundRobinSignerProvider) : Nat := p.signers.length

/-- A run of calls, one after another; a panic ends it. -/
def run (p : RoundRobinSignerProvider) : List (Call (Option PrivateKey)) →
    Except Fault (List (Reply (Option PrivateKey)) × RoundRobinSignerProvider)
  | [] => .ok ([], p)
  | .next :: calls => p.next >>= fun s => (s.2.run calls).map fun t => (.next s.1 :: t.1, t.2)
  | .add signer :: calls => ((p.add signer).run calls).map fun t => (.add :: t.1, t.2)
  | .count :: calls => (p.run calls).map fun t => (.count p.count :: t.1, t.2)

end RoundRobinSignerProvider

/-- `Add(nil)`, then `Next`: the provider holds a key, and `Next` returns nil. -/
theorem next_returns_nil_with_a_key :
    (newRoundRobinSignerProvider []).run [.add none, .next, .count] =
      .ok ([.add, .next none, .count 1], ⟨[none], 0⟩) := rfl

/-! ## What the provider is for -/

/-- A rotation over `keys`; the cursor is inside the list, and zero when the list is empty. -/
structure Rotor (α : Type) where
  keys : List α
  cursor : Nat
  cursor_lt : cursor < max keys.length 1

namespace Rotor

variable {α : Type}

def ofList (keys : List α) : Rotor α := ⟨keys, 0, by omega⟩

/-- The key under the cursor, and the cursor one place on; no key when there are none. -/
def next (r : Rotor α) : Option α × Rotor α :=
  if h : r.keys.length = 0 then (none, r) else
    (some (r.keys.get ⟨r.cursor, by have := r.cursor_lt; omega⟩),
      ⟨r.keys, (r.cursor + 1) % r.keys.length, by
        have := Nat.mod_lt (r.cursor + 1) (Nat.pos_of_ne_zero h); omega⟩)

def add (r : Rotor α) (k : α) : Rotor α :=
  ⟨r.keys ++ [k], r.cursor, by have := r.cursor_lt; simp only [List.length_append]; omega⟩

def run (r : Rotor α) : List (Call α) → List (Reply (Option α)) × Rotor α
  | [] => ([], r)
  | .next :: calls => let s := r.next.2.run calls; (.next r.next.1 :: s.1, s.2)
  | .add k :: calls => let s := (r.add k).run calls; (.add :: s.1, s.2)
  | .count :: calls => let s := r.run calls; (.count r.keys.length :: s.1, s.2)

@[simp] theorem next_keys (r : Rotor α) : r.next.2.keys = r.keys := by
  unfold next; split <;> rfl

theorem next_cursor (r : Rotor α) (h : r.keys.length ≠ 0) :
    r.next.2.cursor = (r.cursor + 1) % r.keys.length := by
  simp [next, h]

theorem next_fst (r : Rotor α) : r.next.1 = r.keys[r.cursor]? := by
  unfold next
  split
  · next h => simp [List.length_eq_zero.mp h]
  · next h => simp [List.getElem?_eq_getElem (show r.cursor < r.keys.length by
      have := r.cursor_lt; omega)]

@[simp] theorem add_keys (r : Rotor α) (k : α) : (r.add k).keys = r.keys ++ [k] := rfl

@[simp] theorem add_cursor (r : Rotor α) (k : α) : (r.add k).cursor = r.cursor := rfl

theorem run_keys (r : Rotor α) (calls : List (Call α)) :
    (r.run calls).2.keys = r.keys ++ addedKeys calls := by
  induction calls generalizing r with
  | nil => simp [run, addedKeys]
  | cons call calls ih => cases call <;> simp [run, addedKeys, ih]

end Rotor

/-! ## The provider refines the rotor -/

/-- The provider's keys are the rotor's, and its `uint32` cursor reads as the rotor's. -/
def Refines (p : RoundRobinSignerProvider) (r : Rotor (Option PrivateKey)) : Prop :=
  p.signers = r.keys ∧ p.index.toNat = r.cursor

theorem uint32_next_index (a : UInt32) {n : Nat} (hn : n < 2 ^ 32) (ha : a.toNat < n) :
    ((a + 1) % UInt32.ofNat n).toNat = (a.toNat + 1) % n := by
  have hadd : (a + 1).toNat = (a.toNat + 1) % 2 ^ 32 := rfl
  have hof : (UInt32.ofNat n).toNat = n % 2 ^ 32 := rfl
  rw [UInt32.toNat_mod, hadd, hof, Nat.mod_eq_of_lt hn,
    Nat.mod_eq_of_lt (show a.toNat + 1 < 2 ^ 32 by omega)]

section Steps

variable {p : RoundRobinSignerProvider} {r : Rotor (Option PrivateKey)}

theorem next_refines (hr : Refines p r) (hn : r.keys.length < 2 ^ 32) :
    ∃ q, p.next = .ok (r.next.1.join, q) ∧ Refines q r.next.2 := by
  obtain ⟨hk, hi⟩ := hr
  have hc := r.cursor_lt
  by_cases h0 : r.keys.length = 0
  · refine ⟨p, ?_, ?_⟩ <;> simp [RoundRobinSignerProvider.next, Rotor.next, hk, h0, Refines, hi]
  · have hlt : r.cursor < r.keys.length := by omega
    have hn0 : UInt32.ofNat r.keys.length ≠ 0 := fun h => h0 (by
      have : (UInt32.ofNat r.keys.length).toNat = r.keys.length % 2 ^ 32 := rfl
      rw [h, Nat.mod_eq_of_lt hn] at this; exact this.symm)
    refine ⟨{ p with index := (p.index + 1) % UInt32.ofNat r.keys.length }, ?_,
      hk.trans (Rotor.next_keys r).symm, ?_⟩
    · simp [RoundRobinSignerProvider.next, Rotor.next, hk, h0, hn0, hi,
        List.getElem?_eq_getElem hlt]
    · rw [Rotor.next_cursor r h0, ← hi]
      exact uint32_next_index p.index hn (hi ▸ hlt)

theorem add_refines (hr : Refines p r) (k : Option PrivateKey) :
    Refines (p.add k) (r.add k) :=
  ⟨by simp [RoundRobinSignerProvider.add, hr.1], hr.2⟩

theorem run_refines (hr : Refines p r) (calls : List (Call (Option PrivateKey)))
    (hn : r.keys.length + (addedKeys calls).length < 2 ^ 32) :
    ∃ q, p.run calls = .ok ((r.run calls).1.map (Reply.map Option.join), q) ∧
      Refines q (r.run calls).2 := by
  induction calls generalizing p r with
  | nil => exact ⟨p, rfl, hr⟩
  | cons call calls ih =>
    cases call with
    | next =>
      obtain ⟨q, hq, hrq⟩ := next_refines hr (by omega)
      obtain ⟨q', hq', hrq'⟩ := ih hrq (by simpa [addedKeys] using hn)
      exact ⟨q', by simp [RoundRobinSignerProvider.run, Rotor.run, hq, hq', Except.map,
        Reply.map], hrq'⟩
    | add k =>
      obtain ⟨q', hq', hrq'⟩ := ih (add_refines hr k) (by simp [addedKeys] at hn ⊢; omega)
      exact ⟨q', by simp [RoundRobinSignerProvider.run, Rotor.run, hq', Except.map, Reply.map],
        hrq'⟩
    | count =>
      obtain ⟨q', hq', hrq'⟩ := ih hr (by simpa [addedKeys] using hn)
      exact ⟨q', by simp [RoundRobinSignerProvider.run, Rotor.run, hq', Except.map, Reply.map,
        RoundRobinSignerProvider.count, hr.1], hrq'⟩

end Steps

theorem new_refines_ofList (signers : List (Option PrivateKey)) :
    Refines (newRoundRobinSignerProvider signers) (Rotor.ofList signers) :=
  ⟨rfl, rfl⟩

/-- `NewRoundRobinSignerProvider(K0)` refines the rotor over `K0` on every run that never holds
`2^32` keys: it returns the rotor's replies, a nil key read as nil, and ends in its state. -/
theorem round_robin_refines_rotor (K0 : List (Option PrivateKey))
    (calls : List (Call (Option PrivateKey))) (hbound : K0.length + (addedKeys calls).length < 2 ^ 32) :
    ∃ p, (newRoundRobinSignerProvider K0).run calls =
        .ok (((Rotor.ofList K0).run calls).1.map (Reply.map Option.join), p) ∧
      Refines p ((Rotor.ofList K0).run calls).2 :=
  run_refines (new_refines_ofList K0) calls hbound

theorem round_robin_refines_rotor_two_calls :
    [none, some (PrivateKey.mk 1)].length +
        (addedKeys [Call.add (some (PrivateKey.mk 2)), .next]).length < 2 ^ 32 ∧
    ∃ p, (newRoundRobinSignerProvider [none, some (PrivateKey.mk 1)]).run
        [.add (some (PrivateKey.mk 2)), .next] =
        .ok (((Rotor.ofList [none, some (PrivateKey.mk 1)]).run
          [.add (some (PrivateKey.mk 2)), .next]).1.map (Reply.map Option.join), p) ∧
      Refines p ((Rotor.ofList [none, some (PrivateKey.mk 1)]).run
        [.add (some (PrivateKey.mk 2)), .next]).2 :=
  ⟨by decide, round_robin_refines_rotor _ _ (by decide)⟩

/-! ## Every reachable state -/

/-- Over every run from `NewRoundRobinSignerProvider(K0)` that never holds `2^32` keys: no call
panics, the keys are `K0` and the added keys in order, the cursor is inside the list (zero when
it is empty), `Next` returns the key under the cursor (nil when there are none, and nil when
that key is nil), and `Count` is `len(K0)` plus the number of `Add`s. -/
theorem round_robin_run_keeps_cursor_in_range (K0 : List (Option PrivateKey))
    (calls : List (Call (Option PrivateKey))) (hbound : K0.length + (addedKeys calls).length < 2 ^ 32) :
    ∃ replies p, (newRoundRobinSignerProvider K0).run calls = .ok (replies, p) ∧
      p.signers = K0 ++ addedKeys calls ∧ p.index.toNat < max p.signers.length 1 ∧
      (∃ p', p.next = .ok ((p.signers[p.index.toNat]?).join, p')) ∧
      p.count = K0.length + (addedKeys calls).length := by
  obtain ⟨q, hq, hk, hi⟩ := run_refines (new_refines_ofList K0) calls hbound
  have hkeys := (Rotor.ofList K0).run_keys calls
  obtain ⟨q', hq'⟩ := next_refines ⟨hk, hi⟩ (by rw [hkeys, List.length_append]; exact hbound)
  refine ⟨_, q, hq, by rw [hk, hkeys]; rfl, hk ▸ hi ▸ ((Rotor.ofList K0).run calls).2.cursor_lt,
    ⟨q', by rw [hq'.1, Rotor.next_fst, hk, hi]⟩, ?_⟩
  rw [RoundRobinSignerProvider.count, hk, hkeys, List.length_append]; rfl

theorem round_robin_run_keeps_cursor_in_range_three_calls :
    [some (PrivateKey.mk 1), some (PrivateKey.mk 2)].length +
        (addedKeys [Call.next, .add (none : Option PrivateKey), .count]).length < 2 ^ 32 ∧
    ∃ replies p, (newRoundRobinSignerProvider [some (PrivateKey.mk 1), some (PrivateKey.mk 2)]).run
        [.next, .add none, .count] = .ok (replies, p) ∧
      p.signers = [some (PrivateKey.mk 1), some (PrivateKey.mk 2)] ++
        addedKeys [Call.next, .add (none : Option PrivateKey), .count] ∧
      p.index.toNat < max p.signers.length 1 ∧
      (∃ p', p.next = .ok ((p.signers[p.index.toNat]?).join, p')) ∧
      p.count = [some (PrivateKey.mk 1), some (PrivateKey.mk 2)].length +
        (addedKeys [Call.next, .add (none : Option PrivateKey), .count]).length :=
  ⟨by decide, round_robin_run_keeps_cursor_in_range _ _ (by decide)⟩

end AaSdk
