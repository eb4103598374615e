import AaSdk.Account

/-! # `GetAccount` from goroutines sharing one client (`client.go`, `cache.go`)

Goroutines call `GetAccount` on one client and share its `LRUCache`. The hashicorp cache locks
inside `Get` and inside `Add`, so each is one step here; the factory call touches no shared state.
Between a goroutine's `Get` that missed and its `Set`, the others run any of their steps: they
evict entries, or store the same key. Whatever the interleaving, every address a call returns is
the factory's for its owner and salt, and a cache made by `NewLRUCache(maxSize)` holds at most
`maxSize` entries, one per key (`get_account_interleavings_return_factory_address`).
-/

namespace AaSdk

/-- Where a goroutine's `GetAccount` is. -/
inductive Lookup
  /-- Between calls; next: `c.lruCache.Get(key)`. -/
  | idle
  /-- `Get` missed; next: `c.simpleFactory.GetAddress(&bind.CallOpts{}, owner, salt)`. -/
  | missed
  /-- The factory answered `addr`; next: `c.lruCache.Set(key, addr)`, and `GetAccount` returns it. -/
  | answered (addr : Address)
  deriving DecidableEq, Repr

/-- A goroutine: the `(owner, salt)` pairs it still looks up (while a call runs, it is the first),
where it is, and the calls that have returned with what they returned. -/
structure Caller where
  calls : List (Address × Option Int)
  pc : Lookup
  returned : List ((Address × Option Int) × Except Fault Address)

/-- The shared cache and the goroutines calling `GetAccount` on it. -/
structure Callers (σ : Type) where
  cache : σ
  callers : List Caller

variable {σ : Type} (L : LruCache σ) (cr : Crypto) (c : Client)

/-- One step of goroutine `g`'s `GetAccount` on the shared cache state `s`; `none` when it has no
call left. -/
def Caller.step (s : σ) (g : Caller) : Option (σ × Caller) :=
  match g.pc, g.calls with
  | .idle, (owner, salt) :: rest =>
    match L.get s (cacheKey cr.keccak256 owner salt) with
    | (some addr, s) => some (s, ⟨rest, .idle, g.returned ++ [((owner, salt), .ok addr)]⟩)
    | (none, s) => some (s, { g with pc := .missed })
  | .missed, (owner, salt) :: rest =>
    match c.chain.getAddress owner salt with
    | .error e => some (s, ⟨rest, .idle, g.returned ++
        [((owner, salt), wrapError "error getting account address: " (.error e))]⟩)
    | .ok addr => some (s, { g with pc := .answered addr })
  | .answered addr, (owner, salt) :: rest =>
    some (L.set s (cacheKey cr.keccak256 owner salt) addr,
      ⟨rest, .idle, g.returned ++ [((owner, salt), .ok addr)]⟩)
  | _, [] => none

/-- Goroutine `i` runs one step. -/
def Callers.step (w : Callers σ) (i : Nat) : Option (Callers σ) :=
  match w.callers[i]? with
  | none => none
  | some g => (g.step L cr c w.cache).map fun r => ⟨r.1, w.callers.set i r.2⟩

/-- The states some interleaving reaches from the cache state `s0` and goroutine `i` looking up
the pairs `scripts[i]`. -/
inductive CacheReachable (s0 : σ) (scripts : List (List (Address × Option Int))) :
    Callers σ → Prop
  | init : CacheReachable s0 scripts ⟨s0, scripts.map fun calls => ⟨calls, .idle, []⟩⟩
  | step {w w' : Callers σ} (i : Nat) : CacheReachable s0 scripts w → w.step L cr c i = some w' →
      CacheReachable s0 scripts w'

/-! ## What every step keeps -/

/-- What a goroutine holds is the factory's: the address it is about to store, and every address
it has returned. -/
def CallerSound (g : Caller) : Prop :=
  (∀ addr, g.pc = .answered addr → ∀ call ∈ g.calls.head?, c.chain.getAddress call.1 call.2 = .ok addr) ∧
    ∀ call addr, (call, .ok addr) ∈ g.returned → c.chain.getAddress call.1 call.2 = .ok addr

theorem cacheSound_get {s : σ} (hs : CacheSound L cr c (some s)) (k : String) :
    CacheSound L cr c (some (L.get s k).2) := by
  rintro _ ⟨⟩ owner salt addr he
  exact hs s rfl owner salt addr (L.get_entries s k _ addr he)

theorem cacheSound_set {s : σ} (hs : CacheSound L cr c (some s)) {owner : Address}
    {salt : Option Int} {addr : Address} (ha : c.chain.getAddress owner salt = .ok addr) :
    CacheSound L cr c (some (L.set s (cacheKey cr.keccak256 owner salt) addr)) := by
  rintro _ ⟨⟩ o sa a he
  have hset := L.set_entries s _ addr _ a he
  split at hset
  · next hk =>
    obtain ⟨rfl, rfl⟩ := cacheKey_injective cr.keccak256 hk
    rw [hset, ha]
  · exact hs s rfl o sa a hset

theorem callerSound_return {g : Caller} (hg : CallerSound c g)
    {call : Address × Option Int} {rest : List (Address × Option Int)} {r : Except Fault Address}
    (hr : ∀ addr, r = .ok addr → c.chain.getAddress call.1 call.2 = .ok addr) :
    CallerSound c ⟨rest, .idle, g.returned ++ [(call, r)]⟩ := by
  refine ⟨fun _ h => (nomatch h), fun call' addr h => ?_⟩
  rcases List.mem_append.mp h with h | h
  · exact hg.2 call' addr h
  · obtain ⟨rfl, rfl⟩ := Prod.mk.inj (List.mem_singleton.mp h)
    exact hr addr rfl

section Invariant

variable (I : σ → Prop) (hget : ∀ s k, I s → I (L.get s k).2)
  (hset : ∀ s k v, I s → I (L.set s k v))
include hget hset

theorem Caller.step_sound {s s' : σ} {g g' : Caller} (hs : CacheSound L cr c (some s)) (hI : I s)
    (hg : CallerSound c g) (h : g.step L cr c s = some (s', g')) :
    CacheSound L cr c (some s') ∧ I s' ∧ CallerSound c g' := by
  rcases g with ⟨_ | ⟨⟨owner, salt⟩, rest⟩, pc, returned⟩
  · cases pc <;> cases h
  cases pc with
  | idle =>
    -- `Get`: a hit returns the entry, a miss goes on to the factory
    have hget' := L.get_eq s (cacheKey cr.keccak256 owner salt)
    have hs1 := cacheSound_get L cr c hs (cacheKey cr.keccak256 owner salt)
    have hI1 := hget s (cacheKey cr.keccak256 owner salt) hI
    rcases hg1 : L.get s (cacheKey cr.keccak256 owner salt) with ⟨_ | addr, s1⟩ <;>
      rw [hg1] at hget' hs1 hI1 <;> simp only [Caller.step, hg1] at h <;>
      obtain ⟨rfl, rfl⟩ := Prod.mk.inj (Option.some.inj h)
    · exact ⟨hs1, hI1, fun _ h => (nomatch h), hg.2⟩
    · exact ⟨hs1, hI1, callerSound_return c hg fun _ h => by
        cases h; exact hs s rfl owner salt _ hget'.symm⟩
  | missed =>
    -- the factory call: an error is returned wrapped, an answer is kept for `Set`
    simp only [Caller.step] at h
    split at h <;> obtain ⟨rfl, rfl⟩ := Prod.mk.inj (Option.some.inj h)
    · exact ⟨hs, hI, callerSound_return c hg fun _ h => nomatch wrapError_eq_ok.mp h⟩
    · next addr ha =>
      exact ⟨hs, hI, fun a h call hc => by cases h; cases hc; exact ha, hg.2⟩
  | answered addr =>
    -- `Set`: the answer goes into the cache and is returned
    obtain ⟨rfl, rfl⟩ := Prod.mk.inj (Option.some.inj h)
    have ha : c.chain.getAddress owner salt = .ok addr := hg.1 addr rfl _ rfl
    exact ⟨cacheSound_set L cr c hs ha, hset _ _ _ hI,
      callerSound_return c hg fun _ h => by cases h; exact ha⟩

theorem CacheReachable.sound {s0 : σ} {scripts : List (List (Address × Option Int))}
    {w : Callers σ} (hw : CacheReachable L cr c s0 scripts w) (hs0 : CacheSound L cr c (some s0))
    (hI0 : I s0) :
    CacheSound L cr c (some w.cache) ∧ I w.cache ∧ ∀ g ∈ w.callers, CallerSound c g := by
  induction hw with
  | init =>
    refine ⟨hs0, hI0, fun g hg => ?_⟩
    obtain ⟨calls, -, rfl⟩ := List.mem_map.mp hg
    exact ⟨fun _ h => (nomatch h), fun _ _ h => (nomatch h)⟩
  | step i _ h ih =>
    obtain ⟨hs, hI, hgs⟩ := ih
    unfold Callers.step at h
    split at h
    · cases h
    · next g hg =>
      obtain ⟨⟨s', g'⟩, hstep, rfl⟩ := Option.map_eq_some'.mp h
      obtain ⟨hs', hI', hg'⟩ :=
        Caller.step_sound L cr c I hget hset hs hI (hgs g (List.mem_iff_getElem?.mpr ⟨i, hg⟩)) hstep
      refine ⟨hs', hI', fun g'' h'' => ?_⟩
      rcases List.mem_or_eq_of_mem_set h'' with h'' | rfl
      · exact hgs g'' h''
      · exact hg'

end Invariant

/-! ## The cache `NewLRUCache` makes -/

/-- Goroutines sharing one client whose cache `NewLRUCache(maxSize)` made, however their
`GetAccount` calls interleave at the cache's `Get` and `Set`: every address a call has returned is
the factory's for its owner and salt, and the cache holds at most `maxSize` entries, one per key. -/
theorem get_account_interleavings_return_factory_address (maxSize : Int) {s0 : Lru}
    (h : newLRUCache maxSize = .ok s0) (scripts : List (List (Address × Option Int)))
    {w : Callers Lru} (hw : CacheReachable lruCache cr c s0 scripts w) :
    (∀ g ∈ w.callers, ∀ call addr, (call, .ok addr) ∈ g.returned →
        c.chain.getAddress call.1 call.2 = .ok addr) ∧
      w.cache.items.length ≤ maxSize.toNat ∧ (w.cache.items.map Prod.fst).Nodup := by
  have hpos : ¬maxSize ≤ 0 := fun hle => by simp [newLRUCache, hle] at h
  rw [newLRUCache, if_neg hpos] at h
  cases h
  obtain ⟨-, ⟨hwf, hsize⟩, hgs⟩ := hw.sound lruCache cr c
    (fun s => s.WellFormed ∧ s.size = maxSize.toNat)
    (fun s k hs => ⟨Lru.get_wellFormed hs.1 k, (Lru.get_size s k).trans hs.2⟩)
    (fun s k v hs => ⟨Lru.add_wellFormed hs.1.keys_nodup k v, hs.2⟩)
    (fun _ h _ _ _ he => by cases h; cases he) ⟨⟨List.nodup_nil, Nat.zero_le _⟩, rfl⟩
  exact ⟨fun g hg => (hgs g hg).2, hsize ▸ hwf.length_le, hwf.keys_nodup⟩

/-- Two goroutines look up the same owner and salt on a cache of one entry: both miss, both ask
the factory, both store its answer. -/
def raceRun : Callers Lru :=
  ⟨⟨1, [(cacheKey lengthCrypto.keccak256 (Word.zero 20) (some 1), Word.zero 20)]⟩,
    [⟨[], .idle, [((Word.zero 20, some 1), .ok (Word.zero 20))]⟩,
      ⟨[], .idle, [((Word.zero 20, some 1), .ok (Word.zero 20))]⟩]⟩

theorem get_account_interleavings_return_factory_address_race :
    newLRUCache 1 = .ok ⟨1, []⟩ ∧
      CacheReachable lruCache lengthCrypto executorClient ⟨1, []⟩
        [[(Word.zero 20, some 1)], [(Word.zero 20, some 1)]] raceRun ∧
      (∀ g ∈ raceRun.callers, ∀ call addr, (call, .ok addr) ∈ g.returned →
          executorClient.chain.getAddress call.1 call.2 = .ok addr) ∧
        raceRun.cache.items.length ≤ (1 : Int).toNat ∧ (raceRun.cache.items.map Prod.fst).Nodup :=
  have hw : CacheReachable lruCache lengthCrypto executorClient ⟨1, []⟩
      [[(Word.zero 20, some 1)], [(Word.zero 20, some 1)]] raceRun :=
    .step 1 (.step 0 (.step 1 (.step 0 (.step 1 (.step 0 .init rfl) rfl) rfl) rfl) rfl) rfl
  ⟨rfl, hw, get_account_interleavings_return_factory_address lengthCrypto executorClient 1 rfl _ hw⟩

end AaSdk
