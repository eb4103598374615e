import AaSdk.Client

/-! # Account addresses through the cache (`client.go`, `cache.go`)

`GetAccount` keys the cache by `owner.Hex() + "-" + salt.String()`. The
`LRUCache` interface is a record with the map its state stands for and the
laws of a bounded map; `lruCache` is the hashicorp LRU behind
`NewLRUCache`, and satisfies them; its `Get` and `Add` keep one item per key
and no more items than its size. The cache holds only factory answers, and so
every address `GetAccount` returns is the factory's.
-/

namespace AaSdk

/-! ## The cache key -/

/-- `fmt.Sprintf("%s-%s", owner.Hex(), salt.String())`. -/
def cacheKey (keccak256 : List UInt8 → Hash) (owner : Address) (salt : Option Int) : String :=
  addressHex keccak256 owner ++ "-" ++ bigText 10 salt

theorem cacheKey_injective (keccak256 : List UInt8 → Hash) {owner owner' : Address}
    {salt salt' : Option Int} (h : cacheKey keccak256 owner salt = cacheKey keccak256 owner' salt') :
    owner = owner' ∧ salt = salt' := by
  have hd : ((addressHex keccak256 owner).data ++ ['-']) ++ (bigText 10 salt).data =
      ((addressHex keccak256 owner').data ++ ['-']) ++ (bigText 10 salt').data := congrArg String.data h
  rw [List.append_assoc, List.append_assoc] at hd
  obtain ⟨h1, h2⟩ := List.append_inj hd
    ((addressHex_length keccak256 owner).trans (addressHex_length keccak256 owner').symm)
  exact ⟨addressHex_injective keccak256 (String.ext h1),
    bigText_injective (by norm_num) (by norm_num) (String.ext (List.append_cancel_left h2))⟩

/-! ## The `LRUCache` interface -/

/-- An `LRUCache` over states `σ`, with `entries`, the map a state stands for. It behaves as a
bounded map: `Get` returns the entry of its key and drops no other, and `Set` writes its entry or
evicts it, and otherwise only evicts. The `bool` `Set` returns is not read by the client. -/
structure LruCache (σ : Type) where
  get : σ → String → Option Address × σ
  set : σ → String → Address → σ
  entries : σ → String → Option Address
  get_eq : ∀ s k, (get s k).1 = entries s k
  get_entries : ∀ s k k' v, entries (get s k).2 k' = some v → entries s k' = some v
  set_entries : ∀ s k v k' w, entries (set s k v) k' = some w →
    if k' = k then w = v else entries s k' = some w

/-- The state of a hashicorp `lru.Cache`: its size, and its items, most recently used first. -/
structure Lru where
  size : Nat
  items : List (String × Address)

/-- `NewLRUCache`: `lru.New` refuses a size that is not positive, and the SDK panics then. -/
def newLRUCache (maxSize : Int) : Except Fault Lru :=
  if maxSize ≤ 0 then
    .error (.panic ("failed to create LRU cache: must provide a positive size, maxSize: " ++
      toString maxSize))
  else .ok ⟨maxSize.toNat, []⟩

/-- `lru.Cache.Get`: a hit moves the item to the front. -/
def Lru.get (s : Lru) (k : String) : Option Address × Lru :=
  match s.items.lookup k with
  | some v => (some v, { s with items := (k, v) :: s.items.filter fun e => e.1 != k })
  | none => (none, s)

/-- `lru.Cache.Add`: the item goes to the front; past the size the oldest one is evicted. -/
def Lru.add (s : Lru) (k : String) (v : Address) : Lru :=
  { s with items := ((k, v) :: s.items.filter fun e => e.1 != k).take s.size }

theorem lookup_filter_ne {l : List (String × Address)} {k k' : String} (h : k' ≠ k) :
    (l.filter fun e => e.1 != k).lookup k' = l.lookup k' := by
  induction l with
  | nil => rfl
  | cons e l ih =>
    obtain ⟨k0, v0⟩ := e
    by_cases he : k0 = k
    · simp [List.filter_cons, he, List.lookup_cons, beq_false_of_ne h, ih]
    · simp [List.filter_cons, he, List.lookup_cons, ih]

theorem lookup_take {l : List (String × Address)} {k : String} {v : Address} (n : Nat)
    (h : (l.take n).lookup k = some v) : l.lookup k = some v := by
  induction l generalizing n with
  | nil => simp at h
  | cons e l ih =>
    obtain ⟨k0, v0⟩ := e
    cases n with
    | zero => simp at h
    | succ n =>
      simp only [List.take_succ_cons, List.lookup_cons] at h ⊢
      split at h
      · exact h
      · exact ih n h

/-- The hashicorp LRU behind `lruCache` is an `LRUCache`. -/
def lruCache : LruCache Lru where
  get := Lru.get
  set := Lru.add
  entries s k := s.items.lookup k
  get_eq s k := by
    unfold Lru.get
    split <;> (rename_i h; exact h.symm)
  get_entries s k k' v h := by
    show s.items.lookup k' = some v
    unfold Lru.get at h
    split at h
    · rename_i w hw
      by_cases hk : k' = k
      · subst hk
        have : w = v := by simpa [List.lookup_cons] using h
        rw [hw, this]
      · simpa [List.lookup_cons, beq_false_of_ne hk, lookup_filter_ne hk] using h
    · exact h
  set_entries s k v k' w h := by
    have h' := lookup_take _ h
    split
    · next hk =>
      subst hk
      simp [List.lookup_cons] at h'
      exact h'.symm
    · next hk => simpa [List.lookup_cons, beq_false_of_ne hk, lookup_filter_ne hk] using h'

/-! ## The LRU's shape -/

/-- The shape of a hashicorp LRU's state: one item per key, and no more items than its size.
A hit only moves its item to the front, and `Add` cuts the list at the size. -/
structure Lru.WellFormed (s : Lru) : Prop where
  keys_nodup : (s.items.map Prod.fst).Nodup
  length_le : s.items.length ≤ s.size

theorem keys_filter_ne_nodup {l : List (String × Address)} (k : String)
    (h : (l.map Prod.fst).Nodup) : ((l.filter fun e => e.1 != k).map Prod.fst).Nodup :=
  h.sublist ((List.filter_sublist l).map Prod.fst)

theorem not_mem_keys_filter_ne (l : List (String × Address)) (k : String) :
    k ∉ (l.filter fun e => e.1 != k).map Prod.fst := by
  simp

theorem length_filter_ne_of_lookup {l : List (String × Address)} {k : String} {v : Address}
    (hnd : (l.map Prod.fst).Nodup) (h : l.lookup k = some v) :
    (l.filter fun e => e.1 != k).length + 1 = l.length := by
  induction l with
  | nil => cases h
  | cons e l ih =>
    obtain ⟨k0, v0⟩ := e
    rw [List.map_cons, List.nodup_cons] at hnd
    by_cases hk : k0 = k
    · subst hk
      have hl : l.filter (fun e => e.1 != k0) = l := List.filter_eq_self.mpr fun e he =>
        bne_iff_ne.mpr fun h' => hnd.1 (h' ▸ List.mem_map_of_mem Prod.fst he :)
      simp [List.filter_cons, hl]
    · simp only [List.lookup_cons, beq_false_of_ne (Ne.symm hk)] at h
      simp [List.filter_cons, hk, ih hnd.2 h]

@[simp] theorem Lru.get_size (s : Lru) (k : String) : (s.get k).2.size = s.size := by
  unfold Lru.get; split <;> rfl

theorem Lru.get_wellFormed {s : Lru} (hs : s.WellFormed) (k : String) : (s.get k).2.WellFormed := by
  unfold Lru.get
  split
  · next v hv =>
    exact ⟨List.nodup_cons.mpr ⟨not_mem_keys_filter_ne _ k, keys_filter_ne_nodup k hs.keys_nodup⟩,
      (length_filter_ne_of_lookup hs.keys_nodup hv).trans_le hs.length_le⟩
  · exact hs

theorem Lru.add_wellFormed {s : Lru} (hs : (s.items.map Prod.fst).Nodup) (k : String) (v : Address) :
    (s.add k v).WellFormed where
  keys_nodup := (List.nodup_cons.mpr ⟨not_mem_keys_filter_ne _ k,
    keys_filter_ne_nodup k hs⟩).sublist ((List.take_sublist _ _).map Prod.fst)
  length_le := by simp [Lru.add]

/-! ## `GetAccount` -/

variable {σ : Type} (L : LruCache σ) (cr : Crypto) (c : Client)

/-- `GetAccount`: with no cache, ask the factory; otherwise a hit is returned, and a miss asks the
factory and stores its answer. The cache's state is passed in and handed back. -/
def getAccount (cache : Option σ) (owner : Address) (salt : Option Int) :
    Except Fault Address × Option σ :=
  match cache with
  | none => (c.chain.getAddress owner salt, none)
  | some s =>
    let key := cacheKey cr.keccak256 owner salt
    match L.get s key with
    | (some addr, s) => (.ok addr, some s)
    | (none, s) =>
      match c.chain.getAddress owner salt with
      | .error e => (wrapError "error getting account address: " (.error e), some s)
      | .ok addr => (.ok addr, some (L.set s key addr))

/-- A run of `GetAccount` calls, one after another on the same cache. -/
def getAccounts (cache : Option σ) : List (Address × Option Int) → List (Except Fault Address) × Option σ
  | [] => ([], cache)
  | (owner, salt) :: calls =>
    let (r, cache) := getAccount L cr c cache owner salt
    let (rs, cache) := getAccounts cache calls
    (r :: rs, cache)

/-- Every entry under the key of a pair is the factory's address for that pair. -/
def CacheSound (cache : Option σ) : Prop :=
  ∀ s, cache = some s → ∀ owner salt addr,
    L.entries s (cacheKey cr.keccak256 owner salt) = some addr → c.chain.getAddress owner salt = .ok addr

theorem getAccount_sound {cache : Option σ} (hs : CacheSound L cr c cache) (owner : Address)
    (salt : Option Int) :
    (∀ addr, (getAccount L cr c cache owner salt).1 = .ok addr →
      c.chain.getAddress owner salt = .ok addr) ∧
    CacheSound L cr c (getAccount L cr c cache owner salt).2 := by
  rcases cache with _ | s
  · exact ⟨fun _ h => h, fun _ h => nomatch h⟩
  simp only [getAccount]
  have hget := L.get_eq s (cacheKey cr.keccak256 owner salt)
  have hdrop := L.get_entries s (cacheKey cr.keccak256 owner salt)
  rcases hg : L.get s (cacheKey cr.keccak256 owner salt) with ⟨_ | addr, s'⟩ <;>
    rw [hg] at hget hdrop
  · rcases ha : c.chain.getAddress owner salt with e | addr
    · exact ⟨fun _ h => (by cases e <;> cases h),
        fun _ h o sa a he => hs s rfl o sa a (hdrop _ _ (by cases h; exact he))⟩
    · refine ⟨fun _ h => (by cases h; rfl), fun _ h o sa a he => ?_⟩
      cases h
      have hset := L.set_entries s' _ addr _ a he
      split at hset
      · next hk =>
        obtain ⟨rfl, rfl⟩ := cacheKey_injective cr.keccak256 hk
        rw [hset, ha]
      · exact hs s rfl o sa a (hdrop _ _ hset)
  · exact ⟨fun _ h => (by cases h; exact hs s rfl owner salt _ hget.symm),
      fun _ h o sa a he => hs s rfl o sa a (hdrop _ _ (by cases h; exact he))⟩

/-- Over every run of `GetAccount` from a sound cache, each successful result is the factory's
address for its owner and salt; the cache key it rests on is injective. -/
theorem get_account_returns_factory_address (cache : Option σ) (hs : CacheSound L cr c cache)
    (calls : List (Address × Option Int)) :
    (∀ owner salt owner' salt', cacheKey cr.keccak256 owner salt = cacheKey cr.keccak256 owner' salt' →
      owner = owner' ∧ salt = salt') ∧
    List.Forall₂ (fun call r => ∀ addr, r = .ok addr → c.chain.getAddress call.1 call.2 = .ok addr)
      calls (getAccounts L cr c cache calls).1 := by
  refine ⟨fun _ _ _ _ => cacheKey_injective cr.keccak256, ?_⟩
  induction calls generalizing cache with
  | nil => exact .nil
  | cons call calls ih =>
    obtain ⟨hr, hs'⟩ := getAccount_sound L cr c hs call.1 call.2
    exact .cons hr (ih _ hs')

theorem get_account_returns_factory_address_lru :
    CacheSound lruCache lengthCrypto executorClient (some ⟨2, []⟩) ∧
    ((∀ owner salt owner' salt', cacheKey lengthCrypto.keccak256 owner salt =
        cacheKey lengthCrypto.keccak256 owner' salt' → owner = owner' ∧ salt = salt') ∧
      List.Forall₂ (fun call r => ∀ addr, r = .ok addr →
          executorClient.chain.getAddress call.1 call.2 = .ok addr)
        [(Word.zero 20, some (-1)), (Word.zero 20, some 1), (Word.zero 20, some (-1))]
        (getAccounts lruCache lengthCrypto executorClient (some ⟨2, []⟩)
          [(Word.zero 20, some (-1)), (Word.zero 20, some 1), (Word.zero 20, some (-1))]).1) :=
  have hs : CacheSound lruCache lengthCrypto executorClient (some ⟨2, []⟩) :=
    fun _ h _ _ _ he => by cases h; cases he
  ⟨hs, get_account_returns_factory_address lruCache lengthCrypto executorClient _ hs _⟩

end AaSdk
