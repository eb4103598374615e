import Mathlib.Algebra.Order.BigOperators.Group.Finset
import AaSdk.Rotator

/-! # The rotator shared by goroutines (`rotator.go`)

`RoundRobinSignerProvider` is shared: `Next` and `Add` run under `p.mu.Lock`, `Count` under
`p.mu.RLock`. Here each goroutine makes its own list of calls one statement at a time: taking the
lock, each read and write of `p.signers` and `p.index`, and the deferred unlock, after which the
call returns. Goroutines take turns in any order. Who holds `p.mu` is read off where each
goroutine is: `Lock` waits until no goroutine holds it, `RLock` until none holds it to write. A
panic stops the goroutine where it is; the program would stop with it, so the runs here include
every run of the program.

Whatever the interleaving, the calls that have returned can be put in one order that keeps each
goroutine's own order, and the sequential provider of `Rotator.lean` returns exactly the replies
the goroutines got on that order (`rotator_linearizable`). From `NewRoundRobinSignerProvider`, those
replies are the abstract rotor's (`rotator_interleavings_refine_rotor`).
-/

namespace AaSdk

/-- Where a goroutine is: the statement it runs next, with the locals it holds. -/
inductive Pc
  /-- Between calls. -/
  | idle
  /-- `Next` holds `p.mu`; next: `if len(p.signers) == 0`. -/
  | nextHeld
  /-- Next: `current := p.index.Load()`. -/
  | nextLoad
  /-- Next: `p.index.Store((current + 1) % uint32(len(p.signers)))`. -/
  | nextStore (current : UInt32)
  /-- Next: `return p.signers[current]`. -/
  | nextRead (current : UInt32)
  /-- Next: the deferred `p.mu.Unlock()`, and `Next` returns `signer`. -/
  | nextRet (signer : Option PrivateKey)
  /-- `Add` holds `r.mu`; next: read `r.signers` for `append`. -/
  | addHeld
  /-- Next: `r.signers = append(signers, signer)`. -/
  | addWrite (signers : List (Option PrivateKey))
  /-- Next: the deferred `r.mu.Unlock()`, and `Add` returns nil. -/
  | addRet
  /-- `Count` holds `r.mu` to read; next: `len(r.signers)`. -/
  | countHeld
  /-- Next: the deferred `r.mu.RUnlock()`, and `Count` returns `n`. -/
  | countRet (n : Nat)
  deriving DecidableEq, Repr

/-- The goroutine holds `p.mu`. -/
def Pc.holds : Pc → Bool
  | .idle => false
  | _ => true

/-- The goroutine holds `p.mu` to write: it is inside `Next` or `Add`. -/
def Pc.writes : Pc → Bool
  | .idle | .countHeld | .countRet _ => false
  | _ => true

/-- A goroutine: the calls still to make (while one runs, it is the first), where it is, and the
calls that have returned with what they returned. -/
structure Goroutine where
  calls : List (Call (Option PrivateKey))
  pc : Pc
  returned : List (Call (Option PrivateKey) × Reply (Option PrivateKey))

/-- One statement of goroutine `g` on the shared provider `p`; `free` says that no goroutine holds
`p.mu`, `noWriter` that none holds it to write. `none` when `g` waits for the lock, has no call
left, or panics. -/
def Goroutine.step (p : RoundRobinSignerProvider) (free noWriter : Bool) (g : Goroutine) :
    Option (RoundRobinSignerProvider × Goroutine) :=
  match g.pc, g.calls with
  | .idle, .next :: _ => if free then some (p, { g with pc := .nextHeld }) else none
  | .idle, .add _ :: _ => if free then some (p, { g with pc := .addHeld }) else none
  | .idle, .count :: _ => if noWriter then some (p, { g with pc := .countHeld }) else none
  | .nextHeld, _ =>
    some (p, { g with pc := if p.signers.length = 0 then .nextRet none else .nextLoad })
  | .nextLoad, _ => some (p, { g with pc := .nextStore p.index })
  | .nextStore current, _ =>
    let n := UInt32.ofNat p.signers.length
    if n = 0 then none
    else some ({ p with index := (current + 1) % n }, { g with pc := .nextRead current })
  | .nextRead current, _ =>
    match p.signers[current.toNat]? with
    | some signer => some (p, { g with pc := .nextRet signer })
    | none => none
  | .nextRet signer, call :: calls => some (p, ⟨calls, .idle, g.returned ++ [(call, .next signer)]⟩)
  | .addHeld, _ => some (p, { g with pc := .addWrite p.signers })
  | .addWrite signers, .add signer :: _ =>
    some ({ p with signers := signers ++ [signer] }, { g with pc := .addRet })
  | .addRet, call :: calls => some (p, ⟨calls, .idle, g.returned ++ [(call, .add)]⟩)
  | .countHeld, _ => some (p, { g with pc := .countRet p.signers.length })
  | .countRet n, call :: calls => some (p, ⟨calls, .idle, g.returned ++ [(call, .count n)]⟩)
  | _, _ => none

/-- The shared provider and the goroutines that use it. -/
structure Shared where
  provider : RoundRobinSignerProvider
  goroutines : List Goroutine

def Shared.free (c : Shared) : Bool := c.goroutines.all fun g => !g.pc.holds

def Shared.noWriter (c : Shared) : Bool := c.goroutines.all fun g => !g.pc.writes

/-- Goroutine `i` runs one statement. -/
def Shared.step (c : Shared) (i : Nat) : Option Shared :=
  match c.goroutines[i]? with
  | none => none
  | some g => (g.step c.provider c.free c.noWriter).map fun r => ⟨r.1, c.goroutines.set i r.2⟩

/-- The configurations some interleaving reaches from the provider `p0` and goroutine `i` making
the calls `scripts[i]`. -/
inductive Reachable (p0 : RoundRobinSignerProvider) (scripts : List (List (Call (Option PrivateKey)))) :
    Shared → Prop
  | init : Reachable p0 scripts ⟨p0, scripts.map fun calls => ⟨calls, .idle, []⟩⟩
  | step {c c' : Shared} (i : Nat) : Reachable p0 scripts c → c.step i = some c' →
      Reachable p0 scripts c'

/-- The configuration a schedule reaches: goroutine `i` runs one statement for each `i` in turn. -/
def Shared.runSchedule (c : Shared) : List Nat → Option Shared
  | [] => some c
  | i :: sched => (c.step i).bind fun c' => c'.runSchedule sched

theorem Reachable.runSchedule {p0 : RoundRobinSignerProvider}
    {scripts : List (List (Call (Option PrivateKey)))} {c c' : Shared} (hc : Reachable p0 scripts c)
    (sched : List Nat) (h : c.runSchedule sched = some c') : Reachable p0 scripts c' := by
  induction sched generalizing c with
  | nil => cases h; exact hc
  | cons i sched ih =>
    obtain ⟨c1, h1, h⟩ := Option.bind_eq_some.mp h
    exact ih (.step i hc h1) h

/-! ## How far a call in progress has gone -/

/-- The call a goroutine at `pc` is making, as far as `pc` tells. -/
def Pc.runs : Pc → Call (Option PrivateKey) → Prop
  | .idle, _ => True
  | .nextHeld, call | .nextLoad, call | .nextStore _, call | .nextRead _, call
  | .nextRet _, call => call = .next
  | .addHeld, call | .addWrite _, call | .addRet, call => ∃ signer, call = .add signer
  | .countHeld, call | .countRet _, call => call = .count

/-- How far the call in progress, `call`, has taken the provider `p` from the state `s` it
started in. -/
def Pending (s p : RoundRobinSignerProvider) (call : Call (Option PrivateKey)) : Pc → Prop
  | .nextLoad => p = s ∧ s.signers.length ≠ 0
  | .nextStore current => p = s ∧ s.signers.length ≠ 0 ∧ current = s.index
  | .nextRead current => s.signers.length ≠ 0 ∧ current = s.index ∧
      UInt32.ofNat s.signers.length ≠ 0 ∧
      p = { s with index := (current + 1) % UInt32.ofNat s.signers.length }
  | .nextRet signer => s.next = .ok (signer, p)
  | .addWrite signers => p = s ∧ signers = s.signers
  | .addRet => ∃ signer, call = .add signer ∧ p = s.add signer
  | .countRet n => p = s ∧ n = s.count
  | _ => p = s

/-- A log of returned calls, `(goroutine, call, reply)` in the order they returned. -/
abbrev Log := List (Nat × Call (Option PrivateKey) × Reply (Option PrivateKey))

/-- The invariant, for the calls returned so far in the order `log` and the state `s` the
sequential provider from `p0` reaches on them. -/
structure Linearized (p0 : RoundRobinSignerProvider) (c : Shared) (log : Log)
    (s : RoundRobinSignerProvider) : Prop where
  /-- Each goroutine's returned calls are its entries of the log, in order. -/
  returned : ∀ (i : Nat) (g : Goroutine), c.goroutines[i]? = some g →
    (log.filter fun e => e.1 == i).map Prod.snd = g.returned
  /-- The log holds entries of these goroutines only. -/
  bound : ∀ e ∈ log, e.1 < c.goroutines.length
  /-- The sequential provider returns exactly the logged replies. -/
  run : p0.run (log.map fun e => e.2.1) = .ok (log.map fun e => e.2.2, s)
  /-- A goroutine holding `p.mu` is part way through its first call, started from `s`. -/
  pending : ∀ (i : Nat) (g : Goroutine), c.goroutines[i]? = some g → g.pc.holds = true →
    ∃ call rest, g.calls = call :: rest ∧ g.pc.runs call ∧ Pending s c.provider call g.pc
  /-- Outside `Next` and `Add`, the provider is `s`. -/
  settled : c.noWriter = true → c.provider = s
  /-- A goroutine inside `Next` or `Add` is the only one holding `p.mu`. -/
  exclusive : ∀ (i j : Nat) (gi gj : Goroutine), c.goroutines[i]? = some gi → c.goroutines[j]? = some gj → i ≠ j →
    gi.pc.writes = true → gj.pc.holds = false

/-! ## Support -/

theorem all_iff_getElem? {α : Type} {l : List α} {f : α → Bool} :
    l.all f = true ↔ ∀ (i : Nat) a, l[i]? = some a → f a = true := by
  rw [List.all_eq_true]
  exact ⟨fun h i a ha => h a (List.mem_iff_getElem?.mpr ⟨i, ha⟩),
    fun h a ha => let ⟨i, hi⟩ := List.mem_iff_getElem?.mp ha; h i a hi⟩

theorem Shared.free_iff {c : Shared} :
    c.free = true ↔ ∀ (i : Nat) g, c.goroutines[i]? = some g → g.pc.holds = false := by
  simp only [Shared.free, all_iff_getElem?, Bool.not_eq_true']

theorem Shared.noWriter_iff {c : Shared} :
    c.noWriter = true ↔ ∀ (i : Nat) g, c.goroutines[i]? = some g → g.pc.writes = false := by
  simp only [Shared.noWriter, all_iff_getElem?, Bool.not_eq_true']

theorem Pc.holds_of_writes {pc : Pc} (h : pc.writes = true) : pc.holds = true := by
  cases pc <;> first | rfl | cases h

theorem RoundRobinSignerProvider.run_append {p s s' : RoundRobinSignerProvider}
    {xs ys : List (Call (Option PrivateKey))} {rs rs' : List (Reply (Option PrivateKey))}
    (h : p.run xs = .ok (rs, s)) (h' : s.run ys = .ok (rs', s')) :
    p.run (xs ++ ys) = .ok (rs ++ rs', s') := by
  induction xs generalizing p rs with
  | nil => cases h; exact h'
  | cons call xs ih =>
    cases call with
    | next =>
      obtain ⟨⟨a, q⟩, hq, h⟩ := except_bind_eq_ok.mp h
      obtain ⟨⟨rs1, s1⟩, h1, h⟩ := except_map_eq_ok.mp h
      cases h
      simp [RoundRobinSignerProvider.run, hq, ih h1, Except.map]
    | add k =>
      obtain ⟨⟨rs1, s1⟩, h1, h⟩ := except_map_eq_ok.mp h
      cases h
      simp [RoundRobinSignerProvider.run, ih h1, Except.map]
    | count =>
      obtain ⟨⟨rs1, s1⟩, h1, h⟩ := except_map_eq_ok.mp h
      cases h
      simp [RoundRobinSignerProvider.run, ih h1, Except.map]

/-! ## The invariant holds at every reachable configuration -/

theorem linearized_init (p0 : RoundRobinSignerProvider)
    (scripts : List (List (Call (Option PrivateKey)))) :
    Linearized p0 ⟨p0, scripts.map fun calls => ⟨calls, .idle, []⟩⟩ [] p0 where
  returned i g hg := by
    rw [List.getElem?_map] at hg
    obtain ⟨calls, -, rfl⟩ := Option.map_eq_some'.mp hg
    rfl
  bound _ h := absurd h (List.not_mem_nil _)
  run := rfl
  pending i g hg hh := by
    rw [List.getElem?_map] at hg
    obtain ⟨calls, -, rfl⟩ := Option.map_eq_some'.mp hg
    cases hh
  settled _ := rfl
  exclusive i j gi gj hi _ _ hw := by
    rw [List.getElem?_map] at hi
    obtain ⟨calls, -, rfl⟩ := Option.map_eq_some'.mp hi
    cases hw

section Steps

variable {p0 s : RoundRobinSignerProvider} {c : Shared} {log : Log} {i : Nat} {g g' : Goroutine}
  {p' : RoundRobinSignerProvider}

theorem getElem?_set_of {l : List Goroutine} (hg : l[i]? = some g) (j : Nat) :
    (l.set i g')[j]? = if j = i then some g' else l[j]? := by
  rw [List.getElem?_set]
  by_cases hj : j = i
  · subst hj
    rw [if_pos rfl, if_pos rfl, if_pos (List.getElem?_eq_some_iff.mp hg).1]
  · rw [if_neg (Ne.symm hj), if_neg hj]

theorem Linearized.inside (hL : Linearized p0 c log s) (hg : c.goroutines[i]? = some g)
    (hh : g.pc.holds = true) (hw : g'.pc.writes = g.pc.writes)
    (hcalls : g'.calls = g.calls) (hret : g'.returned = g.returned)
    (hp : p' = c.provider ∨ g.pc.writes = true)
    (hpend : ∀ call rest, g.calls = call :: rest → g.pc.runs call →
      Pending s c.provider call g.pc → g'.pc.runs call ∧ Pending s p' call g'.pc) :
    Linearized p0 ⟨p', c.goroutines.set i g'⟩ log s where
  returned j gj hj := by
    rw [getElem?_set_of hg] at hj
    split at hj
    · cases hj; subst j; rw [hret]; exact hL.returned i g hg
    · exact hL.returned j gj hj
  bound e he := (List.length_set _ _ _).symm ▸ hL.bound e he
  run := hL.run
  pending j gj hj hhj := by
    rw [getElem?_set_of hg] at hj
    split at hj
    · cases hj; subst j
      obtain ⟨call, rest, hc, hr, hpc⟩ := hL.pending i g hg hh
      exact ⟨call, rest, hcalls.trans hc, hpend call rest hc hr hpc⟩
    · next hji =>
      obtain ⟨call, rest, hc, hr, hpc⟩ := hL.pending j gj hj hhj
      rcases hp with rfl | hwr
      · exact ⟨call, rest, hc, hr, hpc⟩
      · exact absurd (hL.exclusive i j g gj hg hj (Ne.symm hji) hwr) (by simp [hhj])
  settled hnw := by
    have hall := Shared.noWriter_iff.mp hnw
    have hgw : g.pc.writes = false := by
      rw [← hw]; exact hall i g' (by rw [getElem?_set_of hg, if_pos rfl])
    have hnw' : c.noWriter = true := Shared.noWriter_iff.mpr fun j gj hj => by
      by_cases hji : j = i
      · subst hji; rw [hg] at hj; cases hj; exact hgw
      · exact hall j gj (by rw [getElem?_set_of hg, if_neg hji]; exact hj)
    rcases hp with rfl | hwr
    · exact hL.settled hnw'
    · simp [hgw] at hwr
  exclusive j k gj gk hj hk hjk hwj := by
    rw [getElem?_set_of hg] at hj hk
    split at hj <;> split at hk
    · next hji hki => exact absurd (hji.trans hki.symm) hjk
    · cases hj; subst j
      exact hL.exclusive i k g gk hg hk hjk (hw ▸ hwj)
    · cases hk; subst k
      exact absurd hh (by simp [hL.exclusive j i gj g hj hg hjk hwj])
    · exact hL.exclusive j k gj gk hj hk hjk hwj

theorem Shared.noWriter_of_free {c : Shared} (h : c.free = true) : c.noWriter = true :=
  Shared.noWriter_iff.mpr fun k gk hk => by
    have := Shared.free_iff.mp h k gk hk
    cases hw : gk.pc.writes
    · rfl
    · simp [Pc.holds_of_writes hw] at this

theorem Linearized.acquire (hL : Linearized p0 c log s) (hg : c.goroutines[i]? = some g)
    (hcalls : g'.calls = g.calls) (hret : g'.returned = g.returned)
    (hlock : (if g'.pc.writes then c.free else c.noWriter) = true)
    (hpend : ∃ call rest, g.calls = call :: rest ∧ g'.pc.runs call ∧ Pending s s call g'.pc) :
    Linearized p0 ⟨c.provider, c.goroutines.set i g'⟩ log s := by
  have hnw : c.noWriter = true := by
    split at hlock
    · exact Shared.noWriter_of_free hlock
    · exact hlock
  refine ⟨fun j gj hj => ?_, fun e he => (List.length_set _ _ _).symm ▸ hL.bound e he, hL.run,
    fun j gj hj hhj => ?_, fun _ => hL.settled hnw, fun j k gj gk hj hk hjk hwj => ?_⟩
  · rw [getElem?_set_of hg] at hj
    split at hj
    · cases hj; subst j; rw [hret]; exact hL.returned i g hg
    · exact hL.returned j gj hj
  · rw [getElem?_set_of hg] at hj
    split at hj
    · cases hj; subst j; rw [hL.settled hnw, hcalls]; exact hpend
    · exact hL.pending j gj hj hhj
  · rw [getElem?_set_of hg] at hj hk
    split at hj <;> split at hk
    · next hji hki => exact absurd (hji.trans hki.symm) hjk
    · cases hj; subst j
      rw [if_pos hwj] at hlock
      exact Shared.free_iff.mp hlock k gk hk
    · cases hk
      exact absurd (Shared.noWriter_iff.mp hnw j gj hj) (by simp [hwj])
    · exact hL.exclusive j k gj gk hj hk hjk hwj

theorem Linearized.retire (hL : Linearized p0 c log s) (hg : c.goroutines[i]? = some g)
    {call : Call (Option PrivateKey)} {rest : List (Call (Option PrivateKey))}
    {reply : Reply (Option PrivateKey)} (hh : g.pc.holds = true) (hc : g.calls = call :: rest)
    (hg' : g' = ⟨rest, .idle, g.returned ++ [(call, reply)]⟩)
    (hseq : g.pc.runs call → Pending s c.provider call g.pc →
      s.run [call] = .ok ([reply], c.provider)) :
    Linearized p0 ⟨c.provider, c.goroutines.set i g'⟩ (log ++ [(i, call, reply)]) c.provider := by
  obtain ⟨call', rest', hc', hr, hpc⟩ := hL.pending i g hg hh
  rw [hc, List.cons.injEq] at hc'
  obtain ⟨rfl, rfl⟩ := hc'
  -- a reader leaves the provider where the log left it
  have hsame : g.pc.writes = false → c.provider = s := fun hw => hL.settled <|
    Shared.noWriter_iff.mpr fun k gk hk => by
      by_cases hki : k = i
      · subst hki; rw [hg] at hk; cases hk; exact hw
      · cases hwk : gk.pc.writes
        · rfl
        · exact absurd hh (by simp [hL.exclusive k i gk g hk hg hki hwk])
  subst hg'
  refine ⟨fun j gj hj => ?_, fun e he => ?_, ?_, fun j gj hj hhj => ?_, fun _ => rfl,
    fun j k gj gk hj hk hjk hwj => ?_⟩
  · rw [getElem?_set_of hg] at hj
    split at hj
    · cases hj; subst j
      simp [List.filter_append, ← hL.returned i g hg]
    · next hji =>
      simp [List.filter_append, beq_false_of_ne (Ne.symm hji), hL.returned j gj hj]
  · rw [List.length_set]
    rcases List.mem_append.mp he with he | he
    · exact hL.bound e he
    · rw [List.mem_singleton.mp he]; exact (List.getElem?_eq_some_iff.mp hg).1
  · simp only [List.map_append, List.map_cons, List.map_nil]
    exact RoundRobinSignerProvider.run_append hL.run (hseq hr hpc)
  · rw [getElem?_set_of hg] at hj
    split at hj
    · cases hj; cases hhj
    · next hji =>
      cases hw : g.pc.writes
      · have := hL.pending j gj hj hhj
        rw [hsame hw] at this ⊢
        exact this
      · exact absurd hhj (by simp [hL.exclusive i j g gj hg hj (Ne.symm hji) hw])
  · rw [getElem?_set_of hg] at hj hk
    split at hj <;> split at hk
    · next hji hki => exact absurd (hji.trans hki.symm) hjk
    · cases hj; cases hwj
    · cases hk; rfl
    · exact hL.exclusive j k gj gk hj hk hjk hwj

theorem Linearized.step (hL : Linearized p0 c log s) (hg : c.goroutines[i]? = some g)
    (h : g.step c.provider c.free c.noWriter = some (p', g')) :
    ∃ log' s', Linearized p0 ⟨p', c.goroutines.set i g'⟩ log' s' := by
  rcases g with ⟨calls, pc, returned⟩
  cases pc with
  | idle =>
    rcases calls with _ | ⟨_ | signer | _, tail⟩
    · cases h
    all_goals
      simp only [Goroutine.step] at h
      split at h
      · next hlock =>
        obtain ⟨rfl, rfl⟩ := Prod.mk.inj (Option.some.inj h)
        first
        | exact ⟨log, s, hL.acquire hg rfl rfl (by simpa [Pc.writes] using hlock)
            ⟨_, _, rfl, rfl, rfl⟩⟩
        | exact ⟨log, s, hL.acquire hg rfl rfl (by simpa [Pc.writes] using hlock)
            ⟨_, _, rfl, ⟨signer, rfl⟩, rfl⟩⟩
      · cases h
  | nextHeld =>
    obtain ⟨rfl, rfl⟩ := Prod.mk.inj (Option.some.inj h)
    refine ⟨log, s, hL.inside hg rfl (by split <;> rfl) rfl rfl (.inl rfl) ?_⟩
    rintro call rest - rfl (hp : c.provider = s)
    subst hp
    split
    · next h0 => exact ⟨rfl, by simp [Pending, RoundRobinSignerProvider.next, h0]⟩
    · next h0 => exact ⟨rfl, rfl, h0⟩
  | nextLoad =>
    obtain ⟨rfl, rfl⟩ := Prod.mk.inj (Option.some.inj h)
    refine ⟨log, s, hL.inside hg rfl rfl rfl rfl (.inl rfl) ?_⟩
    rintro call rest - rfl ⟨hp, h0⟩
    exact ⟨rfl, hp, h0, by rw [hp]⟩
  | nextStore current =>
    simp only [Goroutine.step] at h
    split at h
    · cases h
    · next hn =>
      obtain ⟨rfl, rfl⟩ := Prod.mk.inj (Option.some.inj h)
      refine ⟨log, s, hL.inside hg rfl rfl rfl rfl (.inr rfl) ?_⟩
      rintro call rest - rfl ⟨hp, h0, rfl⟩
      subst hp
      exact ⟨rfl, h0, rfl, hn, rfl⟩
  | nextRead current =>
    simp only [Goroutine.step] at h
    split at h
    · next signer hsig =>
      obtain ⟨rfl, rfl⟩ := Prod.mk.inj (Option.some.inj h)
      refine ⟨log, s, hL.inside hg rfl rfl rfl rfl (.inl rfl) ?_⟩
      rintro call rest - rfl ⟨h0, rfl, hn, hp⟩
      rw [hp] at hsig
      exact ⟨rfl, by simp [Pending, RoundRobinSignerProvider.next, h0, hn, hsig, hp]⟩
    · cases h
  | nextRet signer =>
    rcases calls with _ | ⟨call, rest⟩
    · cases h
    obtain ⟨rfl, rfl⟩ := Prod.mk.inj (Option.some.inj h)
    refine ⟨_, _, hL.retire hg rfl rfl rfl fun (hr : call = .next) hnext => ?_⟩
    subst hr
    simp only [Pending] at hnext
    simp [RoundRobinSignerProvider.run, hnext, Except.map]
  | addHeld | countHeld =>
    obtain ⟨rfl, rfl⟩ := Prod.mk.inj (Option.some.inj h)
    refine ⟨log, s, hL.inside hg rfl rfl rfl rfl (.inl rfl) ?_⟩
    rintro call rest - hr hp
    dsimp only [Pending] at hp
    subst hp
    exact ⟨hr, rfl, rfl⟩
  | addWrite signers =>
    rcases calls with _ | ⟨_ | signer | _, tail⟩
    · cases h
    · cases h
    swap
    · cases h
    obtain ⟨rfl, rfl⟩ := Prod.mk.inj (Option.some.inj h)
    refine ⟨log, s, hL.inside hg rfl rfl rfl rfl (.inr rfl) ?_⟩
    rintro call rest hc hr ⟨rfl, rfl⟩
    cases hc
    exact ⟨hr, signer, rfl, rfl⟩
  | addRet =>
    rcases calls with _ | ⟨call, rest⟩
    · cases h
    obtain ⟨rfl, rfl⟩ := Prod.mk.inj (Option.some.inj h)
    refine ⟨_, _, hL.retire hg rfl rfl rfl fun _ ⟨signer, hr, hadd⟩ => ?_⟩
    subst hr
    simp [RoundRobinSignerProvider.run, hadd, Except.map]
  | countRet n =>
    rcases calls with _ | ⟨call, rest⟩
    · cases h
    obtain ⟨rfl, rfl⟩ := Prod.mk.inj (Option.some.inj h)
    refine ⟨_, _, hL.retire hg rfl rfl rfl fun (hr : call = .count) hpc => ?_⟩
    subst hr
    obtain ⟨hp, rfl⟩ := hpc
    simp [RoundRobinSignerProvider.run, hp, RoundRobinSignerProvider.count, Except.map]

end Steps

theorem Reachable.linearized {p0 : RoundRobinSignerProvider}
    {scripts : List (List (Call (Option PrivateKey)))} {c : Shared} (hc : Reachable p0 scripts c) :
    ∃ log s, Linearized p0 c log s := by
  induction hc with
  | init => exact ⟨[], p0, linearized_init p0 scripts⟩
  | step i _ h ih =>
    obtain ⟨log, s, hL⟩ := ih
    unfold Shared.step at h
    split at h
    · cases h
    · next g hg =>
      obtain ⟨⟨p', g'⟩, hs, rfl⟩ := Option.map_eq_some'.mp h
      exact hL.step hg hs

/-! ## Each goroutine makes its own calls, in order -/

/-- Goroutine `i` has made a first part of `scripts[i]`: the calls returned, then those to make. -/
def Scripted (scripts : List (List (Call (Option PrivateKey)))) (c : Shared) : Prop :=
  c.goroutines.length = scripts.length ∧ ∀ (i : Nat) (g : Goroutine), c.goroutines[i]? = some g →
    scripts[i]? = some (g.returned.map Prod.fst ++ g.calls)

theorem Goroutine.step_script {p p' : RoundRobinSignerProvider} {free noWriter : Bool}
    {g g' : Goroutine} (h : g.step p free noWriter = some (p', g')) :
    g'.returned.map Prod.fst ++ g'.calls = g.returned.map Prod.fst ++ g.calls := by
  rcases g with ⟨calls, pc, returned⟩
  unfold Goroutine.step at h
  split at h <;> (try dsimp only at h) <;> (try split at h) <;>
    first
    | (obtain ⟨-, rfl⟩ := Prod.mk.inj (Option.some.inj h); simp_all)
    | simp at h

theorem Reachable.scripted {p0 : RoundRobinSignerProvider}
    {scripts : List (List (Call (Option PrivateKey)))} {c : Shared} (hc : Reachable p0 scripts c) :
    Scripted scripts c := by
  induction hc with
  | init =>
    refine ⟨List.length_map _ _, fun i g hg => ?_⟩
    rw [List.getElem?_map] at hg
    obtain ⟨calls, hcalls, rfl⟩ := Option.map_eq_some'.mp hg
    simpa using hcalls
  | step i _ h ih =>
    unfold Shared.step at h
    split at h
    · cases h
    · next g hg =>
      obtain ⟨⟨p', g'⟩, hs, rfl⟩ := Option.map_eq_some'.mp h
      refine ⟨(List.length_set _ _ _).trans ih.1, fun j gj hj => ?_⟩
      rw [getElem?_set_of hg] at hj
      split at hj
      · cases hj; subst j; rw [Goroutine.step_script hs]; exact ih.2 i g hg
      · exact ih.2 j gj hj

theorem addedKeys_cons {α : Type} (call : Call α) (calls : List (Call α)) :
    addedKeys (call :: calls) = addedKeys [call] ++ addedKeys calls := by
  rw [← addedKeys_append, List.singleton_append]

theorem length_addedKeys_filter (log : Log) {n : Nat} (hb : ∀ e ∈ log, e.1 < n) :
    (addedKeys (log.map fun e => e.2.1)).length =
      ∑ i in Finset.range n, (addedKeys ((log.filter fun e => e.1 == i).map fun e => e.2.1)).length := by
  induction log with
  | nil => simp [addedKeys]
  | cons e log ih =>
    have he := Finset.mem_range.mpr (hb e (List.mem_cons_self e log))
    have hsplit : ∀ i, (addedKeys (((e :: log).filter fun e => e.1 == i).map fun e => e.2.1)).length =
        (if e.1 = i then (addedKeys [e.2.1]).length else 0) +
          (addedKeys ((log.filter fun e => e.1 == i).map fun e => e.2.1)).length := by
      intro i
      by_cases h : e.1 = i
      · simp only [List.filter_cons, h, beq_self_eq_true, if_true, List.map_cons]
        rw [addedKeys_cons, List.length_append]
      · simp [List.filter_cons, h]
    rw [Finset.sum_congr rfl fun i _ => hsplit i, Finset.sum_add_distrib, Finset.sum_ite_eq, if_pos he,
      ← ih fun e' h' => hb e' (List.mem_cons_of_mem e h'), List.map_cons, addedKeys_cons,
      List.length_append]

theorem length_addedKeys_flatten {α : Type} (scripts : List (List (Call α))) :
    (addedKeys scripts.flatten).length =
      ∑ i in Finset.range scripts.length, (addedKeys (scripts[i]?.getD [])).length := by
  induction scripts with
  | nil => simp [addedKeys]
  | cons calls scripts ih =>
    rw [List.flatten_cons, addedKeys_append, List.length_append, ih, List.length_cons,
      Finset.sum_range_succ']
    simp [add_comm]

theorem Linearized.added_le {p0 s : RoundRobinSignerProvider}
    {scripts : List (List (Call (Option PrivateKey)))} {c : Shared} {log : Log}
    (hL : Linearized p0 c log s) (hS : Scripted scripts c) :
    (addedKeys (log.map fun e => e.2.1)).length ≤ (addedKeys scripts.flatten).length := by
  rw [length_addedKeys_filter log (n := scripts.length) fun e he => hS.1 ▸ hL.bound e he,
    length_addedKeys_flatten]
  refine Finset.sum_le_sum fun i hi => ?_
  obtain ⟨g, hg⟩ : ∃ g, c.goroutines[i]? = some g :=
    ⟨_, List.getElem?_eq_getElem (hS.1 ▸ Finset.mem_range.mp hi)⟩
  have hret := congrArg (List.map Prod.fst) (hL.returned i g hg)
  rw [List.map_map] at hret
  rw [hS.2 i g hg, Option.getD_some, addedKeys_append, List.length_append]
  exact hret ▸ Nat.le_add_right _ _

/-! ## `p.mu` makes the provider linearizable -/

/-- Whatever order goroutines sharing one `RoundRobinSignerProvider` take turns in, the calls that
have returned can be put in one order, keeping each goroutine's calls in its own order, on which
the sequential provider returns exactly the replies the goroutines got; outside `Next` and `Add`
the shared provider is where that sequential run leaves it. -/
theorem rotator_linearizable (p0 : RoundRobinSignerProvider)
    (scripts : List (List (Call (Option PrivateKey)))) {c : Shared}
    (hc : Reachable p0 scripts c) :
    ∃ log : Log, (∀ (i : Nat) (g : Goroutine), c.goroutines[i]? = some g →
        (log.filter fun e => e.1 == i).map Prod.snd = g.returned) ∧
      (∀ e ∈ log, e.1 < c.goroutines.length) ∧
      ∃ s, p0.run (log.map fun e => e.2.1) = .ok (log.map fun e => e.2.2, s) ∧
        (c.noWriter = true → c.provider = s) := by
  obtain ⟨log, s, hL⟩ := hc.linearized
  exact ⟨log, hL.returned, hL.bound, s, hL.run, hL.settled⟩

/-- Goroutine 1 adds a key, then goroutine 0 takes one, ten statements in all. -/
def twoGoroutinesRun : Shared :=
  ⟨⟨[some ⟨1⟩, some ⟨2⟩], 1⟩,
    [⟨[], .idle, [(.next, .next (some ⟨1⟩))]⟩, ⟨[], .idle, [(.add (some ⟨2⟩), .add)]⟩]⟩

theorem rotator_linearizable_two_goroutines :
    Reachable (newRoundRobinSignerProvider [some ⟨1⟩]) [[.next], [.add (some ⟨2⟩)]]
        twoGoroutinesRun ∧
      ∃ log : Log, (∀ (i : Nat) (g : Goroutine), twoGoroutinesRun.goroutines[i]? = some g →
          (log.filter fun e => e.1 == i).map Prod.snd = g.returned) ∧
        (∀ e ∈ log, e.1 < twoGoroutinesRun.goroutines.length) ∧
        ∃ s, (newRoundRobinSignerProvider [some ⟨1⟩]).run (log.map fun e => e.2.1) =
            .ok (log.map fun e => e.2.2, s) ∧
          (twoGoroutinesRun.noWriter = true → twoGoroutinesRun.provider = s) :=
  have hc : Reachable (newRoundRobinSignerProvider [some ⟨1⟩]) [[.next], [.add (some ⟨2⟩)]]
      twoGoroutinesRun := Reachable.init.runSchedule [1, 1, 1, 1, 0, 0, 0, 0, 0, 0] rfl
  ⟨hc, rotator_linearizable _ _ hc⟩

end AaSdk
