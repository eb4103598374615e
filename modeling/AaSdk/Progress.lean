import AaSdk.Mutex

/-! # No interleaving of the shared rotator gets stuck or runs forever

The goroutines of `Mutex.lean` take turns in any order. Each call runs a bounded number of
statements, so every interleaving stops (`rotator_schedules_end`). Nor can it stop early: from
`NewRoundRobinSignerProvider` with fewer than `2^32` keys in all, `p.mu` never deadlocks and no
statement panics, so while a goroutine has a call to make some goroutine can run
(`rotator_interleavings_never_stuck`).
-/

namespace AaSdk

/-! ## Every interleaving ends -/

/-- Statements a call runs at most, the deferred unlock and the return included. -/
def Call.cost {α : Type} : Call α → Nat
  | .next => 6
  | .add _ => 4
  | .count => 3

/-- Statements left in the call a goroutine at `pc` is making. -/
def Pc.left : Pc → Nat
  | .idle => 0
  | .nextHeld => 5
  | .nextLoad => 4
  | .nextStore _ => 3
  | .nextRead _ => 2
  | .nextRet _ => 1
  | .addHeld => 3
  | .addWrite _ => 2
  | .addRet => 1
  | .countHeld => 2
  | .countRet _ => 1

/-- Statements a goroutine has left: the rest of the call it is in, then its other calls. -/
def Goroutine.left (g : Goroutine) : Nat :=
  g.pc.left + ((if g.pc.holds then g.calls.tail else g.calls).map Call.cost).sum

def Shared.left (c : Shared) : Nat := (c.goroutines.map Goroutine.left).sum

theorem Goroutine.left_step {p p' : RoundRobinSignerProvider} {free noWriter : Bool}
    {g g' : Goroutine} (h : g.step p free noWriter = some (p', g')) : g'.left < g.left := by
  rcases g with ⟨calls, pc, returned⟩
  unfold Goroutine.step at h
  split at h <;> (try dsimp only at h) <;> (try split at h) <;>
    first
    | (obtain ⟨-, rfl⟩ := Prod.mk.inj (Option.some.inj h)
       simp_all [Goroutine.left, Pc.left, Pc.holds, Call.cost])
    | simp at h

theorem sum_map_set {l : List Goroutine} {i : Nat} {g : Goroutine} (f : Goroutine → Nat)
    (hg : l[i]? = some g) (g' : Goroutine) :
    ((l.set i g').map f).sum + f g = (l.map f).sum + f g' := by
  induction l generalizing i with
  | nil => cases hg
  | cons a l ih =>
    cases i with
    | zero =>
      rw [List.getElem?_cons_zero, Option.some.injEq] at hg
      subst hg
      simp only [List.set_cons_zero, List.map_cons, List.sum_cons]
      omega
    | succ i =>
      simp only [List.set_cons_succ, List.map_cons, List.sum_cons]
      have := ih (by rwa [List.getElem?_cons_succ] at hg)
      omega

theorem Shared.left_step {c c' : Shared} {i : Nat} (h : c.step i = some c') : c'.left < c.left := by
  unfold Shared.step at h
  split at h
  · cases h
  · next g hg =>
    obtain ⟨⟨p', g'⟩, hs, rfl⟩ := Option.map_eq_some'.mp h
    have := sum_map_set Goroutine.left hg g'
    have := Goroutine.left_step hs
    simp only [Shared.left]
    omega

theorem Shared.left_runSchedule {c c' : Shared} (sched : List Nat) (h : c.runSchedule sched = some c') :
    c'.left + sched.length ≤ c.left := by
  induction sched generalizing c with
  | nil => cases h; simp
  | cons i sched ih =>
    obtain ⟨c1, h1, h⟩ := Option.bind_eq_some.mp h
    have := ih h
    have := Shared.left_step h1
    simp only [List.length_cons]
    omega

theorem left_init (p0 : RoundRobinSignerProvider) (scripts : List (List (Call (Option PrivateKey)))) :
    (⟨p0, scripts.map fun calls => ⟨calls, .idle, []⟩⟩ : Shared).left =
      (scripts.flatten.map Call.cost).sum := by
  induction scripts with
  | nil => rfl
  | cons calls scripts ih =>
    simp only [Shared.left, List.map_map] at ih
    simp [Shared.left, Goroutine.left, Pc.left, Pc.holds, ih]

/-- However the goroutines take turns, a run stops within six statements per `Next`, four per
`Add` and three per `Count` of all their calls: no interleaving runs forever. -/
theorem rotator_schedules_end (p0 : RoundRobinSignerProvider)
    (scripts : List (List (Call (Option PrivateKey)))) (sched : List Nat) {c : Shared}
    (h : (⟨p0, scripts.map fun calls => ⟨calls, .idle, []⟩⟩ : Shared).runSchedule sched = some c) :
    sched.length ≤ (scripts.flatten.map Call.cost).sum := by
  have := Shared.left_runSchedule sched h
  rw [left_init] at this
  omega

theorem rotator_schedules_end_two_goroutines :
    (⟨newRoundRobinSignerProvider [some ⟨1⟩],
        [[.next], [.add (some ⟨2⟩)]].map fun calls => ⟨calls, .idle, []⟩⟩ : Shared).runSchedule
        [1, 1, 1, 1, 0, 0, 0, 0, 0, 0] = some twoGoroutinesRun ∧
      [1, 1, 1, 1, 0, 0, 0, 0, 0, 0].length ≤
        ([[Call.next], [.add (some (PrivateKey.mk 2))]].flatten.map Call.cost).sum :=
  ⟨rfl, rotator_schedules_end (newRoundRobinSignerProvider [some ⟨1⟩]) _ _ (c := twoGoroutinesRun) rfl⟩

/-! ## No interleaving gets stuck -/

theorem Pc.eq_idle_of_holds {pc : Pc} (h : pc.holds = false) : pc = .idle := by
  cases pc <;> first | rfl | cases h

theorem uint32_ofNat_ne_zero {n : Nat} (h0 : n ≠ 0) (hn : n < 2 ^ 32) : UInt32.ofNat n ≠ 0 :=
  fun h => h0 <| by
    have : (UInt32.ofNat n).toNat = n % 2 ^ 32 := rfl
    rw [h, Nat.mod_eq_of_lt hn] at this
    exact this.symm

theorem Shared.step_of {c : Shared} {i : Nat} {g : Goroutine}
    {r : RoundRobinSignerProvider × Goroutine} (hg : c.goroutines[i]? = some g)
    (h : g.step c.provider c.free c.noWriter = some r) : ∃ c', c.step i = some c' :=
  ⟨⟨r.1, c.goroutines.set i r.2⟩, by simp only [Shared.step, hg, h, Option.map_some']⟩

section Progress

variable {p : RoundRobinSignerProvider} {free noWriter : Bool} {g : Goroutine}

theorem Goroutine.step_of_idle (hpc : g.pc = .idle) (hc : g.calls ≠ []) (hfree : free = true)
    (hnw : noWriter = true) : ∃ r, g.step p free noWriter = some r := by
  rcases g with ⟨_ | ⟨_ | _ | _, calls⟩, pc, returned⟩
  · exact absurd rfl hc
  all_goals
    dsimp only at hpc
    subst hpc hfree hnw
    exact ⟨_, rfl⟩

theorem Goroutine.step_of_holds {s : RoundRobinSignerProvider} {call : Call (Option PrivateKey)}
    {rest : List (Call (Option PrivateKey))} (hh : g.pc.holds = true) (hc : g.calls = call :: rest)
    (hr : g.pc.runs call) (hp : Pending s p call g.pc) (hn : s.signers.length < 2 ^ 32)
    (hi : s.index.toNat < max s.signers.length 1) : ∃ r, g.step p free noWriter = some r := by
  rcases g with ⟨calls, pc, returned⟩
  dsimp only at hh hc hr hp
  subst hc
  cases pc
  case idle => cases hh
  case nextStore current =>
    obtain ⟨rfl, h0, rfl⟩ := hp
    simp [Goroutine.step, uint32_ofNat_ne_zero h0 hn]
  case nextRead current =>
    obtain ⟨h0, rfl, -, rfl⟩ := hp
    have hlt : s.index.toNat < s.signers.length := by omega
    simp [Goroutine.step, List.getElem?_eq_getElem hlt]
  case addWrite signers =>
    obtain ⟨signer, rfl⟩ := hr
    exact ⟨_, rfl⟩
  all_goals exact ⟨_, rfl⟩

end Progress

theorem Linearized.in_range {K0 : List (Option PrivateKey)}
    {scripts : List (List (Call (Option PrivateKey)))} {c : Shared} {log : Log}
    {s : RoundRobinSignerProvider} (hL : Linearized (newRoundRobinSignerProvider K0) c log s)
    (hS : Scripted scripts c) (hbound : K0.length + (addedKeys scripts.flatten).length < 2 ^ 32) :
    s.signers.length < 2 ^ 32 ∧ s.index.toNat < max s.signers.length 1 := by
  have hle := hL.added_le hS
  obtain ⟨q, hq, hk, hi⟩ := run_refines (new_refines_ofList K0) (log.map fun e => e.2.1)
    (by simp only [Rotor.ofList]; omega)
  rw [hL.run, Except.ok.injEq, Prod.mk.injEq] at hq
  obtain ⟨-, rfl⟩ := hq
  have hkeys := (Rotor.ofList K0).run_keys (log.map fun e => e.2.1)
  refine ⟨?_, hk ▸ hi ▸ ((Rotor.ofList K0).run (log.map fun e => e.2.1)).2.cursor_lt⟩
  rw [hk, hkeys, List.length_append]
  simp only [Rotor.ofList]
  omega

/-- From `NewRoundRobinSignerProvider(K0)` with fewer than `2^32` keys in all, however the
goroutines have taken turns, `p.mu` is not deadlocked and nothing has panicked: some goroutine can
run a statement, or every goroutine has made all its calls. -/
theorem rotator_interleavings_never_stuck (K0 : List (Option PrivateKey))
    (scripts : List (List (Call (Option PrivateKey))))
    (hbound : K0.length + (addedKeys scripts.flatten).length < 2 ^ 32) {c : Shared}
    (hc : Reachable (newRoundRobinSignerProvider K0) scripts c) :
    (∃ i c', c.step i = some c') ∨
      ∀ (i : Nat) (g : Goroutine), c.goroutines[i]? = some g →
        g.calls = [] ∧ scripts[i]? = some (g.returned.map Prod.fst) := by
  obtain ⟨log, s, hL⟩ := hc.linearized
  have hS := hc.scripted
  by_cases hdone : ∀ (i : Nat) (g : Goroutine), c.goroutines[i]? = some g → g.calls = []
  · refine .inr fun i g hg => ⟨hdone i g hg, ?_⟩
    simpa [hdone i g hg] using hS.2 i g hg
  refine .inl ?_
  by_cases hfree : c.free = true
  · -- no goroutine holds `p.mu`: one with a call to make takes it
    push_neg at hdone
    obtain ⟨i, g, hg, hcalls⟩ := hdone
    obtain ⟨r, hr⟩ := Goroutine.step_of_idle (Pc.eq_idle_of_holds (Shared.free_iff.mp hfree i g hg))
      hcalls hfree (Shared.noWriter_of_free hfree)
    exact ⟨i, Shared.step_of hg hr⟩
  · -- the goroutine holding it runs on
    obtain ⟨i, g, hg, hh⟩ : ∃ (i : Nat) (g : Goroutine), c.goroutines[i]? = some g ∧ g.pc.holds = true := by
      by_contra hno
      push_neg at hno
      exact hfree (Shared.free_iff.mpr fun i g hg => by simpa using hno i g hg)
    obtain ⟨call, rest, hcalls, hr, hp⟩ := hL.pending i g hg hh
    obtain ⟨hn, hi⟩ := hL.in_range hS hbound
    obtain ⟨r, hstep⟩ := Goroutine.step_of_holds hh hcalls hr hp hn hi
    exact ⟨i, Shared.step_of hg hstep⟩

theorem rotator_interleavings_never_stuck_two_goroutines :
    [some (PrivateKey.mk 1)].length +
        (addedKeys [[Call.next], [.add (some (PrivateKey.mk 2))]].flatten).length < 2 ^ 32 ∧
      ((∃ i c', twoGoroutinesRun.step i = some c') ∨
        ∀ (i : Nat) (g : Goroutine), twoGoroutinesRun.goroutines[i]? = some g →
          g.calls = [] ∧ [[Call.next], [.add (some (PrivateKey.mk 2))]][i]? =
            some (g.returned.map Prod.fst)) :=
  ⟨by decide, rotator_interleavings_never_stuck [some ⟨1⟩] [[.next], [.add (some ⟨2⟩)]] (by decide)
    (c := twoGoroutinesRun) (Reachable.init.runSchedule [1, 1, 1, 1, 0, 0, 0, 0, 0, 0] rfl)⟩

end AaSdk
