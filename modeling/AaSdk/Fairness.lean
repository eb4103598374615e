import AaSdk.Rotator
import Mathlib.Data.List.Nodup
import Mathlib.Data.Nat.ModEq

/-! # No key is skipped

The positions the `Next` calls of a run serve. From cursor `c` they go up
`c, c + 1, …` to the key count of the time, however many keys are added
meanwhile, then start again at zero; so before a position comes round again,
every other position of the time is served once, and each `Next` returns the
key at the position it serves. This is proved of the rotor, and carried over to
the provider by the refinement.
-/

namespace AaSdk

/-- The keys the `Next` calls of a run returned, in order. -/
def servedKeys {α : Type} : List (Reply α) → List α
  | [] => []
  | .next k :: replies => k :: servedKeys replies
  | _ :: replies => servedKeys replies

theorem servedKeys_map {α β : Type} (f : α → β) (replies : List (Reply α)) :
    servedKeys (replies.map (Reply.map f)) = (servedKeys replies).map f := by
  induction replies with
  | nil => rfl
  | cons reply replies ih => cases reply <;> simp [servedKeys, Reply.map, ih]

namespace Rotor

variable {α : Type}

/-- The position each `Next` of a run serves, in order; a `Next` with no keys serves none. -/
def positions (r : Rotor α) : List (Call α) → List Nat
  | [] => []
  | .next :: calls => (if r.keys.length = 0 then [] else [r.cursor]) ++ r.next.2.positions calls
  | .add k :: calls => (r.add k).positions calls
  | .count :: calls => r.positions calls

theorem positions_next (r : Rotor α) (h : r.keys.length ≠ 0) (calls : List (Call α)) :
    r.positions (.next :: calls) = r.cursor :: r.next.2.positions calls := by
  simp [positions, h]

theorem servedKeys_run (r : Rotor α) (calls : List (Call α)) (h : r.keys.length ≠ 0) :
    servedKeys (r.run calls).1 = (r.positions calls).map fun q => (r.keys ++ addedKeys calls)[q]? := by
  induction calls generalizing r with
  | nil => rfl
  | cons call calls ih =>
    cases call with
    | next =>
      have hc : r.cursor < r.keys.length := by have := r.cursor_lt; omega
      have ih' := ih r.next.2 (by rwa [r.next_keys])
      rw [r.next_keys] at ih'
      simp only [run, servedKeys, r.positions_next h, List.map_cons, addedKeys, r.next_fst,
        List.getElem?_append_left hc, ih']
    | add k =>
      have ih' := ih (r.add k) (by simp)
      simp only [add_keys, List.append_assoc, List.singleton_append] at ih'
      simpa only [run, servedKeys, positions, addedKeys] using ih'
    | count => simpa only [run, servedKeys, positions, addedKeys] using ih r h

/-- What is served from cursor `c` before `q`: up from `c` to `q`, or, when `q` is behind the
cursor, up from `c` to the key count `w` of the time, then up from zero to `q`. -/
def servedBefore (c q w : Nat) : List Nat :=
  if c ≤ q then List.range' c (q - c) else List.range' c (w - c) ++ List.range q

theorem servedBefore_of_lt {c q : Nat} (w : Nat) (h : c < q) :
    c :: servedBefore (c + 1) q w = servedBefore c q w := by
  rw [servedBefore, servedBefore, if_pos (Nat.succ_le_of_lt h), if_pos h.le, ← List.range'_succ]
  congr 1; omega

theorem servedBefore_of_gt {c q w : Nat} (h : q < c) (hw : c < w) :
    c :: servedBefore (c + 1) q w = servedBefore c q w := by
  rw [servedBefore, servedBefore, if_neg (by omega), if_neg (by omega), ← List.cons_append,
    ← List.range'_succ]
  congr 2; omega

theorem servedBefore_wrap {c q : Nat} (w : Nat) (h : q < c) :
    c :: servedBefore 0 q w = servedBefore c q (c + 1) := by
  simp [servedBefore, if_neg (show ¬c ≤ q by omega), List.range_eq_range']

theorem positions_take_prefix (r : Rotor α) (calls : List (Call α)) {k : Nat}
    (h : r.keys.length ≠ 0) (hk : k ≤ r.keys.length - r.cursor) :
    (r.positions calls).take k <+: List.range' r.cursor k := by
  induction calls generalizing r k with
  | nil => simp [positions]
  | cons call calls ih =>
    cases call with
    | next =>
      rw [r.positions_next h]
      cases k with
      | zero => simp
      | succ k =>
        rw [List.take_succ_cons, List.range'_succ, List.prefix_cons_inj]
        by_cases hw : r.cursor + 1 < r.keys.length
        · have hc : r.next.2.cursor = r.cursor + 1 := by rw [r.next_cursor h, Nat.mod_eq_of_lt hw]
          exact hc ▸ ih r.next.2 (by rwa [r.next_keys]) (by rw [r.next_keys, hc]; omega)
        · obtain rfl : k = 0 := by omega
          simp
    | add k' => exact ih (r.add k') (by simp) (by simp; omega)
    | count => exact ih r h hk

theorem positions_take_first (r : Rotor α) (calls : List (Call α)) {q j : Nat}
    (h : r.keys.length ≠ 0) (hq : q < r.keys.length) (hj : (r.positions calls)[j]? = some q)
    (hfirst : q ∉ (r.positions calls).take j) :
    ∃ w, r.keys.length ≤ w ∧ (r.positions calls).take j = servedBefore r.cursor q w := by
  induction calls generalizing r j with
  | nil => simp [positions] at hj
  | cons call calls ih =>
    cases call with
    | next =>
      rw [r.positions_next h] at hj hfirst ⊢
      have hc := r.cursor_lt
      cases j with
      | zero =>
        obtain rfl : r.cursor = q := by simpa using hj
        exact ⟨r.keys.length, le_rfl, by simp [servedBefore]⟩
      | succ j =>
        rw [List.getElem?_cons_succ] at hj
        rw [List.take_succ_cons, List.mem_cons, not_or] at hfirst
        obtain ⟨w, hw, htake⟩ := ih r.next.2 (by rwa [r.next_keys]) (by rwa [r.next_keys]) hj
          hfirst.2
        rw [r.next_keys] at hw
        rw [List.take_succ_cons, htake, r.next_cursor h]
        by_cases hlt : r.cursor + 1 < r.keys.length
        · rw [Nat.mod_eq_of_lt hlt]
          rcases Nat.lt_or_gt_of_ne hfirst.1 with hqc | hqc
          · exact ⟨w, hw, servedBefore_of_gt hqc (by omega)⟩
          · exact ⟨w, hw, servedBefore_of_lt w hqc⟩
        · have hL : r.cursor + 1 = r.keys.length := by omega
          rw [hL, Nat.mod_self]
          exact ⟨r.keys.length, le_rfl, hL ▸ servedBefore_wrap w (by omega)⟩
    | add k =>
      obtain ⟨w, hw, htake⟩ := ih (r.add k) (by simp) (by simp; omega) hj hfirst
      exact ⟨w, by simp at hw; omega, htake⟩
    | count => exact ih r h hq hj hfirst

theorem count_servedBefore_succ {c q w : Nat} (hq : q < w) (hqc : q ≠ c) :
    (servedBefore (c + 1) c w).count q = 1 := by
  rw [servedBefore, if_neg (by omega)]
  refine List.count_eq_one_of_mem
    (List.nodup_append.mpr ⟨List.nodup_range' _ _, List.nodup_range _, fun x hx hx' => ?_⟩) ?_
  · simp only [List.mem_range'_1, List.mem_range] at hx hx'; omega
  · simp only [List.mem_append, List.mem_range'_1, List.mem_range]; omega

theorem served_once_between (r : Rotor α) (calls : List (Call α)) {j q : Nat}
    (h : r.keys.length ≠ 0) (hj : (r.next.2.positions calls)[j]? = some r.cursor)
    (hfirst : r.cursor ∉ (r.next.2.positions calls).take j) (hq : q < r.keys.length)
    (hqc : q ≠ r.cursor) :
    ((r.next.2.positions calls).take j).count q = 1 := by
  have hc := r.cursor_lt
  obtain ⟨w, hw, htake⟩ := positions_take_first r.next.2 calls (by rwa [r.next_keys])
    (by rw [r.next_keys]; omega) hj hfirst
  rw [r.next_keys] at hw
  rw [htake, r.next_cursor h]
  by_cases hlt : r.cursor + 1 < r.keys.length
  · rw [Nat.mod_eq_of_lt hlt]
    exact count_servedBefore_succ (by omega) hqc
  · rw [show r.cursor + 1 = r.keys.length by omega, Nat.mod_self, servedBefore, if_pos (by omega)]
    exact List.count_eq_one_of_mem (List.nodup_range' _ _) (by simp only [List.mem_range'_1]; omega)

theorem served_within (r : Rotor α) (calls : List (Call α)) {q : Nat} (hcq : r.cursor ≤ q)
    (hq : q < r.keys.length) (hlen : q - r.cursor + 1 ≤ (r.positions calls).length) :
    q ∈ (r.positions calls).take (q - r.cursor + 1) := by
  have hp := positions_take_prefix r calls (k := q - r.cursor + 1) (by omega) (by omega)
  rw [hp.eq_of_length (by simp only [List.length_take, List.length_range']; omega),
    List.mem_range'_1]
  omega

theorem addedKeys_replicate_next (n : Nat) : addedKeys (List.replicate n (Call.next : Call α)) = [] := by
  induction n with
  | zero => rfl
  | succ n ih => exact ih

theorem positions_replicate (r : Rotor α) (n : Nat) (h : r.keys.length ≠ 0) :
    r.positions (List.replicate n .next) =
      (List.range n).map fun i => (r.cursor + i) % r.keys.length := by
  induction n generalizing r with
  | zero => rfl
  | succ n ih =>
    have hc := r.cursor_lt
    rw [List.replicate_succ, r.positions_next h, ih r.next.2 (by rwa [r.next_keys]),
      List.range_succ_eq_map, List.map_cons, List.map_map, r.next_keys, r.next_cursor h]
    congr 1
    · exact (Nat.mod_eq_of_lt (by omega)).symm
    · refine List.map_congr_left fun i _ => ?_
      simp only [Function.comp, Nat.mod_add_mod, Nat.succ_eq_add_one]
      congr 1; omega

theorem rotation_perm_range (c n : Nat) :
    ((List.range n).map fun i => (c + i) % n).Perm (List.range n) := by
  refine (List.subperm_of_subset (List.Nodup.map_on ?_ (List.nodup_range n)) ?_).perm_of_length_le
    (by simp)
  · intro x hx y hy hxy
    rw [List.mem_range] at hx hy
    have := Nat.ModEq.add_left_cancel' c hxy
    rwa [Nat.ModEq, Nat.mod_eq_of_lt hx, Nat.mod_eq_of_lt hy] at this
  · intro x hx
    obtain ⟨i, hi, rfl⟩ := List.mem_map.mp hx
    exact List.mem_range.mpr (Nat.mod_lt _ (by rw [List.mem_range] at hi; omega))

end Rotor

/-! ## The positions the provider serves -/

namespace RoundRobinSignerProvider

/-- The cursor each `Next` of a run reads, in order; a `Next` with no keys reads none, and a
panic ends the run. -/
def positions (p : RoundRobinSignerProvider) : List (Call (Option PrivateKey)) → List Nat
  | [] => []
  | .next :: calls =>
    match p.next with
    | .ok s => (if p.signers.length = 0 then [] else [p.index.toNat]) ++ s.2.positions calls
    | .error _ => []
  | .add signer :: calls => (p.add signer).positions calls
  | .count :: calls => p.positions calls

end RoundRobinSignerProvider

theorem positions_refines {p : RoundRobinSignerProvider} {r : Rotor (Option PrivateKey)}
    (hr : Refines p r) (calls : List (Call (Option PrivateKey)))
    (hn : r.keys.length + (addedKeys calls).length < 2 ^ 32) :
    p.positions calls = r.positions calls := by
  induction calls generalizing p r with
  | nil => rfl
  | cons call calls ih =>
    cases call with
    | next =>
      obtain ⟨q, hq, hrq⟩ := next_refines hr (by omega)
      simp only [RoundRobinSignerProvider.positions, Rotor.positions, hq, hr.1, hr.2]
      rw [ih hrq (by simpa [addedKeys] using hn)]
    | add k => exact ih (add_refines hr k) (by simp [addedKeys] at hn ⊢; omega)
    | count => exact ih hr (by simpa [addedKeys] using hn)

end AaSdk
