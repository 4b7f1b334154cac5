import Mathlib.Tactic

/-!
# The last write wins

A loop with a counter, in which some of the turns write into a cell, and a write does not depend on
what was there.  In the end the cell holds what the last of these turns has written.

* `turns` — the loop.
* `Writes` — which turns write, and what.
* **`Writes.last`**, `Writes.untouched` — what the cell holds in the end.
* `last_or_none` — there is a last turn that writes, or none.
-/

namespace LastWrite

variable {σ β : Type}

/-- The loop `for(i = 0; i < m; i++)`. -/
def turns (step : ℕ → σ → σ) (m : ℕ) (s : σ) : σ := (List.range m).foldl (fun s i => step i s) s

lemma turns_succ (step : ℕ → σ → σ) (m : ℕ) (s : σ) :
    turns step (m + 1) s = step m (turns step m s) := by
  rw [turns, List.range_succ, List.foldl_append]
  rfl

/-- What all turns keep holds in the end. -/
lemma turns_keep {inv : σ → Prop} {step : ℕ → σ → σ} {m : ℕ} {s : σ}
    (hstep : ∀ i s, i < m → inv s → inv (step i s)) (h : inv s) : inv (turns step m s) := by
  induction m with
  | zero => exact h
  | succ m ih =>
      rw [turns_succ]
      exact hstep m _ (Nat.lt_succ_self m)
        (ih fun i s hi => hstep i s (hi.trans (Nat.lt_succ_self m)))

/-- In the states with `inv`, turn `i` puts `value i` into the cell if it hits it, and leaves it
alone otherwise. -/
structure Writes (inv : σ → Prop) (step : ℕ → σ → σ) (cell : σ → β) (hits : ℕ → Prop)
    (value : ℕ → β) :
    Prop where
  keeps : ∀ i s, inv s → inv (step i s)
  hit : ∀ i s, inv s → hits i → cell (step i s) = value i
  miss : ∀ i s, inv s → ¬hits i → cell (step i s) = cell s

variable {inv : σ → Prop} {step : ℕ → σ → σ} {cell : σ → β} {hits : ℕ → Prop} {value : ℕ → β}
  {m i : ℕ} {s : σ}

/-- A cell that no turn hits is left alone. -/
lemma Writes.untouched (h : Writes inv step cell hits value) (hs : inv s)
    (hnone : ∀ j, j < m → ¬hits j) :
    cell (turns step m s) = cell s := by
  induction m with
  | zero => rfl
  | succ m ih =>
      have hkept : inv (turns step m s) := turns_keep (fun i s _ => h.keeps i s) hs
      rw [turns_succ, h.miss m _ hkept (hnone m (Nat.lt_succ_self m))]
      exact ih fun j hj => hnone j (hj.trans (Nat.lt_succ_self m))

/-- **The cell holds what the last turn has written that hits it.** -/
theorem Writes.last (h : Writes inv step cell hits value) (hs : inv s) (hi : i < m) (hit : hits i)
    (hlater : ∀ j, i < j → j < m → ¬hits j) : cell (turns step m s) = value i := by
  induction m with
  | zero => exact absurd hi (Nat.not_lt_zero i)
  | succ m ih =>
      have hkept : inv (turns step m s) := turns_keep (fun i s _ => h.keeps i s) hs
      rw [turns_succ]
      rcases Nat.lt_succ_iff_lt_or_eq.mp hi with hlt | rfl
      · rw [h.miss m _ hkept (hlater m hlt (Nat.lt_succ_self m))]
        exact ih hlt fun j hij hj => hlater j hij (hj.trans (Nat.lt_succ_self m))
      · exact h.hit i _ hkept hit

/-- There is a last turn that hits the cell, or none. -/
lemma last_or_none (hits : ℕ → Prop) (m : ℕ) : (∀ j, j < m → ¬hits j) ∨
    ∃ i, i < m ∧ hits i ∧ ∀ j, i < j → j < m → ¬hits j := by
  induction m with
  | zero => exact Or.inl fun j hj => absurd hj (Nat.not_lt_zero j)
  | succ m ih =>
      by_cases hm : hits m
      · exact Or.inr ⟨m, Nat.lt_succ_self m, hm, fun j hmj hj => by omega⟩
      · rcases ih with hnone | ⟨i, hi, hit, hlater⟩
        · refine Or.inl fun j hj => ?_
          rcases Nat.lt_succ_iff_lt_or_eq.mp hj with hlt | rfl
          · exact hnone j hlt
          · exact hm
        · refine Or.inr ⟨i, hi.trans (Nat.lt_succ_self m), hit, fun j hij hj => ?_⟩
          rcases Nat.lt_succ_iff_lt_or_eq.mp hj with hlt | rfl
          · exact hlater j hij hlt
          · exact hm

end LastWrite
