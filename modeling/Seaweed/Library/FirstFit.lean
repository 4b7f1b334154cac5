import Seaweed.Library.Words

/-!
# First fit

A row of cells, some of them free, and the question every allocator asks of it: where does the
first run of `n` free cells below a limit start?

* `Extent`, `Fits`, `IsFirstFit` — the question, and what an answer is.
* `scan` — the one-pass search.  It does not restart at every cell: it keeps a running `base`, in
  units of `unit`, and a count of free cells, and patches the base whenever it meets a busy cell.
  Its counters are 64-bit words and wrap.
* **`scan_spec`** — started at the first free cell, the search answers the question exactly: the
  wrap-around of `base` never shows.
* `stopIndex`, `firstIndex` — the search for the first index with a property; without one the
  first of them stops at the bound and the second answers `-1`.
-/

namespace FirstFit

open Words

/-- A run of `len` consecutive cells starting at `start`. -/
structure Extent where
  start : ℕ
  len : ℕ
  deriving DecidableEq

instance : Membership ℕ Extent := ⟨fun e p => e.start ≤ p ∧ p < e.start + e.len⟩

theorem Extent.mem_iff {e : Extent} {p : ℕ} : p ∈ e ↔ e.start ≤ p ∧ p < e.start + e.len := Iff.rfl

instance (p : ℕ) (e : Extent) : Decidable (p ∈ e) :=
  inferInstanceAs (Decidable (e.start ≤ p ∧ p < e.start + e.len))

/-- Two extents share no cell. -/
def Extent.Apart (e f : Extent) : Prop := ∀ p, p ∈ e → p ∉ f

theorem Extent.Apart.symm {e f : Extent} (h : e.Apart f) : f.Apart e := fun p hf he => h p he hf

/-- The `n` cells from `b` on are free and below the limit. -/
def Fits (free : ℕ → Prop) (limit n b : ℕ) : Prop :=
  b + n ≤ limit ∧ ∀ p, b ≤ p → p < b + n → free p

/-- `b` is the lowest place where `n` cells fit. -/
def IsFirstFit (free : ℕ → Prop) (limit n b : ℕ) : Prop :=
  Fits free limit n b ∧ ∀ b', b' < b → ¬ Fits free limit n b'

variable {free free' : ℕ → Prop} {limit n b b' : ℕ}

/-- A place is checked by looking at its `n` cells. -/
theorem fits_iff : Fits free limit n b ↔ b + n ≤ limit ∧ ∀ k, k < n → free (b + k) := by
  refine and_congr_right fun _ =>
    ⟨fun h k hk => h (b + k) (by omega) (by omega), fun h p hp hp' => ?_⟩
  have := h (p - b) (by omega)
  rwa [Nat.add_sub_cancel' hp] at this

instance [DecidablePred free] : Decidable (Fits free limit n b) := decidable_of_iff' _ fits_iff

instance [DecidablePred free] : Decidable (IsFirstFit free limit n b) :=
  inferInstanceAs (Decidable (_ ∧ _))

theorem IsFirstFit.unique (h : IsFirstFit free limit n b) (h' : IsFirstFit free limit n b') :
    b = b' := by
  rcases Nat.lt_trichotomy b b' with hlt | heq | hgt
  · exact absurd h.1 (h'.2 b hlt)
  · exact heq
  · exact absurd h'.1 (h.2 b' hgt)

/-- **The first place is not inside a run of free cells**, because the cells fit at its beginning
too. -/
theorem IsFirstFit.outside (h : IsFirstFit free limit n b) {e : Extent}
    (hfree : ∀ p, p ∈ e → free p) :
    b ≤ e.start ∨ e.start + e.len ≤ b := by
  by_contra hinside
  obtain ⟨hafter, hbefore⟩ := not_or.mp hinside
  have hlimit := h.1.1
  refine h.2 e.start (Nat.lt_of_not_le hafter) ⟨by omega, fun p hp hp' => ?_⟩
  rcases Nat.lt_or_ge p b with hlt | hge
  · exact hfree p ⟨hp, by omega⟩
  · exact h.1.2 p hge (by omega)

/-- Where `n` cells fit at all there is a first place. -/
theorem Fits.exists_first (h : Fits free limit n b) :
    ∃ b₀, b₀ ≤ b ∧ IsFirstFit free limit n b₀ := by
  classical
  have hex : ∃ b, Fits free limit n b := ⟨b, h⟩
  exact ⟨Nat.find hex, Nat.find_min' hex h, Nat.find_spec hex, fun b' hb' => Nat.find_min hex hb'⟩

/-- Which cells count as free matters only below the limit. -/
theorem Fits.congr (hfree : ∀ p, p < limit → (free p ↔ free' p)) :
    Fits free limit n b ↔ Fits free' limit n b := by
  refine and_congr_right fun hlim => ?_
  refine forall_congr' fun p => forall_congr' fun _ => forall_congr' fun hp => ?_
  exact hfree p (by omega)

theorem IsFirstFit.congr (hfree : ∀ p, p < limit → (free p ↔ free' p)) :
    IsFirstFit free limit n b ↔ IsFirstFit free' limit n b := by
  simp only [IsFirstFit, Fits.congr hfree]

/-! ## The scan -/

/-- The search loop: `turns` iterations remain, `i` is the cell looked at, `base` the candidate
in units of `unit` and `cnt` the number of free cells seen since the candidate. -/
def scan (unit : UInt64) (busy : ℕ → Bool) (count : UInt64) :
    (turns : ℕ) → (i base cnt : UInt64) → Option UInt64
  | 0, _, _, _ => none
  | turns + 1, i, base, cnt =>
      if busy i.toNat then scan unit busy count turns (i + 1) (base + (cnt + 1) * unit) 0
      else if cnt + 1 = count then some base
      else scan unit busy count turns (i + 1) base (cnt + 1)

/-- What a search for `n` cells has to answer: the first place, or nothing when there is none. -/
def Answers (unit : UInt64) (free : ℕ → Prop) (limit n : ℕ) : Option UInt64 → Prop
  | some base => ∃ b, IsFirstFit free limit n b ∧ base = UInt64.ofNat b * unit
  | none => ∀ b, ¬ Fits free limit n b

/-- The loop invariant of the search.  `b` is the candidate and `c` the number of free cells seen
from it on; everything below `b` has been ruled out and `b, …, b + c - 1` are free. -/
theorem scan_invariant {unit count : UInt64} {busy : ℕ → Bool} (hlim : limit < 2 ^ 64)
    (turns b c : ℕ) (hturns : b + c + turns = limit) (hc : c < count.toNat)
    (hfree : ∀ p, b ≤ p → p < b + c → busy p = false)
    (hbelow : ∀ b', b' < b → ¬ Fits (busy · = false) limit count.toNat b') :
    Answers unit (busy · = false) limit count.toNat (scan unit busy count turns
      (UInt64.ofNat (b + c)) (UInt64.ofNat b * unit) (UInt64.ofNat c)) := by
  induction turns generalizing b c with
  | zero =>
      intro b' hfit
      rcases Nat.lt_or_ge b' b with hlt | hge
      · exact hbelow b' hlt hfit
      · have := hfit.1
        omega
  | succ turns ih =>
      have hi : (UInt64.ofNat (b + c)).toNat = b + c := toNat_ofNat_of_lt (by omega)
      have hcount := count.toNat_lt
      rw [scan, hi]
      split_ifs with hbusy hlast
      · -- a busy cell: every candidate up to it is ruled out
        have hrule : ∀ b', b' < b + c + 1 → ¬ Fits (busy · = false) limit count.toNat b' := by
          intro b' hlt hfit
          rcases Nat.lt_or_ge b' b with hb' | hb'
          · exact hbelow b' hb' hfit
          · have hcell : busy (b + c) = false := hfit.2 (b + c) (by omega) (by omega)
            rw [hbusy] at hcell
            exact Bool.noConfusion hcell
        have hbase : UInt64.ofNat b * unit + (UInt64.ofNat c + 1) * unit
            = UInt64.ofNat (b + c + 1) * unit := by
          rw [UInt64.ofNat_add, UInt64.ofNat_add, UInt64.add_mul, UInt64.add_mul, UInt64.add_mul,
            UInt64.add_assoc]
          rfl
        rw [hbase, ofNat_succ]
        exact ih (b + c + 1) 0 (by omega) (by omega)
          (fun p hp hp' => by omega) hrule
      · -- the `count`-th free cell: the candidate is the answer
        have hn : c + 1 = count.toNat := by
          rw [← hlast, ofNat_succ, toNat_ofNat_of_lt (by omega)]
        refine ⟨b, ⟨⟨by omega, fun p hp hp' => ?_⟩, hbelow⟩, rfl⟩
        rcases Nat.lt_or_ge p (b + c) with hlt | hge
        · exact hfree p hp hlt
        · have : p = b + c := by omega
          rw [this]
          exact Bool.eq_false_of_not_eq_true hbusy
      · -- a free cell, and more are needed
        have hn : c + 1 ≠ count.toNat := by
          intro h
          apply hlast
          rw [ofNat_succ, h, UInt64.ofNat_toNat]
        rw [ofNat_succ, ofNat_succ, Nat.add_assoc]
        refine ih b (c + 1) (by omega) (by omega) (fun p hp hp' => ?_) hbelow
        rcases Nat.lt_or_ge p (b + c) with hlt | hge
        · exact hfree p hp hlt
        · have : p = b + c := by omega
          rw [this]
          exact Bool.eq_false_of_not_eq_true hbusy

/-- **The search is first fit.**  Started at a cell below which everything is busy, it answers
with the first place for `count` cells, and with nothing exactly when there is none. -/
theorem scan_spec {unit count : UInt64} {busy : ℕ → Bool} (hlim : limit < 2 ^ 64)
    (hcount : count ≠ 0) {first : ℕ} (hfirst : first ≤ limit)
    (hbelow : ∀ p, p < first → busy p = true) :
    Answers unit (busy · = false) limit count.toNat
      (scan unit busy count (limit - first) (UInt64.ofNat first)
        (UInt64.ofNat first * unit) 0) := by
  refine scan_invariant hlim (limit - first) first 0 (by omega) (toNat_pos hcount)
    (fun p hp hp' => by omega) ?_
  intro b' hlt hfit
  have hcell : busy b' = false :=
    hfit.2 b' (le_refl _) (Nat.lt_add_of_pos_right (toNat_pos hcount))
  rw [hbelow b' hlt] at hcell
  exact Bool.noConfusion hcell

/-- A search for no cells at all never succeeds: the count of free cells is never zero again. -/
theorem scan_zero {unit : UInt64} {busy : ℕ → Bool} (turns c : ℕ) (i base : UInt64)
    (hc : c + turns < 2 ^ 64) : scan unit busy 0 turns i base (UInt64.ofNat c) = none := by
  induction turns generalizing c i base with
  | zero => rfl
  | succ turns ih =>
      have hne : UInt64.ofNat (c + 1) ≠ 0 := by
        intro h
        have := congrArg UInt64.toNat h
        rw [toNat_ofNat_of_lt (by omega), UInt64.toNat_zero] at this
        omega
      rw [scan, ofNat_succ, if_neg hne, ih (c + 1) _ _ (by omega)]
      split_ifs
      · exact ih 0 _ _ (by omega)
      · rfl

/-- A row without a free cell is searched in vain, whatever the counters say. -/
theorem scan_busy {unit count : UInt64} {busy : ℕ → Bool} (turns first : ℕ) (base cnt : UInt64)
    (hlim : first + turns < 2 ^ 64) (hbusy : ∀ p, first ≤ p → p < first + turns → busy p = true) :
    scan unit busy count turns (UInt64.ofNat first) base cnt = none := by
  induction turns generalizing first base cnt with
  | zero => rfl
  | succ turns ih =>
      rw [scan, toNat_ofNat_of_lt (by omega), if_pos (hbusy first le_rfl (by omega)), ofNat_succ]
      exact ih (first + 1) _ _ (by omega) fun p hp hp' => hbusy p (by omega) (by omega)

/-! ## The first index with a property -/

/-- Where the loop `for(i = 0; i < n; i++) if(p(i)) break;` stops: at the first index with the
property, or at `n`. -/
def stopIndex (p : ℕ → Bool) (n : ℕ) : ℕ := ((List.range' 0 n).find? p).getD n

/-- The loop `for(i = 0; i < n; i++) if(p(i)) return i; return -1;`. -/
def firstIndex (p : ℕ → Bool) (n : ℕ) : ℤ := if stopIndex p n < n then stopIndex p n else -1

variable {p : ℕ → Bool} {n i : ℕ}

/-- **The two outcomes of the loop.** -/
theorem stopIndex_cases (p : ℕ → Bool) (n : ℕ) :
    (stopIndex p n < n ∧ p (stopIndex p n) = true ∧ ∀ j, j < stopIndex p n → p j = false) ∨
    (stopIndex p n = n ∧ ∀ j, j < n → p j = false) := by
  unfold stopIndex
  rcases h : (List.range' 0 n).find? p with _ | i
  · right
    refine ⟨rfl, fun j hj => ?_⟩
    have := List.find?_eq_none.mp h j (by simp [List.mem_range'_1, hj])
    exact Bool.eq_false_of_not_eq_true this
  · left
    obtain ⟨hp, hmem, hmin⟩ := List.find?_range'_eq_some.mp h
    refine ⟨by simpa [List.mem_range'_1] using hmem, hp, fun j hj => ?_⟩
    simpa using hmin j (Nat.zero_le _) hj

/-- The loop stops no later than at an index with the property. -/
theorem stopIndex_le (hi : i < n) (hp : p i = true) :
    stopIndex p n ≤ i ∧ p (stopIndex p n) = true := by
  rcases stopIndex_cases p n with ⟨_, hstop, hfirst⟩ | ⟨_, hnone⟩
  · refine ⟨Nat.le_of_not_lt fun hgt => ?_, hstop⟩
    rw [hfirst i hgt] at hp; exact Bool.noConfusion hp
  · rw [hnone i hi] at hp; exact Bool.noConfusion hp

theorem firstIndex_cases (p : ℕ → Bool) (n : ℕ) :
    (∃ i : ℕ, firstIndex p n = (i : ℤ) ∧ i < n ∧ p i = true ∧ ∀ j, j < i → p j = false) ∨
    (firstIndex p n = -1 ∧ ∀ j, j < n → p j = false) := by
  rcases stopIndex_cases p n with ⟨hlt, hstop, hfirst⟩ | ⟨heq, hnone⟩
  · exact Or.inl ⟨stopIndex p n, if_pos hlt, hlt, hstop, hfirst⟩
  · exact Or.inr ⟨if_neg (by omega), hnone⟩

end FirstFit
