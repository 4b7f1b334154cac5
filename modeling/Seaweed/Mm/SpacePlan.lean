import Seaweed.Mm.ReservedFrames
import Seaweed.Mm.SpaceMaps

/-!
# Which pages an address space gets

`createNewAddressSpace` asks for its tables one page at a time and for the pages it maps in one
piece.  Where they come from is decided by the bitmap before the call: the tables are the lowest
clear bits, and the piece is the first run that is long enough after that.

* `LowestPages`, `SpacePlan` — the tables and the piece, in terms of the bitmap.
* **`exists_plan`** — an address space whose allocations all succeed has a plan.
* `SpacePlan.physicalPageAlloc_eq` and `LowestPages.cons_alloc` — the allocator keeps to it.
-/

namespace Seaweed

open FirstFit Words Transition Memory

/-- The page manager after several single pages have been handed out. -/
def takePages : Pmm → List ℕ → Pmm
  | s, [] => s
  | s, p :: pages => takePages (takePage s p) pages

/-- Each page is the lowest free one when its turn comes. -/
def LowestPages : Pmm → List ℕ → Prop
  | _, [] => True
  | s, p :: pages => LowestFree s p ∧ LowestPages (takePage s p) pages

/-- The tables are the lowest free pages, and after them `b` is where `n` more pages fit first. -/
structure SpacePlan (s : Pmm) (tables : List ℕ) (n b : ℕ) : Prop where
  lowest : LowestPages s tables
  firstFit : IsFirstFit (PageFree (takePages s tables)) (pageLimit s) n b

variable {s : Pmm} {p q n b : ℕ} {pages tables : List ℕ} {count : UInt64}

@[simp] lemma pageLimit_takePage (s : Pmm) (p : ℕ) : pageLimit (takePage s p) = pageLimit s := rfl

@[simp] lemma pageLimit_takePages (s : Pmm) (pages : List ℕ) :
    pageLimit (takePages s pages) = pageLimit s := by
  induction pages generalizing s with
  | nil => rfl
  | cons p pages ih => rw [takePages, ih, pageLimit_takePage]

lemma isset_takePages (s : Pmm) (pages : List ℕ) (q : ℕ) :
    isset (takePages s pages).bitmap q = (isset s.bitmap q || decide (q ∈ pages)) := by
  induction pages generalizing s with
  | nil => simp [takePages]
  | cons p pages ih =>
      rw [takePages, ih, isset_takePage, Bool.or_assoc, ← Bool.decide_or]
      simp only [List.mem_cons]

/-! ## The order of the pages -/

/-- A page that is handed out was free. -/
lemma LowestPages.clear (h : LowestPages s pages) (hp : p ∈ pages) :
    isset s.bitmap p = false ∧ p < pageLimit s := by
  induction pages generalizing s with
  | nil => exact absurd hp List.not_mem_nil
  | cons q pages ih =>
      rcases List.mem_cons.mp hp with rfl | hp
      · exact ⟨h.1.2.1, h.1.1⟩
      · obtain ⟨hclear, hlim⟩ := ih h.2 hp
        rw [isset_takePage, Bool.or_eq_false_iff] at hclear
        exact ⟨hclear.1, hlim⟩

/-- First fit hands the pages out in ascending order. -/
lemma LowestPages.pairwise (h : LowestPages s pages) : pages.Pairwise (· < ·) := by
  induction pages generalizing s with
  | nil => exact List.Pairwise.nil
  | cons p pages ih =>
      exact List.Pairwise.cons (fun q hq => h.1.lt_of_taken (h.2.clear hq).1) (ih h.2)

/-- After that there is no free page below one of them. -/
lemma LowestPages.lt_of_clear (h : LowestPages s pages) (hp : p ∈ pages)
    (hq : isset (takePages s pages).bitmap q = false) : p < q := by
  induction pages generalizing s with
  | nil => exact absurd hp List.not_mem_nil
  | cons r pages ih =>
      rcases List.mem_cons.mp hp with rfl | hp
      · rw [takePages, isset_takePages, Bool.or_eq_false_iff] at hq
        exact h.1.lt_of_taken hq.1
      · exact ih h.2 hp hq

/-- The piece is after the tables, and below the limit. -/
lemma SpacePlan.lt (h : SpacePlan s tables n b) (hn : 0 < n) (hp : p ∈ tables) : p < b :=
  h.lowest.lt_of_clear hp (h.firstFit.1.2 b le_rfl (by omega))

lemma SpacePlan.last_lt (h : SpacePlan s tables n b) : b + n < 2 ^ 52 := by
  have hlast : b + n ≤ pageLimit s := h.firstFit.1.1
  have hlim := pageLimit_lt s
  omega

/-- The pages of the piece were free before the call. -/
lemma SpacePlan.clear (h : SpacePlan s tables n b) (hb : b ≤ p) (hp : p < b + n) :
    isset s.bitmap p = false := by
  have hclear : isset (takePages s tables).bitmap p = false := h.firstFit.1.2 p hb hp
  rw [isset_takePages, Bool.or_eq_false_iff] at hclear
  exact hclear.1

/-! ## The allocator -/

lemma LowestFree.physicalPageAlloc_eq (h : LowestFree s p) :
    physicalPageAlloc s 1 = (UInt64.ofNat p * PAGESIZE, takePage s p) := by
  have hone : (1 : UInt64).toNat = 1 := rfl
  obtain ⟨hlim, hclear, hbelow⟩ := h
  refine physicalPageAlloc_firstFit (by decide)
    ⟨⟨by omega, fun q hq hq' => ?_⟩, fun q hq hfit => ?_⟩
  · rwa [PageFree, show q = p by omega]
  · have hfree := hfit.2 q le_rfl (by omega)
    rw [PageFree, hbelow q hq] at hfree
    exact Bool.noConfusion hfree

/-- What is left of the page manager after the piece has been handed out. -/
def takeRun (s : Pmm) (b n : ℕ) : Pmm := { s with bitmap := setRange s.bitmap b n, lock := false }

lemma SpacePlan.physicalPageAlloc_eq (h : SpacePlan s tables count.toNat b) (hcount : count ≠ 0) :
    physicalPageAlloc (takePages s tables) count
      = (UInt64.ofNat b * PAGESIZE, takeRun (takePages s tables) b count.toNat) :=
  physicalPageAlloc_firstFit hcount (by rw [pageLimit_takePages]; exact h.firstFit)

/-- The tables of a plan, one call after the other. -/
lemma exists_lowestPages {counts : List UInt64} (k : ℕ)
    (h : AllSucceed s (List.replicate k 1 ++ counts)) :
    ∃ pages, pages.length = k ∧ LowestPages s pages ∧ AllSucceed (takePages s pages) counts := by
  induction k generalizing s with
  | zero => exact ⟨[], rfl, trivial, h⟩
  | succ k ih =>
      obtain ⟨⟨_, b, hfit⟩, hrest⟩ := h
      obtain ⟨p, _, hfirst⟩ := hfit.exists_first
      have hone : (1 : UInt64).toNat = 1 := rfl
      rw [hone] at hfirst
      have hlowest : LowestFree s p := by
        refine ⟨by have := hfirst.1.1; omega, hfirst.1.2 p le_rfl (by omega), fun q hq => ?_⟩
        by_contra hclear
        rw [Bool.not_eq_true] at hclear
        refine hfirst.2 q hq ⟨by have := hfirst.1.1; omega, fun r hr hr' => ?_⟩
        rwa [PageFree, show r = q by omega]
      rw [hlowest.physicalPageAlloc_eq] at hrest
      obtain ⟨pages, hlength, hpages, hcounts⟩ := ih hrest
      exact ⟨p :: pages, by rw [List.length_cons, hlength], ⟨hlowest, hpages⟩, hcounts⟩

/-- **An address space whose allocations all succeed has a plan.** -/
theorem exists_plan (k : ℕ) (h : AllSucceed s (List.replicate k 1 ++ [count])) :
    ∃ tables b, tables.length = k ∧ SpacePlan s tables count.toNat b := by
  obtain ⟨tables, hlength, htables, ⟨_, b, hfit⟩, _⟩ := exists_lowestPages k h
  obtain ⟨b₀, _, hfirst⟩ := hfit.exists_first
  exact ⟨tables, b₀, hlength, htables, by rwa [pageLimit_takePages] at hfirst⟩

end Seaweed
