import Seaweed.Mm.SpacePlan

/-!
# Pages that are handed out one by one

The calls of `physicalPageAlloc(1)` take the free pages in their order.

* `freePages`, `handedPage`, `afterPages` — the free pages, and what the calls make of them.
* **`physicalPageAlloc_afterPages`** — what a call returns.
* `isset_afterPages` — what a sequence of calls that runs out of memory has been given.
-/

namespace Seaweed

open FirstFit Words

/-- The free pages, in their order. -/
def freePages (s : Pmm) : List ℕ := (List.range (pageLimit s)).filter fun p => !isset s.bitmap p

/-- The page that call number `j` of `physicalPageAlloc(1)` returns: 0 when there is none left. -/
def handedPage (s : Pmm) (j : ℕ) : ℕ := (freePages s).getD j 0

def pageAddress (p : ℕ) : UInt64 := UInt64.ofNat p * PAGESIZE

variable {s : Pmm} {p j k : ℕ} {count : UInt64} {free : List ℕ}

lemma mem_freePages : p ∈ freePages s ↔ p < pageLimit s ∧ isset s.bitmap p = false := by
  rw [freePages, List.mem_filter, List.mem_range, Bool.not_eq_true']

lemma pairwise_freePages (s : Pmm) : (freePages s).Pairwise (· < ·) :=
  List.pairwise_lt_range.filter _

/-- The first of them is the lowest free page. -/
lemma lowestFree_of_cons (h : freePages s = p :: free) : LowestFree s p := by
  obtain ⟨hlim, hclear⟩ := mem_freePages.mp (h ▸ List.mem_cons_self)
  refine ⟨hlim, hclear, fun q hq => ?_⟩
  by_contra hfree
  have hmem : q ∈ freePages s := mem_freePages.mpr ⟨by omega, by simpa using hfree⟩
  have hsorted := h ▸ pairwise_freePages s
  rw [h] at hmem
  rcases List.mem_cons.mp hmem with rfl | hmem
  · omega
  · have hlt := (List.pairwise_cons.mp hsorted).1 q hmem
    omega

lemma freePages_takePage (h : freePages s = p :: free) :
    freePages (takePage s p) = free := by
  have hsorted := pairwise_freePages s
  rw [h, List.pairwise_cons] at hsorted
  have hrest : freePages (takePage s p) = (freePages s).filter fun q => q ≠ p := by
    rw [freePages, freePages, List.filter_filter, pageLimit_takePage]
    refine List.filter_congr fun q _ => ?_
    rw [isset_takePage, Bool.not_or, Bool.and_comm]
    simp
  rw [hrest, h, List.filter_cons_of_neg (by simp)]
  exact List.filter_eq_self.mpr fun q hq => by simpa using (hsorted.1 q hq).ne'

/-- Nothing is handed out when no page is free. -/
lemma physicalPageAlloc_full (h : freePages s = []) (count : UInt64) :
    physicalPageAlloc s count = (0, { s with lock := false }) := by
  rcases physicalPageAlloc_cases s count with ⟨b, hcount, ⟨hfit, -⟩, -⟩ | ⟨-, heq⟩
  · have hpos := toNat_pos hcount
    have hmem : b ∈ freePages s :=
      mem_freePages.mpr ⟨by have := hfit.1; omega, hfit.2 b (le_refl _) (by omega)⟩
    rw [h] at hmem
    exact absurd hmem List.not_mem_nil
  · exact heq

/-- **A single page.** -/
lemma physicalPageAlloc_next (s : Pmm) :
    (physicalPageAlloc s 1).1 = pageAddress (handedPage s 0) ∧
      freePages (physicalPageAlloc s 1).2 = (freePages s).tail ∧
      ∀ p, isset (physicalPageAlloc s 1).2.bitmap p =
        (isset s.bitmap p || decide (p ∈ (freePages s).take 1)) := by
  cases h : freePages s with
  | nil =>
      rw [physicalPageAlloc_full h, handedPage, h]
      exact ⟨rfl, h, fun p => by simp⟩
  | cons p free =>
      rw [(lowestFree_of_cons h).physicalPageAlloc_eq, handedPage, h]
      refine ⟨rfl, freePages_takePage h, fun q => ?_⟩
      rw [isset_takePage]
      simp

/-- The page manager after `k` calls. -/
def afterPages (s : Pmm) : ℕ → Pmm
  | 0 => s
  | k + 1 => (physicalPageAlloc (afterPages s k) 1).2

lemma afterPages_eq (s : Pmm) (k : ℕ) : freePages (afterPages s k) = (freePages s).drop k ∧
    ∀ p, isset (afterPages s k).bitmap p =
      (isset s.bitmap p || decide (p ∈ (freePages s).take k)) := by
  induction k with
  | zero => exact ⟨rfl, fun p => by simp [afterPages]⟩
  | succ k ih =>
      obtain ⟨hfree, hbits⟩ := ih
      obtain ⟨-, hnext, hbit⟩ := physicalPageAlloc_next (afterPages s k)
      refine ⟨by rw [afterPages, hnext, hfree, List.tail_drop], fun p => ?_⟩
      have htake : (freePages s).take (k + 1) =
          (freePages s).take k ++ ((freePages s).drop k).take 1 := List.take_add
      rw [afterPages, hbit, hbits, hfree, htake, Bool.or_assoc, ← Bool.decide_or]
      simp only [List.mem_append]

/-- Call number `k` returns the page `k`. -/
lemma physicalPageAlloc_afterPages (s : Pmm) (k : ℕ) :
    (physicalPageAlloc (afterPages s k) 1).1 = pageAddress (handedPage s k) := by
  rw [(physicalPageAlloc_next _).1, handedPage, (afterPages_eq s k).1, handedPage]
  congr 1
  simp [List.getD_eq_getElem?_getD]

/-- A call that returns 0 has taken nothing, if page 0 was taken. -/
lemma bitmap_of_zero (h0 : isset s.bitmap 0 = true)
    (h : (physicalPageAlloc s count).1 = 0) :
    (physicalPageAlloc s count).2.bitmap = s.bitmap := by
  rcases physicalPageAlloc_cases s count with ⟨b, hcount, ⟨hfit, -⟩, heq⟩ | ⟨-, heq⟩
  · have hpos := toNat_pos hcount
    have hlim := pageLimit_lt s
    have hb : b < 2 ^ 52 := by have := hfit.1; omega
    rw [heq] at h
    have hzero : b * 4096 = 0 := by
      rw [← pageAddress_toNat hb, show UInt64.ofNat b * PAGESIZE = 0 from h]
      rfl
    obtain rfl : b = 0 := by omega
    have hclear : isset s.bitmap 0 = false := hfit.2 0 (le_refl _) (by omega)
    rw [h0] at hclear
    cases hclear
  · rw [heq]

lemma handedPage_lt (s : Pmm) (j : ℕ) : handedPage s j < 2 ^ 52 := by
  have hlim := pageLimit_lt s
  rw [handedPage, List.getD_eq_getElem?_getD]
  rcases h : (freePages s)[j]? with _ | p
  · decide
  · have hmem := mem_freePages.mp (List.mem_of_getElem? h)
    exact hmem.1.trans hlim

/-- When there is a root, page 0 is taken. -/
lemma isset_zero (hroot : handedPage s 0 ≠ 0) : isset s.bitmap 0 = true := by
  rw [handedPage] at hroot
  cases h : freePages s with
  | nil => simp [h] at hroot
  | cons p free =>
      rw [h] at hroot
      exact (lowestFree_of_cons h).2.2 0 (Nat.pos_of_ne_zero hroot)

/-- A page that is handed out is not page 0, and it is free. -/
lemma handedPage_mem (h0 : isset s.bitmap 0 = true) :
    (j < (freePages s).length → handedPage s j ∈ freePages s ∧ handedPage s j ≠ 0) ∧
      ((freePages s).length ≤ j → handedPage s j = 0) := by
  rw [handedPage, List.getD_eq_getElem?_getD]
  constructor
  · intro hlen
    rw [List.getElem?_eq_getElem hlen, Option.getD_some]
    refine ⟨List.getElem_mem hlen, fun hzero => ?_⟩
    have hmem := mem_freePages.mp (List.getElem_mem hlen)
    rw [hzero, h0] at hmem
    exact Bool.noConfusion hmem.2
  · intro hlen
    rw [List.getElem?_eq_none hlen, Option.getD_none]

lemma handedPage_mem_take (hjk : j < k) (hlen : j < (freePages s).length) :
    handedPage s j ∈ (freePages s).take k := by
  have hget : ((freePages s).take k)[j]? = some (handedPage s j) := by
    rw [List.getElem?_take_of_lt hjk, handedPage, List.getD_eq_getElem?_getD,
      List.getElem?_eq_getElem hlen, Option.getD_some]
  exact List.mem_of_getElem? hget

/-- What a call that fails somewhere is given in the end is nothing. -/
lemma last_zero (hroot : handedPage s 0 ≠ 0)
    (h : (∃ j < k, pageAddress (handedPage s j) = 0) ∨
      (physicalPageAlloc (afterPages s k) count).1 = 0) :
    (physicalPageAlloc (afterPages s k) count).1 = 0 := by
  rcases h with ⟨j, hj, hzero⟩ | hzero
  · have hpage : handedPage s j = 0 := by
      have haddr := pageAddress_toNat (handedPage_lt s j)
      rw [show UInt64.ofNat (handedPage s j) * PAGESIZE = 0 from hzero] at haddr
      change 0 = _ at haddr
      omega
    have hlength : (freePages s).length ≤ j := by
      by_contra hlt
      exact ((handedPage_mem (isset_zero hroot)).1 (by omega)).2 hpage
    have hnone : freePages (afterPages s k) = [] := by
      rw [(afterPages_eq s k).1, List.drop_eq_nil_iff]
      omega
    rw [physicalPageAlloc_full hnone]
  · exact hzero

/-- So it is given the pages of its tables. -/
lemma isset_afterPages (hroot : handedPage s 0 ≠ 0)
    (hzero : (physicalPageAlloc (afterPages s k) count).1 = 0) (p : ℕ) :
    (isset s.bitmap p = false ∧
      isset (physicalPageAlloc (afterPages s k) count).2.bitmap p = true) ↔
      p ∈ (freePages s).take k := by
  obtain ⟨-, hbits⟩ := afterPages_eq s k
  have h0 : isset (afterPages s k).bitmap 0 = true := by
    rw [hbits, isset_zero hroot, Bool.true_or]
  rw [bitmap_of_zero h0 hzero, hbits]
  constructor
  · rintro ⟨hclear, hset⟩
    simpa [hclear] using hset
  · intro hmem
    exact ⟨(mem_freePages.mp (List.mem_of_mem_take hmem)).2, by simp [hmem]⟩

end Seaweed
