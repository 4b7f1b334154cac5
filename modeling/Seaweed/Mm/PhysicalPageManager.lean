import Seaweed.Library.FirstFit
import Seaweed.Libk.MemUtils

/-!
# The physical page manager (`kernel/mm/physicalPageManager.c`)

One bit per 4 KiB page, and a limit computed from the E820 map.  `physicalPageAlloc` hands out
the first run of clear bits below the limit and returns its address, or `0`.

* `initPMM` — builds the limit and marks the entries that are not of type 1.  The `memset` it
  starts with is made before the memory has been counted, so its length is the old limit.
* `physicalPageAlloc`, `physicalPageFree` — the allocator.
* **`physicalPageAlloc_cases`** — the two outcomes of an allocation, with nothing left out: every
  later result about the allocator is derived from it.
-/

namespace Seaweed

open FirstFit Words

def PAGESIZE : UInt64 := 0x1000

def ROUNDUP (a b : UInt64) : UInt64 := (a + (b - 1)) / b

/-- An entry of the E820 map. -/
structure MmapEntry where
  base : UInt64
  length : UInt64
  type : UInt32

/-- The globals of the page manager, with the lock of `physicalPageAlloc`. -/
structure Pmm where
  bitmap : Bitmap
  totalDetectedMemory : UInt64
  lock : Bool

/-- `totalDetectedMemory / PAGESIZE`: no page from here on is ever handed out. -/
def pageLimit (s : Pmm) : ℕ := (s.totalDetectedMemory / PAGESIZE).toNat

/-- `spinLock` returns once its `__atomic_test_and_set` has found the lock free. -/
def spinLock (_ : Bool) : Bool := true

def spinRelease (_ : Bool) : Bool := false

/-- Both bounds of the loop are quotients by `PAGESIZE`, so their sum does not wrap. -/
def allocateRegion (s : Pmm) (start length : UInt64) : Pmm :=
  { s with bitmap := setRange s.bitmap (start / PAGESIZE).toNat (length / PAGESIZE).toNat }

/-- The body of the loop over the E820 map. -/
def countEntry (s : Pmm) (entry : MmapEntry) : Pmm :=
  let s := { s with totalDetectedMemory := s.totalDetectedMemory + entry.length }
  if entry.type ≠ 1 then allocateRegion s entry.base entry.length else s

def initPMM (s : Pmm) (mmapEntries : List MmapEntry) : Pmm :=
  let s := { s with bitmap := memset s.bitmap 0 (s.totalDetectedMemory / PAGESIZE).toNat }
  let s := mmapEntries.foldl countEntry s
  allocateRegion s 0 (0x100000 + 0x20000)

def firstFreePage (s : Pmm) : ℤ :=
  firstIndex (fun i => !isset s.bitmap i) (pageLimit s)

def physicalPageAlloc (s : Pmm) (count : UInt64) : UInt64 × Pmm :=
  let s := { s with lock := spinLock s.lock }
  let base := UInt64.ofInt (firstFreePage s) * PAGESIZE
  let i := UInt64.ofInt (firstFreePage s)
  match scan PAGESIZE (isset s.bitmap) count (pageLimit s - i.toNat) i base 0 with
  | some base =>
      (base, { s with
        bitmap := setRange s.bitmap (base / PAGESIZE).toNat count.toNat
        lock := spinRelease s.lock })
  | none => (0, { s with lock := spinRelease s.lock })

def physicalPageFree (s : Pmm) (base count : UInt64) : Pmm :=
  let first := ROUNDUP base PAGESIZE
  { s with bitmap := clearRange s.bitmap first.toNat ((first + count).toNat - first.toNat) }

/-! ## The arithmetic of page numbers -/

theorem PAGESIZE_toNat : PAGESIZE.toNat = 4096 := rfl

theorem pageLimit_le (s : Pmm) : pageLimit s * 4096 ≤ s.totalDetectedMemory.toNat := by
  rw [pageLimit, UInt64.toNat_div, PAGESIZE_toNat]
  exact Nat.div_mul_le_self _ _

theorem pageLimit_lt (s : Pmm) : pageLimit s < 2 ^ 52 := by
  have := pageLimit_le s
  have := s.totalDetectedMemory.toNat_lt
  omega

/-- The address of a page below `2 ^ 52`. -/
theorem pageAddress_toNat {b : ℕ} (hb : b < 2 ^ 52) :
    (UInt64.ofNat b * PAGESIZE).toNat = b * 4096 := by
  rw [UInt64.toNat_mul, toNat_ofNat_of_lt (by omega), PAGESIZE_toNat,
    Nat.mod_eq_of_lt (by omega)]

theorem pageAddress_div {b : ℕ} (hb : b < 2 ^ 52) :
    (UInt64.ofNat b * PAGESIZE / PAGESIZE).toNat = b := by
  rw [UInt64.toNat_div, pageAddress_toNat hb, PAGESIZE_toNat, Nat.mul_div_cancel _ (by omega)]

theorem pageAddress_roundup {b : ℕ} (hb : b < 2 ^ 52) :
    (ROUNDUP (UInt64.ofNat b * PAGESIZE) PAGESIZE).toNat = b := by
  have hlast : (PAGESIZE - 1).toNat = 4095 := rfl
  rw [ROUNDUP, UInt64.toNat_div, UInt64.toNat_add, pageAddress_toNat hb, hlast, PAGESIZE_toNat,
    Nat.mod_eq_of_lt (by omega)]
  omega

/-! ## What an allocation can do -/

/-- The page `p` is clear in the bitmap. -/
def PageFree (s : Pmm) (p : ℕ) : Prop := isset s.bitmap p = false

/-- `firstFreePage` is where a first-fit search has to start: below it every page is taken. -/
theorem firstFreePage_cases (s : Pmm) :
    (∃ f : ℕ, firstFreePage s = (f : ℤ) ∧ f < pageLimit s ∧
      ∀ p, p < f → isset s.bitmap p = true) ∨
    (firstFreePage s = -1 ∧ ∀ p, p < pageLimit s → isset s.bitmap p = true) := by
  rcases firstIndex_cases (fun i => !isset s.bitmap i) (pageLimit s) with
    ⟨f, hf, hlt, _, hmin⟩ | ⟨hf, hnone⟩
  · exact Or.inl ⟨f, hf, hlt, fun p hp => by simpa using hmin p hp⟩
  · exact Or.inr ⟨hf, fun p hp => by simpa using hnone p hp⟩

/-- The search of `physicalPageAlloc` is first fit over the clear pages below the limit. -/
theorem pageSearch_answers (s : Pmm) {count : UInt64} (hcount : count ≠ 0) :
    Answers PAGESIZE (PageFree s) (pageLimit s) count.toNat
      (scan PAGESIZE (isset s.bitmap) count
        (pageLimit s - (UInt64.ofInt (firstFreePage s)).toNat)
        (UInt64.ofInt (firstFreePage s)) (UInt64.ofInt (firstFreePage s) * PAGESIZE) 0) := by
  have hlim := pageLimit_lt s
  rcases firstFreePage_cases s with ⟨f, hf, hlt, hbelow⟩ | ⟨hf, hfull⟩
  · rw [hf, ofInt_natCast, toNat_ofNat_of_lt (by omega)]
    exact scan_spec (by omega) hcount (le_of_lt hlt) hbelow
  · -- no clear page: the loop starts at `2 ^ 64 - 1` and makes no turn
    have hturns : pageLimit s - (UInt64.ofInt (-1)).toNat = 0 := by
      have : (UInt64.ofInt (-1)).toNat = 2 ^ 64 - 1 := rfl
      omega
    rw [hf, hturns, scan]
    intro b hfit
    have hpos : 0 < count.toNat := toNat_pos hcount
    have hcell : isset s.bitmap b = false := hfit.2 b (le_refl _) (by omega)
    rw [hfull b (by have := hfit.1; omega)] at hcell
    exact Bool.noConfusion hcell

/-- **The two outcomes of `physicalPageAlloc`.**  Either it marks the first fit and returns its
address, or nothing fits and it returns `0` with the bitmap untouched. -/
theorem physicalPageAlloc_cases (s : Pmm) (count : UInt64) :
    (∃ b, count ≠ 0 ∧ IsFirstFit (PageFree s) (pageLimit s) count.toNat b ∧
      physicalPageAlloc s count = (UInt64.ofNat b * PAGESIZE,
        { s with bitmap := setRange s.bitmap b count.toNat, lock := false })) ∨
    ((count ≠ 0 → ∀ b, ¬ Fits (PageFree s) (pageLimit s) count.toNat b) ∧
      physicalPageAlloc s count = (0, { s with lock := false })) := by
  by_cases hcount : count = 0
  · right
    refine ⟨fun h => absurd hcount h, ?_⟩
    have hlim := pageLimit_lt s
    have hnone := @scan_zero PAGESIZE (isset s.bitmap)
      (pageLimit s - (UInt64.ofInt (firstFreePage s)).toNat) 0 (UInt64.ofInt (firstFreePage s))
      (UInt64.ofInt (firstFreePage s) * PAGESIZE) (by omega)
    subst hcount
    simp only [physicalPageAlloc, firstFreePage, pageLimit, spinRelease] at hnone ⊢
    rw [show (0 : UInt64) = UInt64.ofNat 0 from rfl] at hnone ⊢
    rw [hnone]
  · have hans := pageSearch_answers s hcount
    simp only [physicalPageAlloc, firstFreePage, pageLimit, spinRelease] at hans ⊢
    split
    · rename_i base hbase
      rw [hbase] at hans
      obtain ⟨b, hfirst, rfl⟩ := hans
      refine Or.inl ⟨b, hcount, hfirst, ?_⟩
      have hlim := pageLimit_lt s
      have hlast : b + count.toNat ≤ pageLimit s := hfirst.1.1
      rw [pageAddress_div (by omega)]
    · rename_i hnone
      rw [hnone] at hans
      exact Or.inr ⟨fun _ => hans, rfl⟩

/-- An allocation for which there is room returns the first fit. -/
theorem physicalPageAlloc_firstFit {s : Pmm} {count : UInt64} {b : ℕ} (hcount : count ≠ 0)
    (hfirst : IsFirstFit (PageFree s) (pageLimit s) count.toNat b) :
    physicalPageAlloc s count = (UInt64.ofNat b * PAGESIZE,
      { s with bitmap := setRange s.bitmap b count.toNat, lock := false }) := by
  rcases physicalPageAlloc_cases s count with ⟨b', _, hfirst', heq⟩ | ⟨hnone, _⟩
  · rw [heq, hfirst.unique hfirst']
  · exact absurd hfirst.1 (hnone hcount b)

/-- The call returns the address of the first run of `count` clear pages below the limit and marks
just these pages; where there is none it returns `0` and marks nothing.  Either way it gives back
the lock. -/
structure AllocExact (s : Pmm) (count : UInt64) : Prop where
  found : ∀ p, IsFirstFit (PageFree s) (pageLimit s) count.toNat p →
    (physicalPageAlloc s count).1.toNat = p * 4096 ∧ (physicalPageAlloc s count).1 ≠ 0 ∧
    ∀ q, isset (physicalPageAlloc s count).2.bitmap q
      = (isset s.bitmap q || decide (p ≤ q ∧ q < p + count.toNat))
  fails : (∀ p, ¬ Fits (PageFree s) (pageLimit s) count.toNat p) →
    (physicalPageAlloc s count).1 = 0 ∧ (physicalPageAlloc s count).2.bitmap = s.bitmap
  released : (physicalPageAlloc s count).2.lock = false

/-- **`physicalPageAlloc` is first fit and complete**, as long as page 0 is taken: then `0` is not
the address of a run. -/
theorem physicalPageAlloc_exact {s : Pmm} {count : UInt64} (hpage0 : isset s.bitmap 0 = true)
    (hcount : count ≠ 0) : AllocExact s count := by
  have hpos := toNat_pos hcount
  have hlim := pageLimit_lt s
  constructor
  case found =>
    intro p hfirst
    have hlast := hfirst.1.1
    have haddr := pageAddress_toNat (show p < 2 ^ 52 by omega)
    rw [physicalPageAlloc_firstFit hcount hfirst]
    refine ⟨haddr, fun hzero : UInt64.ofNat p * PAGESIZE = 0 => ?_, fun q => isset_setRange ..⟩
    rw [hzero, UInt64.toNat_zero] at haddr
    obtain rfl : p = 0 := by omega
    have hclear : isset s.bitmap 0 = false := hfirst.1.2 0 le_rfl (by omega)
    rw [hpage0] at hclear
    exact Bool.noConfusion hclear
  case fails =>
    intro hnone
    rcases physicalPageAlloc_cases s count with ⟨p, _, hfirst, _⟩ | ⟨_, heq⟩
    · exact absurd hfirst.1 (hnone p)
    · rw [heq]
      exact ⟨rfl, rfl⟩
  case released =>
    rcases physicalPageAlloc_cases s count with ⟨p, _, _, heq⟩ | ⟨_, heq⟩
    · rw [heq]
    · rw [heq]

/-- Three pages of which the first is taken. -/
theorem physicalPageAlloc_exact_threePages :
    AllocExact ⟨fun i => if i = 0 then 1 else 0, 0x3000, false⟩ 2 :=
  physicalPageAlloc_exact (by decide) (by decide)

/-- The pages below `b` are taken, and those from `b` on are free. -/
def TakenBelow (s : Pmm) (b : ℕ) : Prop := ∀ p, isset s.bitmap p = decide (p < b)

/-- **As long as nothing is freed the pages are handed out in order.** -/
theorem physicalPageAlloc_takenBelow {s : Pmm} {b : ℕ} (h : TakenBelow s b) {count : UInt64}
    (hcount : count ≠ 0) (hroom : b + count.toNat ≤ pageLimit s) :
    (physicalPageAlloc s count).1 = UInt64.ofNat b * PAGESIZE ∧
      TakenBelow (physicalPageAlloc s count).2 (b + count.toNat) ∧
      pageLimit (physicalPageAlloc s count).2 = pageLimit s := by
  have hpos := toNat_pos hcount
  have hfree : ∀ p, PageFree s p ↔ b ≤ p := fun p => by simp [PageFree, h p]
  have hfirst : IsFirstFit (PageFree s) (pageLimit s) count.toNat b := by
    refine ⟨⟨hroom, fun p hp _ => (hfree p).mpr hp⟩, fun b' hlt hfit => ?_⟩
    have := (hfree b').mp (hfit.2 b' (le_refl _) (by omega))
    omega
  rw [physicalPageAlloc_firstFit hcount hfirst]
  refine ⟨rfl, fun p => ?_, rfl⟩
  rw [isset_setRange, h p, ← Bool.decide_or]
  exact decide_eq_decide.mpr (by omega)

end Seaweed
