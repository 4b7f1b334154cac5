import Seaweed.Mm.PageRuns

/-!
# What `initPMM` makes of an E820 map

`initPMM` adds up the lengths of all entries and marks the entries that are not of type 1, each
from the page its base lies in, for as many pages as fit in its length.  It marks nothing for what
no entry covers, and its limit is a sum of lengths, not a highest address.

* `isset_initPMM`, `pageLimit_initPMM` — the bitmap and the limit, in closed form.
* `OnlyRam`, `FreePagesAreRam` — a page of nothing but usable memory, and the maps whose free pages
  are all like that.
* **`handedOut_onlyRam_iff`** — only usable memory is handed out exactly on such maps.
-/

namespace Seaweed

open FirstFit Words Transition

namespace MmapEntry

/-- The pages that `initPMM` marks for an entry that is not of type 1. -/
def frames (entry : MmapEntry) : Extent :=
  ⟨(entry.base / PAGESIZE).toNat, (entry.length / PAGESIZE).toNat⟩

/-- The entry covers the byte at physical address `x`. -/
def Covers (entry : MmapEntry) (x : ℕ) : Prop :=
  entry.base.toNat ≤ x ∧ x < entry.base.toNat + entry.length.toNat

end MmapEntry

/-- The sum of the lengths, as `initPMM` computes it. -/
def totalLength (mmapEntries : List MmapEntry) : UInt64 :=
  mmapEntries.foldr (fun entry total => entry.length + total) 0

/-- An entry that is not of type 1 has page `p` among its pages. -/
def Reserved (mmapEntries : List MmapEntry) (p : ℕ) : Prop :=
  ∃ entry ∈ mmapEntries, entry.type ≠ 1 ∧ p ∈ entry.frames

/-- How many pages from address 0 on `initPMM` marks on every machine. -/
def lowPages : ℕ := 0x120

/-! ## The bitmap and the limit in closed form -/

variable {mmapEntries : List MmapEntry} {p : ℕ}

lemma isset_allocateRegion (s : Pmm) (start length : UInt64) (p : ℕ) :
    isset (allocateRegion s start length).bitmap p = (isset s.bitmap p ||
      decide (p ∈ (⟨(start / PAGESIZE).toNat, (length / PAGESIZE).toNat⟩ : Extent))) := by
  rw [allocateRegion, isset_setRange]
  rfl

lemma isset_countEntry (s : Pmm) (entry : MmapEntry) (p : ℕ) :
    isset (countEntry s entry).bitmap p = true ↔
      isset s.bitmap p = true ∨ (entry.type ≠ 1 ∧ p ∈ entry.frames) := by
  simp only [countEntry]
  split_ifs with htype
  · rw [isset_allocateRegion, Bool.or_eq_true, decide_eq_true_eq]
    simp only [htype, ne_eq, not_false_eq_true, true_and]
    rfl
  · simp [htype]

lemma totalDetectedMemory_countEntry (s : Pmm) (entry : MmapEntry) :
    (countEntry s entry).totalDetectedMemory = s.totalDetectedMemory + entry.length := by
  simp only [countEntry]
  split_ifs <;> rfl

lemma isset_countEntries (s : Pmm) (p : ℕ) :
    isset (mmapEntries.foldl countEntry s).bitmap p = true ↔
      isset s.bitmap p = true ∨ Reserved mmapEntries p := by
  induction mmapEntries generalizing s with
  | nil => simp [Reserved]
  | cons entry rest ih =>
      rw [List.foldl_cons, ih, isset_countEntry]
      simp only [Reserved, List.mem_cons, exists_eq_or_imp, or_assoc]

lemma totalDetectedMemory_countEntries (s : Pmm) :
    (mmapEntries.foldl countEntry s).totalDetectedMemory
      = s.totalDetectedMemory + totalLength mmapEntries := by
  induction mmapEntries generalizing s with
  | nil => simp [totalLength]
  | cons entry rest ih =>
      rw [List.foldl_cons, ih, totalDetectedMemory_countEntry, UInt64.add_assoc]
      simp [totalLength]

/-- **The bitmap after `initPMM`**, when the memory at its address holds `bits`: the bits that were
set there already, the low pages, and the whole pages of the reserved entries. -/
theorem isset_initPMM (bits : Bitmap) (lock : Bool) (mmapEntries : List MmapEntry) (p : ℕ) :
    isset (initPMM ⟨bits, 0, lock⟩ mmapEntries).bitmap p = true ↔
      isset bits p = true ∨ p < lowPages ∨ Reserved mmapEntries p := by
  have hlow : p ∈ (⟨((0 : UInt64) / PAGESIZE).toNat,
      ((0x100000 + 0x20000 : UInt64) / PAGESIZE).toNat⟩ : Extent) ↔ p < lowPages := by
    have hlen : ((0x100000 + 0x20000 : UInt64) / PAGESIZE).toNat = lowPages := rfl
    have hzero : ((0 : UInt64) / PAGESIZE).toNat = 0 := rfl
    simp only [Extent.mem_iff, hlen, hzero]
    omega
  have hmem : memset bits 0 ((0 : UInt64) / PAGESIZE).toNat = bits := by
    funext i
    exact if_neg (Nat.not_lt_zero i)
  simp only [initPMM]
  rw [isset_allocateRegion, Bool.or_eq_true, decide_eq_true_eq, hlow, isset_countEntries, hmem,
    or_assoc, or_comm (b := p < lowPages)]

/-- **The limit after `initPMM`.** -/
theorem pageLimit_initPMM (bits : Bitmap) (lock : Bool) (mmapEntries : List MmapEntry) :
    pageLimit (initPMM ⟨bits, 0, lock⟩ mmapEntries)
      = (totalLength mmapEntries / PAGESIZE).toNat := by
  simp only [pageLimit, initPMM, allocateRegion, totalDetectedMemory_countEntries,
    UInt64.zero_add]

/-- With a single entry of type 1, and clear memory to start with, the low pages are all that is
taken. -/
lemma takenBelow_initPMM (base length : UInt64) :
    TakenBelow (initPMM ⟨fun _ => 0, 0, false⟩ [⟨base, length, 1⟩]) lowPages := by
  intro p
  rw [Bool.eq_iff_iff, isset_initPMM, decide_eq_true_eq]
  simp [Reserved, isset]

/-! ## Only usable memory -/

/-- Every byte of page `p` is covered by an entry of type 1 and by no entry of another type. -/
def OnlyRam (mmapEntries : List MmapEntry) (p : ℕ) : Prop :=
  ∀ x, p * 4096 ≤ x → x < (p + 1) * 4096 →
    (∃ entry ∈ mmapEntries, entry.type = 1 ∧ entry.Covers x) ∧
    ∀ entry ∈ mmapEntries, entry.type ≠ 1 → ¬ entry.Covers x

/-- Every page below the sum of the lengths that is neither low nor a whole page of a reserved
entry, and whose bit was clear before, is usable memory throughout. -/
def FreePagesAreRam (bits : Bitmap) (mmapEntries : List MmapEntry) : Prop :=
  ∀ p, p < (totalLength mmapEntries / PAGESIZE).toNat → isset bits p = false → lowPages ≤ p →
    ¬ Reserved mmapEntries p → OnlyRam mmapEntries p

/-- The pages that some run of allocations hands out after `initPMM`. -/
lemma handedOut_initPMM (bits : Bitmap) (mmapEntries : List MmapEntry) (p : ℕ) :
    HandedOut (initPMM ⟨bits, 0, false⟩ mmapEntries) p ↔
      p < (totalLength mmapEntries / PAGESIZE).toNat ∧ isset bits p = false ∧ lowPages ≤ p ∧
        ¬ Reserved mmapEntries p := by
  have hpage0 : isset (initPMM ⟨bits, 0, false⟩ mmapEntries).bitmap 0 = true :=
    (isset_initPMM bits false mmapEntries 0).mpr (Or.inr (Or.inl (by decide)))
  rw [handedOut_iff hpage0, pageLimit_initPMM, PageFree, ← Bool.not_eq_true, isset_initPMM]
  simp only [not_or, Nat.not_lt, Bool.not_eq_true]

/-- **Only usable memory is handed out, exactly on the maps whose free pages are all usable.**
`bits` is what the memory at the bitmap's address holds before. -/
theorem handedOut_onlyRam_iff (bits : Bitmap) (mmapEntries : List MmapEntry) :
    (∀ (counts : List UInt64) (s : PageState),
      Run PageStep ⟨initPMM ⟨bits, 0, false⟩ mmapEntries, []⟩ (counts.map PageEvent.alloc) s →
      ∀ a ∈ s.outstanding, ∀ p ∈ a.pages, OnlyRam mmapEntries p) ↔
    FreePagesAreRam bits mmapEntries := by
  constructor
  · intro hruns p hlim hclear hlow hres
    obtain ⟨counts, s, hrun, a, ha, hp⟩ :=
      (handedOut_initPMM bits mmapEntries p).mpr ⟨hlim, hclear, hlow, hres⟩
    exact hruns counts s hrun a ha p hp
  · intro hmap counts s hrun a ha p hp
    obtain ⟨hlim, hclear, hlow, hres⟩ :=
      (handedOut_initPMM bits mmapEntries p).mp ⟨counts, s, hrun, a, ha, hp⟩
    exact hmap p hlim hclear hlow hres

/-- 32 MiB of memory in one piece. -/
def plainMap : List MmapEntry := [⟨0, 0x2000000, 1⟩]

/-- Two gibibytes of memory below the hole for devices, and two above 4 GiB. -/
def mapWithHole : List MmapEntry :=
  [⟨0, 0x9fc00, 1⟩, ⟨0x9fc00, 0x400, 2⟩, ⟨0xf0000, 0x10000, 2⟩, ⟨0x100000, 0x7ff00000, 1⟩,
    ⟨0xfffc0000, 0x40000, 2⟩, ⟨0x100000000, 0x80000000, 1⟩]

/-- With a hole in the map a page is handed out that no entry covers: the first one of the hole,
at 2 GiB. -/
theorem handedOut_hole : ∃ (counts : List UInt64) (s : PageState),
    Run PageStep ⟨initPMM ⟨fun _ => 0, 0, false⟩ mapWithHole, []⟩ (counts.map PageEvent.alloc) s ∧
    ∃ a ∈ s.outstanding, ∃ p ∈ a.pages, ¬ OnlyRam mapWithHole p := by
  have hpage : HandedOut (initPMM ⟨fun _ => 0, 0, false⟩ mapWithHole) 0x80000 := by
    refine (handedOut_initPMM _ _ _).mpr ⟨by decide, by decide, by decide, ?_⟩
    rintro ⟨entry, hentry, htype, hp⟩
    revert htype hp
    fin_cases hentry <;> decide
  obtain ⟨counts, s, hrun, a, ha, hp⟩ := hpage
  refine ⟨counts, s, hrun, a, ha, 0x80000, hp, fun hram => ?_⟩
  obtain ⟨⟨entry, hentry, htype, hcovers⟩, _⟩ := hram 0x80000000 (by decide) (by decide)
  revert htype hcovers
  rw [MmapEntry.Covers]
  fin_cases hentry <;> decide

end Seaweed
