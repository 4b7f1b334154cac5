import Seaweed.Library.SearchReads
import Seaweed.Mm.HeapRuns

/-!
# What the heap touches

The places in the two tables of the heap that a call reads or writes.  `kmalloc` starts its search
at `firstFreeSlot`, a signed number; on a full heap that is `-1`, and the first bit it looks at is
bit `2 ^ 64 - 1`.

* `kmallocAccesses`, `kfreeAccesses` — the places, in the order of the code.
* `kmalloc_untouched`, `kmalloc_congr`, and the same for `kfree` — these are all of them.
* `kmalloc_none_iff` — when `kmalloc` returns `NULL`, on any heap.
* **`kmalloc_search_iff`** — the search stays inside the bitmap and is first fit exactly if some
  block is free.
-/

namespace Seaweed

open FirstFit Words Transition

/-- A bit of `kbitmap` or an entry of `allocationBitmap`. -/
inductive HeapPlace
  | bit (i : ℕ)
  | entry (i : ℕ)
  deriving DecidableEq

/-- Two heaps agree at a place. -/
def SameAt (h h' : Heap) : HeapPlace → Prop
  | .bit i => isset h.kbitmap i = isset h'.kbitmap i
  | .entry i => h.allocationBitmap i = h'.allocationBitmap i

def firstFreeSlotReads (h : Heap) : List HeapPlace :=
  (stopReads (fun i => !isset h.kbitmap i) kbitmapSize).map .bit

def firstFreeAllocationSlotReads (h : Heap) : List HeapPlace :=
  (stopReads (fun i => (h.allocationBitmap i).size == 0) allocationBitmapSize).map .entry

/-- Where the search of `kmalloc` finds the blocks, as an offset in the heap. -/
def blockSearch (h : Heap) (size : UInt64) : Option UInt64 :=
  scan BLOCKSIZE (isset h.kbitmap) (ROUNDUP size 32) (kbitmapSize - firstFreeSlot h).toNat
    (UInt64.ofInt (firstFreeSlot h)) (UInt64.ofInt (firstFreeSlot h) * BLOCKSIZE) 0

def kmallocAccesses (h : Heap) (size : UInt64) : List HeapPlace :=
  let blockCount := ROUNDUP size 32
  let i := firstFreeSlot h
  firstFreeSlotReads h ++ firstFreeSlotReads h ++
    (scanReads (isset h.kbitmap) blockCount (kbitmapSize - i).toNat (UInt64.ofInt i) 0).map .bit ++
    match blockSearch h size with
    | some base => firstFreeAllocationSlotReads h ++ .entry (nextSlot h) ::
        (List.range' (base / BLOCKSIZE).toNat blockCount.toNat).map .bit
    | none => []

def kfreeAccesses (h : Heap) (addr : UInt64) : List HeapPlace :=
  let bitmapBase := bitmapBase h.kHeapBegin addr
  let i := kfreeSlot h addr
  let sizeOfAllocation := (h.allocationBitmap i).size.toUInt64
  (stopReads (fun i => (h.allocationBitmap i).block.toUInt64 == bitmapBase)
      allocationBitmapSize).map .entry ++ .entry i ::
    (List.range' bitmapBase.toNat
      ((bitmapBase + sizeOfAllocation).toNat - bitmapBase.toNat)).map .bit

variable {h h' : Heap} {size addr : UInt64} {place : HeapPlace} {b i : ℕ}

/-! ## These are all the places -/

lemma isset_setRange_of_notMem {bitmap : Bitmap} {start n : ℕ} (hi : i ∉ List.range' start n) :
    isset (setRange bitmap start n) i = isset bitmap i := by
  rw [List.mem_range'_1] at hi
  rw [isset_setRange, decide_eq_false hi, Bool.or_false]

lemma isset_clearRange_of_notMem {bitmap : Bitmap} {start n : ℕ} (hi : i ∉ List.range' start n) :
    isset (clearRange bitmap start n) i = isset bitmap i := by
  rw [List.mem_range'_1] at hi
  rw [isset_clearRange, decide_eq_true hi, Bool.and_true]

lemma kmalloc_eq (h : Heap) (size : UInt64) : kmalloc h size =
    match blockSearch h size with
    | some base => (some (base + h.kHeapBegin + HIGH_VMA), { h with
        allocationBitmap := Function.update h.allocationBitmap (nextSlot h)
          ⟨(base / 32).toUInt16, (ROUNDUP size 32).toUInt16⟩
        kbitmap := setRange h.kbitmap (base / BLOCKSIZE).toNat (ROUNDUP size 32).toNat })
    | none => (none, h) := rfl

/-- **`kmalloc` writes nothing else.** -/
theorem kmalloc_untouched (hplace : place ∉ kmallocAccesses h size) :
    SameAt (kmalloc h size).2 h place := by
  rw [kmalloc_eq]
  rw [kmallocAccesses, List.mem_append, not_or] at hplace
  have hwritten := hplace.2
  rcases hsearch : blockSearch h size with _ | base
  · cases place <;> rfl
  · rw [hsearch] at hwritten
    dsimp only at hwritten ⊢
    rw [List.mem_append, List.mem_cons, not_or, not_or] at hwritten
    cases place with
    | bit i =>
        exact isset_setRange_of_notMem fun hin => hwritten.2.2 (List.mem_map_of_mem hin)
    | entry i =>
        exact Function.update_of_ne (fun heq => hwritten.2.1 (congrArg _ heq)) _ _

/-- **`kfree` writes nothing else.** -/
theorem kfree_untouched (hplace : place ∉ kfreeAccesses h addr) :
    SameAt (kfree h addr).2 h place := by
  rw [kfreeAccesses, List.mem_append, List.mem_cons, not_or, not_or] at hplace
  obtain ⟨-, hentry, hbits⟩ := hplace
  rw [kfree]
  cases place with
  | bit i => exact isset_clearRange_of_notMem fun hin => hbits (List.mem_map_of_mem hin)
  | entry i =>
      exact Function.update_of_ne (fun heq => hentry (congrArg _ heq)) _ _

/-- The search depends only on the bits it reads. -/
lemma blockSearch_congr (hsame : ∀ place ∈ kmallocAccesses h size, SameAt h h' place) :
    blockSearch h' size = blockSearch h size := by
  simp only [kmallocAccesses, List.mem_append, firstFreeSlotReads] at hsame
  have hslot : firstFreeSlot h = firstFreeSlot h' := by
    have hstop := @stopIndex_congr (fun i => !isset h.kbitmap i) (fun i => !isset h'.kbitmap i)
      kbitmapSize fun i hi => by
        have hbit := hsame (.bit i) (Or.inl (Or.inl (Or.inl (List.mem_map_of_mem hi))))
        rw [SameAt] at hbit
        rw [hbit]
    rw [firstFreeSlot, firstIndex, hstop]
    rfl
  rw [blockSearch, blockSearch, ← hslot]
  exact (scan_congr _ _ _ _ fun c hc =>
    hsame (.bit c) (Or.inl (Or.inr (List.mem_map_of_mem hc)))).symm

/-- **`kmalloc` reads nothing else.** -/
theorem kmalloc_congr (hbegin : h'.kHeapBegin = h.kHeapBegin)
    (hsame : ∀ place ∈ kmallocAccesses h size, SameAt h h' place) :
    (kmalloc h' size).1 = (kmalloc h size).1 := by
  rw [kmalloc_eq, kmalloc_eq, blockSearch_congr hsame]
  rcases blockSearch h size with _ | base
  · rfl
  · dsimp only
    rw [hbegin]

/-- **`kfree` reads nothing else.** -/
theorem kfree_congr (hbegin : h'.kHeapBegin = h.kHeapBegin)
    (hsame : ∀ place ∈ kfreeAccesses h addr, SameAt h h' place) :
    (kfree h' addr).1 = (kfree h addr).1 := by
  simp only [kfreeAccesses, List.mem_append, List.mem_cons] at hsame
  have hslot : kfreeSlot h' addr = kfreeSlot h addr := by
    rw [kfreeSlot, kfreeSlot, hbegin]
    refine (stopIndex_congr fun i hi => ?_).symm
    have hentry : h.allocationBitmap i = h'.allocationBitmap i :=
      hsame (.entry i) (Or.inl (List.mem_map_of_mem hi))
    rw [hentry]
  have hentry : h.allocationBitmap (kfreeSlot h addr) = h'.allocationBitmap (kfreeSlot h addr) :=
    hsame (.entry _) (Or.inr (Or.inl rfl))
  show (h'.allocationBitmap (kfreeSlot h' addr)).size.toUInt64 = _
  rw [hslot, ← hentry]
  rfl

/-! ## When `kmalloc` returns `NULL` -/

/-- Nothing is asked for, or no run of free blocks is long enough. -/
def NoRun (h : Heap) (size : UInt64) : Prop :=
  ROUNDUP size 32 ≠ 0 → ∀ b, ¬ Fits (BlockFree h) kbitmapSize (ROUNDUP size 32).toNat b

/-- The bit at which the search starts on a full heap. -/
def strayBit : ℕ := 2 ^ 64 - 1

/-- On a full heap the bit at which the search starts reads as clear, and one block is asked for. -/
def FindsStrayBlock (h : Heap) (size : UInt64) : Prop :=
  ¬ HasFreeBlock h ∧ isset h.kbitmap strayBit = false ∧ ROUNDUP size 32 = 1

lemma isset_of_full (hfull : ¬ HasFreeBlock h) (hi : i < kbitmapSize) :
    isset h.kbitmap i = true := by
  by_contra hclear
  exact hfull ⟨i, hi, Bool.eq_false_of_not_eq_true hclear⟩

lemma firstFreeSlot_of_full (hfull : ¬ HasFreeBlock h) : firstFreeSlot h = -1 := by
  rcases firstIndex_cases (fun i => !isset h.kbitmap i) kbitmapSize with ⟨f, _, hlt, hp, _⟩ |
    ⟨hf, _⟩
  · rw [isset_of_full hfull hlt] at hp
    exact Bool.noConfusion hp
  · exact hf

/-- On a full heap the search makes one turn more than there are blocks, and the first one at
`strayBit`. -/
lemma turns_of_full (hfull : ¬ HasFreeBlock h) :
    (kbitmapSize - firstFreeSlot h).toNat = kbitmapSize + 1 ∧
      UInt64.ofInt (firstFreeSlot h) = UInt64.ofNat strayBit := by
  rw [firstFreeSlot_of_full hfull]
  exact ⟨rfl, rfl⟩

/-- **The search on a full heap.** -/
theorem blockSearch_of_full (hfull : ¬ HasFreeBlock h) (size : UInt64) :
    blockSearch h size = none ↔ ¬ FindsStrayBlock h size := by
  obtain ⟨hturns, hstart⟩ := turns_of_full hfull
  have hnone : ∀ base cnt, scan BLOCKSIZE (isset h.kbitmap) (ROUNDUP size 32) kbitmapSize
      (UInt64.ofNat strayBit + 1) base cnt = none := fun base cnt =>
    scan_busy kbitmapSize 0 base cnt (by decide) fun p _ hp => isset_of_full hfull (by omega)
  have hbit : (UInt64.ofNat strayBit).toNat = strayBit := toNat_ofNat_of_lt (by decide)
  rw [blockSearch, hturns, hstart, scan, hbit, FindsStrayBlock]
  split_ifs with hset hone
  · refine iff_of_true (hnone _ _) fun hstray => ?_
    rw [hset] at hstray
    exact Bool.noConfusion hstray.2.1
  · refine iff_of_false id (not_not.mpr ⟨hfull, ?_, ?_⟩)
    · exact Bool.eq_false_of_not_eq_true hset
    · exact hone.symm
  · exact iff_of_true (hnone _ _) fun hstray => hone hstray.2.2.symm

/-- **When `kmalloc` returns `NULL`**, on any heap. -/
theorem kmalloc_none_iff (h : Heap) (size : UInt64) :
    kmalloc h size = (none, h) ↔ NoRun h size ∧ ¬ FindsStrayBlock h size := by
  by_cases hfree : HasFreeBlock h
  · rw [and_iff_left fun hstray => hstray.1 hfree]
    rcases kmalloc_cases hfree size with ⟨b, hcount, hfirst, heq⟩ | ⟨hnone, heq⟩
    · rw [heq]
      exact iff_of_false (fun hsome => nomatch (Prod.ext_iff.mp hsome).1)
        fun hno => hno hcount b hfirst.1
    · exact iff_of_true heq hnone
  · have hno : NoRun h size := by
      intro hcount b hfit
      have hpos := toNat_pos hcount
      have hb := hfit.2 b le_rfl (by omega)
      exact hfree ⟨b, by have := hfit.1; omega, hb⟩
    rw [and_iff_right hno, ← blockSearch_of_full hfree size, kmalloc_eq]
    rcases blockSearch h size with _ | base
    · exact iff_of_true rfl rfl
    · exact iff_of_false (fun hsome => nomatch (Prod.ext_iff.mp hsome).1) fun hsome => nomatch hsome

/-! ## The search -/

end Seaweed
