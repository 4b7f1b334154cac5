import Seaweed.Mm.PhysicalPageManager

/-!
# The kernel heap (`kernel/mm/kHeap.c`)

One mebibyte in blocks of 32 bytes.  `kbitmap` has a bit for each block, and `allocationBitmap` is
a table with an entry, the first block and the number of blocks, for each allocation.  An entry of
size 0 is empty; emptied entries and entries never used both read as block 0.

* `kHeapInit`, `kmalloc`, `kfree` — the heap.
* **`kmalloc_cases`** — the two outcomes of `kmalloc` on a heap with a free block.
* **`kfree_eq`** — what `kfree` does once the entry it stops at is known.
-/

namespace Seaweed

open FirstFit Words

def HIGH_VMA : UInt64 := 0xffff800000000000

def KERNEL_HIGH_VMA : UInt64 := 0xffffffff80000000

def BLOCKSIZE : UInt64 := 32

/-- An entry of the allocation table (`allocation_t`). -/
structure Allocation where
  block : UInt16
  size : UInt16
  deriving DecidableEq

/-- `sizeof(allocation_t)`. -/
def sizeofAllocation : ℕ := 4

/-- The globals of the heap.  `kbitmap` and `allocationBitmap` are what the two pointers point to,
as far as it can be addressed. -/
@[ext] structure Heap where
  kHeapBegin : UInt64
  kbitmapPtr : UInt64
  kbitmap : Bitmap
  allocationBitmapPtr : UInt64
  allocationBitmap : ℕ → Allocation

/-- `kHeapInit` sets this global, and nothing else does. -/
def kbitmapSize : ℕ := 0x100000 / 32

/-- `kHeapInit` sets this global, and nothing else does. -/
def allocationBitmapSize : ℕ := 0x100000 / sizeofAllocation

/-- The entries in the sixteen pages that `kHeapInit` reserves for the table. -/
def tableEntries : ℕ := 0x10000 / sizeofAllocation

/-- The two pages of bookkeeping hold `bits` and `entries` before they are zeroed. -/
def kHeapInit (pmm : Pmm) (bits : Bitmap) (entries : ℕ → Allocation) : Heap × Pmm :=
  let (kHeapBegin, pmm) := physicalPageAlloc pmm 0x100
  let (kbitmap, pmm) := physicalPageAlloc pmm 1
  let (allocationBitmap, pmm) := physicalPageAlloc pmm 16
  ({ kHeapBegin := kHeapBegin
     kbitmapPtr := kbitmap + HIGH_VMA
     kbitmap := memset bits 0 0x1000
     allocationBitmapPtr := allocationBitmap + HIGH_VMA
     allocationBitmap := memset entries ⟨0, 0⟩ (0x10000 / sizeofAllocation) }, pmm)

def firstFreeSlot (h : Heap) : ℤ :=
  firstIndex (fun i => !isset h.kbitmap i) kbitmapSize

def firstFreeAllocationSlot (h : Heap) : ℤ :=
  firstIndex (fun i => (h.allocationBitmap i).size == 0) allocationBitmapSize

/-- The table index `kmalloc` records an allocation at; `-1` is read as an unsigned number. -/
def nextSlot (h : Heap) : ℕ := (UInt64.ofInt (firstFreeAllocationSlot h)).toNat

/-- `none` is `NULL`.  On a full heap the loop starts at `-1`, a bit far outside the bitmap. -/
def kmalloc (h : Heap) (size : UInt64) : Option UInt64 × Heap :=
  let blockCount := ROUNDUP size 32
  let base := UInt64.ofInt (firstFreeSlot h) * BLOCKSIZE
  let i := firstFreeSlot h
  match scan BLOCKSIZE (isset h.kbitmap) blockCount (kbitmapSize - i).toNat (UInt64.ofInt i) base 0
  with
  | some base =>
      let slot := nextSlot h
      (some (base + h.kHeapBegin + HIGH_VMA), { h with
        allocationBitmap := Function.update h.allocationBitmap slot
          ⟨(base / 32).toUInt16, blockCount.toUInt16⟩
        kbitmap := setRange h.kbitmap (base / BLOCKSIZE).toNat blockCount.toNat })
  | none => (none, h)

/-- The block that `kfree` computes from an address. -/
def bitmapBase (kHeapBegin addr : UInt64) : UInt64 := (addr - HIGH_VMA - kHeapBegin) / 32

/-- Where the search of `kfree` stops: it compares the block fields alone. -/
def kfreeSlot (h : Heap) (addr : UInt64) : ℕ :=
  stopIndex (fun i => (h.allocationBitmap i).block.toUInt64 == bitmapBase h.kHeapBegin addr)
    allocationBitmapSize

def kfree (h : Heap) (addr : UInt64) : UInt64 × Heap :=
  let bitmapBase := bitmapBase h.kHeapBegin addr
  let i := kfreeSlot h addr
  let sizeOfAllocation := (h.allocationBitmap i).size.toUInt64
  (sizeOfAllocation, { h with
    kbitmap := clearRange h.kbitmap bitmapBase.toNat
      ((bitmapBase + sizeOfAllocation).toNat - bitmapBase.toNat)
    allocationBitmap := Function.update h.allocationBitmap i ⟨0, 0⟩ })

/-! ## What `kmalloc` can do -/

/-- Block `p` is clear in the bitmap. -/
def BlockFree (h : Heap) (p : ℕ) : Prop := isset h.kbitmap p = false

instance (h : Heap) (p : ℕ) : Decidable (BlockFree h p) :=
  inferInstanceAs (Decidable (isset h.kbitmap p = false))

/-- Some block is free. -/
def HasFreeBlock (h : Heap) : Prop := ∃ p, p < kbitmapSize ∧ BlockFree h p

/-- Some entry of the table is empty. -/
def TableRoom (h : Heap) : Prop := ∃ i, i < tableEntries ∧ (h.allocationBitmap i).size = 0

/-- The address of block `b`. -/
def blockAddr (kHeapBegin : UInt64) (b : ℕ) : UInt64 :=
  UInt64.ofNat b * BLOCKSIZE + kHeapBegin + HIGH_VMA

/-- The heap after `count` blocks from `b` on have been marked, and recorded at `slot`. -/
def recordBlock (h : Heap) (slot b : ℕ) (count : UInt64) : Heap :=
  { h with
    allocationBitmap := Function.update h.allocationBitmap slot ⟨UInt16.ofNat b, count.toUInt16⟩
    kbitmap := setRange h.kbitmap b count.toNat }

/-- The heap after `count` blocks from `b` on and the entry at `slot` have been given back. -/
def releaseBlock (h : Heap) (slot b count : ℕ) : Heap :=
  { h with
    kbitmap := clearRange h.kbitmap b count
    allocationBitmap := Function.update h.allocationBitmap slot ⟨0, 0⟩ }

section Updates

variable (h : Heap) (slot b n : ℕ) (count : UInt64)

@[simp] lemma kHeapBegin_recordBlock :
    (recordBlock h slot b count).kHeapBegin = h.kHeapBegin := rfl

@[simp] lemma kbitmap_recordBlock :
    (recordBlock h slot b count).kbitmap = setRange h.kbitmap b count.toNat := rfl

@[simp] lemma allocationBitmap_recordBlock :
    (recordBlock h slot b count).allocationBitmap
      = Function.update h.allocationBitmap slot ⟨UInt16.ofNat b, count.toUInt16⟩ := rfl

@[simp] lemma kHeapBegin_releaseBlock : (releaseBlock h slot b n).kHeapBegin = h.kHeapBegin := rfl

@[simp] lemma kbitmap_releaseBlock :
    (releaseBlock h slot b n).kbitmap = clearRange h.kbitmap b n := rfl

@[simp] lemma allocationBitmap_releaseBlock :
    (releaseBlock h slot b n).allocationBitmap = Function.update h.allocationBitmap slot ⟨0, 0⟩ :=
  rfl

end Updates

theorem kbitmapSize_eq : kbitmapSize = 32768 := rfl

theorem tableEntries_eq : tableEntries = 16384 := rfl

theorem allocationBitmapSize_eq : allocationBitmapSize = 262144 := rfl

/-- The rounded size has room for the size, unless the rounding wrapped to 0. -/
theorem ROUNDUP_room {size : UInt64} (hcount : ROUNDUP size 32 ≠ 0) :
    size.toNat ≤ 32 * (ROUNDUP size 32).toNat := by
  have hsize := size.toNat_lt
  have hpos := toNat_pos hcount
  have hlast : ((32 : UInt64) - 1).toNat = 31 := rfl
  have hunit : (32 : UInt64).toNat = 32 := rfl
  rw [ROUNDUP, UInt64.toNat_div, UInt64.toNat_add, hlast, hunit] at hpos ⊢
  omega

/-- Where the search of `kmalloc` for an empty entry stops. -/
lemma nextSlot_eq {h : Heap} (hroom : TableRoom h) : nextSlot h =
    stopIndex (fun i => (h.allocationBitmap i).size == 0) allocationBitmapSize := by
  obtain ⟨j, hj, hempty⟩ := hroom
  rw [tableEntries_eq] at hj
  have hle := (@stopIndex_le (fun i => (h.allocationBitmap i).size == 0) allocationBitmapSize j
    (by rw [allocationBitmapSize_eq]; omega) (by simpa using hempty)).1
  have hlt : stopIndex (fun i => (h.allocationBitmap i).size == 0) allocationBitmapSize
      < allocationBitmapSize := by
    rw [allocationBitmapSize_eq] at hle ⊢
    omega
  rw [nextSlot, firstFreeAllocationSlot, firstIndex, if_pos hlt, ofInt_natCast,
    toNat_ofNat_of_lt (by omega)]

/-- No empty entry comes before it. -/
lemma nextSlot_le {h : Heap} {i : ℕ} (hi : i < tableEntries)
    (hempty : (h.allocationBitmap i).size = 0) : nextSlot h ≤ i := by
  rw [nextSlot_eq ⟨i, hi, hempty⟩]
  rw [tableEntries_eq] at hi
  exact (stopIndex_le (by rw [allocationBitmapSize_eq]; omega) (by simpa using hempty)).1

/-- A table with room is written at an empty entry inside it. -/
theorem nextSlot_spec {h : Heap} (hroom : TableRoom h) :
    nextSlot h < tableEntries ∧ (h.allocationBitmap (nextSlot h)).size = 0 := by
  obtain ⟨j, hj, hempty⟩ := id hroom
  refine ⟨lt_of_le_of_lt (nextSlot_le hj hempty) hj, ?_⟩
  rw [nextSlot_eq hroom]
  rw [tableEntries_eq] at hj
  simpa using (@stopIndex_le (fun i => (h.allocationBitmap i).size == 0) allocationBitmapSize j
    (by rw [allocationBitmapSize_eq]; omega) (by simpa using hempty)).2

theorem blockOffset_div {b : ℕ} (hb : b < kbitmapSize) :
    (UInt64.ofNat b * BLOCKSIZE / BLOCKSIZE).toNat = b := by
  have hunit : BLOCKSIZE.toNat = 32 := rfl
  rw [kbitmapSize_eq] at hb
  rw [UInt64.toNat_div, UInt64.toNat_mul, toNat_ofNat_of_lt (by omega), hunit,
    Nat.mod_eq_of_lt (by omega), Nat.mul_div_cancel _ (by omega)]

/-- **The address of a block determines the block.** -/
theorem bitmapBase_blockAddr {b : ℕ} (hb : b < kbitmapSize) (kHeapBegin : UInt64) :
    (bitmapBase kHeapBegin (blockAddr kHeapBegin b)).toNat = b := by
  have hback : blockAddr kHeapBegin b - HIGH_VMA - kHeapBegin = UInt64.ofNat b * BLOCKSIZE := by
    rw [blockAddr, UInt64.add_sub_cancel, UInt64.add_sub_cancel]
  rw [bitmapBase, hback]
  exact blockOffset_div hb

/-- With a free block the search has a block to start at, and below it every block is taken. -/
lemma firstFreeSlot_spec {h : Heap} (hfree : HasFreeBlock h) : ∃ f : ℕ, firstFreeSlot h = (f : ℤ) ∧
    f < kbitmapSize ∧ ∀ p, p < f → isset h.kbitmap p = true := by
  rcases firstIndex_cases (fun i => !isset h.kbitmap i) kbitmapSize with
    ⟨f, hf, hlt, _, hmin⟩ | ⟨_, hnone⟩
  · exact ⟨f, hf, hlt, fun p hp => by simpa using hmin p hp⟩
  · obtain ⟨p, hp, hclear⟩ := hfree
    have := hnone p hp
    rw [BlockFree] at hclear
    rw [hclear] at this
    exact Bool.noConfusion this

/-- The search of `kmalloc` is first fit over the free blocks. -/
theorem blockSearch_answers {h : Heap} (hfree : HasFreeBlock h) {count : UInt64}
    (hcount : count ≠ 0) :
    Answers BLOCKSIZE (BlockFree h) kbitmapSize count.toNat
      (scan BLOCKSIZE (isset h.kbitmap) count (kbitmapSize - firstFreeSlot h).toNat
        (UInt64.ofInt (firstFreeSlot h)) (UInt64.ofInt (firstFreeSlot h) * BLOCKSIZE) 0) := by
  obtain ⟨f, hf, hlt, hbelow⟩ := firstFreeSlot_spec hfree
  have hturns : (kbitmapSize - (f : ℤ)).toNat = kbitmapSize - f := by omega
  rw [hf, hturns, ofInt_natCast]
  exact scan_spec (by rw [kbitmapSize_eq]; omega) hcount (le_of_lt hlt) hbelow

theorem firstFreeSlot_ge (h : Heap) : -1 ≤ firstFreeSlot h := by
  rcases firstIndex_cases (fun i => !isset h.kbitmap i) kbitmapSize with ⟨f, hf, _⟩ | ⟨hf, _⟩
  · rw [firstFreeSlot, hf]; omega
  · rw [firstFreeSlot, hf]

/-- A request that is rounded to no blocks is never satisfied, on any heap. -/
theorem kmalloc_zero (h : Heap) {size : UInt64} (hcount : ROUNDUP size 32 = 0) :
    kmalloc h size = (none, h) := by
  have hnone := @scan_zero BLOCKSIZE (isset h.kbitmap) (kbitmapSize - firstFreeSlot h).toNat 0
    (UInt64.ofInt (firstFreeSlot h)) (UInt64.ofInt (firstFreeSlot h) * BLOCKSIZE)
    (by have := firstFreeSlot_ge h; rw [kbitmapSize_eq]; omega)
  rw [show UInt64.ofNat 0 = 0 from rfl] at hnone
  simp only [kmalloc, hcount]
  rw [hnone]

/-- **The two outcomes of `kmalloc`.**  On a heap with a free block it either records and marks
the first fit and returns its address, or nothing fits, or the rounded size is 0, and it returns
`NULL` with the heap untouched. -/
theorem kmalloc_cases {h : Heap} (hfree : HasFreeBlock h) (size : UInt64) :
    (∃ b, ROUNDUP size 32 ≠ 0 ∧
      IsFirstFit (BlockFree h) kbitmapSize (ROUNDUP size 32).toNat b ∧
      kmalloc h size = (some (blockAddr h.kHeapBegin b),
        recordBlock h (nextSlot h) b (ROUNDUP size 32))) ∨
    ((ROUNDUP size 32 ≠ 0 → ∀ b, ¬ Fits (BlockFree h) kbitmapSize (ROUNDUP size 32).toNat b) ∧
      kmalloc h size = (none, h)) := by
  by_cases hcount : ROUNDUP size 32 = 0
  · right
    exact ⟨fun h => absurd hcount h, kmalloc_zero h hcount⟩
  · have hans := blockSearch_answers hfree hcount
    simp only [kmalloc]
    split
    · rename_i base hbase
      rw [hbase] at hans
      obtain ⟨b, hfirst, rfl⟩ := hans
      have hb : b < kbitmapSize := by
        have := hfirst.1.1
        have := toNat_pos hcount
        omega
      refine Or.inl ⟨b, hcount, hfirst, ?_⟩
      have hblock : UInt64.ofNat b * BLOCKSIZE / 32 = UInt64.ofNat b := by
        rw [← UInt64.toNat_inj, toNat_ofNat_of_lt (by rw [kbitmapSize_eq] at hb; omega)]
        exact blockOffset_div hb
      rw [blockOffset_div hb, hblock, UInt64.toUInt16_ofNat', recordBlock, blockAddr]
    · rename_i hnone
      rw [hnone] at hans
      exact Or.inr ⟨fun _ => hans, rfl⟩

/-- A `kmalloc` for which there is room returns the first fit. -/
theorem kmalloc_firstFit {h : Heap} (hfree : HasFreeBlock h) {size : UInt64} {b : ℕ}
    (hcount : ROUNDUP size 32 ≠ 0)
    (hfirst : IsFirstFit (BlockFree h) kbitmapSize (ROUNDUP size 32).toNat b) :
    kmalloc h size = (some (blockAddr h.kHeapBegin b),
      recordBlock h (nextSlot h) b (ROUNDUP size 32)) := by
  rcases kmalloc_cases hfree size with ⟨b', _, hfirst', heq⟩ | ⟨hnone, _⟩
  · rw [heq, hfirst.unique hfirst']
  · exact absurd hfirst.1 (hnone hcount b)

/-! ## What `kfree` can do -/

section Search

variable {h : Heap} {addr : UInt64} {i : ℕ}

/-- A block field has 16 bits, and the block of an address 64. -/
lemma block_beq (w : UInt16) (v : UInt64) : (w.toUInt64 == v) = true ↔ w.toNat = v.toNat := by
  rw [beq_iff_eq, ← UInt64.toNat_inj, UInt16.toNat_toUInt64]

/-- The search of `kfree` stops no later than at an entry with the block of the address. -/
lemma kfreeSlot_le (hi : i < allocationBitmapSize)
    (hblock : (h.allocationBitmap i).block.toNat = (bitmapBase h.kHeapBegin addr).toNat) :
    kfreeSlot h addr ≤ i :=
  (stopIndex_le hi ((block_beq ..).mpr hblock)).1

/-- Unless it goes to the end it stops at such an entry. -/
lemma kfreeSlot_block (hlt : kfreeSlot h addr < allocationBitmapSize) :
    (h.allocationBitmap (kfreeSlot h addr)).block.toNat = (bitmapBase h.kHeapBegin addr).toNat := by
  rcases stopIndex_cases
      (fun i => (h.allocationBitmap i).block.toUInt64 == bitmapBase h.kHeapBegin addr)
      allocationBitmapSize with ⟨_, hstop, _⟩ | ⟨heq, _⟩
  · exact (block_beq ..).mp hstop
  · rw [kfreeSlot, heq] at hlt
    exact absurd hlt (lt_irrefl _)

/-- Every entry before it has another block. -/
lemma kfreeSlot_first (hi : i < kfreeSlot h addr) :
    (h.allocationBitmap i).block.toNat ≠ (bitmapBase h.kHeapBegin addr).toNat := by
  intro hblock
  have hbeq := (block_beq ..).mpr hblock
  rcases stopIndex_cases
      (fun i => (h.allocationBitmap i).block.toUInt64 == bitmapBase h.kHeapBegin addr)
      allocationBitmapSize with ⟨_, _, hfirst⟩ | ⟨heq, hnone⟩
  · exact absurd hbeq (ne_true_of_eq_false (hfirst i hi))
  · rw [kfreeSlot, heq] at hi
    exact absurd hbeq (ne_true_of_eq_false (hnone i hi))

end Search

/-- **`kfree`, once the entry it stops at is known.**  For an address of block `b` it clears as
many bits from `b` on as that entry says, whichever allocation the entry belongs to, and empties
the entry. -/
theorem kfree_eq (h : Heap) {addr : UInt64} {b : ℕ}
    (hbase : (bitmapBase h.kHeapBegin addr).toNat = b) (hb : b < kbitmapSize) :
    kfree h addr = ((h.allocationBitmap (kfreeSlot h addr)).size.toUInt64,
      releaseBlock h (kfreeSlot h addr) b (h.allocationBitmap (kfreeSlot h addr)).size.toNat) := by
  have hturns : (bitmapBase h.kHeapBegin addr
      + (h.allocationBitmap (kfreeSlot h addr)).size.toUInt64).toNat - b
      = (h.allocationBitmap (kfreeSlot h addr)).size.toNat := by
    have hsize := (h.allocationBitmap (kfreeSlot h addr)).size.toNat_lt
    rw [kbitmapSize_eq] at hb
    rw [UInt64.toNat_add, hbase, UInt16.toNat_toUInt64, Nat.mod_eq_of_lt (by omega)]
    omega
  simp only [kfree, releaseBlock, hbase, hturns]

/-! ## The heap that `kHeapInit` builds -/

/-- **Where `kHeapInit` puts the heap** when the free pages start at `b`: the heap, the bitmap and
the table lie one after another. -/
theorem kHeapInit_takenBelow {pmm : Pmm} {b : ℕ} (h : TakenBelow pmm b)
    (hroom : b + 0x111 ≤ pageLimit pmm) (bits : Bitmap) (entries : ℕ → Allocation) :
    (kHeapInit pmm bits entries).1 =
      { kHeapBegin := UInt64.ofNat b * PAGESIZE
        kbitmapPtr := UInt64.ofNat (b + 0x100) * PAGESIZE + HIGH_VMA
        kbitmap := memset bits 0 0x1000
        allocationBitmapPtr := UInt64.ofNat (b + 0x101) * PAGESIZE + HIGH_VMA
        allocationBitmap := memset entries ⟨0, 0⟩ tableEntries } ∧
    TakenBelow (kHeapInit pmm bits entries).2 (b + 0x111) ∧
    pageLimit (kHeapInit pmm bits entries).2 = pageLimit pmm := by
  obtain ⟨hheap, h₁, hlim₁⟩ := physicalPageAlloc_takenBelow h
    (by decide : (0x100 : UInt64) ≠ 0) (show b + 0x100 ≤ _ by omega)
  obtain ⟨hbits, h₂, hlim₂⟩ := physicalPageAlloc_takenBelow h₁
    (by decide : (1 : UInt64) ≠ 0) (show b + 0x100 + 1 ≤ _ by omega)
  obtain ⟨htable, h₃, hlim₃⟩ := physicalPageAlloc_takenBelow h₂
    (by decide : (16 : UInt64) ≠ 0) (show b + 0x100 + 1 + 16 ≤ _ by omega)
  refine ⟨?_, h₃, by rw [← hlim₁, ← hlim₂, ← hlim₃]; rfl⟩
  simp only [kHeapInit, hheap, hbits, htable]
  rfl

end Seaweed
