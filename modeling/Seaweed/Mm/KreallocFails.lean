import Seaweed.Mm.HeapTable
import Seaweed.Mm.Krealloc

/-!
# A `krealloc` that fails

`krealloc` frees the old block before it asks for the new one, and copies to whatever `kmalloc`
returns.  When that is `NULL` the old block has been given away, and as many words as it had blocks
go to address 0.

* `Tracked` — the table records the allocation and its blocks are marked, as for every live
  allocation in every run (`tracked_run`).
* `KeepsOld` — the call returns `NULL` and has left the allocation and the memory alone.
* **`krealloc_keepsOld_iff`** — that happens only if the free misses the allocation.
-/

namespace Seaweed

open FirstFit Words Transition Memory

/-- The table records the allocation in an entry that `kfree` looks at, and its blocks are
marked. -/
structure Tracked (heap : Heap) (a : Block) : Prop where
  inTable : a.slot < allocationBitmapSize
  entry : heap.allocationBitmap a.slot = a.entry heap.kHeapBegin
  count_pos : 0 < a.count
  within : a.start heap.kHeapBegin + a.count ≤ kbitmapSize
  marked : ∀ p ∈ a.blocks heap.kHeapBegin, isset heap.kbitmap p = true

/-- The call returns `NULL`, writes no memory, and leaves the entry and the bits of the allocation
as they are. -/
structure KeepsOld (heap : Heap) (mem : Mem) (a : Block) (size : UInt64) : Prop where
  returns : (krealloc heap mem a.addr size).1 = none
  memory : (krealloc heap mem a.addr size).2.2 = mem
  entry : (krealloc heap mem a.addr size).2.1.allocationBitmap a.slot
    = heap.allocationBitmap a.slot
  bits : ∀ p ∈ a.blocks heap.kHeapBegin,
    isset (krealloc heap mem a.addr size).2.1.kbitmap p = isset heap.kbitmap p

/-- The entry at which the search of `kfree` stops is an empty one before that of the allocation. -/
def FreeMisses (heap : Heap) (a : Block) : Prop :=
  ∃ i, i < a.slot ∧ (heap.allocationBitmap i).size = 0 ∧
    (heap.allocationBitmap i).block.toNat = a.start heap.kHeapBegin ∧
    ∀ j, j < i → (heap.allocationBitmap j).block.toNat ≠ a.start heap.kHeapBegin

variable {h₀ heap heap' : Heap} {s : HeapState} {recorded : List Block}
  {L : Ledger {p | isset h₀.kbitmap p = true} kbitmapSize} {es : List HeapEvent} {a : Block}
  {mem : Mem} {size : UInt64} {i : ℕ}

/-! ## Live allocations -/

lemma HeapFollows.tracked (h : HeapFollows h₀ heap recorded L) (ha : a ∈ recorded) :
    Tracked heap a where
  inTable := lt_trans (h.inTable a ha) (by decide)
  entry := by rw [h.entries a ha, h.begins]
  count_pos := h.count_pos ha
  within := by
    rw [h.begins]
    exact h.within ha
  marked := by
    rw [h.begins]
    exact fun p hp => h.marked ha hp

/-- Every live allocation is tracked, in every run. -/
theorem tracked_run (pmm : Pmm) (bits : Bitmap) (entries : ℕ → Allocation)
    (hrun : Run HeapStep ⟨(kHeapInit pmm bits entries).1, []⟩ es s) (ha : a ∈ s.live) :
    Tracked s.heap a := by
  obtain ⟨lost, L, h⟩ := heapFollows_run (freshHeap_kHeapInit pmm bits entries) hrun
  exact h.tracked (List.mem_append_left lost ha)

namespace Tracked

variable (h : Tracked heap a)

include h

lemma start_lt : a.start heap.kHeapBegin < kbitmapSize := by
  have := h.within
  have := h.count_pos
  omega

/-- The entry says how long the allocation is, and that is not 0. -/
lemma size_ne_zero : (heap.allocationBitmap a.slot).size ≠ 0 := by
  intro hzero
  have hcount := congrArg UInt16.toNat hzero
  have hlast := h.within
  rw [h.entry, Block.toNat_entry_size _ (by omega)] at hcount
  exact h.count_pos.ne' hcount

lemma entry_block : (heap.allocationBitmap a.slot).block.toNat = a.start heap.kHeapBegin := by
  rw [h.entry, Block.toNat_entry_block h.start_lt.le]

/-- The search of `kfree` stops at the first entry with the block of the allocation, which is its
own or one before it. -/
lemma kfreeSlot_spec : kfreeSlot heap a.addr ≤ a.slot ∧
    (heap.allocationBitmap (kfreeSlot heap a.addr)).block.toNat = a.start heap.kHeapBegin ∧
    ∀ j, j < kfreeSlot heap a.addr →
      (heap.allocationBitmap j).block.toNat ≠ a.start heap.kHeapBegin := by
  have hle : kfreeSlot heap a.addr ≤ a.slot := kfreeSlot_le h.inTable h.entry_block
  exact ⟨hle, kfreeSlot_block (lt_of_le_of_lt hle h.inTable), fun j hj => kfreeSlot_first hj⟩

/-- The free misses exactly if the entry it stops at is empty. -/
lemma freeMisses_iff :
    FreeMisses heap a ↔ (heap.allocationBitmap (kfreeSlot heap a.addr)).size = 0 := by
  obtain ⟨hle, hblock, hfirst⟩ := h.kfreeSlot_spec
  constructor
  · rintro ⟨i, _, hempty, hblock', hfirst'⟩
    have hslot : kfreeSlot heap a.addr = i := by
      rcases lt_trichotomy (kfreeSlot heap a.addr) i with hlt | heq | hgt
      · exact absurd hblock (hfirst' _ hlt)
      · exact heq
      · exact absurd hblock' (hfirst _ hgt)
    rw [hslot, hempty]
  · intro hempty
    refine ⟨_, lt_of_le_of_ne hle fun heq => ?_, hempty, hblock, hfirst⟩
    rw [heq] at hempty
    exact h.size_ne_zero hempty

end Tracked

/-! ## The call -/

/-- The search of `kmalloc` does not look at the table unless it has found something. -/
lemma kmalloc_none_congr (hbits : heap'.kbitmap = heap.kbitmap) :
    kmalloc heap' size = (none, heap') ↔ NoRun heap size ∧ ¬ FindsStrayBlock heap size := by
  have hfree : BlockFree heap' = BlockFree heap := funext fun p => by
    rw [BlockFree, BlockFree, hbits]
  rw [kmalloc_none_iff, NoRun, FindsStrayBlock, HasFreeBlock, hfree, hbits]
  rfl

lemma kmalloc_none (hnone : (kmalloc heap size).1 = none) : kmalloc heap size = (none, heap) := by
  rw [kmalloc_eq] at hnone ⊢
  rcases hsearch : blockSearch heap size with _ | base
  · rfl
  · rw [hsearch] at hnone
    exact nomatch hnone

/-- The free of a tracked allocation, with the entry it stops at. -/
lemma Tracked.kfree_eq (h : Tracked heap a) : kfree heap a.addr =
    ((heap.allocationBitmap (kfreeSlot heap a.addr)).size.toUInt64,
      releaseBlock heap (kfreeSlot heap a.addr) (a.start heap.kHeapBegin)
        (heap.allocationBitmap (kfreeSlot heap a.addr)).size.toNat) :=
  Seaweed.kfree_eq heap rfl h.start_lt

/-- A free that misses returns 0 and clears no bit. -/
lemma Tracked.kfree_misses (h : Tracked heap a) (hmisses : FreeMisses heap a) :
    kfree heap a.addr =
      (0, releaseBlock heap (kfreeSlot heap a.addr) (a.start heap.kHeapBegin) 0) := by
  rw [h.kfree_eq, h.freeMisses_iff.mp hmisses]
  rfl

/-- If the old block is kept the free has missed it: otherwise its first bit would be clear. -/
lemma Tracked.freeMisses_of_keepsOld (h : Tracked heap a) (hkeeps : KeepsOld heap mem a size) :
    FreeMisses heap a := by
  have hreturns := hkeeps.returns
  have hbits := hkeeps.bits
  rw [krealloc, h.kfree_eq] at hreturns hbits
  rw [kmalloc_none hreturns] at hbits
  rw [h.freeMisses_iff]
  by_contra hne
  have hpos : 0 < (heap.allocationBitmap (kfreeSlot heap a.addr)).size.toNat :=
    Nat.pos_of_ne_zero fun hzero => hne (UInt16.toNat_inj.mp hzero)
  have hfirst : a.start heap.kHeapBegin ∈ a.blocks heap.kHeapBegin :=
    ⟨le_rfl, Nat.lt_add_of_pos_right h.count_pos⟩
  have hbit := hbits _ hfirst
  rw [h.marked _ hfirst, kbitmap_releaseBlock, isset_clearRange,
    decide_eq_false (not_not.mpr ⟨le_rfl, Nat.lt_add_of_pos_right hpos⟩), Bool.and_false] at hbit
  exact Bool.noConfusion hbit

/-- **When a failed `krealloc` keeps the old block**: the free has to miss it.  Then nothing has
happened to it, and nothing is copied. -/
theorem krealloc_keepsOld_iff (h : Tracked heap a) (mem : Mem) (size : UInt64) :
    KeepsOld heap mem a size ↔
      FreeMisses heap a ∧ NoRun heap size ∧ ¬ FindsStrayBlock heap size := by
  set missed := releaseBlock heap (kfreeSlot heap a.addr) (a.start heap.kHeapBegin) 0 with hdef
  have hsame : missed.kbitmap = heap.kbitmap := rfl
  constructor
  · intro hkeeps
    have hmisses := h.freeMisses_of_keepsOld hkeeps
    have hreturns := hkeeps.returns
    rw [krealloc, h.kfree_misses hmisses, UInt64.zero_add] at hreturns
    exact ⟨hmisses, (kmalloc_none_congr hsame).mp (kmalloc_none hreturns)⟩
  · rintro ⟨hmisses, hnone⟩
    have hcall : krealloc heap mem a.addr size = (none, missed, mem) := by
      rw [krealloc, h.kfree_misses hmisses, UInt64.zero_add, ← hdef,
        (kmalloc_none_congr hsame).mpr hnone]
      rfl
    have hslot : a.slot ≠ kfreeSlot heap a.addr := fun heq =>
      h.size_ne_zero (heq ▸ h.freeMisses_iff.mp hmisses)
    constructor
    case returns => rw [hcall]
    case memory => rw [hcall]
    case entry => rw [hcall, hdef, allocationBitmap_releaseBlock, Function.update_of_ne hslot]
    case bits =>
      intro p _
      rw [hcall, hsame]

/-- The allocation at block 0 after `lossMoves`, which a free misses. -/
def missedBlock : Block := ⟨0xffff800000124000, 32, 2⟩

/-- A free misses it, so a `krealloc` for which there is no room leaves it alone. -/
theorem krealloc_keepsOld_missed :
    KeepsOld (lossMoves.foldl HeapMove.next plainState).heap (fun _ => 0) missedBlock 0x200000 := by
  have hrun : Run HeapStep plainState (lossMoves.map HeapMove.event)
      (lossMoves.foldl HeapMove.next plainState) :=
    Run.replay heapStep_next _ _ (by rw [plainState, plainHeap_eq]; decide +kernel)
  have hlive : missedBlock ∈ (lossMoves.foldl HeapMove.next plainState).live := by
    rw [plainState, plainHeap_eq]
    decide +kernel
  refine (krealloc_keepsOld_iff (tracked_run plainPmm _ _ hrun hlive) (fun _ => 0) 0x200000).mpr
    ⟨?_, ?_, ?_⟩
  · refine ⟨0, ?_⟩
    rw [plainState, plainHeap_eq]
    decide +kernel
  · intro _ b hfit
    have htoo : b + 65536 ≤ 32768 := hfit.1
    omega
  · exact fun hstray => absurd hstray.2.2 (by decide)

/-- **A `krealloc` that fails loses the block**: there is no room for a mebibyte more. -/
theorem krealloc_losesOld : ∃ (s : HeapState) (a : Block),
    Run HeapStep ⟨(kHeapInit plainPmm (fun _ => 0xff) (fun _ => ⟨0xff, 0xff⟩)).1, []⟩
      [.malloc 32] s ∧
    a ∈ s.live ∧ (∀ b, ¬ Fits (FreeOrOwn s.heap a) kbitmapSize (a.count + 0x100000 / 32) b) ∧
    ¬ KeepsOld s.heap (fun _ => 0) a 0x100000 := by
  have hrun : Run HeapStep plainState [.malloc 32] (oneBlock 32) :=
    run_oneBlock (by rw [plainState, plainHeap_eq]; decide +kernel)
  have hmem : ⟨0xffff800000124000, 32, 0⟩ ∈ (oneBlock 32).live := by
    rw [oneBlock, plainState, plainHeap_eq]
    decide +kernel
  refine ⟨oneBlock 32, _, hrun, hmem, fun b hfit => ?_, fun hkeeps => ?_⟩
  · have htoo : b + 32769 ≤ 32768 := hfit.1
    omega
  · have hmisses := (tracked_run plainPmm _ _ hrun hmem).freeMisses_of_keepsOld hkeeps
    obtain ⟨i, hi, _⟩ := hmisses
    exact absurd hi (Nat.not_lt_zero i)

end Seaweed
