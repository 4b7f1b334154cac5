import Seaweed.Mm.E820
import Seaweed.Mm.VirtualPageManager

/-!
# Memory at boot (`bootMain` in `kernel/kernelMain.c`)

The first things `bootMain` does: `initPMM`, four pages for its stack, `kHeapInit`, `initVMM`.  The
page manager hands out the first free pages; `initVMM` uses fixed frames and does not tell it.  The
bitmap and the tables of the heap are kept apart from `mem`; the bitmap of a map of more than some
16 GiB reaches beyond conventional memory in the machine.

* `bootMemory` — the boot sequence, with the list of the allocations it makes.
* `bootMemory_run` — for the page manager it is four allocations in a row.
* **`kernelTables_kept_iff`** — the frames of the page tables are kept out of every allocation
  exactly when the map leaves none of them free.
* `bootHeap_eq` — the heap on a machine whose memory is one piece.
-/

namespace Seaweed

open FirstFit Words Transition Memory

/-- The memory subsystem after boot.  `outstanding` lists the allocations made on the way. -/
structure BootMemory where
  pmm : Pmm
  stack : UInt64
  heap : Heap
  vmm : Vmm
  mem : Mem
  outstanding : List PageAlloc

/-- A call that returned `0` has allocated nothing. -/
def recordPages (base count : UInt64) (outstanding : List PageAlloc) : List PageAlloc :=
  if base = 0 then outstanding else ⟨base, count⟩ :: outstanding

/-- The page manager after the stack of `bootMain` has been allocated. -/
def stackPages (pmm : Pmm) : Pmm := (physicalPageAlloc pmm 4).2

/-- `bits` and `entries` are what the memory of the page bitmap and of the heap's two tables holds
before. -/
def bootMemory (mmapEntries : List MmapEntry) (bits kbits : Bitmap) (entries : ℕ → Allocation)
    (mem : Mem) : BootMemory :=
  let pmm := initPMM ⟨bits, 0, false⟩ mmapEntries
  let stack := (physicalPageAlloc pmm 4).1
  let (heap, pmm) := kHeapInit (stackPages pmm) kbits entries
  let vmm := initVMM heap mem
  { pmm := pmm
    stack := stack + 0x4000 + 0xffffffff80000000
    heap := vmm.2.1
    vmm := vmm.1
    mem := vmm.2.2
    outstanding := recordPages (heap.allocationBitmapPtr - HIGH_VMA) 16
      (recordPages (heap.kbitmapPtr - HIGH_VMA) 1
        (recordPages heap.kHeapBegin 0x100 (recordPages stack 4 []))) }

/-! ## The boot sequence as a run of the page manager -/

/-- The four allocations made at boot. -/
def bootCounts : List UInt64 := [4, 0x100, 1, 16]

/-- The state after an allocation. -/
def allocNext (s : PageState) (count : UInt64) : PageState :=
  ⟨(physicalPageAlloc s.pmm count).2,
    recordPages (physicalPageAlloc s.pmm count).1 count s.outstanding⟩

lemma pageStep_allocNext (s : PageState) (count : UInt64) (hcount : count ≠ 0) :
    PageStep s (.alloc count) (allocNext s count) := by
  rw [allocNext, recordPages]
  split_ifs with hbase
  · exact PageStep.allocFail hcount (Prod.ext hbase rfl)
  · exact PageStep.alloc hcount rfl hbase

/-- **For the page manager the boot sequence is four allocations in a row.** -/
theorem bootMemory_run (mmapEntries : List MmapEntry) (bits kbits : Bitmap)
    (entries : ℕ → Allocation) (mem : Mem) :
    Run PageStep ⟨initPMM ⟨bits, 0, false⟩ mmapEntries, []⟩ (bootCounts.map PageEvent.alloc)
      ⟨(bootMemory mmapEntries bits kbits entries mem).pmm,
        (bootMemory mmapEntries bits kbits entries mem).outstanding⟩ := by
  have hrun := Run.replay pageStep_allocNext bootCounts
    ⟨initPMM ⟨bits, 0, false⟩ mmapEntries, []⟩ (by simp [Replays, bootCounts])
  simp only [bootMemory, kHeapInit, UInt64.add_sub_cancel]
  exact hrun

/-- The pages handed out at boot or by a run of allocations after it are those that `initPMM` has
left free. -/
lemma handedOut_boot (mmapEntries : List MmapEntry) (bits kbits : Bitmap)
    (entries : ℕ → Allocation) (mem : Mem) (p : ℕ) :
    (∃ (counts : List UInt64) (s : PageState),
      Run PageStep ⟨(bootMemory mmapEntries bits kbits entries mem).pmm,
        (bootMemory mmapEntries bits kbits entries mem).outstanding⟩
        (counts.map PageEvent.alloc) s ∧ ∃ a ∈ s.outstanding, p ∈ a.pages) ↔
    p < (totalLength mmapEntries / PAGESIZE).toNat ∧ isset bits p = false ∧ lowPages ≤ p ∧
      ¬ Reserved mmapEntries p := by
  have hboot := bootMemory_run mmapEntries bits kbits entries mem
  rw [← handedOut_initPMM]
  constructor
  · rintro ⟨counts, s, hrun, a, ha, hp⟩
    have hall := hboot.append hrun
    rw [← List.map_append] at hall
    exact ⟨_, s, hall, a, ha, hp⟩
  · intro hout
    have hpage0 := (isset_initPMM bits false mmapEntries 0).mpr (Or.inr (Or.inl (by decide)))
    obtain ⟨hlim, hfree⟩ := (handedOut_iff hpage0 p).mp hout
    exact handedOut_later hpage0 hboot hlim hfree

/-! ## The frames of the page tables -/

/-- The frames of `0x200000..0x207fff`. -/
def kernelTables : Extent := ⟨0x200, 8⟩

/-- Every frame of the page tables is at or above the limit, or taken: its bit was set before, or
it is a whole page of a reserved entry. -/
def TablesNotFree (mmapEntries : List MmapEntry) (bits : Bitmap) : Prop :=
  ∀ p ∈ kernelTables, (totalLength mmapEntries / PAGESIZE).toNat ≤ p ∨ isset bits p = true ∨
    Reserved mmapEntries p

/-- **The page tables are kept out of every allocation, exactly when none of their frames is
free.**  The allocations are those made at boot and all later ones. -/
theorem kernelTables_kept_iff (mmapEntries : List MmapEntry) (bits kbits : Bitmap)
    (entries : ℕ → Allocation) (mem : Mem) :
    (∀ (counts : List UInt64) (s : PageState),
      Run PageStep ⟨(bootMemory mmapEntries bits kbits entries mem).pmm,
        (bootMemory mmapEntries bits kbits entries mem).outstanding⟩
        (counts.map PageEvent.alloc) s →
      ∀ a ∈ s.outstanding, a.pages.Apart kernelTables) ↔
    TablesNotFree mmapEntries bits := by
  constructor
  · intro hruns p hp
    by_contra hfree
    simp only [not_or, Nat.not_le, Bool.not_eq_true] at hfree
    obtain ⟨hlim, hclear, hres⟩ := hfree
    have hlow : lowPages ≤ p := le_trans (by decide) hp.1
    obtain ⟨counts, s, hrun, a, ha, hpa⟩ :=
      (handedOut_boot mmapEntries bits kbits entries mem p).mpr ⟨hlim, hclear, hlow, hres⟩
    exact hruns counts s hrun a ha p hpa hp
  · intro hmap counts s hrun a ha p hp htable
    obtain ⟨hlim, hclear, _, hres⟩ :=
      (handedOut_boot mmapEntries bits kbits entries mem p).mp ⟨counts, s, hrun, a, ha, hp⟩
    rcases hmap p htable with hge | hset | hres'
    · omega
    · rw [hset] at hclear
      exact Bool.noConfusion hclear
    · exact hres hres'

/-! ## A machine whose memory is one piece -/

variable {mmapEntries : List MmapEntry} {bits : Bitmap} {b : ℕ}

/-- The page manager after the stack has been allocated. -/
lemma stackPages_takenBelow {pmm : Pmm} (h : TakenBelow pmm b) (hroom : b + 4 ≤ pageLimit pmm) :
    TakenBelow (stackPages pmm) (b + 4) ∧ pageLimit (stackPages pmm) = pageLimit pmm :=
  (physicalPageAlloc_takenBelow h (by decide : (4 : UInt64) ≠ 0) hroom).2

/-- **The heap follows the stack**, and its bookkeeping follows the heap. -/
theorem bootHeap_eq {pmm : Pmm} (h : TakenBelow pmm b) (hroom : b + 0x115 ≤ pageLimit pmm)
    (kbits : Bitmap) (entries : ℕ → Allocation) :
    (kHeapInit (stackPages pmm) kbits entries).1 =
      { kHeapBegin := UInt64.ofNat (b + 4) * PAGESIZE
        kbitmapPtr := UInt64.ofNat (b + 0x104) * PAGESIZE + HIGH_VMA
        kbitmap := memset kbits 0 0x1000
        allocationBitmapPtr := UInt64.ofNat (b + 0x105) * PAGESIZE + HIGH_VMA
        allocationBitmap := memset entries ⟨0, 0⟩ tableEntries } := by
  obtain ⟨hstack, hlim⟩ := stackPages_takenBelow h (by omega)
  exact (kHeapInit_takenBelow hstack (by omega) kbits entries).1

/-- The pages of the heap are among the allocations made at boot. -/
lemma heapPages_mem (h : TakenBelow (initPMM ⟨bits, 0, false⟩ mmapEntries) b)
    (hroom : b + 0x115 ≤ pageLimit (initPMM ⟨bits, 0, false⟩ mmapEntries)) (kbits : Bitmap)
    (entries : ℕ → Allocation) (mem : Mem) :
    allocAt (b + 4) 0x100 ∈ (bootMemory mmapEntries bits kbits entries mem).outstanding := by
  have hbound := pageLimit_lt (initPMM ⟨bits, 0, false⟩ mmapEntries)
  have hrecord : ∀ (base count : UInt64) (a : PageAlloc) (rest : List PageAlloc), a ∈ rest →
      a ∈ recordPages base count rest := by
    intro base count a rest ha
    rw [recordPages]
    split_ifs
    · exact ha
    · exact List.mem_cons_of_mem _ ha
  simp only [bootMemory]
  refine hrecord _ _ _ _ (hrecord _ _ _ _ ?_)
  have hbase : UInt64.ofNat (b + 4) * PAGESIZE ≠ 0 := by
    intro hzero
    have := pageAddress_toNat (show b + 4 < 2 ^ 52 by omega)
    rw [hzero, UInt64.toNat_zero] at this
    omega
  rw [bootHeap_eq h hroom, recordPages, if_neg hbase]
  exact List.mem_cons_self

lemma takenBelow_plainMap : TakenBelow (initPMM ⟨fun _ => 0, 0, false⟩ plainMap) lowPages :=
  takenBelow_initPMM 0 0x2000000

lemma pageLimit_plainMap : pageLimit (initPMM ⟨fun _ => 0, 0, false⟩ plainMap) = 0x2000 := by
  rw [pageLimit_initPMM]
  decide

/-- The page manager on a machine with 32 MiB in one piece, once `bootMain` has its stack. -/
def plainPmm : Pmm := stackPages (initPMM ⟨fun _ => 0, 0, false⟩ plainMap)

lemma plainHeap_eq (kbits : Bitmap) (entries : ℕ → Allocation) :
    (kHeapInit plainPmm kbits entries).1 =
      { kHeapBegin := 0x124000
        kbitmapPtr := 0xffff800000224000
        kbitmap := memset kbits 0 0x1000
        allocationBitmapPtr := 0xffff800000225000
        allocationBitmap := memset entries ⟨0, 0⟩ tableEntries } := by
  rw [plainPmm, bootHeap_eq takenBelow_plainMap (by rw [pageLimit_plainMap]; decide)]
  rfl

/-- On a machine with 32 MiB in one piece the kernel heap itself lies over the page tables. -/
theorem kernelTables_inHeap : ∃ a ∈
    (bootMemory plainMap (fun _ => 0) (fun _ => 0) (fun _ => ⟨0, 0⟩) (fun _ => 0)).outstanding,
    ¬ a.pages.Apart kernelTables := by
  refine ⟨_, heapPages_mem takenBelow_plainMap (by rw [pageLimit_plainMap]; decide) _ _ _, ?_⟩
  rw [pages_allocAt _ (by decide)]
  exact fun hapart => hapart 0x200 (by decide) (by decide)

end Seaweed
