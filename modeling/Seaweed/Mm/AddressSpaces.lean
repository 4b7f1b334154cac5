import Seaweed.Mm.DirectMap

/-!
# Address spaces (`kernel/mm/virtualPageManager.c`)

The table of address spaces, in which an entry whose `pml4` is 0 is free, and the calls that build
an address space and give it back.  The tables of a new one are frames as they come from the page
manager: nothing clears them.

The code reaches the frames through the direct map, so a store to a frame that is not in it faults;
the kernel prints the fault and stops.

The bitmap of the page manager and the directory are values of their own here, and no store to `mem`
changes them.  In the machine they lie in frames too: the stores for more than 512 pages run on into
the frames behind the table, where the directory may be, and the bitmap of a map of more than some
16 GiB reaches beyond conventional memory.

* `createNewAddressSpace`, `freeAddressSpace`, `initAddressSpace` — the code.
* `spaceFrames`, `buildTables`, `createNewAddressSpace_small` — the path with pages of 4 KiB.
-/

namespace Seaweed

open FirstFit Words Memory Paging

/-! ## The code -/

/-- `pageDirectoryEntry_t`. -/
structure PageDirectoryEntry where
  pml4 : UInt64
  pml3 : UInt64
  pml2 : UInt64
  pml1 : UInt64
  flags : UInt64
  deriving DecidableEq, Inhabited

/-- The globals of the virtual page manager, the page manager and the physical memory.
`pageDirectoryTables` is what the pointer points to, as far as it can be addressed. -/
structure AddressSpaces where
  pageDirectoryTables : UInt64 → PageDirectoryEntry
  pageDirectoryCount : UInt64
  pmm : Pmm
  mem : Mem

/-- `table[i] = w` for a virtual address, in the kernel's paging structures; `none` is a fault. -/
def storeVirtual (mem : Mem) (table : UInt64) (i : ℕ) (w : UInt64) : Option Mem :=
  (kernelMap (table + UInt64.ofNat (8 * i))).map fun a => store64 mem a w

/-- The first `n` turns of the loops that map the pages of an address space. -/
def mapPages (mem : Mem) (table physical step flags : UInt64) : ℕ → Option Mem
  | 0 => some mem
  | n + 1 => do
      let mem ← mapPages mem table physical step flags n
      storeVirtual mem table n ((physical + UInt64.ofNat n * step) ||| flags)

def findFirstFreeSlot (s : AddressSpaces) : UInt64 :=
  UInt64.ofInt (firstIndex (fun i => (s.pageDirectoryTables (UInt64.ofNat i)).pml4 == 0)
    s.pageDirectoryCount.toNat)

def createNewAddressSpace (s : AddressSpaces) (size flags : UInt64) :
    Option (UInt64 × AddressSpaces) := do
  let index := findFirstFreeSlot s
  let (pml4, pmm) := physicalPageAlloc s.pmm 1
  let (pml3, pmm) := physicalPageAlloc pmm 1
  let (pml2, pmm) := physicalPageAlloc pmm 1
  let directory := { s.pageDirectoryTables index with
    pml4 := pml4, pml3 := pml3, pml2 := pml2, flags := flags }
  let pml4Virtual := pml4 + HIGH_VMA
  let pml3Virtual := pml3 + HIGH_VMA
  let pml2Virtual := pml2 + HIGH_VMA
  let mem ← storeVirtual s.mem pml4Virtual 256 (withKpageFlags kpml3Addr)
  let mem ← storeVirtual mem pml4Virtual 511 (withKpageFlags kpml3AddrHH)
  let mem ← storeVirtual mem pml4Virtual 0 (withKpageFlags (pml3Virtual - HIGH_VMA))
  let mem ← storeVirtual mem pml3Virtual 0 (withKpageFlags (pml2Virtual - HIGH_VMA))
  if flags &&& ((1 : UInt64) <<< 7) = 0 then
    let (pml1, pmm) := physicalPageAlloc pmm 1
    let pml1Virtual := pml1 + HIGH_VMA
    let mem ← storeVirtual mem pml2Virtual 0 ((pml1Virtual - HIGH_VMA) ||| flags)
    let (physical, pmm) := physicalPageAlloc pmm size
    let mem ← mapPages mem pml1Virtual physical 0x1000 flags size.toNat
    return (index, { s with
      pageDirectoryTables :=
        Function.update s.pageDirectoryTables index { directory with pml1 := pml1 }
      pmm := pmm
      mem := mem })
  else
    let (physical, pmm) := physicalPageAlloc pmm (size * 0x200)
    let mem ← mapPages mem pml2Virtual physical 0x200000 flags size.toNat
    return (index, { s with
      pageDirectoryTables := Function.update s.pageDirectoryTables index directory
      pmm := pmm
      mem := mem })

def freeAddressSpace (s : AddressSpaces) (index : UInt64) : AddressSpaces :=
  let directory := s.pageDirectoryTables index
  let pmm := physicalPageFree s.pmm directory.pml4 1
  let pmm := physicalPageFree pmm directory.pml3 1
  let pmm := physicalPageFree pmm directory.pml2 1
  let pmm := physicalPageFree pmm directory.pml1 1
  { s with
    pageDirectoryTables := Function.update s.pageDirectoryTables index ⟨0, 0, 0, 0, 0⟩
    pmm := pmm }

/-- What the root register holds after the call. -/
def initAddressSpace (s : AddressSpaces) (cr3 index : UInt64) : UInt64 :=
  if s.pageDirectoryCount < index ∨ (s.pageDirectoryTables index).pml4 = 0 then cr3
  else (s.pageDirectoryTables index).pml4

/-! ## The path with pages of 4 KiB -/

/-- What the page manager gives an address space of `size` pages of 4 KiB: the four tables, the
pages, and its own state after that. -/
structure SpaceFrames where
  pml4 : UInt64
  pml3 : UInt64
  pml2 : UInt64
  pml1 : UInt64
  physical : UInt64
  pmm : Pmm

def spaceFrames (pmm : Pmm) (size : UInt64) : SpaceFrames :=
  let (pml4, pmm) := physicalPageAlloc pmm 1
  let (pml3, pmm) := physicalPageAlloc pmm 1
  let (pml2, pmm) := physicalPageAlloc pmm 1
  let (pml1, pmm) := physicalPageAlloc pmm 1
  let (physical, pmm) := physicalPageAlloc pmm size
  ⟨pml4, pml3, pml2, pml1, physical, pmm⟩

/-- The stores of the call. -/
def buildTables (mem : Mem) (f : SpaceFrames) (size flags : UInt64) : Option Mem := do
  let mem ← storeVirtual mem (f.pml4 + HIGH_VMA) 256 (withKpageFlags kpml3Addr)
  let mem ← storeVirtual mem (f.pml4 + HIGH_VMA) 511 (withKpageFlags kpml3AddrHH)
  let mem ← storeVirtual mem (f.pml4 + HIGH_VMA) 0 (withKpageFlags f.pml3)
  let mem ← storeVirtual mem (f.pml3 + HIGH_VMA) 0 (withKpageFlags f.pml2)
  let mem ← storeVirtual mem (f.pml2 + HIGH_VMA) 0 (f.pml1 ||| flags)
  mapPages mem (f.pml1 + HIGH_VMA) f.physical 0x1000 flags size.toNat

/-- The call asks for its frames, builds the tables and takes a slot of the directory. -/
theorem createNewAddressSpace_small (s : AddressSpaces) (size : UInt64) {flags : UInt64}
    (hsmall : flags &&& ((1 : UInt64) <<< 7) = 0) :
    createNewAddressSpace s size flags =
      (buildTables s.mem (spaceFrames s.pmm size) size flags).map fun mem =>
        (findFirstFreeSlot s, { s with
          pageDirectoryTables := Function.update s.pageDirectoryTables (findFirstFreeSlot s)
            { pml4 := (spaceFrames s.pmm size).pml4
              pml3 := (spaceFrames s.pmm size).pml3
              pml2 := (spaceFrames s.pmm size).pml2
              pml1 := (spaceFrames s.pmm size).pml1
              flags := flags }
          pmm := (spaceFrames s.pmm size).pmm
          mem := mem }) := by
  simp only [createNewAddressSpace, buildTables, spaceFrames, if_pos hsmall,
    UInt64.add_sub_cancel, Option.map_eq_bind, Option.bind_eq_bind, Option.bind_assoc]
  rfl

/-! ## A machine whose memory is one piece -/

/-- The virtual page manager on a machine with 32 MiB in one piece, before the first address space:
`initPMM` has marked the pages below `0x120000`. -/
def freshSpaces : AddressSpaces :=
  { pageDirectoryTables := fun _ => ⟨0, 0, 0, 0, 0⟩
    pageDirectoryCount := 1000
    pmm := ⟨fun i => if i < 36 then 0xff else 0, 0x2000000, false⟩
    mem := fun _ => 0 }

lemma pmm_freshSpaces : freshSpaces.pmm = initPMM ⟨fun _ => 0, 0, false⟩ plainMap := by
  have hbits : freshSpaces.pmm.bitmap = (initPMM ⟨fun _ => 0, 0, false⟩ plainMap).bitmap := by
    refine bitmap_ext fun p => ?_
    have hbit : p % 8 < 8 := Nat.mod_lt _ (by decide)
    have hbelow : p / 8 < 36 ↔ p < lowPages := by
      rw [lowPages]
      omega
    rw [takenBelow_plainMap p, isset, freshSpaces]
    simp only [hbelow]
    by_cases hp : p < lowPages
    · rw [if_pos hp, decide_eq_true hp]
      interval_cases p % 8 <;> decide
    · rw [if_neg hp, decide_eq_false hp]
      interval_cases p % 8 <;> decide
  have hrest : ∀ bitmap, (⟨bitmap, 0x2000000, false⟩ : Pmm)
      = { initPMM ⟨fun _ => 0, 0, false⟩ plainMap with bitmap := bitmap } := fun _ => rfl
  rw [show freshSpaces.pmm = ⟨freshSpaces.pmm.bitmap, 0x2000000, false⟩ from rfl, hbits, hrest]

end Seaweed
