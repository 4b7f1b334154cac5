import Seaweed.Library.Memory
import Seaweed.Mm.KHeap

/-!
# The kernel's page tables (`kernel/mm/virtualPageManager.c`)

`initVMM` builds the kernel's paging structures at fixed physical addresses, eight frames from
`kpml4Addr` on.  It takes them without asking the page manager, and the one thing it allocates,
the table of address spaces, comes from the kernel heap.

The memory here is physical memory; `physical` translates the pointers the kernel uses.

* `initVMM` — the tables, the root pointer and the table of address spaces.
* `initVMM_root` — the root pointer and the entries below it name frames of the fixed range.
-/

namespace Seaweed

open Memory Words

def kpml4Addr : UInt64 := 0x200000
def kpml3Addr : UInt64 := 0x200000 + 0x1000
def kpml2Addr_1G : UInt64 := 0x200000 + 0x2000
def kpml2Addr_2G : UInt64 := 0x200000 + 0x3000
def kpml2Addr_3G : UInt64 := 0x200000 + 0x4000
def kpml2Addr_4G : UInt64 := 0x200000 + 0x5000
def kpml2AddrHH : UInt64 := 0x200000 + 0x6000
def kpml3AddrHH : UInt64 := 0x200000 + 0x7000

/-- `x | KPAGE_FLAGS`: present, writable and for user code too. -/
def withKpageFlags (x : UInt64) : UInt64 := x ||| ((1 : UInt64) <<< 2) ||| 0x3

/-- `sizeof(pageDirectoryEntry_t)`. -/
def sizeofPageDirectoryEntry : ℕ := 40

/-- The globals of the virtual page manager, and the register that holds the root. -/
structure Vmm where
  pageDirectoryTables : UInt64
  pageDirectoryCount : UInt64
  cr3 : UInt64

/-- The lower addresses are mapped to themselves and again from `HIGH_VMA` on. -/
def physical (addr : UInt64) : UInt64 := if HIGH_VMA ≤ addr then addr - HIGH_VMA else addr

/-- `memset` on physical memory. -/
def memsetMem (mem : Mem) (src : UInt64) (data : UInt8) (count : ℕ) : Mem := fun x =>
  if (x - src).toNat < count then data else mem x

/-- `table[i] = w`. -/
def storeEntry (mem : Mem) (table : UInt64) (i : ℕ) (w : UInt64) : Mem :=
  store64 mem (table + UInt64.ofNat (8 * i)) w

/-- An entry that maps a page of 2 MiB. -/
def largePage (physical : UInt64) : UInt64 := withKpageFlags (physical ||| ((1 : UInt64) <<< 7))

/-- The first `n` turns of the loop that maps 4 GiB in large pages. -/
def mapLargePages (mem : Mem) : ℕ → Mem
  | 0 => mem
  | n + 1 =>
      let physical := UInt64.ofNat n * 0x200000
      let mem := mapLargePages mem n
      let mem := storeEntry mem kpml2Addr_1G n (largePage physical)
      let mem := storeEntry mem kpml2Addr_2G n (largePage (physical + 0x40000000))
      let mem := storeEntry mem kpml2Addr_3G n (largePage (physical + 0x40000000 * 2))
      let mem := storeEntry mem kpml2Addr_4G n (largePage (physical + 0x40000000 * 3))
      storeEntry mem kpml2AddrHH n (largePage physical)

def initVMM (heap : Heap) (mem : Mem) : Vmm × Heap × Mem :=
  let (directories, heap) := kmalloc heap (UInt64.ofNat (sizeofPageDirectoryEntry * 100))
  let directories := directories.getD 0
  let mem := memsetMem mem (physical directories) 0 (sizeofPageDirectoryEntry * 100)
  let mem := memsetMem mem kpml4Addr 0 0x8000
  let mem := storeEntry mem kpml4Addr 256 (withKpageFlags kpml3Addr)
  let mem := storeEntry mem kpml4Addr 0 (withKpageFlags kpml3Addr)
  let mem := storeEntry mem kpml3Addr 0 (withKpageFlags kpml2Addr_1G)
  let mem := storeEntry mem kpml3Addr 1 (withKpageFlags kpml2Addr_2G)
  let mem := storeEntry mem kpml3Addr 2 (withKpageFlags kpml2Addr_3G)
  let mem := storeEntry mem kpml3Addr 3 (withKpageFlags kpml2Addr_4G)
  let mem := storeEntry mem kpml4Addr 511 (withKpageFlags kpml3AddrHH)
  let mem := storeEntry mem kpml3AddrHH 510 (withKpageFlags kpml2AddrHH)
  ({ pageDirectoryTables := directories, pageDirectoryCount := 1000, cr3 := kpml4Addr }, heap,
    mapLargePages mem 512)

/-! ## The tables are where the root says -/

/-- The word at entry `i` of a table. -/
def entryAt (mem : Mem) (table : UInt64) (i : ℕ) : UInt64 :=
  load64 mem (table + UInt64.ofNat (8 * i))

variable {mem : Mem} {table table' : UInt64} {i j n : ℕ} {w : UInt64}

@[simp] lemma entryAt_storeEntry (mem : Mem) (table : UInt64) (i : ℕ) (w : UInt64) :
    entryAt (storeEntry mem table i w) table i = w := load64_store64 _ _ _

/-- One table ends before the other begins. -/
def TablesApart (table table' : UInt64) : Prop :=
  table.toNat + 0x1000 ≤ table'.toNat ∨ table'.toNat + 0x1000 ≤ table.toNat

instance (table table' : UInt64) : Decidable (TablesApart table table') :=
  inferInstanceAs (Decidable (_ ∨ _))

/-- The offset of an entry from another one, as a number. -/
lemma toNat_entry_sub (table table' : UInt64) (hi : i < 512) (hj : j < 512) :
    (table' + UInt64.ofNat (8 * j) - (table + UInt64.ofNat (8 * i))).toNat
      = (2 ^ 65 + table'.toNat + 8 * j - table.toNat - 8 * i) % 2 ^ 64 := by
  have := table.toNat_lt
  have := table'.toNat_lt
  rw [UInt64.toNat_sub, UInt64.toNat_add, UInt64.toNat_add, toNat_ofNat_of_lt (by omega),
    toNat_ofNat_of_lt (by omega)]
  omega

/-- A store to one table is not seen in another. -/
lemma entryAt_storeEntry_table (h : TablesApart table table') (hlast : table.toNat < 2 ^ 32)
    (hlast' : table'.toNat < 2 ^ 32) (hi : i < 512) (hj : j < 512) :
    entryAt (storeEntry mem table i w) table' j = entryAt mem table' j := by
  rw [TablesApart] at h
  refine load64_store64_apart (apart_of_le ?_ ?_)
  · rw [toNat_entry_sub _ _ hi hj]
    omega
  · rw [toNat_entry_sub _ _ hj hi]
    omega

/-- A store to one entry is not seen in the others of its table. -/
lemma entryAt_storeEntry_index (h : i ≠ j) (hi : i < 512) (hj : j < 512) :
    entryAt (storeEntry mem table i w) table j = entryAt mem table j := by
  refine load64_store64_apart (apart_of_le ?_ ?_)
  · rw [toNat_entry_sub _ _ hi hj]
    omega
  · rw [toNat_entry_sub _ _ hj hi]
    omega

/-- The loop writes to the five tables of large pages only. -/
lemma entryAt_mapLargePages
    (htable : table = kpml4Addr ∨ table = kpml3Addr ∨ table = kpml3AddrHH) (hi : i < 512) (n : ℕ)
    (hn : n ≤ 512) : entryAt (mapLargePages mem n) table i = entryAt mem table i := by
  induction n with
  | zero => rfl
  | succ n ih =>
      have hlast : table.toNat < 2 ^ 32 := by rcases htable with rfl | rfl | rfl <;> decide
      have hskip : ∀ (mem : Mem) (large w : UInt64), TablesApart large table →
          large.toNat < 2 ^ 32 →
          entryAt (storeEntry mem large n w) table i = entryAt mem table i :=
        fun mem large w hne hlarge => entryAt_storeEntry_table hne hlarge hlast (by omega) hi
      have h1G : TablesApart kpml2Addr_1G table := by rcases htable with rfl | rfl | rfl <;> decide
      have h2G : TablesApart kpml2Addr_2G table := by rcases htable with rfl | rfl | rfl <;> decide
      have h3G : TablesApart kpml2Addr_3G table := by rcases htable with rfl | rfl | rfl <;> decide
      have h4G : TablesApart kpml2Addr_4G table := by rcases htable with rfl | rfl | rfl <;> decide
      have hHH : TablesApart kpml2AddrHH table := by rcases htable with rfl | rfl | rfl <;> decide
      rw [mapLargePages, hskip _ _ _ hHH (by decide), hskip _ _ _ h4G (by decide),
        hskip _ _ _ h3G (by decide), hskip _ _ _ h2G (by decide), hskip _ _ _ h1G (by decide)]
      exact ih (by omega)

/-- The entries of the upper two levels: the table, the index, and the table it points to. -/
def upperEntries : List (UInt64 × ℕ × UInt64) :=
  [(kpml4Addr, 256, kpml3Addr), (kpml4Addr, 0, kpml3Addr), (kpml4Addr, 511, kpml3AddrHH),
    (kpml3Addr, 0, kpml2Addr_1G), (kpml3Addr, 1, kpml2Addr_2G), (kpml3Addr, 2, kpml2Addr_3G),
    (kpml3Addr, 3, kpml2Addr_4G), (kpml3AddrHH, 510, kpml2AddrHH)]

/-- **The live paging structures.**  After `initVMM` the root register points to the first of the
eight frames from `kpml4Addr` on, and the upper two levels point to the others. -/
theorem initVMM_root (heap : Heap) (mem : Mem) :
    (initVMM heap mem).1.cr3 = kpml4Addr ∧ ∀ e ∈ upperEntries,
      entryAt (initVMM heap mem).2.2 e.1 e.2.1 = withKpageFlags e.2.2 := by
  refine ⟨rfl, fun e he => ?_⟩
  simp only [initVMM]
  fin_cases he <;> rw [entryAt_mapLargePages (by decide) (by decide) _ le_rfl] <;>
    simp (disch := decide) only [entryAt_storeEntry, entryAt_storeEntry_table,
      entryAt_storeEntry_index]

end Seaweed
