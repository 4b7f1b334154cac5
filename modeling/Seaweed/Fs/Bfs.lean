import Seaweed.Library.FirstFit
import Seaweed.Library.Records
import Seaweed.Library.Sectors
import Seaweed.Libk.String
import Seaweed.Mm.PhysicalPageManager
import Seaweed.Mm.KHeap

/-!
# The file system (`kernel/fs/bfs.c`)

A super block of 2 MiB, read from the disk when the file system is mounted: a header of one sector
and then the inodes.  A file is the sectors from its block number on.

* `initGFS`, `inodeLookUp` — mounting, and the search for a name.
* `fopen`, `writeBack`, `readIn` — loops that transfer one sector a turn.
* **`transferSectors_read`**, **`transferSectors_write`** — what such a loop does.
-/

namespace Seaweed

open FirstFit Memory Records Sectors Words

def MAGIC_NUMBER : UInt32 := 0x69694200
def SUPER_BLOCK_SECTOR : UInt64 := 0x4000
def FILES_SECTOR : UInt32 := 0x4000 + (0x200000 / 0x200)

/-- The memory, the sectors of drive 0 with their number, and the pointer to the super block. -/
structure Gfs where
  mem : Mem
  disk : Disk
  sectorCount : UInt64
  superBlock : UInt64

/-! ## The super block -/

/-- A field of the header. -/
def Gfs.field (g : Gfs) (offset : ℕ) : UInt32 :=
  UInt32.ofNat (load g.mem (g.superBlock + UInt64.ofNat offset) 4)

def Gfs.setField (g : Gfs) (offset : ℕ) (w : UInt32) : Gfs :=
  { g with mem := store g.mem (g.superBlock + UInt64.ofNat offset) 4 w.toNat }

def Gfs.signature (g : Gfs) : UInt32 := g.field 0
def Gfs.inodeCount (g : Gfs) : UInt32 := g.field 8
def Gfs.unallocatedInode (g : Gfs) : UInt32 := g.field 12
def Gfs.blockSize (g : Gfs) : UInt32 := g.field 20
def Gfs.inodeSize (g : Gfs) : UInt32 := g.field 24

/-- `sizeof(inode_t)`: 20 bytes of `fileName`, `blockNumber`, `blockCount` and `present`. -/
def sizeofInode : ℕ := 29

/-- `&superBlock->inodes[i]`, which is `&superBlock->inodes[i].fileName[0]` as well. -/
def Gfs.inode (g : Gfs) (i : ℤ) : UInt64 := element (g.superBlock + 0x200) sizeofInode i

def Gfs.blockNumber (g : Gfs) (i : ℤ) : UInt32 := UInt32.ofNat (load g.mem (g.inode i + 20) 4)

def Gfs.present (g : Gfs) (i : ℤ) : UInt8 := g.mem (g.inode i + 28)

/-! ## The code -/

/-- `sataRW` for one sector: the drive has done what it was asked for. -/
def Gfs.sataRW (g : Gfs) (start buffer : UInt64) (w : Bool) : Gfs :=
  if w then { g with disk := writeSector g.mem start buffer g.disk }
  else { g with mem := readSector 0x200 g.disk start buffer g.mem }

/-- `n` turns of a loop that transfers sectors, with `i` from `start` on; which sector of the disk
it is may be read from memory again in each turn. -/
def Gfs.transferSectors (g : Gfs) (sector : Gfs → UInt64 → UInt64) (buffer start : UInt64)
    (w : Bool) : ℕ → Gfs
  | 0 => g
  | n + 1 =>
      let g := g.transferSectors sector buffer start w n
      let i := start + UInt64.ofNat n
      g.sataRW (sector g i) (buffer + (i - start) * 0x200) w

/-- The counts in the header. -/
def Gfs.initHeader (g : Gfs) : Gfs :=
  let g := g.setField 4 (g.sectorCount * 512 / g.blockSize.toUInt64).toUInt32
  let g := g.setField 16 (g.sectorCount * 512 / g.blockSize.toUInt64).toUInt32
  let g := g.setField 12 (0x200000 / g.inodeSize)
  g.setField 8 (0x200000 / g.inodeSize)

/-- `(superBlock->inodes[i].fileName[i] != 0) && (superBlock->inodes[i].present == 0)`. -/
def Gfs.Counted (g : Gfs) (i : ℕ) : Prop := g.mem (g.inode i + UInt64.ofNat i) ≠ 0 ∧ g.present i = 0

instance (g : Gfs) : DecidablePred g.Counted := fun _ => inferInstanceAs (Decidable (_ ∧ _))

/-- `n` turns of the loop that counts the inodes in use. -/
def Gfs.countInodes (g : Gfs) : ℕ → Gfs
  | 0 => g
  | i + 1 =>
      let g := g.countInodes i
      if g.Counted i then g.setField 12 (g.unallocatedInode - 1) else g

/-- `none` is a division by zero. -/
def initGFS (g : Gfs) (pmm : Pmm) : Option (Gfs × Pmm) :=
  let g := { g with superBlock := (physicalPageAlloc pmm 0x200).1 + HIGH_VMA }
  let pmm := (physicalPageAlloc pmm 0x200).2
  let g := g.transferSectors (fun _ i => SUPER_BLOCK_SECTOR + i) g.superBlock 0 false 0x1000
  if g.signature ≠ MAGIC_NUMBER then some (g, pmm)
  else if g.blockSize = 0 ∨ g.inodeSize = 0 then none
  else
    let g := g.initHeader
    some (g.countInodes g.inodeCount.toNat, pmm)

def inodeLookUp (g : Gfs) (fileName : CString) : ℤ :=
  firstIndex (fun i => strcmp g.mem (g.inode i) fileName.bytes == 0)
    (g.inodeCount - g.unallocatedInode).toNat

/-- `FILES_SECTOR + superBlock->inodes[index].blockNumber + i`: the first sum has 32 bits. -/
def fileSector (index : ℤ) (g : Gfs) (i : UInt64) : UInt64 :=
  (FILES_SECTOR + g.blockNumber index).toUInt64 + i

def fopen (g : Gfs) (fileName : CString) (buffer initalSize : UInt64) : Gfs :=
  let index := inodeLookUp g fileName
  if index = -1 then g
  else g.transferSectors (fileSector index) buffer 0 false initalSize.toNat

def writeBack (g : Gfs) (fileName : CString) (buffer count : UInt64) : Gfs :=
  let index := inodeLookUp g fileName
  if index = -1 then g
  else g.transferSectors (fileSector index) buffer 0 true count.toNat

/-- `for(i = start; i < count; i++)`. -/
def readIn (g : Gfs) (fileName : CString) (buffer start count : UInt64) : Gfs :=
  let index := inodeLookUp g fileName
  if index = -1 then g
  else g.transferSectors (fileSector index) buffer start false (count.toNat - start.toNat)

variable {g : Gfs} {sector : Gfs → UInt64 → UInt64} {buffer start x : UInt64} {w : UInt32}
  {n i j : ℕ}

/-! ## Fields -/

@[simp] lemma superBlock_setField (g : Gfs) (i : ℕ) (w : UInt32) :
    (g.setField i w).superBlock = g.superBlock := rfl

/-- A field that is set is read back. -/
@[simp] lemma field_setField (g : Gfs) (i : ℕ) (w : UInt32) : (g.setField i w).field i = w := by
  have hw := w.toNat_lt
  rw [Gfs.field, superBlock_setField, Gfs.setField, load_store (by omega),
    Nat.mod_eq_of_lt (by omega), UInt32.ofNat_toNat]

/-- Fields that do not overlap are not touched. -/
lemma field_setField_other (hi : i < 0x200) (hj : j < 0x200) (h : i + 4 ≤ j ∨ j + 4 ≤ i) :
    (g.setField i w).field j = g.field j := by
  rw [Gfs.field, Gfs.field, superBlock_setField, Gfs.setField,
    load_store_apart (apart_offsets _ (by omega) (by omega) h)]

/-- Nor is anything behind the header. -/
lemma mem_setField (hi : i + 4 ≤ 0x200) (hlo : 0x200 ≤ n) (hhi : n < 2 ^ 62) :
    (g.setField i w).mem (g.superBlock + UInt64.ofNat n) =
      g.mem (g.superBlock + UInt64.ofNat n) := by
  have hapart := apart_offsets g.superBlock (n := 4) (k := 1) (i := i) (j := n) (by omega)
    (by omega) (Or.inl (by omega)) 0 (by omega)
  refine store_outside ?_
  simpa using hapart

lemma inode_eq (g : Gfs) (i : ℕ) :
    g.inode i = g.superBlock + UInt64.ofNat (0x200 + sizeofInode * i) := by
  rw [Gfs.inode, element_natCast, UInt64.ofNat_add, ← UInt64.add_assoc]
  rfl

/-! ## Loops that transfer sectors -/

/-- In turn `n` the buffer is `n` sectors further on. -/
lemma transfer_place (buffer start : UInt64) (n : ℕ) :
    buffer + (start + UInt64.ofNat n - start) * 0x200 = buffer + UInt64.ofNat (0x200 * n) := by
  rw [add_ofNat_sub, UInt64.ofNat_mul, UInt64.mul_comm]
  rfl

/-- **Reading**, as long as the choice of the sectors does not depend on what is read. -/
theorem transferSectors_read (hroom : 0x200 * n ≤ 2 ^ 64)
    (hstable : ∀ mem, (∀ x, 0x200 * n ≤ (x - buffer).toNat → mem x = g.mem x) →
      ∀ i, sector { g with mem := mem } i = sector g i) :
    g.transferSectors sector buffer start false n = { g with
      mem := readSectors 0x200 g.disk (fun i => sector g (start + UInt64.ofNat i)) buffer g.mem
        n } := by
  induction n with
  | zero => rfl
  | succ n ih =>
      have hfewer : ∀ x, 0x200 * (n + 1) ≤ (x - buffer).toNat → 0x200 * n ≤ (x - buffer).toNat :=
        fun x hx => by omega
      have hturns := ih (by omega) fun mem hmem => hstable mem fun x hx => hmem x (hfewer x hx)
      have hsector := hstable (readSectors 0x200 g.disk (fun i => sector g (start + UInt64.ofNat i))
        buffer g.mem n) fun x hx => readSectors_outside (by omega) (hfewer x hx)
      rw [Gfs.transferSectors, hturns]
      simp only [hsector, transfer_place, Gfs.sataRW, Bool.false_eq_true, if_false, readSectors]

/-- **Writing**, as long as the choice of the sectors does not depend on what is on the disk. -/
theorem transferSectors_write
    (hstable : ∀ disk i, sector { g with disk := disk } i = sector g i) :
    g.transferSectors sector buffer start true n = { g with
      disk := writeSectors 0x200 g.mem (fun i => sector g (start + UInt64.ofNat i)) buffer g.disk
        n } := by
  induction n with
  | zero => rfl
  | succ n ih =>
      rw [Gfs.transferSectors, ih]
      simp only [hstable, transfer_place, Gfs.sataRW, if_true, writeSectors]

end Seaweed
