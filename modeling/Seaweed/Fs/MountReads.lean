import Seaweed.Fs.Mount
import Seaweed.Library.SearchReads

/-!
# What mounting reads

The number of inodes is computed from a size in the header, but the array has elements of 29 bytes
and starts behind the header.  For inode `i` the count looks at byte `i` of its name, so it moves on
by 30 bytes a turn.

* `initGFSReads`, `inodeLookUpReads` — the bytes of the super block that are read.
* `inodeLookUp_congr` — no other bytes matter to a look-up.
* `MountInside` — nothing is divided by zero, and nothing outside the 2 MiB is read.
* **`mountInside_iff`** — this is so exactly if the block size is not zero, and the size of an inode
  is at least 31.
-/

namespace Seaweed

open FirstFit Memory Records Sectors Words

/-! ## The bytes that are read -/

/-- The bytes of a field of the header, as offsets in the super block. -/
def fieldReads (offset : ℕ) : List ℕ := List.range' offset 4

/-- Byte `j` of inode `i`. -/
def inodeOffset (i j : ℕ) : ℕ := 0x200 + sizeofInode * i + j

/-- The fields that `initGFS` reads before it counts: `signature`, `blockSize`, `inodeSize`, and
those that it prints. -/
def headerReads : List ℕ := [0, 20, 24, 4, 12, 16].flatMap fieldReads

/-- One turn of the loop: `present` is read only if the byte of the name is not zero, and the number
of unallocated inodes only if the inode is counted. -/
def Gfs.turnReads (g : Gfs) (i : ℕ) : List ℕ :=
  fieldReads 8 ++ [inodeOffset i i] ++
    (if g.mem (g.inode i + UInt64.ofNat i) ≠ 0 then [inodeOffset i 28] else []) ++
    (if g.Counted i then fieldReads 12 else [])

/-- `n` turns. -/
def Gfs.countReads (g : Gfs) : ℕ → List ℕ
  | 0 => []
  | i + 1 => g.countReads i ++ (g.countInodes i).turnReads i

def initGFSReads (g : Gfs) (pmm : Pmm) : List ℕ :=
  let g := { g with superBlock := (physicalPageAlloc pmm 0x200).1 + HIGH_VMA }
  let g := g.transferSectors (fun _ i => SUPER_BLOCK_SECTOR + i) g.superBlock 0 false 0x1000
  if g.signature ≠ MAGIC_NUMBER then fieldReads 0
  else if g.blockSize = 0 ∨ g.inodeSize = 0 then headerReads
  else
    let g := g.initHeader
    headerReads ++ g.countReads g.inodeCount.toNat ++ fieldReads 8

/-- How many bytes `strcmp` reads of its first argument. -/
def strcmpReads (mem : Mem) (a : UInt64) : (b : List UInt8) → ℕ
  | [] => 1
  | x :: b => if mem a ≠ 0 ∧ mem a = x then strcmpReads mem (a + 1) b + 1 else 1

/-- The bytes of inode `i` that a look-up reads. -/
def Gfs.nameReads (g : Gfs) (fileName : CString) (i : ℕ) : List ℕ :=
  (List.range (strcmpReads g.mem (g.inode i) fileName.bytes)).map (inodeOffset i)

def inodeLookUpReads (g : Gfs) (fileName : CString) : List ℕ :=
  fieldReads 8 ++ fieldReads 12 ++
    (stopReads (fun i => strcmp g.mem (g.inode i) fileName.bytes == 0)
      (g.inodeCount - g.unallocatedInode).toNat).flatMap (g.nameReads fileName)

/-- Nothing is divided by zero, and neither mounting nor a later look-up reads anything but the 2
MiB from the disk. -/
structure MountInside (g : Gfs) (pmm : Pmm) : Prop where
  divides : (initGFS g pmm).isSome
  mount : ∀ n ∈ initGFSReads g pmm, n < 0x200000
  lookUp : ∀ g' pmm', initGFS g pmm = some (g', pmm') →
    ∀ fileName, ∀ n ∈ inodeLookUpReads g' fileName, n < 0x200000

variable {g h : Gfs} {pmm : Pmm} {mem mem' : Mem} {a : UInt64} {bytes : List UInt8}
  {fileName : CString} {i j k n z : ℕ}

/-! ## Look-ups -/

/-- `strcmp` depends only on the bytes it reads. -/
lemma strcmp_congr (h : ∀ j, j < strcmpReads mem a bytes →
    mem (a + UInt64.ofNat j) = mem' (a + UInt64.ofNat j)) :
    strcmp mem a bytes = strcmp mem' a bytes := by
  induction bytes generalizing a with
  | nil =>
      have hfirst : mem a = mem' a := by simpa using h 0 (by rw [strcmpReads]; omega)
      rw [strcmp, strcmp, hfirst]
  | cons x bytes ih =>
      have hfirst : mem a = mem' a := by
        simpa using h 0 (by rw [strcmpReads]; split_ifs <;> omega)
      rw [strcmp, strcmp, ← hfirst]
      split_ifs with hsame
      · refine ih fun j hj => ?_
        rw [← add_succ]
        exact h (j + 1) (by rw [strcmpReads, if_pos hsame]; omega)
      · rfl

/-- It does not read past a zero. -/
lemma strcmpReads_le (hz : mem (a + UInt64.ofNat z) = 0) : strcmpReads mem a bytes ≤ z + 1 := by
  induction bytes generalizing a z with
  | nil => rw [strcmpReads]; omega
  | cons x bytes ih =>
      rw [strcmpReads]
      split_ifs with hsame
      · cases z with
        | zero => exact absurd (by simpa using hz) hsame.1
        | succ z =>
            rw [add_succ] at hz
            have := ih hz
            omega
      · omega

lemma inode_add (g : Gfs) (i j : ℕ) :
    g.inode i + UInt64.ofNat j = g.superBlock + UInt64.ofNat (inodeOffset i j) := by
  rw [inode_eq, UInt64.add_assoc, ← UInt64.ofNat_add, inodeOffset]

/-- A field whose bytes are the same. -/
lemma field_eq (hplace : h.superBlock = g.superBlock) (hmem : ∀ n ∈ fieldReads i,
    h.mem (g.superBlock + UInt64.ofNat n) = g.mem (g.superBlock + UInt64.ofNat n)) :
    h.field i = g.field i := by
  rw [Gfs.field, Gfs.field, hplace]
  refine congrArg UInt32.ofNat (load_congr fun k hk => ?_)
  rw [UInt64.add_assoc, ← UInt64.ofNat_add]
  exact hmem (i + k) (List.mem_range'_1.mpr (by omega))

/-- **A look-up depends only on the bytes it reads.** -/
theorem inodeLookUp_congr (hplace : h.superBlock = g.superBlock)
    (hmem : ∀ n ∈ inodeLookUpReads g fileName,
      h.mem (g.superBlock + UInt64.ofNat n) = g.mem (g.superBlock + UInt64.ofNat n)) :
    inodeLookUp h fileName = inodeLookUp g fileName := by
  rw [inodeLookUpReads] at hmem
  obtain ⟨hfields, hnames⟩ := List.forall_mem_append.mp hmem
  obtain ⟨hcount, hfree⟩ := List.forall_mem_append.mp hfields
  have hinodes : h.inodeCount = g.inodeCount := field_eq hplace hcount
  have hunallocated : h.unallocatedInode = g.unallocatedInode := field_eq hplace hfree
  rw [inodeLookUp, inodeLookUp, hinodes, hunallocated]
  refine firstIndex_eq (stopIndex_congr fun i hi => ?_).symm
  have hinode : h.inode i = g.inode i := by rw [inode_eq, inode_eq, hplace]
  have hsame : strcmp g.mem (g.inode i) fileName.bytes = strcmp h.mem (g.inode i) fileName.bytes :=
    strcmp_congr fun j hj => by
      rw [inode_add]
      exact (hnames _ (List.mem_flatMap.mpr
        ⟨i, hi, List.mem_map.mpr ⟨j, List.mem_range.mpr hj, rfl⟩⟩)).symm
  rw [hinode, hsame]

/-- Of the numbers that pass a test, one is as far as there are others before it. -/
lemma exists_of_lt_count {p : ℕ → Prop} [DecidablePred p] (hi : i < Nat.count p n) :
    ∃ k, i ≤ k ∧ k < n ∧ p k := by
  by_contra hnone
  have hrest : Nat.count (fun k => p (i + k)) (n - i) = 0 :=
    Nat.count_iff_forall_not.mpr fun k hk hpass => hnone ⟨i + k, by omega, by omega, hpass⟩
  have hle : Nat.count p i ≤ i := Nat.count_le _
  rcases Nat.lt_or_ge n i with hlt | hge
  · have hle' : Nat.count p n ≤ n := Nat.count_le _
    omega
  · have hsplit := Nat.count_add p i (n - i)
    rw [Nat.add_sub_cancel' hge, hrest] at hsplit
    omega

/-! ## Mounting -/

lemma fieldReads_lt (hi : i + 4 ≤ 0x200) : ∀ n ∈ fieldReads i, n < 0x200000 := fun n hn => by
  have := List.mem_range'_1.mp hn
  omega

lemma headerReads_lt : ∀ n ∈ headerReads, n < 0x200000 := by decide

lemma initGFSReads_eq (hsignature : g.onDisk.signature = MAGIC_NUMBER) (pmm : Pmm) :
    initGFSReads g pmm = if g.onDisk.blockSize = 0 ∨ g.onDisk.inodeSize = 0 then headerReads
      else headerReads ++
        (g.loaded pmm).initHeader.countReads (0x200000 / g.onDisk.inodeSize).toNat ++
          fieldReads 8 := by
  have hread := read_superBlock g pmm
  obtain ⟨hsignature', hblock, hinode⟩ := header_loaded g pmm
  rw [superBlockPlace] at hread
  simp only [initGFSReads, hread]
  rw [if_neg (not_not.mpr (hsignature'.trans hsignature)), hblock, hinode, (initHeader_counts _).1,
    hinode]

/-- Each turn looks at a byte of a name. -/
lemma name_mem_countReads (hi : i < n) : inodeOffset i i ∈ g.countReads n := by
  induction n with
  | zero => omega
  | succ n ih =>
      rw [Gfs.countReads, List.mem_append]
      rcases Nat.lt_succ_iff_lt_or_eq.mp hi with hlt | rfl
      · exact Or.inl (ih hlt)
      · simp [Gfs.turnReads]

/-- That byte is the last one in memory that a turn looks at, but for the first 29 turns. -/
lemma countReads_lt (hn : n ≤ 69888) : ∀ m ∈ g.countReads n, m < 0x200000 := by
  induction n with
  | zero => exact fun m hm => absurd hm List.not_mem_nil
  | succ n ih =>
      rw [Gfs.countReads, Gfs.turnReads]
      refine List.forall_mem_append.mpr ⟨ih (by omega), ?_⟩
      simp only [List.forall_mem_append, List.forall_mem_singleton]
      refine ⟨⟨⟨fieldReads_lt (by omega), ?_⟩, ?_⟩, ?_⟩
      · rw [inodeOffset, sizeofInode]
        omega
      · split_ifs
        · rw [List.forall_mem_singleton, inodeOffset, sizeofInode]
          omega
        · exact fun m hm => absurd hm List.not_mem_nil
      · split_ifs
        · exact fieldReads_lt (by omega)
        · exact fun m hm => absurd hm List.not_mem_nil

/-- A size of 31 leaves few enough inodes. -/
lemma inodes_le_iff {w : UInt32} (hw : w ≠ 0) : (0x200000 / w).toNat ≤ 69888 ↔ 31 ≤ w.toNat := by
  have hpos : 0 < w.toNat := Nat.pos_of_ne_zero fun hzero => hw (UInt32.toNat_inj.mp hzero)
  have hdiv : ((0x200000 : UInt32) / w).toNat = 0x200000 / w.toNat := UInt32.toNat_div _ _
  rw [hdiv]
  constructor
  · intro hle
    by_contra hlt
    have hmany : 0x200000 / 30 ≤ 0x200000 / w.toNat := Nat.div_le_div_left (by omega) hpos
    omega
  · intro hge
    calc 0x200000 / w.toNat ≤ 0x200000 / 31 := Nat.div_le_div_left hge (by omega)
      _ ≤ 69888 := by decide

/-- **A look-up ends at the zero in the last inode that has been counted**: there are at least as
many inodes up to it as are searched. -/
lemma inodeLookUpReads_lt (hn : n = (0x200000 / g.inodeSize).toNat) (hfew : n ≤ 69888)
    (fileName : CString) :
    ∀ m ∈ inodeLookUpReads (g.initHeader.countInodes n) fileName, m < 0x200000 := by
  have hsame : SameInodes g (g.initHeader.countInodes n) :=
    (sameInodes_initHeader g).trans (sameInodes_countInodes _ n)
  have hsearched := searched_count g hn
  generalize hmounted : g.initHeader.countInodes n = h at hsame hsearched
  rw [inodeLookUpReads, hsearched]
  refine List.forall_mem_append.mpr ⟨List.forall_mem_append.mpr
    ⟨fieldReads_lt (by omega), fieldReads_lt (by omega)⟩, fun m hm => ?_⟩
  obtain ⟨i, hi, hm⟩ := List.mem_flatMap.mp hm
  obtain ⟨j, hj, rfl⟩ := List.mem_map.mp hm
  obtain ⟨k, hik, hkn, hcounted⟩ := exists_of_lt_count (mem_stopReads.mp hi).2
  have hpresent : h.mem (h.inode i + UInt64.ofNat (sizeofInode * (k - i) + 28)) = 0 := by
    have hzero : h.mem (h.inode k + UInt64.ofNat 28) = 0 :=
      (hsame.inode (by omega) (by omega)).trans hcounted.2
    have hoffset : inodeOffset i (sizeofInode * (k - i) + 28) = inodeOffset k 28 := by
      rw [inodeOffset, inodeOffset, sizeofInode]
      omega
    rwa [inode_add, hoffset, ← inode_add]
  have hle : strcmpReads h.mem (h.inode i) fileName.bytes ≤ sizeofInode * (k - i) + 28 + 1 :=
    strcmpReads_le hpresent
  have hlt := List.mem_range.mp hj
  rw [inodeOffset]
  rw [sizeofInode] at hle ⊢
  omega

/-- A block size of zero is divided by, and with less than 31 bytes for an inode the name of inode
69888 is looked at, whose byte 69888 is the first one behind the super block. -/
lemma MountInside.sizes (hinside : MountInside g pmm)
    (hsignature : g.onDisk.signature = MAGIC_NUMBER) :
    g.onDisk.blockSize ≠ 0 ∧ 31 ≤ g.onDisk.inodeSize.toNat := by
  have hsizes : ¬(g.onDisk.blockSize = 0 ∨ g.onDisk.inodeSize = 0) := fun hzero => by
    have hdivides := hinside.divides
    rw [mount_none hsignature hzero] at hdivides
    cases hdivides
  obtain ⟨hblock, hinode⟩ := not_or.mp hsizes
  refine ⟨hblock, (inodes_le_iff hinode).mp ?_⟩
  by_contra hmany
  have hmount := hinside.mount
  rw [initGFSReads_eq hsignature, if_neg hsizes] at hmount
  have hlast := hmount (inodeOffset 69888 69888) (List.mem_append_left _ (List.mem_append_right _
    (name_mem_countReads (by omega))))
  exact absurd hlast (by decide)

lemma mountInside_of_sizes (hsignature : g.onDisk.signature = MAGIC_NUMBER)
    (hblock : g.onDisk.blockSize ≠ 0) (hinode : 31 ≤ g.onDisk.inodeSize.toNat) (pmm : Pmm) :
    MountInside g pmm := by
  have hne : g.onDisk.inodeSize ≠ 0 := fun hzero => by
    rw [hzero] at hinode
    exact absurd hinode (by decide)
  have hfew := (inodes_le_iff hne).mpr hinode
  have hloaded : (g.loaded pmm).inodeSize = g.onDisk.inodeSize := field_loaded g pmm (by decide)
  refine ⟨by rw [mount_eq hsignature hblock hne]; rfl, ?_, fun g' pmm' hcall fileName => ?_⟩
  · rw [initGFSReads_eq hsignature, if_neg (not_or.mpr ⟨hblock, hne⟩)]
    exact List.forall_mem_append.mpr ⟨List.forall_mem_append.mpr ⟨headerReads_lt,
      countReads_lt hfew⟩, fieldReads_lt (by omega)⟩
  · rw [mount_eq hsignature hblock hne] at hcall
    obtain ⟨rfl, rfl⟩ := Prod.mk.inj (Option.some.inj hcall)
    exact inodeLookUpReads_lt (by rw [hloaded]) hfew fileName

/-- **Mounting stays inside the super block exactly if the block size is not zero and the size of an
inode is at least 31**, whatever else is on the disk. -/
theorem mountInside_iff (g : Gfs) (pmm : Pmm) (hsignature : g.onDisk.signature = MAGIC_NUMBER) :
    MountInside g pmm ↔ g.onDisk.blockSize ≠ 0 ∧ 31 ≤ g.onDisk.inodeSize.toNat :=
  ⟨fun hinside => hinside.sizes hsignature,
    fun hsizes => mountInside_of_sizes hsignature hsizes.1 hsizes.2 pmm⟩

/-- A disk with nothing but a header, where inodes are said to have 32 bytes. -/
def paddedMachine : Gfs where
  mem := fun _ => 0
  disk := fun s k => if s = SUPER_BLOCK_SECTOR then
    (bytes32 MAGIC_NUMBER ++ List.replicate 16 0 ++ bytes32 4096 ++ bytes32 32)[k]?.getD 0 else 0
  sectorCount := 0x10000
  superBlock := 0

theorem mountInside_padded : MountInside paddedMachine imagePmm :=
  (mountInside_iff paddedMachine imagePmm (by decide +kernel)).mpr
    ⟨by decide +kernel, by decide +kernel⟩

/-- **The image itself**, whose inodes have 29 bytes, is read past its end. -/
theorem mountInside_image : (imageMachine oneInode).onDisk.signature = MAGIC_NUMBER ∧
    (imageMachine oneInode).onDisk.inodeSize = 29 ∧
    ¬MountInside (imageMachine oneInode) imagePmm := by
  have hsignature : (imageMachine oneInode).onDisk.signature = MAGIC_NUMBER :=
    emitted_oneInode.signature
  have hinode : (imageMachine oneInode).onDisk.inodeSize = 29 := emitted_oneInode.inodeSize
  refine ⟨hsignature, hinode, fun hinside => ?_⟩
  have hlarge := (hinside.sizes hsignature).2
  rw [hinode] at hlarge
  exact absurd hlarge (by decide)

end Seaweed
