import Seaweed.Fs.Bfs

/-!
# Mounting the file system

`initGFS` counts the inodes in use, and `inodeLookUp` looks at as many.  For inode `i` the count
tests byte `i` of `fileName`, where byte 0 is meant: from the second file on it depends on the
length of the name, later on other fields, and behind the table on what is in memory there.

* `InodeTable` — a disk with files of the given names.
* `FindsFiles` — the count and the look-ups are as they should be.
* **`mount_findsFiles_iff`** — that is so exactly if as many files are missed as are counted by
  mistake.
-/

namespace Seaweed

open FirstFit Memory Records Sectors Words

variable {g h : Gfs} {pmm : Pmm} {names : List CString} {w : UInt32} {i j n : ℕ}

/-! ## The super block in memory -/

/-- The super block where it is on the disk, to read its fields. -/
def Gfs.onDisk (g : Gfs) : Gfs where
  mem := fun x =>
    g.disk (SUPER_BLOCK_SECTOR + UInt64.ofNat (x.toNat / 0x200)) (x.toNat % 0x200)
  disk := g.disk
  sectorCount := g.sectorCount
  superBlock := 0

/-- The place that `initGFS` gets for it. -/
def superBlockPlace (pmm : Pmm) : UInt64 := (physicalPageAlloc pmm 0x200).1 + HIGH_VMA

/-- The 2 MiB from the disk are there; behind them is what was there before. -/
def Gfs.loaded (g : Gfs) (pmm : Pmm) : Gfs where
  mem := fun x => if (x - superBlockPlace pmm).toNat < 0x200000 then
    g.onDisk.mem (x - superBlockPlace pmm) else g.mem x
  disk := g.disk
  sectorCount := g.sectorCount
  superBlock := superBlockPlace pmm

/-- The loop that reads the super block. -/
lemma read_superBlock (g : Gfs) (pmm : Pmm) :
    Gfs.transferSectors { g with superBlock := superBlockPlace pmm }
      (fun _ i => SUPER_BLOCK_SECTOR + i) (superBlockPlace pmm) 0 false 0x1000 = g.loaded pmm := by
  have hsize : 0x200 * 0x1000 = 0x200000 := rfl
  have hmem : readSectors 0x200 g.disk
      (fun i => SUPER_BLOCK_SECTOR + (0 + UInt64.ofNat i)) (superBlockPlace pmm) g.mem 0x1000
      = (g.loaded pmm).mem := by
    funext x
    rw [readSectors_apply (by omega), hsize, UInt64.zero_add]
    rfl
  rw [transferSectors_read (by omega) fun _ _ _ => rfl, hmem]
  rfl

lemma mem_loaded (g : Gfs) (pmm : Pmm) (hi : i < 0x200000) :
    (g.loaded pmm).mem ((g.loaded pmm).superBlock + UInt64.ofNat i) =
      g.onDisk.mem (g.onDisk.superBlock + UInt64.ofNat i) := by
  show (if (superBlockPlace pmm + UInt64.ofNat i - superBlockPlace pmm).toNat < 0x200000 then
    g.onDisk.mem (superBlockPlace pmm + UInt64.ofNat i - superBlockPlace pmm) else _) = _
  rw [toNat_add_ofNat_sub _ (by omega), if_pos hi, add_ofNat_sub]
  exact congrArg g.onDisk.mem (UInt64.zero_add _).symm

lemma field_loaded (g : Gfs) (pmm : Pmm) (hi : i + 4 ≤ 0x200) :
    (g.loaded pmm).field i = g.onDisk.field i := by
  refine congrArg UInt32.ofNat (load_congr fun k hk => ?_)
  rw [UInt64.add_assoc, UInt64.add_assoc, ← UInt64.ofNat_add]
  exact mem_loaded g pmm (by omega)

/-! ## What counting leaves alone -/

/-- The inodes of `g` and `h`, and what lies behind them, are the same. -/
structure SameInodes (g h : Gfs) : Prop where
  superBlock : h.superBlock = g.superBlock
  mem : ∀ n, 0x200 ≤ n → n < 2 ^ 62 →
    h.mem (h.superBlock + UInt64.ofNat n) = g.mem (g.superBlock + UInt64.ofNat n)

lemma sameInodes_refl (g : Gfs) : SameInodes g g := ⟨rfl, fun _ _ _ => rfl⟩

lemma SameInodes.trans {g' : Gfs} (hsame : SameInodes g h) (hsame' : SameInodes h g') :
    SameInodes g g' where
  superBlock := hsame'.superBlock.trans hsame.superBlock
  mem := fun n hlo hhi => (hsame'.mem n hlo hhi).trans (hsame.mem n hlo hhi)

lemma SameInodes.setField (hsame : SameInodes g h) (hi : i + 4 ≤ 0x200) (w : UInt32) :
    SameInodes g (h.setField i w) where
  superBlock := hsame.superBlock
  mem := fun n hlo hhi => (mem_setField hi hlo hhi).trans (hsame.mem n hlo hhi)

lemma sameInodes_initHeader (g : Gfs) : SameInodes g g.initHeader :=
  ((((sameInodes_refl g).setField (by decide) _).setField (by decide) _).setField (by decide)
    _).setField (by decide) _

lemma sameInodes_countInodes (g : Gfs) (n : ℕ) : SameInodes g (g.countInodes n) := by
  induction n with
  | zero => exact sameInodes_refl g
  | succ n ih =>
      rw [Gfs.countInodes]
      split_ifs
      · exact ih.setField (by decide) _
      · exact ih

/-- A byte of an inode, or behind it. -/
lemma SameInodes.inode (hsame : SameInodes g h) (hi : i < 2 ^ 32) (hj : j < 2 ^ 32) :
    h.mem (h.inode i + UInt64.ofNat j) = g.mem (g.inode i + UInt64.ofNat j) := by
  rw [inode_eq, inode_eq, UInt64.add_assoc, UInt64.add_assoc, ← UInt64.ofNat_add]
  exact hsame.mem _ (by omega) (by rw [sizeofInode]; omega)

lemma SameInodes.counted_iff (hsame : SameInodes g h) (hi : i < 2 ^ 32) :
    h.Counted i ↔ g.Counted i := by
  have hpresent : h.present i = g.present i := hsame.inode (j := 28) hi (by omega)
  rw [Gfs.Counted, Gfs.Counted, hsame.inode hi hi, hpresent]

/-- A field that the loop does not change. -/
lemma field_countInodes (hi : i + 4 ≤ 12 ∨ 16 ≤ i) (hlt : i < 0x200) (n : ℕ) :
    (g.countInodes n).field i = g.field i := by
  induction n with
  | zero => rfl
  | succ n ih =>
      rw [Gfs.countInodes]
      split_ifs
      · rw [field_setField_other (by decide) hlt (by omega), ih]
      · exact ih

/-- **The loop that counts** subtracts one for every inode that passes the test. -/
theorem unallocatedInode_countInodes (hsame : SameInodes g h) (hn : n ≤ 2 ^ 32) :
    (h.countInodes n).unallocatedInode =
      h.unallocatedInode - UInt32.ofNat (Nat.count g.Counted n) := by
  induction n with
  | zero => exact (UInt32.sub_zero _).symm
  | succ n ih =>
      have hcounted := ((sameInodes_countInodes h n).counted_iff (i := n) (by omega)).trans
        (hsame.counted_iff (by omega))
      rw [Gfs.countInodes, Nat.count_succ]
      by_cases htest : g.Counted n
      · rw [if_pos (hcounted.mpr htest), if_pos htest, Gfs.unallocatedInode, field_setField,
          ih (by omega), UInt32.ofNat_add, UInt32.sub_eq_add_neg, UInt32.sub_eq_add_neg,
          UInt32.sub_eq_add_neg, UInt32.neg_add, UInt32.sub_eq_add_neg, UInt32.add_assoc]
        rfl
      · rw [if_neg (fun hpass => htest (hcounted.mp hpass)), if_neg htest]
        exact ih (by omega)

/-! ## What mounting does -/

/-- `0x200000 / superBlock->inodeSize`. -/
def inodesCounted : ℕ := 0x200000 / sizeofInode

lemma initHeader_counts (g : Gfs) :
    g.initHeader.inodeCount = 0x200000 / g.inodeSize ∧
      g.initHeader.unallocatedInode = 0x200000 / g.inodeSize := by
  have hfirst : ∀ b c, ((g.setField 4 b).setField 16 c).inodeSize = g.inodeSize := by
    intro b c
    rw [Gfs.inodeSize, field_setField_other (by decide) (by decide) (by decide),
      field_setField_other (by decide) (by decide) (by decide), Gfs.inodeSize]
  have hsecond : ∀ b c d, (((g.setField 4 b).setField 16 c).setField 12 d).inodeSize =
      g.inodeSize := by
    intro b c d
    rw [Gfs.inodeSize, field_setField_other (by decide) (by decide) (by decide)]
    exact hfirst b c
  rw [Gfs.initHeader]
  constructor
  · rw [Gfs.inodeCount, field_setField, hsecond]
  · rw [Gfs.unallocatedInode, field_setField_other (by decide) (by decide) (by decide),
      field_setField, hfirst]

/-- The fields that `initGFS` looks at are those on the disk. -/
lemma header_loaded (g : Gfs) (pmm : Pmm) : (g.loaded pmm).signature = g.onDisk.signature ∧
    (g.loaded pmm).blockSize = g.onDisk.blockSize ∧ (g.loaded pmm).inodeSize = g.onDisk.inodeSize :=
  ⟨field_loaded g pmm (by decide), field_loaded g pmm (by decide), field_loaded g pmm (by decide)⟩

lemma initGFS_loaded (hsignature : g.onDisk.signature = MAGIC_NUMBER) (pmm : Pmm) :
    initGFS g pmm = if g.onDisk.blockSize = 0 ∨ g.onDisk.inodeSize = 0 then none
      else some ((g.loaded pmm).initHeader.countInodes (0x200000 / g.onDisk.inodeSize).toNat,
        (physicalPageAlloc pmm 0x200).2) := by
  have hread := read_superBlock g pmm
  obtain ⟨hsignature', hblock, hinode⟩ := header_loaded g pmm
  rw [superBlockPlace] at hread
  simp only [initGFS, hread]
  rw [if_neg (not_not.mpr (hsignature'.trans hsignature)), hblock, hinode, (initHeader_counts _).1,
    hinode]

/-- Mounting comes to its end if neither size is zero. -/
lemma mount_eq (hsignature : g.onDisk.signature = MAGIC_NUMBER) (hblock : g.onDisk.blockSize ≠ 0)
    (hinode : g.onDisk.inodeSize ≠ 0) (pmm : Pmm) :
    initGFS g pmm =
      some ((g.loaded pmm).initHeader.countInodes (0x200000 / g.onDisk.inodeSize).toNat,
      (physicalPageAlloc pmm 0x200).2) := by
  rw [initGFS_loaded hsignature, if_neg (not_or.mpr ⟨hblock, hinode⟩)]

/-- A size of zero is divided by. -/
lemma mount_none (hsignature : g.onDisk.signature = MAGIC_NUMBER)
    (hzero : g.onDisk.blockSize = 0 ∨ g.onDisk.inodeSize = 0) (pmm : Pmm) :
    initGFS g pmm = none := by
  rw [initGFS_loaded hsignature, if_pos hzero]

/-- **The number of inodes that are searched** is the number of those that pass the test. -/
lemma searched_count (h : Gfs) (hn : n = (0x200000 / h.inodeSize).toNat) :
    ((h.initHeader.countInodes n).inodeCount -
      (h.initHeader.countInodes n).unallocatedInode).toNat =
      Nat.count h.Counted n := by
  have hlt : n < 2 ^ 32 := hn ▸ UInt32.toNat_lt _
  have hle : Nat.count h.Counted n ≤ n := Nat.count_le _
  have hcancel : ∀ a b : UInt32, a - (a - b) = b := by
    intro a b
    rw [UInt32.sub_eq_iff_eq_add, UInt32.add_comm, UInt32.sub_add_cancel]
  obtain ⟨hinodes, hunallocated⟩ := initHeader_counts h
  rw [unallocatedInode_countInodes (sameInodes_initHeader h) (by omega), hunallocated,
    Gfs.inodeCount, field_countInodes (by decide) (by decide)]
  change (h.initHeader.inodeCount - _).toNat = _
  rw [hinodes, hcancel, UInt32.toNat_ofNat', Nat.mod_eq_of_lt (by omega)]

/-- The state in which `initGFS` ends. -/
def Gfs.mounted (g : Gfs) (pmm : Pmm) : Gfs := (g.loaded pmm).initHeader.countInodes inodesCounted

lemma sameInodes_mounted (g : Gfs) (pmm : Pmm) : SameInodes (g.loaded pmm) (g.mounted pmm) :=
  (sameInodes_initHeader _).trans (sameInodes_countInodes _ _)

/-- The disk of a file system with files of the given names: they are at the beginning of the table,
each with its NUL in the 20 bytes of `fileName`, and the rest of the table is zero. -/
structure InodeTable (g : Gfs) (names : List CString) : Prop where
  signature : g.onDisk.signature = MAGIC_NUMBER
  inodeSize : g.onDisk.inodeSize = UInt32.ofNat sizeofInode
  room : 0x200 + sizeofInode * names.length ≤ 0x200000
  different : names.Nodup
  nonempty : ∀ name ∈ names, name.bytes ≠ []
  short : ∀ name ∈ names, name.bytes.length < 20
  fileName : ∀ i (hi : i < names.length),
    StringAt g.onDisk.mem (g.onDisk.inode i) (names[i]).bytes
  present : ∀ i : ℕ, i < names.length → g.onDisk.present i = 0
  rest : ∀ n, 0x200 + sizeofInode * names.length ≤ n → n < 0x200000 →
    g.onDisk.mem (g.onDisk.superBlock + UInt64.ofNat n) = 0

lemma InodeTable.initGFS_eq (htable : InodeTable g names) (pmm : Pmm)
    (hblock : g.onDisk.blockSize ≠ 0) :
    initGFS g pmm = some (g.mounted pmm, (physicalPageAlloc pmm 0x200).2) := by
  have hinode := htable.inodeSize
  rw [mount_eq htable.signature hblock (by rw [hinode]; decide), hinode]
  rfl

/-- A block size of zero is divided by. -/
lemma InodeTable.initGFS_none (htable : InodeTable g names) (pmm : Pmm)
    (hblock : g.onDisk.blockSize = 0) : initGFS g pmm = none :=
  mount_none htable.signature (Or.inl hblock) pmm

lemma InodeTable.searched (htable : InodeTable g names) (pmm : Pmm) :
    ((g.mounted pmm).inodeCount - (g.mounted pmm).unallocatedInode).toNat =
      Nat.count (g.loaded pmm).Counted inodesCounted := by
  refine searched_count (g.loaded pmm) ?_
  rw [Gfs.inodeSize, field_loaded g pmm (by decide)]
  exact (congrArg (fun w => (0x200000 / w).toNat) htable.inodeSize).symm

/-- A byte of an inode that has been read from the disk. -/
lemma mem_inode_loaded (g : Gfs) (pmm : Pmm) (h : 0x200 + sizeofInode * i + j < 0x200000) :
    (g.loaded pmm).mem ((g.loaded pmm).inode i + UInt64.ofNat j) =
      g.onDisk.mem (g.onDisk.inode i + UInt64.ofNat j) := by
  rw [inode_eq, inode_eq, UInt64.add_assoc, UInt64.add_assoc, ← UInt64.ofNat_add]
  exact mem_loaded g pmm h

lemma mem_inode_mounted (g : Gfs) (pmm : Pmm) (h : 0x200 + sizeofInode * i + j < 0x200000) :
    (g.mounted pmm).mem ((g.mounted pmm).inode i + UInt64.ofNat j) =
      g.onDisk.mem (g.onDisk.inode i + UInt64.ofNat j) := by
  have hi : i < 2 ^ 32 := by
    rw [sizeofInode] at h
    omega
  rw [(sameInodes_mounted g pmm).inode hi (by omega), mem_inode_loaded g pmm h]

/-- The names of the files are where `inodeLookUp` looks for them. -/
lemma InodeTable.stringAt_iff (htable : InodeTable g names) (pmm : Pmm) (hi : i < names.length)
    (name : CString) :
    StringAt (g.mounted pmm).mem ((g.mounted pmm).inode i) name.bytes ↔ names[i] = name := by
  have hroom := htable.room
  have hshort := htable.short names[i] (List.getElem_mem hi)
  have hmul : sizeofInode * (i + 1) ≤ sizeofInode * names.length := Nat.mul_le_mul_left _ hi
  have hthere : StringAt (g.mounted pmm).mem ((g.mounted pmm).inode i) (names[i]).bytes := by
    refine (stringAt_congr fun j hj => mem_inode_mounted g pmm ?_).mpr (htable.fileName i hi)
    rw [sizeofInode] at *
    omega
  constructor
  · intro hname
    exact CString.ext (hthere.unique hname (names[i]).noNul name.noNul)
  · rintro rfl
    exact hthere

/-- If all files are searched and nothing else, they are found and nothing else. -/
lemma InodeTable.inodeLookUp_eq (htable : InodeTable g names) {pmm : Pmm}
    (hcount : Nat.count (g.loaded pmm).Counted inodesCounted = names.length) (name : CString) :
    (∀ i (hi : i < names.length), names[i] = name → inodeLookUp (g.mounted pmm) name = i) ∧
      (name ∉ names → inodeLookUp (g.mounted pmm) name = -1) := by
  have hzero : ∀ i, (strcmp (g.mounted pmm).mem ((g.mounted pmm).inode i) name.bytes == 0) = true ↔
      StringAt (g.mounted pmm).mem ((g.mounted pmm).inode i) name.bytes := fun i => by
    rw [beq_iff_eq, strcmp_eq_zero_iff name.noNul]
  rw [inodeLookUp, htable.searched pmm, hcount]
  rcases firstIndex_cases (fun i => strcmp (g.mounted pmm).mem ((g.mounted pmm).inode i)
    name.bytes == 0) names.length with ⟨m, hm, hlt, hsame, _⟩ | ⟨hnone, hall⟩
  · have hname := (htable.stringAt_iff pmm hlt name).mp ((hzero m).mp hsame)
    rw [hm]
    refine ⟨fun i hi heq => ?_, fun hnot => absurd (hname ▸ List.getElem_mem hlt) hnot⟩
    rw [(List.Nodup.getElem_inj_iff htable.different).mp (heq.trans hname.symm)]
  · rw [hnone]
    refine ⟨fun i hi heq => ?_, fun _ => rfl⟩
    have hdiffers := hall i hi
    rw [← Bool.not_eq_true, hzero i, htable.stringAt_iff pmm hi name] at hdiffers
    exact absurd heq hdiffers

/-! ## All files are found -/

/-- After mounting, as many inodes are searched as there are files, and a look-up finds the files
and nothing else. -/
def FindsFiles (g : Gfs) (pmm : Pmm) (names : List CString) : Prop :=
  ∃ g' pmm', initGFS g pmm = some (g', pmm') ∧
    (g'.inodeCount - g'.unallocatedInode).toNat = names.length ∧
    (∀ i (hi : i < names.length), inodeLookUp g' names[i] = i) ∧
    ∀ name : CString, name.bytes ≠ [] → name ∉ names → inodeLookUp g' name = -1

lemma InodeTable.findsFiles_iff_count (htable : InodeTable g names) (pmm : Pmm) :
    FindsFiles g pmm names ↔ g.onDisk.blockSize ≠ 0 ∧
      Nat.count (g.loaded pmm).Counted inodesCounted = names.length := by
  constructor
  · rintro ⟨g', pmm', hmount, hcount, _⟩
    have hblock : g.onDisk.blockSize ≠ 0 := by
      intro hzero
      rw [htable.initGFS_none pmm hzero] at hmount
      cases hmount
    rw [htable.initGFS_eq pmm hblock] at hmount
    obtain ⟨rfl, rfl⟩ := Prod.mk.inj (Option.some.inj hmount)
    exact ⟨hblock, (htable.searched pmm).symm.trans hcount⟩
  · rintro ⟨hblock, hcount⟩
    exact ⟨_, _, htable.initGFS_eq pmm hblock, (htable.searched pmm).trans hcount,
      fun i hi => (htable.inodeLookUp_eq hcount _).1 i hi rfl,
      fun name _ hnot => (htable.inodeLookUp_eq hcount name).2 hnot⟩

/-- The byte that the count tests for inode `i`. -/
def Gfs.tested (g : Gfs) (i : ℕ) : UInt8 := g.mem (g.inode i + UInt64.ofNat i)

/-- A file passes the test unless the byte is 0. -/
lemma InodeTable.counted_iff (htable : InodeTable g names) (pmm : Pmm) (hi : i < names.length) :
    (g.loaded pmm).Counted i ↔ (g.loaded pmm).tested i ≠ 0 := by
  have hroom := htable.room
  have hmul : sizeofInode * (i + 1) ≤ sizeofInode * names.length := Nat.mul_le_mul_left _ hi
  have hplace : 0x200 + sizeofInode * i + 28 < 0x200000 := by
    rw [sizeofInode] at *
    omega
  have hpresent : (g.loaded pmm).present i = 0 :=
    (mem_inode_loaded g pmm hplace).trans (htable.present i hi)
  exact and_iff_left hpresent

/-- What a test finds and misses among the first `k` numbers adds up. -/
lemma count_add_count_not (p : ℕ → Prop) [DecidablePred p] (k : ℕ) :
    Nat.count p k + Nat.count (fun i => ¬p i) k = k := by
  induction k with
  | zero => simp
  | succ k ih =>
      rw [Nat.count_succ, Nat.count_succ]
      by_cases hk : p k
      · rw [if_pos hk, if_neg (not_not.mpr hk)]
        omega
      · rw [if_neg hk, if_pos hk]
        omega

/-- **Mounting finds all files** exactly if the block size is not zero, and the files with a zero
byte where the count tests are as many as the inodes behind the table that pass the test. -/
theorem mount_findsFiles_iff (htable : InodeTable g names) (pmm : Pmm) :
    FindsFiles g pmm names ↔ g.onDisk.blockSize ≠ 0 ∧
      Nat.count (fun i => (g.loaded pmm).tested i = 0) names.length =
        Nat.count (fun i => (g.loaded pmm).Counted (names.length + i))
          (inodesCounted - names.length) := by
  have hroom := htable.room
  have hle : names.length ≤ inodesCounted := by
    rw [inodesCounted, Nat.le_div_iff_mul_le (by decide), Nat.mul_comm]
    omega
  have hmissed : Nat.count (fun i => (g.loaded pmm).tested i = 0) names.length =
      Nat.count (fun i => ¬(g.loaded pmm).Counted i) names.length := by
    refine le_antisymm (Nat.count_mono_left fun i hi hzero => ?_)
      (Nat.count_mono_left fun i hi hnot => ?_)
    · rw [htable.counted_iff pmm hi]
      exact not_not.mpr hzero
    · rw [htable.counted_iff pmm hi] at hnot
      exact not_not.mp hnot
  have hsplit := Nat.count_add (g.loaded pmm).Counted names.length (inodesCounted - names.length)
  have hsum := count_add_count_not (g.loaded pmm).Counted names.length
  rw [Nat.add_sub_cancel' hle] at hsplit
  rw [htable.findsFiles_iff_count pmm, hmissed, hsplit]
  exact and_congr_right fun _ => by omega

/-- Behind the files the count tests zeros, if memory behind the super block is zero. -/
lemma InodeTable.tested_behind (htable : InodeTable g names) {pmm : Pmm}
    (hzero : ∀ n, 0x200000 ≤ n → n < 0x220000 →
      g.mem (superBlockPlace pmm + UInt64.ofNat n) = 0)
    (hlo : names.length ≤ i) (hhi : i < inodesCounted) : (g.loaded pmm).tested i = 0 := by
  have hmul : sizeofInode * names.length ≤ sizeofInode * i := Nat.mul_le_mul_left _ hlo
  have hlast : i < 72315 := hhi
  rcases Nat.lt_or_ge (0x200 + sizeofInode * i + i) 0x200000 with hin | hout
  · rw [Gfs.tested, mem_inode_loaded g pmm hin, inode_eq, UInt64.add_assoc, ← UInt64.ofNat_add]
    exact htable.rest _ (by omega) hin
  · have hsize : 0x200 + sizeofInode * i + i < 0x220000 := by
      rw [sizeofInode]
      omega
    rw [Gfs.tested, inode_eq, UInt64.add_assoc, ← UInt64.ofNat_add]
    show (if (superBlockPlace pmm + _ - superBlockPlace pmm).toNat < 0x200000 then _ else _) = _
    rw [toNat_add_ofNat_sub _ (by omega), if_neg (by omega)]
    exact hzero _ hout hsize

/-- **With zeros behind the super block** no file may have a zero byte where the count tests. -/
theorem findsFiles_zeroBehind_iff (htable : InodeTable g names) (pmm : Pmm)
    (hzero : ∀ n, 0x200000 ≤ n → n < 0x220000 →
      g.mem (superBlockPlace pmm + UInt64.ofNat n) = 0) :
    FindsFiles g pmm names ↔ g.onDisk.blockSize ≠ 0 ∧
      ∀ i < names.length, (g.loaded pmm).tested i ≠ 0 := by
  have hroom := htable.room
  have hle : names.length ≤ inodesCounted := by
    rw [inodesCounted, Nat.le_div_iff_mul_le (by decide), Nat.mul_comm]
    omega
  have hsplit := Nat.count_add (g.loaded pmm).Counted names.length (inodesCounted - names.length)
  have hbehind : Nat.count (fun i => (g.loaded pmm).Counted (names.length + i))
      (inodesCounted - names.length) = 0 := by
    refine Nat.count_iff_forall_not.mpr fun i hi hcounted => ?_
    exact hcounted.1 (htable.tested_behind hzero (by omega) (by omega))
  rw [Nat.add_sub_cancel' hle, hbehind, Nat.add_zero] at hsplit
  rw [htable.findsFiles_iff_count pmm, hsplit, Nat.count_iff_forall]
  exact and_congr_right fun _ => forall₂_congr fun i hi => htable.counted_iff pmm hi

/-! ## The inodes of the image -/

/-- The four bytes of `dd`. -/
def bytes32 (w : UInt32) : List UInt8 :=
  [w.toUInt8, (w >>> 8).toUInt8, (w >>> 16).toUInt8, (w >>> 24).toUInt8]

/-- The macro `createInode` of `libk/asmMacros.inc`. -/
def createInode (fileName : CString) (padding : ℕ) (blockNumber blockCount : UInt32) :
    List UInt8 :=
  fileName.bytes ++ [0] ++ List.replicate padding 0 ++ bytes32 blockNumber ++ bytes32 blockCount
    ++ [0]

/-- An inode whose name is padded to 20 bytes. -/
structure Inode where
  fileName : CString
  blockNumber : UInt32
  blockCount : UInt32
  nonempty : fileName.bytes ≠ []
  short : fileName.bytes.length < 20

def Inode.bytes (inode : Inode) : List UInt8 :=
  createInode inode.fileName (19 - inode.fileName.bytes.length) inode.blockNumber inode.blockCount

lemma Inode.length_bytes (inode : Inode) : inode.bytes.length = sizeofInode := by
  have hshort := inode.short
  simp only [Inode.bytes, createInode, bytes32, List.length_append, List.length_cons,
    List.length_nil, List.length_replicate, sizeofInode]
  omega

/-- Byte `j` of `fileName` is 0 from the end of the name on. -/
lemma Inode.fileName_byte (inode : Inode) (hj : j < 20) :
    inode.bytes[j]?.getD 0 = inode.fileName.bytes[j]?.getD 0 := by
  have hshort := inode.short
  simp only [Inode.bytes, createInode, List.append_assoc]
  rcases Nat.lt_or_ge j inode.fileName.bytes.length with hlt | hge
  · rw [List.getElem?_append_left hlt]
  · rw [List.getElem?_append_right hge, List.getElem?_eq_none hge]
    rcases Nat.eq_zero_or_pos (j - inode.fileName.bytes.length) with h0 | hpos
    · rw [h0]
      rfl
    · obtain ⟨m, hm⟩ :=
        Nat.exists_eq_succ_of_ne_zero (by omega : j - inode.fileName.bytes.length ≠ 0)
      rw [hm, List.singleton_append, List.getElem?_cons_succ, List.getElem?_append_left (by
        rw [List.length_replicate]
        omega), List.getElem?_replicate]
      split_ifs <;> rfl

lemma Inode.present_byte (inode : Inode) : inode.bytes[28]?.getD 0 = 0 := by
  have hshort := inode.short
  have hlength : (inode.fileName.bytes ++ [0] ++
      List.replicate (19 - inode.fileName.bytes.length) 0 ++ bytes32 inode.blockNumber ++
      bytes32 inode.blockCount).length = 28 := by
    simp only [bytes32, List.length_append, List.length_cons, List.length_nil,
      List.length_replicate]
    omega
  rw [Inode.bytes, createInode, List.getElem?_append_right (by omega), hlength]
  rfl

/-- Pieces of one length, one after the other. -/
lemma getElem?_flatMap {α β : Type*} {f : α → List β} {l : List α} {size : ℕ}
    (hsize : ∀ x, (f x).length = size) (hi : i < l.length) (hj : j < size) :
    (l.flatMap f)[size * i + j]? = (f l[i])[j]? := by
  induction l generalizing i with
  | nil => simp at hi
  | cons x l ih =>
      rw [List.flatMap_cons]
      cases i with
      | zero =>
          rw [Nat.mul_zero, Nat.zero_add, List.getElem?_append_left (by rw [hsize]; exact hj)]
          rfl
      | succ i =>
          have hplace : size * (i + 1) + j - (f x).length = size * i + j := by
            rw [hsize, Nat.mul_succ]
            omega
          rw [List.getElem?_append_right (by rw [hsize, Nat.mul_succ]; omega), hplace,
            ih (by simpa using hi)]
          rfl

/-- The disk of an image that the macro has filled with inodes. -/
structure Emitted (g : Gfs) (inodes : List Inode) : Prop where
  signature : g.onDisk.signature = MAGIC_NUMBER
  inodeSize : g.onDisk.inodeSize = UInt32.ofNat sizeofInode
  room : 0x200 + sizeofInode * inodes.length ≤ 0x200000
  different : (inodes.map Inode.fileName).Nodup
  table : ∀ n, 0x200 + n < 0x200000 →
    g.onDisk.mem (g.onDisk.superBlock + UInt64.ofNat (0x200 + n)) =
      (inodes.flatMap Inode.bytes)[n]?.getD 0

variable {inodes : List Inode}

lemma Emitted.byte (h : Emitted g inodes) (hi : i < inodes.length) (hj : j < sizeofInode) :
    g.onDisk.mem (g.onDisk.inode i + UInt64.ofNat j) = (inodes[i]).bytes[j]?.getD 0 := by
  have hroom := h.room
  have hmul : sizeofInode * (i + 1) ≤ sizeofInode * inodes.length := Nat.mul_le_mul_left _ hi
  have htable := h.table (sizeofInode * i + j) (by rw [Nat.mul_succ] at hmul; omega)
  rw [getElem?_flatMap Inode.length_bytes hi hj] at htable
  rw [inode_eq, UInt64.add_assoc, ← UInt64.ofNat_add, Nat.add_assoc, htable]

/-- **What the macro emits is a table of inodes.** -/
theorem Emitted.inodeTable (h : Emitted g inodes) : InodeTable g (inodes.map Inode.fileName) where
  signature := h.signature
  inodeSize := h.inodeSize
  room := by
    rw [List.length_map]
    exact h.room
  different := h.different
  nonempty := by
    intro name hname
    obtain ⟨inode, _, rfl⟩ := List.mem_map.mp hname
    exact inode.nonempty
  short := by
    intro name hname
    obtain ⟨inode, _, rfl⟩ := List.mem_map.mp hname
    exact inode.short
  fileName := by
    intro i hi
    rw [List.length_map] at hi
    rw [List.getElem_map]
    refine stringAt_of_bytes fun j hj => ?_
    have hshort := (inodes[i]).short
    rw [h.byte hi (by rw [sizeofInode]; omega), Inode.fileName_byte _ (by omega)]
  present := by
    intro i hi
    rw [List.length_map] at hi
    exact (h.byte hi (by decide)).trans (Inode.present_byte _)
  rest := by
    intro n hlo hhi
    rw [List.length_map] at hlo
    obtain ⟨m, rfl⟩ := Nat.exists_eq_add_of_le (show 0x200 ≤ n by omega)
    have hlength : (inodes.flatMap Inode.bytes).length = sizeofInode * inodes.length := by
      rw [List.length_flatMap, List.map_congr_left fun inode _ => inode.length_bytes,
        List.map_const', List.sum_replicate, smul_eq_mul, Nat.mul_comm]
    rw [h.table m hhi, List.getElem?_eq_none (by omega)]
    rfl

/-- The byte that is tested is in the name, for as long as names have less than 20 bytes. -/
lemma Emitted.tested_iff (h : Emitted g inodes) (pmm : Pmm) :
    (∀ i < inodes.length, (g.loaded pmm).tested i ≠ 0) ↔
      ∀ i (hi : i < inodes.length), i < (inodes[i]).fileName.bytes.length := by
  have hroom := h.room
  have htested : ∀ i (hi : i < inodes.length), i < 20 →
      ((g.loaded pmm).tested i ≠ 0 ↔ i < (inodes[i]).fileName.bytes.length) := by
    intro i hi hlt
    have hplace : 0x200 + sizeofInode * i + i < 0x200000 := by
      rw [sizeofInode]
      omega
    rw [Gfs.tested, mem_inode_loaded g pmm hplace, h.byte hi (by rw [sizeofInode]; omega),
      Inode.fileName_byte _ hlt]
    rcases Nat.lt_or_ge i (inodes[i]).fileName.bytes.length with hin | hout
    · rw [List.getElem?_eq_getElem hin]
      exact iff_of_true ((inodes[i]).fileName.noNul _ (List.getElem_mem hin)) hin
    · rw [List.getElem?_eq_none hout]
      exact iff_of_false (not_not.mpr rfl) (by omega)
  constructor
  · intro hall
    -- the last byte of the field is the NUL of the longest name
    have hfew : inodes.length < 20 := by
      by_contra hmany
      have h19 : 19 < inodes.length := by omega
      have hshort := (inodes[19]).short
      have := (htested 19 h19 (by omega)).mp (hall 19 h19)
      omega
    exact fun i hi => (htested i hi (by omega)).mp (hall i hi)
  · intro hall i hi
    have hlt := hall i hi
    have hshort := (inodes[i]).short
    exact (htested i hi (by omega)).mpr hlt

/-- **The files of an image are found** exactly if the name of file `i` has more than `i` bytes: if
there are zeros behind the super block. -/
theorem Emitted.findsFiles_iff (h : Emitted g inodes) (pmm : Pmm)
    (hzero : ∀ n, 0x200000 ≤ n → n < 0x220000 →
      g.mem (superBlockPlace pmm + UInt64.ofNat n) = 0) :
    FindsFiles g pmm (inodes.map Inode.fileName) ↔ g.onDisk.blockSize ≠ 0 ∧
      ∀ i (hi : i < inodes.length), i < (inodes[i]).fileName.bytes.length := by
  rw [findsFiles_zeroBehind_iff h.inodeTable pmm hzero, List.length_map, h.tested_iff pmm]

/-! ## Two files -/

/-- The header of the image and its inodes. -/
def imageBytes (inodes : List Inode) : List UInt8 :=
  bytes32 MAGIC_NUMBER ++ List.replicate 16 0 ++ bytes32 4096 ++ bytes32 29 ++
    List.replicate (0x200 - 28) 0 ++ inodes.flatMap Inode.bytes

/-- A machine with that image on its disk, and zeros in memory. -/
def imageMachine (inodes : List Inode) : Gfs where
  mem := fun _ => 0
  disk := fun s k =>
    (imageBytes inodes)[0x200 * (s - SUPER_BLOCK_SECTOR).toNat + k]?.getD 0
  sectorCount := 0x10000
  superBlock := 0

lemma imageMachine_mem (inodes : List Inode) {n : ℕ} (hn : n < 2 ^ 64) :
    (imageMachine inodes).onDisk.mem (UInt64.ofNat n) = (imageBytes inodes)[n]?.getD 0 := by
  show (imageBytes inodes)[0x200 * (SUPER_BLOCK_SECTOR +
    UInt64.ofNat ((UInt64.ofNat n).toNat / 0x200) - SUPER_BLOCK_SECTOR).toNat +
    (UInt64.ofNat n).toNat % 0x200]?.getD 0 = _
  rw [toNat_ofNat_of_lt hn, toNat_add_ofNat_sub _ (by omega), Nat.div_add_mod]

/-- An image, of which the header is read by evaluation. -/
lemma emitted_imageMachine {inodes : List Inode}
    (hheader : (imageMachine inodes).onDisk.signature = MAGIC_NUMBER ∧
      (imageMachine inodes).onDisk.inodeSize = UInt32.ofNat sizeofInode)
    (hroom : 0x200 + sizeofInode * inodes.length ≤ 0x200000)
    (hdifferent : (inodes.map Inode.fileName).Nodup) : Emitted (imageMachine inodes) inodes where
  signature := hheader.1
  inodeSize := hheader.2
  room := hroom
  different := hdifferent
  table := by
    intro n hn
    have hlength : (bytes32 MAGIC_NUMBER ++ List.replicate 16 0 ++ bytes32 4096 ++ bytes32 29 ++
        List.replicate (0x200 - 28) 0).length = 0x200 := by
      simp only [bytes32, List.length_append, List.length_cons, List.length_nil,
        List.length_replicate]
    refine (congrArg _ (UInt64.zero_add _)).trans ((imageMachine_mem inodes (by omega)).trans ?_)
    rw [imageBytes, List.getElem?_append_right (by omega), hlength, Nat.add_sub_cancel_left]

/-- A file with a name of one letter. -/
def plainInode (c : UInt8) (h : c ≠ 0) : Inode where
  fileName := .single c h
  blockNumber := 0
  blockCount := 0
  nonempty := List.cons_ne_nil _ _
  short := (by decide : 1 < 20)

/-- The page manager of a machine with 32 MiB. -/
def imagePmm : Pmm := ⟨fun _ => 0, 0x2000000, false⟩

def oneInode : List Inode := [plainInode 0x61 (by decide)]

lemma emitted_oneInode : Emitted (imageMachine oneInode) oneInode :=
  emitted_imageMachine (by decide +kernel) (by decide) (by decide)

/-- A name of two equal letters. -/
def CString.double (c : UInt8) (h : c ≠ 0) : CString := ⟨[c, c], fun x hx => by
  simp only [List.mem_cons, List.not_mem_nil, or_false, or_self] at hx
  rwa [hx]⟩

/-- The file `bb`. -/
def bbInode : Inode where
  fileName := .double 0x62 (by decide)
  blockNumber := 0
  blockCount := 0
  nonempty := List.cons_ne_nil _ _
  short := (by decide : 2 < 20)

def longerNames : List Inode := [plainInode 0x61 (by decide), bbInode]

lemma emitted_longerNames : Emitted (imageMachine longerNames) longerNames :=
  emitted_imageMachine (by decide +kernel) (by decide) (by decide)

/-- **Of the files `a` and `bb`, both are found.** -/
theorem mount_findsFiles_longerNames :
    FindsFiles (imageMachine longerNames) imagePmm (longerNames.map Inode.fileName) := by
  have htable := emitted_longerNames.inodeTable
  have htested := (emitted_longerNames.tested_iff imagePmm).mpr (by decide)
  refine (mount_findsFiles_iff htable imagePmm).mpr ⟨by decide +kernel, ?_⟩
  rw [List.length_map, Nat.count_iff_forall_not.mpr htested]
  refine (Nat.count_iff_forall_not.mpr fun i hi hcounted => hcounted.1 ?_).symm
  exact htable.tested_behind (fun _ _ _ => rfl) (by rw [List.length_map]; omega) (by omega)

def twoInodes : List Inode := [plainInode 0x61 (by decide), plainInode 0x62 (by decide)]

lemma emitted_twoInodes : Emitted (imageMachine twoInodes) twoInodes :=
  emitted_imageMachine (by decide +kernel) (by decide) (by decide)

/-- **Of two files with names of one letter, one is counted.** -/
theorem mount_missesFile : InodeTable (imageMachine twoInodes) (twoInodes.map Inode.fileName) ∧
    (imageMachine twoInodes).onDisk.blockSize ≠ 0 ∧
    ¬FindsFiles (imageMachine twoInodes) imagePmm (twoInodes.map Inode.fileName) := by
  refine ⟨emitted_twoInodes.inodeTable, by decide +kernel, fun hfinds => ?_⟩
  have hall := ((emitted_twoInodes.findsFiles_iff imagePmm fun _ _ _ => rfl).mp hfinds).2
  exact absurd (hall 1 (by decide)) (by decide)

end Seaweed
