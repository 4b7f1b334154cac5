import Seaweed.Fs.Bfs

/-!
# Reading a file back

`readIn` takes a start and a count, and should transfer `count` sectors.  Its loop ends at
`i < count` although `i` begins at `start`, so it transfers `count - start` of them.

* `FilledWith` — a buffer holds what was in another one.
* `read_filled` — the sectors that a loop reads after `writeBack` are those that were written.
* **`readIn_writeBack_iff`** — `fopen` reads a file back, and `readIn` does exactly if the sectors
  it misses are in the buffer already.
-/

namespace Seaweed

open Memory Sectors Words

/-- The `count` sectors at `out` are the sectors of `buf`, from `start` on, as they were in `g`, and
memory is otherwise the same. -/
def FilledWith (g g' : Gfs) (buf out : UInt64) (start count : ℕ) : Prop :=
  ∀ x, g'.mem x = if (x - out).toNat < 0x200 * count then
    g.mem (buf + UInt64.ofNat (0x200 * start + (x - out).toNat)) else g.mem x

variable {g g' : Gfs} {fileName : CString} {buf out n start count : UInt64} {index : ℤ}
  {i j s t c : ℕ}

/-- Filling more is the same if the rest is there already. -/
lemma filledWith_more_iff (h : FilledWith g g' buf out s t) (htc : t ≤ c)
    (hroom : 0x200 * c ≤ 2 ^ 64) :
    FilledWith g g' buf out s c ↔ ∀ k, 0x200 * t ≤ k → k < 0x200 * c →
      g.mem (out + UInt64.ofNat k) = g.mem (buf + UInt64.ofNat (0x200 * s + k)) := by
  constructor
  · intro hmore k hlo hhi
    have hk := toNat_add_ofNat_sub out (i := k) (by omega)
    have hless := h (out + UInt64.ofNat k)
    have hfilled := hmore (out + UInt64.ofNat k)
    rw [hk, if_neg (by omega)] at hless
    rw [hk, if_pos hhi] at hfilled
    rw [← hless, hfilled]
  · intro hthere x
    have hx : out + UInt64.ofNat (x - out).toNat = x := by
      rw [UInt64.ofNat_toNat, UInt64.add_comm, UInt64.sub_add_cancel]
    rw [h x]
    split_ifs with hlt hlt' hlt'
    · rfl
    · omega
    · have hk := hthere (x - out).toNat (by omega) hlt'
      rwa [hx] at hk
    · rfl

/-! ## The sectors of a file -/

/-- Different sectors of a file are different sectors of the disk. -/
lemma fileSector_inj (hi : i < 2 ^ 64) (hj : j < 2 ^ 64)
    (h : fileSector index g (UInt64.ofNat i) = fileSector index g (UInt64.ofNat j)) : i = j := by
  have heq := (UInt64.add_right_inj _).mp h
  rw [← UInt64.toNat_inj, toNat_ofNat_of_lt hi, toNat_ofNat_of_lt hj] at heq
  exact heq

/-- Where a file is depends on its inode. -/
lemma fileSector_congr {mem : Mem} (h : ∀ k, k < 4 →
    mem (g.inode index + 20 + UInt64.ofNat k) = g.mem (g.inode index + 20 + UInt64.ofNat k))
    (i : UInt64) : fileSector index { g with mem := mem } i = fileSector index g i := by
  have hblock : Gfs.blockNumber { g with mem := mem } index = g.blockNumber index :=
    congrArg UInt32.ofNat (load_congr h)
  rw [fileSector, fileSector, hblock]

/-- The disk with `n` sectors of `buf` in the file. -/
def Gfs.written (g : Gfs) (index : ℤ) (buf n : UInt64) : Gfs :=
  { g with
    disk := writeSectors 0x200 g.mem (fun i => fileSector index g (UInt64.ofNat i)) buf g.disk
      n.toNat }

lemma writeBack_eq (hindex : inodeLookUp g fileName = index) (hfound : index ≠ -1) :
    writeBack g fileName buf n = g.written index buf n := by
  rw [writeBack, hindex, if_neg hfound, transferSectors_write (fun _ _ => rfl), Gfs.written]
  simp only [UInt64.zero_add]

/-- A byte of the file. -/
lemma written_disk (hroom : 0x200 * n.toNat ≤ 2 ^ 64) (hi : i < n.toNat) (k : ℕ) :
    (g.written index buf n).disk (fileSector index g (UInt64.ofNat i)) k =
      g.mem (buf + UInt64.ofNat (0x200 * i + k)) := by
  rw [UInt64.ofNat_add, ← UInt64.add_assoc]
  exact writeSectors_apply (fun i hi j hj => fileSector_inj (by omega) (by omega)) hi

/-- **A loop that reads `t` sectors of the file**, into a buffer that does not touch its inode. -/
theorem read_filled (hroom : 0x200 * n.toNat ≤ 2 ^ 64) (hrange : start.toNat + t ≤ n.toNat)
    (hapart : Apart out (0x200 * t) (g.inode index + 20) 4) :
    FilledWith g ((g.written index buf n).transferSectors (fileSector index) out start false t)
      buf out start.toNat t := by
  intro x
  have hstable : ∀ mem : Mem, (∀ x, 0x200 * t ≤ (x - out).toNat → mem x = g.mem x) →
      ∀ i, fileSector index { g.written index buf n with mem := mem } i =
        fileSector index (g.written index buf n) i := fun mem hmem =>
    fileSector_congr fun k hk => hmem _ (hapart k hk)
  rw [transferSectors_read (by omega) hstable]
  show readSectors _ _ _ _ _ _ x = _
  rw [readSectors_apply (by omega)]
  split_ifs with hlt
  · have hsector : fileSector index (g.written index buf n)
        (start + UInt64.ofNat ((x - out).toNat / 0x200))
        = fileSector index g (UInt64.ofNat (start.toNat + (x - out).toNat / 0x200)) := by
      rw [UInt64.ofNat_add, UInt64.ofNat_toNat]
      rfl
    have hplace : 0x200 * (start.toNat + (x - out).toNat / 0x200) + (x - out).toNat % 0x200
        = 0x200 * start.toNat + (x - out).toNat := by omega
    rw [hsector, written_disk hroom (by omega), hplace]
  · rfl

/-! ## Reading back -/

/-- `readIn` fills `out` with what was written, and so does `fopen`. -/
def ReadsBack (g : Gfs) (fileName : CString) (buf n out start count : UInt64) : Prop :=
  FilledWith g (readIn (writeBack g fileName buf n) fileName out start count) buf out start.toNat
    count.toNat ∧
  FilledWith g (fopen (writeBack g fileName buf n) fileName out count) buf out 0 count.toNat

/-- The last `min start count` of the sectors at `out` are already what they should be. -/
def RestInPlace (g : Gfs) (buf out start count : UInt64) : Prop :=
  ∀ k, 0x200 * (count.toNat - start.toNat) ≤ k → k < 0x200 * count.toNat →
    g.mem (out + UInt64.ofNat k) = g.mem (buf + UInt64.ofNat (0x200 * start.toNat + k))

/-- **A file is read back** exactly if nothing is missing from the sectors that `readIn` does not
transfer: the file is found, `buf` has `n` sectors, and `out` is not where the inode is. -/
theorem readIn_writeBack_iff (hfound : inodeLookUp g fileName ≠ -1)
    (hroom : 0x200 * n.toNat ≤ 2 ^ 64) (hrange : start.toNat + count.toNat ≤ n.toNat)
    (hapart : Apart out (0x200 * count.toNat) (g.inode (inodeLookUp g fileName) + 20) 4) :
    ReadsBack g fileName buf n out start count ↔ RestInPlace g buf out start count := by
  generalize hindex : inodeLookUp g fileName = index at hfound hapart
  have hlook : inodeLookUp (g.written index buf n) fileName = index := hindex
  have hread : FilledWith g (readIn (g.written index buf n) fileName out start count) buf out
      start.toNat (count.toNat - start.toNat) := by
    rw [readIn, hlook, if_neg hfound]
    exact read_filled hroom (by omega) fun k hk => le_trans (by omega) (hapart k hk)
  have hopen : FilledWith g (fopen (g.written index buf n) fileName out count) buf out 0
      count.toNat := by
    rw [fopen, hlook, if_neg hfound]
    exact read_filled hroom (by rw [UInt64.toNat_zero]; omega) hapart
  rw [ReadsBack, writeBack_eq hindex hfound, and_iff_left hopen]
  exact filledWith_more_iff hread (Nat.sub_le _ _) (by omega)

/-! ## A file of two sectors -/

/-- One file, with the name `f`, and the bytes of two sectors at `0x10000`. -/
def oneFile : Gfs where
  mem := fun x => if x = 8 then 1 else if x = 0x200 then 0x66
    else if (x - 0x10000).toNat < 0x400 then ((x - 0x10000) / 0x200 + 1).toUInt8 else 0
  disk := fun _ _ => 0
  sectorCount := 0x10000
  superBlock := 0

def nameF : CString := .single 0x66 (by decide)

theorem readIn_writeBack_start : ReadsBack oneFile nameF 0x10000 2 0x20000 0 2 :=
  (readIn_writeBack_iff (by decide +kernel) (by decide) (by decide) (by
    have hindex : inodeLookUp oneFile nameF = 0 := by decide +kernel
    rw [hindex]
    unfold Apart
    decide +kernel)).mpr fun k hlo hhi => absurd hhi (by
      rw [UInt64.toNat_zero] at hlo
      omega)

/-- **The second sector is not read.** -/
theorem readIn_secondSector : inodeLookUp oneFile nameF ≠ -1 ∧
    ¬ReadsBack oneFile nameF 0x10000 2 0x20000 1 1 := by
  refine ⟨by decide +kernel, fun hback => ?_⟩
  have hfirst := hback.1 0x20000
  revert hfirst
  decide +kernel

end Seaweed
