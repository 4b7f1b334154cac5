import Seaweed.Library.Memory

/-!
# Sectors of a disk

A disk is a row of sectors of `size` bytes each, and it is read and written a sector at a time.

* `readSector`, `writeSector` — one sector, to or from memory.
* `readSectors`, `writeSectors` — sectors in any order, to or from consecutive places in memory.
* **`readSectors_apply`**, **`writeSectors_apply`** — where every byte comes from.
-/

namespace Sectors

open Memory Words

/-- The bytes of every sector. -/
abbrev Disk := UInt64 → ℕ → UInt8

def readSector (size : ℕ) (disk : Disk) (sector a : UInt64) (mem : Mem) : Mem := fun x =>
  if (x - a).toNat < size then disk sector (x - a).toNat else mem x

def writeSector (mem : Mem) (sector a : UInt64) (disk : Disk) : Disk :=
  Function.update disk sector fun k => mem (a + UInt64.ofNat k)

/-- `n` sectors are read to the places from `a` on. -/
def readSectors (size : ℕ) (disk : Disk) (sector : ℕ → UInt64) (a : UInt64) (mem : Mem) : ℕ → Mem
  | 0 => mem
  | n + 1 => readSector size disk (sector n) (a + UInt64.ofNat (size * n))
      (readSectors size disk sector a mem n)

/-- `n` sectors are written from the places from `a` on. -/
def writeSectors (size : ℕ) (mem : Mem) (sector : ℕ → UInt64) (a : UInt64) (disk : Disk) : ℕ → Disk
  | 0 => disk
  | n + 1 => writeSector mem (sector n) (a + UInt64.ofNat (size * n))
      (writeSectors size mem sector a disk n)

variable {size n i k : ℕ} {disk : Disk} {mem : Mem} {sector : ℕ → UInt64} {a x s : UInt64}

/-! ## One sector -/

lemma readSectors_one :
    readSectors size disk sector a mem 1 = readSector size disk (sector 0) a mem := by
  rw [readSectors, readSectors, Nat.mul_zero, show UInt64.ofNat 0 = 0 from rfl, UInt64.add_zero]

lemma writeSectors_one :
    writeSectors size mem sector a disk 1 = writeSector mem (sector 0) a disk := by
  rw [writeSectors, writeSectors, Nat.mul_zero, show UInt64.ofNat 0 = 0 from rfl, UInt64.add_zero]

/-! ## Reading -/

/-- The last sector that is read covers the distances from `size * n` on. -/
lemma readSector_apply (h : size * n ≤ (x - a).toNat) :
    readSector size disk s (a + UInt64.ofNat (size * n)) mem x =
      if (x - a).toNat < size * (n + 1) then disk s ((x - a).toNat - size * n) else mem x := by
  have hsize : size * (n + 1) = size * n + size := Nat.mul_succ size n
  rw [readSector, toNat_sub_add_ofNat h]
  congr 1
  exact propext ⟨fun hlt => by omega, fun hlt => by omega⟩

/-- Those before it are left alone. -/
lemma readSector_before (hroom : size * (n + 1) ≤ 2 ^ 64) (h : (x - a).toNat < size * n) :
    readSector size disk s (a + UInt64.ofNat (size * n)) mem x = mem x := by
  have hsize : size * (n + 1) = size * n + size := Nat.mul_succ size n
  have hdiff : x - (a + UInt64.ofNat (size * n)) = (x - a) - UInt64.ofNat (size * n) := by
    rw [UInt64.sub_eq_add_neg, UInt64.sub_eq_add_neg, UInt64.sub_eq_add_neg, UInt64.neg_add,
      UInt64.sub_eq_add_neg, UInt64.add_assoc]
  rw [readSector, if_neg]
  rcases Nat.eq_zero_or_pos size with rfl | hpos
  · omega
  · rw [hdiff, UInt64.toNat_sub, toNat_ofNat_of_lt (by omega)]
    omega

/-- **Where the bytes in memory come from.** -/
theorem readSectors_apply (hroom : size * n ≤ 2 ^ 64) :
    readSectors size disk sector a mem n x =
      if (x - a).toNat < size * n then
        disk (sector ((x - a).toNat / size)) ((x - a).toNat % size)
      else mem x := by
  induction n with
  | zero => rw [Nat.mul_zero, if_neg (Nat.not_lt_zero _), readSectors]
  | succ n ih =>
      have hsize : size * (n + 1) = size * n + size := Nat.mul_succ size n
      rw [readSectors]
      rcases Nat.lt_or_ge (x - a).toNat (size * n) with hlt | hge
      · rw [readSector_before hroom hlt, ih (by omega), if_pos hlt, if_pos (by omega)]
      · rw [readSector_apply hge]
        split_ifs with hlast
        · obtain ⟨r, hr⟩ := Nat.exists_eq_add_of_le hge
          have hrlt : r < size := by omega
          have hdiv : (size * n + r) / size = n := by
            rw [Nat.mul_add_div (by omega), Nat.div_eq_of_lt hrlt, Nat.add_zero]
          have hmod : (size * n + r) % size = r := by
            rw [Nat.mul_add_mod, Nat.mod_eq_of_lt hrlt]
          rw [hr, hdiv, hmod, Nat.add_sub_cancel_left]
        · rw [ih (by omega), if_neg (by omega)]

lemma readSectors_outside (hroom : size * n ≤ 2 ^ 64) (h : size * n ≤ (x - a).toNat) :
    readSectors size disk sector a mem n x = mem x := by
  rw [readSectors_apply hroom, if_neg (by omega)]

/-! ## Writing -/

/-- Where the bytes on the disk come from, if no sector is written twice: from memory. -/
theorem writeSectors_apply (hinj : ∀ i < n, ∀ j < n, sector i = sector j → i = j) (hi : i < n) :
    writeSectors size mem sector a disk n (sector i) k =
      mem (a + UInt64.ofNat (size * i) + UInt64.ofNat k) := by
  induction n with
  | zero => omega
  | succ n ih =>
      rw [writeSectors, writeSector]
      rcases Nat.lt_succ_iff_lt_or_eq.mp hi with hlt | rfl
      · have hne : sector i ≠ sector n := by
          intro heq
          have := hinj i hi n (Nat.lt_succ_self n) heq
          omega
        rw [Function.update_of_ne hne]
        exact ih (fun i hi j hj => hinj i (by omega) j (by omega)) hlt
      · rw [Function.update_self]

end Sectors
