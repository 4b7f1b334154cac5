import Seaweed.Library.Memory

/-!
# Bitmaps and copying (`libk/memUtils.c`)

`set`, `clear` and `isset` work on one bit of a byte array, and `memset` fills its first bytes.
The array is everything that can be addressed from the bitmap's pointer on, with no end: whether
an access stays inside the memory reserved for the bitmap is for the caller to show.

* `isset_set`, `isset_clear` — each touches its own bit and no other, although eight bits share a
  byte.
* `setRange`, `clearRange` — the loops over consecutive bits that both allocators run.
* `bitmap_ext` — a bitmap is determined by its bits.
* `memcpy64` — copies words of eight bytes, in ascending order; `load64_memcpy64` says when that is
  right.
-/

namespace Seaweed

/-- The bytes from a bitmap's pointer on. -/
abbrev Bitmap := ℕ → UInt8

def memset {α : Type*} (src : ℕ → α) (data : α) (count : ℕ) : ℕ → α :=
  fun i => if i < count then data else src i

def set (bitmap : Bitmap) (location : ℕ) : Bitmap :=
  Function.update bitmap (location / 8)
    (bitmap (location / 8) ||| (1 <<< UInt8.ofNat (location % 8)))

def clear (bitmap : Bitmap) (location : ℕ) : Bitmap :=
  Function.update bitmap (location / 8)
    (bitmap (location / 8) &&& ~~~(1 <<< UInt8.ofNat (location % 8)))

def isset (bitmap : Bitmap) (location : ℕ) : Bool :=
  ((bitmap (location / 8) >>> UInt8.ofNat (location % 8)) &&& 1) != 0

open Memory

/-- `count` is a number of words. -/
def memcpy64 (mem : Mem) (dest src : UInt64) : (count : ℕ) → Mem
  | 0 => mem
  | i + 1 =>
      let mem := memcpy64 mem dest src i
      store64 mem (dest + UInt64.ofNat (8 * i)) (load64 mem (src + UInt64.ofNat (8 * i)))

/-! ## Single bits -/

theorem shiftedOne_toNat {k : ℕ} (hk : k < 8) : ((1 : UInt8) <<< UInt8.ofNat k).toNat = 2 ^ k := by
  have hpow : 2 ^ k < 2 ^ 8 := Nat.pow_lt_pow_right (by omega) hk
  have hmod : k % 2 ^ 8 % 8 = k := by omega
  rw [UInt8.toNat_shiftLeft, UInt8.toNat_ofNat', UInt8.toNat_one, hmod, Nat.one_shiftLeft,
    Nat.mod_eq_of_lt hpow]

theorem isset_eq_testBit (bitmap : Bitmap) (p : ℕ) :
    isset bitmap p = (bitmap (p / 8)).toNat.testBit (p % 8) := by
  have hshift : ((bitmap (p / 8) >>> UInt8.ofNat (p % 8)) &&& 1).toNat
      = (bitmap (p / 8)).toNat >>> (p % 8) &&& 1 := by
    rw [UInt8.toNat_and, UInt8.toNat_shiftRight, UInt8.toNat_ofNat', UInt8.toNat_one,
      Nat.mod_eq_of_lt (by omega), Nat.mod_eq_of_lt (by omega)]
  rw [isset, Nat.testBit, Nat.and_comm, ← hshift]
  simp only [bne, ← UInt8.toNat_inj, beq_eq_decide, UInt8.toNat_zero]

theorem isset_set (bitmap : Bitmap) (l p : ℕ) :
    isset (set bitmap l) p = (isset bitmap p || decide (p = l)) := by
  simp only [isset_eq_testBit, set]
  by_cases hbyte : p / 8 = l / 8
  · rw [hbyte, Function.update_self, UInt8.toNat_or, shiftedOne_toNat (by omega),
      Nat.testBit_or, Nat.testBit_two_pow]
    congr 1
    exact decide_eq_decide.mpr (by omega)
  · have hne : p ≠ l := fun h => hbyte (by rw [h])
    rw [Function.update_of_ne hbyte]
    simp [hne]

theorem isset_clear (bitmap : Bitmap) (l p : ℕ) :
    isset (clear bitmap l) p = (isset bitmap p && decide (p ≠ l)) := by
  simp only [isset_eq_testBit, clear]
  by_cases hbyte : p / 8 = l / 8
  · have hmask : (~~~((1 : UInt8) <<< UInt8.ofNat (l % 8))).toNat = 2 ^ 8 - (2 ^ (l % 8) + 1) := by
      rw [UInt8.toNat_not, shiftedOne_toNat (by omega), Nat.sub_sub, Nat.add_comm 1]
      rfl
    have hpow : 2 ^ (l % 8) < 2 ^ 8 := Nat.pow_lt_pow_right (by omega) (by omega)
    rw [hbyte, Function.update_self, UInt8.toNat_and, hmask, Nat.testBit_and,
      Nat.testBit_two_pow_sub_succ hpow, Nat.testBit_two_pow]
    congr 1
    have hlt : p % 8 < 8 := by omega
    simp only [hlt, decide_true, Bool.true_and, ← decide_not]
    exact decide_eq_decide.mpr (by omega)
  · have hne : p ≠ l := fun h => hbyte (by rw [h])
    rw [Function.update_of_ne hbyte]
    simp [hne]

/-- **A bitmap is determined by its bits.** -/
theorem bitmap_ext {bitmap bitmap' : Bitmap} (h : ∀ p, isset bitmap p = isset bitmap' p) :
    bitmap = bitmap' := by
  refine funext fun i => UInt8.toNat_inj.mp (Nat.eq_of_testBit_eq fun k => ?_)
  rcases Nat.lt_or_ge k 8 with hk | hk
  · have hbit := h (8 * i + k)
    rw [isset_eq_testBit, isset_eq_testBit, show (8 * i + k) / 8 = i by omega,
      show (8 * i + k) % 8 = k by omega] at hbit
    exact hbit
  · have hpow : 2 ^ 8 ≤ 2 ^ k := Nat.pow_le_pow_right (by omega) hk
    rw [Nat.testBit_lt_two_pow (lt_of_lt_of_le (bitmap i).toNat_lt hpow),
      Nat.testBit_lt_two_pow (lt_of_lt_of_le (bitmap' i).toNat_lt hpow)]

/-- Every bit of zeroed bytes is clear. -/
theorem isset_memset_zero (bitmap : Bitmap) {count p : ℕ} (hp : p < 8 * count) :
    isset (memset bitmap 0 count) p = false := by
  rw [isset_eq_testBit, memset, if_pos (by omega)]
  exact Nat.zero_testBit _

/-! ## Runs of bits -/

/-- `for(j = 0; j < n; j++) set(bitmap, start + j);` -/
def setRange (bitmap : Bitmap) (start : ℕ) : ℕ → Bitmap
  | 0 => bitmap
  | n + 1 => set (setRange bitmap start n) (start + n)

/-- `for(j = start; j < start + n; j++) clear(bitmap, j);` -/
def clearRange (bitmap : Bitmap) (start : ℕ) : ℕ → Bitmap
  | 0 => bitmap
  | n + 1 => clear (clearRange bitmap start n) (start + n)

theorem isset_setRange (bitmap : Bitmap) (start p n : ℕ) :
    isset (setRange bitmap start n) p
      = (isset bitmap p || decide (start ≤ p ∧ p < start + n)) := by
  induction n with
  | zero =>
      have : ¬ (start ≤ p ∧ p < start + 0) := by omega
      rw [setRange, decide_eq_false this, Bool.or_false]
  | succ n ih =>
      rw [setRange, isset_set, ih, Bool.or_assoc]
      congr 1
      rw [← Bool.decide_or]
      exact decide_eq_decide.mpr (by omega)

theorem isset_clearRange (bitmap : Bitmap) (start p n : ℕ) :
    isset (clearRange bitmap start n) p
      = (isset bitmap p && decide ¬ (start ≤ p ∧ p < start + n)) := by
  induction n with
  | zero =>
      have : ¬ (start ≤ p ∧ p < start + 0) := by omega
      rw [clearRange, decide_eq_true this, Bool.and_true]
  | succ n ih =>
      rw [clearRange, isset_clear, ih, Bool.and_assoc]
      congr 1
      rw [← Bool.decide_and]
      exact decide_eq_decide.mpr (by omega)

/-! ## Copying -/

/-- The first word is copied before any other has been changed. -/
theorem memcpy64_one (mem : Mem) (dest src : UInt64) :
    memcpy64 mem dest src 1 = store64 mem dest (load64 mem src) := by
  simp [memcpy64]

/-- A copy changes nothing outside its destination. -/
theorem memcpy64_outside {mem : Mem} {dest src x : UInt64} {n : ℕ}
    (h : 8 * n ≤ (x - dest).toNat) : memcpy64 mem dest src n x = mem x := by
  induction n with
  | zero => rfl
  | succ n ih =>
      rw [memcpy64, store64_outside, ih (by omega)]
      rw [toNat_sub_add_ofNat (by omega)]
      omega

/-- Unless the destination begins inside the source, a word is still there when its turn comes. -/
lemma load64_memcpy64_source {mem : Mem} {dest src : UInt64} {n i : ℕ}
    (hoverlap : dest = src ∨ 8 * n ≤ (dest - src).toNat) (hi : i < n) (hn : 8 * n < 2 ^ 63) :
    load64 (memcpy64 mem dest src i) (src + UInt64.ofNat (8 * i)) =
      load64 mem (src + UInt64.ofNat (8 * i)) := by
  refine congrArg UInt64.ofNat (load_congr fun k hk => memcpy64_outside ?_)
  rw [UInt64.add_assoc, ← UInt64.ofNat_add]
  rcases hoverlap with rfl | hapart
  · rw [toNat_add_ofNat_sub _ (by omega)]
    omega
  · have hdiff : src + UInt64.ofNat (8 * i + k) - dest =
        UInt64.ofNat (8 * i + k) - (dest - src) := by
      rw [UInt64.sub_eq_add_neg, UInt64.sub_eq_add_neg, UInt64.neg_sub, UInt64.sub_eq_add_neg,
        UInt64.add_comm src, UInt64.add_assoc]
    have hdist := (dest - src).toNat_lt
    rw [hdiff, UInt64.toNat_sub, Words.toNat_ofNat_of_lt (by omega)]
    omega

/-- **An ascending copy copies**, unless the destination begins inside the source. -/
theorem load64_memcpy64 {mem : Mem} {dest src : UInt64} {n i : ℕ}
    (hoverlap : dest = src ∨ 8 * n ≤ (dest - src).toNat) (hi : i < n) (hn : 8 * n < 2 ^ 63) :
    load64 (memcpy64 mem dest src n) (dest + UInt64.ofNat (8 * i)) =
      load64 mem (src + UInt64.ofNat (8 * i)) := by
  induction n with
  | zero => exact absurd hi (Nat.not_lt_zero i)
  | succ n ih =>
      have hfewer : dest = src ∨ 8 * n ≤ (dest - src).toNat := hoverlap.imp_right (by omega)
      rw [memcpy64]
      rcases Nat.lt_succ_iff_lt_or_eq.mp hi with hlt | rfl
      · rw [load64_store64_apart (apart_offsets _ (by omega) (by omega) (by omega))]
        exact ih hfewer hlt (by omega)
      · rw [load64_store64]
        exact load64_memcpy64_source hoverlap hi hn

end Seaweed
