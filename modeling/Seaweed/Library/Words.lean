import Mathlib.Tactic

/-!
# 64-bit words and the numbers they stand for

Small facts about `UInt64` that the models of 64-bit code need again and again: counting up, the
two's complement of a loop counter, and words that are not zero.
-/

namespace Words

theorem ofNat_succ (n : ℕ) : UInt64.ofNat n + 1 = UInt64.ofNat (n + 1) := by
  rw [UInt64.ofNat_add]
  rfl

theorem ofInt_natCast (n : ℕ) : UInt64.ofInt (n : ℤ) = UInt64.ofNat n := by
  have hmod : ((n : ℤ) % 2 ^ 64).toNat = n % 2 ^ 64 := by omega
  rw [UInt64.ofInt, hmod, ← UInt64.toNat_inj, UInt64.toNat_ofNat', UInt64.toNat_ofNat',
    Nat.mod_mod]

theorem toNat_ofNat_of_lt {n : ℕ} (h : n < 2 ^ 64) : (UInt64.ofNat n).toNat = n := by
  rw [UInt64.toNat_ofNat', Nat.mod_eq_of_lt h]

theorem toNat_add_one {w : UInt64} (h : w.toNat + 1 < 2 ^ 64) : (w + 1).toNat = w.toNat + 1 := by
  rw [UInt64.toNat_add, UInt64.toNat_one, Nat.mod_eq_of_lt h]

theorem toNat_pos {w : UInt64} (h : w ≠ 0) : 0 < w.toNat := by
  rcases Nat.eq_zero_or_pos w.toNat with h0 | hpos
  · exact absurd (UInt64.toNat_inj.mp h0) h
  · exact hpos

end Words
