import Mathlib.Data.Nat.Digits.Lemmas

/-!
# Numerals

How a number is written in a base: its digits, the first one first, and one zero for zero.

* `numeral` — the digits.
* `numeral_of_lt`, **`numeral_of_le`** — the last digit is the remainder, and the others are the
  numeral of the quotient.
* `ofDigits_numeral`, `head_numeral`, `length_numeral_le` — the value, the first digit, and the
  length.
* `replicate_append_numeral` — filled up with zeros, it has every digit at its place.
-/

namespace Numerals

/-- The digits of a number. -/
def numeral (b n : ℕ) : List ℕ := if n = 0 then [0] else (Nat.digits b n).reverse

variable {b n d k : ℕ}

lemma numeral_of_lt (h : n < b) : numeral b n = [n] := by
  rw [numeral]
  split_ifs with hzero
  · rw [hzero]
  · rw [Nat.digits_of_lt b n hzero h, List.reverse_singleton]

/-- **One digit more.** -/
lemma numeral_of_le (hb : 1 < b) (h : b ≤ n) : numeral b n = numeral b (n / b) ++ [n % b] := by
  have hpos : 0 < n := by omega
  have hquot : n / b ≠ 0 := (Nat.div_pos h (by omega)).ne'
  rw [numeral, numeral, if_neg hpos.ne', if_neg hquot, Nat.digits_def' hb hpos, List.reverse_cons]

lemma numeral_ne_nil (b n : ℕ) : numeral b n ≠ [] := by
  rw [numeral]
  split_ifs with hzero
  · exact List.cons_ne_nil 0 []
  · exact List.reverse_ne_nil_iff.mpr (Nat.digits_ne_nil_iff_ne_zero.mpr hzero)

lemma numeral_lt (hb : 1 < b) (hd : d ∈ numeral b n) : d < b := by
  rw [numeral] at hd
  split_ifs at hd
  · rw [List.mem_singleton.mp hd]
    omega
  · exact Nat.digits_lt_base hb (List.mem_reverse.mp hd)

/-- **The number is read back.** -/
lemma ofDigits_numeral (b n : ℕ) : Nat.ofDigits b (numeral b n).reverse = n := by
  rw [numeral]
  split_ifs with hzero
  · rw [hzero, List.reverse_singleton, Nat.ofDigits_singleton]
  · rw [List.reverse_reverse, Nat.ofDigits_digits]

/-- The first digit is not a zero, unless it is the only one. -/
lemma head_numeral (h : (numeral b n).head? = some 0) : n = 0 := by
  by_contra hne
  rw [numeral, if_neg hne, List.head?_reverse,
    List.getLast?_eq_some_getLast (Nat.digits_ne_nil_iff_ne_zero.mpr hne), Option.some_inj] at h
  exact Nat.getLast_digit_ne_zero b hne h

/-- Below a power of the base there are no more digits than the exponent. -/
lemma length_numeral_le (hb : 1 < b) (hk : 0 < k) (h : n < b ^ k) : (numeral b n).length ≤ k := by
  rw [numeral]
  split_ifs
  · exact hk
  · rw [List.length_reverse]
    exact (Nat.digits_length_le_iff hb n).mpr h

/-- Below the first power of the base there is one digit, and nothing but zeros above it. -/
lemma range_div_of_lt (h : n < b) (k : ℕ) :
    ((List.range (k + 1)).map fun i => n / b ^ (k - i) % b) = List.replicate k 0 ++ [n] := by
  rw [List.range_succ, List.map_append, List.map_singleton, Nat.sub_self, pow_zero, Nat.div_one,
    Nat.mod_eq_of_lt h]
  congr 1
  refine List.eq_replicate_iff.mpr ⟨by rw [List.length_map, List.length_range], fun d hd => ?_⟩
  obtain ⟨i, hi, rfl⟩ := List.mem_map.mp hd
  have hpow : n < b ^ (k - i) :=
    h.trans_le (Nat.le_self_pow (Nat.sub_ne_zero_of_lt (List.mem_range.mp hi)) b)
  rw [Nat.div_eq_of_lt hpow, Nat.zero_mod]

/-- **Filled up with zeros.**  Every digit is the quotient by its power of the base, cut off. -/
lemma replicate_append_numeral (hb : 1 < b) (h : n < b ^ (k + 1)) :
    List.replicate (k + 1 - (numeral b n).length) 0 ++ numeral b n =
      (List.range (k + 1)).map fun i => n / b ^ (k - i) % b := by
  induction k generalizing n with
  | zero =>
      have hlt : n < b := by rwa [Nat.zero_add, pow_one] at h
      rw [range_div_of_lt hlt, numeral_of_lt hlt]
      rfl
  | succ k ih =>
      rcases Nat.lt_or_ge n b with hlt | hge
      · rw [range_div_of_lt hlt, numeral_of_lt hlt]
        rfl
      · have hquot : n / b < b ^ (k + 1) := Nat.div_lt_of_lt_mul (by rwa [← pow_succ'])
        rw [numeral_of_le hb hge, List.length_append, List.length_singleton, Nat.add_sub_add_right,
          ← List.append_assoc, ih hquot, List.range_succ (n := k + 1), List.map_append,
          List.map_singleton, Nat.sub_self, pow_zero, Nat.div_one]
        congr 1
        refine List.map_congr_left fun i hi => ?_
        have hexponent : k + 1 - i = k - i + 1 := by
          have := List.mem_range.mp hi
          omega
        rw [hexponent, pow_succ', Nat.div_div_eq_div_mul]

end Numerals
