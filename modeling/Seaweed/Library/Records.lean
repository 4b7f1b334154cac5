import Seaweed.Library.X86

/-!
# Arrays of records

An array in memory whose elements are a number of words each.  An index is an integer, as in
pointer arithmetic: element `-1` is just before the array.

* `storeWords` — a record is written; **`holds_storeWords`** — and read back.
* `storeBytes` — the same for a record of bytes.
* `packed` — words right behind a byte; **`holds_packed`** — they are found there.
* `element` — where an element is; **`element_apart`** — different elements do not overlap.
-/

namespace Records

open Memory Words X86

/-- Write the words `ws` from `a` on. -/
def storeWords (mem : Mem) (a : UInt64) : List UInt64 → Mem
  | [] => mem
  | w :: ws => store64 (storeWords mem (a + 8) ws) a w

/-- Write the bytes `bs` from `a` on. -/
def storeBytes (mem : Mem) (a : UInt64) (bs : List UInt8) : Mem := fun x =>
  (bs[(x - a).toNat]?).getD (mem x)

/-- A byte, with words right behind it, as words. -/
def packed : UInt8 → List UInt64 → List UInt64
  | b, [] => [b.toUInt64]
  | b, w :: ws => (b.toUInt64 ||| w <<< 8) :: packed (w >>> 56).toUInt8 ws

/-- Where element `i` of an array of records of `size` bytes starts. -/
def element (base : UInt64) (size : ℕ) (i : ℤ) : UInt64 := base + UInt64.ofInt (size * i)

variable {mem : Mem} {a b x base : UInt64} {vs ws : List UInt64} {size k n : ℕ} {i j : ℤ}

lemma storeWords_outside (h : 8 * ws.length ≤ (x - a).toNat) : storeWords mem a ws x = mem x := by
  induction ws generalizing a with
  | nil => rfl
  | cons w ws ih =>
      rw [List.length_cons] at h
      have height : (8 : UInt64) = UInt64.ofNat 8 := rfl
      rw [storeWords, store64_outside (by omega), ih]
      rw [height, toNat_sub_add_ofNat (by omega)]
      omega

lemma storeBytes_outside {bs : List UInt8} (h : bs.length ≤ (x - a).toNat) :
    storeBytes mem a bs x = mem x := by
  rw [storeBytes, List.getElem?_eq_none h, Option.getD_none]

lemma storeBytes_inside {bs : List UInt8} {v : UInt8} (hk : k < 2 ^ 64) (hv : bs[k]? = some v) :
    storeBytes mem a bs (a + UInt64.ofNat k) = v := by
  rw [storeBytes, toNat_add_ofNat_sub a hk, hv, Option.getD_some]

/-- **A record is read back.** -/
theorem holds_storeWords (hroom : 8 * ws.length ≤ 2 ^ 64) : Holds (storeWords mem a ws) a ws := by
  induction ws generalizing a with
  | nil => trivial
  | cons w ws ih =>
      rw [List.length_cons] at hroom
      have hnext : (a + 8 - a).toNat = 8 := toNat_add_ofNat_sub a (i := 8) (by decide)
      exact ⟨load64_store64 _ _ _,
        holds_store64_below (by omega) (by omega) (ih (by omega))⟩

/-- The bytes of a record decide what its words are. -/
lemma load64_congr {mem' : Mem}
    (h : ∀ k, k < size → mem' (a + UInt64.ofNat k) = mem (a + UInt64.ofNat k)) (c : UInt64)
    (hc : c.toNat + 8 ≤ size) : load64 mem' (a + c) = load64 mem (a + c) := by
  rw [load64, load64]
  refine congrArg UInt64.ofNat (load_congr fun i hi => ?_)
  have haddr : a + c + UInt64.ofNat i = a + UInt64.ofNat (c.toNat + i) := by
    rw [UInt64.ofNat_add, UInt64.ofNat_toNat, UInt64.add_assoc]
  rw [haddr]
  exact h (c.toNat + i) (by omega)

/-! ## Elements -/

lemma toNat_ofInt_of_nonneg {z : ℤ} (h0 : 0 ≤ z) (hlt : z < 2 ^ 64) :
    (UInt64.ofInt z).toNat = z.toNat := by
  obtain ⟨n, rfl⟩ := Int.eq_ofNat_of_zero_le h0
  rw [ofInt_natCast, toNat_ofNat_of_lt (by omega)]
  rfl

lemma toNat_ofInt_of_neg {z : ℤ} (h0 : z < 0) (hlt : -2 ^ 64 ≤ z) :
    (UInt64.ofInt z).toNat = (2 ^ 64 + z).toNat := by
  have hmod : z % 2 ^ 64 = 2 ^ 64 + z := by omega
  rw [UInt64.ofInt, hmod, toNat_ofNat_of_lt (by omega)]

lemma element_natCast (base : UInt64) (size i : ℕ) :
    element base size i = base + UInt64.ofNat (size * i) := by
  rw [element, ← Nat.cast_mul, ofInt_natCast]

/-- A byte of an element, relative to another element. -/
lemma element_sub (base : UInt64) (size : ℕ) (i j : ℤ) (k : ℕ) :
    element base size j + UInt64.ofNat k - element base size i
      = UInt64.ofInt (size * (j - i) + k) := by
  have hdiff : (size * (j - i) + k : ℤ) = size * j + k + -(size * i) := by ring
  rw [hdiff, UInt64.ofInt_add, UInt64.ofInt_add, UInt64.ofInt_neg, ofInt_natCast, element, element,
    UInt64.sub_eq_add_neg, UInt64.neg_add, UInt64.sub_eq_add_neg, UInt64.add_assoc base,
    UInt64.add_comm base, UInt64.add_assoc, ← UInt64.add_assoc base, ← UInt64.sub_eq_add_neg base,
    UInt64.sub_self, UInt64.zero_add]

/-- **Different elements do not overlap.** -/
theorem element_apart (hne : i ≠ j) (hi : |i| ≤ n) (hj : |j| ≤ n)
    (hsize : size * (2 * n + 1) < 2 ^ 63) (hk : k < size) :
    size ≤ (element base size j + UInt64.ofNat k - element base size i).toNat := by
  obtain ⟨hi0, hi1⟩ := abs_le.mp hi
  obtain ⟨hj0, hj1⟩ := abs_le.mp hj
  have hbound : (size : ℤ) * (2 * n + 1) < 2 ^ 63 := by exact_mod_cast hsize
  rw [element_sub]
  rcases lt_or_gt_of_ne hne with hlt | hgt
  · have hle : (size : ℤ) * 1 ≤ size * (j - i) := mul_le_mul_of_nonneg_left (by omega) (by omega)
    have hge : (size : ℤ) * (j - i) ≤ size * (2 * n) :=
      mul_le_mul_of_nonneg_left (by omega) (by omega)
    have hsum : (size : ℤ) * (2 * n + 1) = size * (2 * n) + size := by ring
    rw [toNat_ofInt_of_nonneg (by omega) (by omega)]
    omega
  · have hle : (size : ℤ) * (j - i) ≤ size * (-1) :=
      mul_le_mul_of_nonneg_left (by omega) (by omega)
    have hge : (size : ℤ) * (-(2 * n)) ≤ size * (j - i) :=
      mul_le_mul_of_nonneg_left (by omega) (by omega)
    have hsum : (size : ℤ) * (2 * n + 1) = size * (2 * n) + size := by ring
    have hneg : (size : ℤ) * (-(2 * n)) = -(size * (2 * n)) := by ring
    rw [toNat_ofInt_of_neg (by omega) (by omega)]
    omega

/-! ## Words that are not aligned -/

lemma length_packed (b : UInt8) (ws : List UInt64) : (packed b ws).length = ws.length + 1 := by
  induction ws generalizing b with
  | nil => rfl
  | cons w ws ih => rw [packed, List.length_cons, ih, List.length_cons]

lemma toNat_packed (b : UInt8) (w : UInt64) :
    (b.toUInt64 ||| w <<< 8).toNat = b.toNat + 256 * (w.toNat % 2 ^ 56) := by
  have hb := b.toNat_lt
  have hshift : (w <<< 8).toNat = 2 ^ 8 * (w.toNat % 2 ^ 56) := by
    rw [UInt64.toNat_shiftLeft, show (8 : UInt64).toNat % 64 = 8 from rfl, Nat.shiftLeft_eq]
    omega
  rw [UInt64.toNat_or, hshift, Nat.or_comm, UInt8.toNat_toUInt64,
    ← Nat.two_pow_add_eq_or_of_lt (i := 8) hb, Nat.add_comm]

/-- **The words behind the byte** are found one byte later. -/
lemma holds_packed {b : UInt8}
    (h : Holds mem a (packed b ws)) : mem a = b ∧ Holds mem (a + 1) ws := by
  induction ws generalizing a b with
  | nil =>
      have hbyte := load64_byte mem a (i := 0) (by decide)
      rw [h.1] at hbyte
      exact ⟨by simpa using hbyte, trivial⟩
  | cons w ws ih =>
      obtain ⟨hfirst, hrest⟩ := h
      obtain ⟨hnext, hwords⟩ := ih hrest
      have hbyte : ∀ i, i < 8 → mem (a + UInt64.ofNat i) =
          UInt8.ofNat ((b.toNat + 256 * (w.toNat % 2 ^ 56)) / 256 ^ i) := fun i hi => by
        rw [load64_byte mem a hi, hfirst, toNat_packed]
      have hzero : mem a = b := by
        have hb := b.toNat_lt
        have hload := hbyte 0 (by decide)
        simp only [UInt64.reduceOfNat, UInt64.add_zero] at hload
        rw [hload, ← UInt8.toNat_inj, UInt8.toNat_ofNat']
        omega
      have hmoved : ∀ i, i < 8 →
          mem (a + 1 + UInt64.ofNat i) = UInt8.ofNat (w.toNat / 256 ^ i) := by
        intro i hi
        have hw := w.toNat_lt
        rcases Nat.lt_or_eq_of_le (Nat.le_of_lt_succ hi) with hlt | rfl
        · have hb := b.toNat_lt
          have hskip : (b.toNat + 256 * (w.toNat % 2 ^ 56)) / 256 ^ (i + 1) =
              w.toNat % 2 ^ 56 / 256 ^ i := by
            rw [show 256 ^ (i + 1) = 256 * 256 ^ i from Nat.pow_succ', ← Nat.div_div_eq_div_mul]
            congr 1
            omega
          rw [← add_succ, hbyte (i + 1) (by omega), hskip, ← UInt8.toNat_inj, UInt8.toNat_ofNat',
            UInt8.toNat_ofNat']
          interval_cases i <;> omega
        · have haddr : a + 1 + UInt64.ofNat 7 = a + 8 := by rw [UInt64.add_assoc]; rfl
          rw [haddr, hnext, ← UInt8.toNat_inj, UInt8.toNat_ofNat', UInt64.toNat_toUInt8,
            UInt64.toNat_shiftRight, show (56 : UInt64).toNat % 64 = 56 from rfl,
            Nat.shiftRight_eq_div_pow]
          rfl
      refine ⟨hzero, ?_, ?_⟩
      · rw [load64, load_ofBytes hmoved, Nat.mod_eq_of_lt (show w.toNat < 256 ^ 8 from w.toNat_lt),
          UInt64.ofNat_toNat]
      · rwa [UInt64.add_assoc, show (1 : UInt64) + 8 = 8 + 1 from rfl, ← UInt64.add_assoc]

end Records
