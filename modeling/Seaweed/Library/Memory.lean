import Seaweed.Library.Words

/-!
# Byte-addressed memory

A byte at every 64-bit address, and little-endian words on top of it.  Addresses wrap around, so
where a byte lies relative to a word is said by the difference of the two addresses.

* `load`, `store` — a number of any width; `load64`, `store64` — words.
* **`load_store`**, `load_store_apart` — a store is read back where it was made and nowhere else.
* `store64_load64` — storing a loaded word copies its bytes.
-/

namespace Memory

open Words

/-- A byte at every address. -/
abbrev Mem := UInt64 → UInt8

/-- The number whose `n` bytes start at `a`, least significant byte first. -/
def load (m : Mem) (a : UInt64) : ℕ → ℕ
  | 0 => 0
  | n + 1 => (m a).toNat + 256 * load m (a + 1) n

/-- Write the `n` low bytes of `w` from `a` on. -/
def store (m : Mem) (a : UInt64) (n w : ℕ) : Mem := fun x =>
  if (x - a).toNat < n then UInt8.ofNat (w / 256 ^ (x - a).toNat) else m x

def load64 (m : Mem) (a : UInt64) : UInt64 := UInt64.ofNat (load m a 8)

def store64 (m : Mem) (a w : UInt64) : Mem := store m a 8 w.toNat

/-- The `k` bytes from `b` on are outside the `n` bytes from `a` on. -/
def Apart (a : UInt64) (n : ℕ) (b : UInt64) (k : ℕ) : Prop :=
  ∀ i, i < k → n ≤ (b + UInt64.ofNat i - a).toNat

variable {m m' : Mem} {a b x : UInt64} {n k w i : ℕ}

/-! ## Addresses -/

lemma add_ofNat_sub (a : UInt64) (i : ℕ) : a + UInt64.ofNat i - a = UInt64.ofNat i := by
  rw [UInt64.add_comm, UInt64.add_sub_cancel]

lemma toNat_add_ofNat_sub (a : UInt64) (hi : i < 2 ^ 64) :
    (a + UInt64.ofNat i - a).toNat = i := by
  rw [add_ofNat_sub, toNat_ofNat_of_lt hi]

lemma add_succ (a : UInt64) (i : ℕ) : a + UInt64.ofNat (i + 1) = a + 1 + UInt64.ofNat i := by
  rw [UInt64.ofNat_add, UInt64.add_comm (UInt64.ofNat i), ← UInt64.add_assoc]
  rfl

/-- The distance from a later place, for an address that is as far from `a` at least. -/
lemma toNat_sub_add_ofNat (h : i ≤ (x - a).toNat) :
    (x - (a + UInt64.ofNat i)).toNat = (x - a).toNat - i := by
  have hx := (x - a).toNat_lt
  have hdiff : x - (a + UInt64.ofNat i) = (x - a) - UInt64.ofNat i := by
    rw [UInt64.sub_eq_add_neg, UInt64.sub_eq_add_neg, UInt64.sub_eq_add_neg, UInt64.neg_add,
      UInt64.sub_eq_add_neg, UInt64.add_assoc]
  rw [hdiff, UInt64.toNat_sub, toNat_ofNat_of_lt (by omega)]
  omega

/-- Two words are apart when neither starts inside the other. -/
lemma apart_of_le (h : 8 ≤ (b - a).toNat) (h' : 8 ≤ (a - b).toNat) : Apart a 8 b 8 := by
  intro i hi
  have hdiff : b + UInt64.ofNat i - a = (b - a) + UInt64.ofNat i := by
    rw [UInt64.sub_eq_add_neg, UInt64.sub_eq_add_neg, UInt64.add_assoc, UInt64.add_assoc,
      UInt64.add_comm (-a)]
  have hneg : (a - b).toNat = (2 ^ 64 - (b - a).toNat) % 2 ^ 64 := by
    rw [show a - b = -(b - a) by rw [UInt64.neg_sub], UInt64.toNat_neg]
    rfl
  have := (b - a).toNat_lt
  rw [hdiff, UInt64.toNat_add, toNat_ofNat_of_lt (by omega)]
  omega

/-- Two places in one object are apart when neither reaches into the other. -/
lemma apart_offsets (a : UInt64) {i j : ℕ} (hi : i + n < 2 ^ 63) (hj : j + k < 2 ^ 63)
    (h : i + n ≤ j ∨ j + k ≤ i) : Apart (a + UInt64.ofNat i) n (a + UInt64.ofNat j) k := by
  intro d hd
  have hdiff : a + UInt64.ofNat j + UInt64.ofNat d - (a + UInt64.ofNat i)
      = UInt64.ofNat (j + d) - UInt64.ofNat i := by
    rw [UInt64.ofNat_add, UInt64.add_assoc, UInt64.sub_eq_add_neg, UInt64.neg_add,
      UInt64.sub_eq_add_neg, ← UInt64.add_assoc, UInt64.add_comm a, UInt64.add_assoc,
      UInt64.add_assoc, ← UInt64.add_assoc a, ← UInt64.sub_eq_add_neg a, UInt64.sub_self,
      UInt64.zero_add, UInt64.sub_eq_add_neg]
  rw [hdiff, UInt64.toNat_sub, toNat_ofNat_of_lt (by omega), toNat_ofNat_of_lt (by omega)]
  omega

/-! ## Loads -/

/-- The bytes decide what is loaded. -/
lemma load_congr (h : ∀ i, i < n → m (a + UInt64.ofNat i) = m' (b + UInt64.ofNat i)) :
    load m a n = load m' b n := by
  induction n generalizing a b with
  | zero => rfl
  | succ n ih =>
      have hfirst : m a = m' b := by simpa using h 0 (by omega)
      have hrest : load m (a + 1) n = load m' (b + 1) n :=
        ih fun i hi => by rw [← add_succ, ← add_succ]; exact h (i + 1) (by omega)
      rw [load, load, hfirst, hrest]

lemma load_lt (m : Mem) (n : ℕ) (a : UInt64) : load m a n < 256 ^ n := by
  induction n generalizing a with
  | zero => simp [load]
  | succ n ih =>
      have hrest := ih (a + 1)
      have hbyte := (m a).toNat_lt
      rw [load, Nat.pow_succ]
      omega

/-- The bytes of a loaded number. -/
lemma load_byte (m : Mem) : ∀ (n i : ℕ) (a : UInt64), i < n →
    UInt8.ofNat (load m a n / 256 ^ i) = m (a + UInt64.ofNat i)
  | n + 1, 0, a, _ => by
      have hbyte := (m a).toNat_lt
      rw [load, Nat.pow_zero, Nat.div_one, ← UInt8.toNat_inj, UInt8.toNat_ofNat']
      simp only [UInt64.reduceOfNat, UInt64.add_zero]
      omega
  | n + 1, i + 1, a, hi => by
      have hbyte := (m a).toNat_lt
      have hdiv : ((m a).toNat + 256 * load m (a + 1) n) / 256 = load m (a + 1) n := by omega
      rw [load, Nat.pow_succ', ← Nat.div_div_eq_div_mul, hdiv, load_byte m n i (a + 1) (by omega),
        add_succ]

/-! ## Stores -/

/-- A store leaves the other bytes alone. -/
lemma store_outside (h : n ≤ (x - a).toNat) : store m a n w x = m x := if_neg (by omega)

lemma store_inside (hi : i < n) (hn : n ≤ 2 ^ 64) :
    store m a n w (a + UInt64.ofNat i) = UInt8.ofNat (w / 256 ^ i) := by
  rw [store, toNat_add_ofNat_sub a (by omega), if_pos hi]

/-- The bytes of a number, put together again. -/
lemma load_ofBytes (h : ∀ i, i < n → m (a + UInt64.ofNat i) = UInt8.ofNat (w / 256 ^ i)) :
    load m a n = w % 256 ^ n := by
  induction n generalizing w a with
  | zero => simp [load, Nat.mod_one]
  | succ n ih =>
      have hfirst : m a = UInt8.ofNat w := by simpa using h 0 (by omega)
      have hrest : load m (a + 1) n = w / 256 % 256 ^ n := by
        refine ih fun i hi => ?_
        rw [← add_succ, h (i + 1) (by omega), Nat.pow_succ', Nat.div_div_eq_div_mul]
      have hsplit : w % (256 * 256 ^ n) = w % 256 + 256 * (w / 256 % 256 ^ n) := Nat.mod_mul
      rw [load, hfirst, hrest, UInt8.toNat_ofNat', Nat.pow_succ' (m := 256), hsplit]

/-- **A store is read back.** -/
theorem load_store (hn : n ≤ 2 ^ 64) : load (store m a n w) a n = w % 256 ^ n :=
  load_ofBytes fun _ hi => store_inside hi hn

/-- **A store is not seen elsewhere.** -/
theorem load_store_apart (h : Apart a n b k) : load (store m a n w) b k = load m b k :=
  load_congr fun i hi => store_outside (h i hi)

/-! ## Words -/

@[simp] theorem load64_store64 (m : Mem) (a w : UInt64) : load64 (store64 m a w) a = w := by
  have hw := w.toNat_lt
  rw [load64, store64, load_store (by omega), Nat.mod_eq_of_lt (by omega), UInt64.ofNat_toNat]

/-- The bytes of a word. -/
lemma load64_byte (m : Mem) (a : UInt64) (hi : i < 8) :
    m (a + UInt64.ofNat i) = UInt8.ofNat ((load64 m a).toNat / 256 ^ i) := by
  have hload := load_lt m 8 a
  rw [load64, toNat_ofNat_of_lt (by omega), load_byte m 8 i a hi]

/-- A word of eight zero bytes. -/
lemma load64_zero (h : ∀ i, i < 8 → m (a + UInt64.ofNat i) = 0) : load64 m a = 0 := by
  have hload : load m a 8 = 0 % 256 ^ 8 :=
    load_ofBytes fun i hi => by rw [h i hi, Nat.zero_div]; rfl
  rw [load64, hload]
  rfl

theorem load64_store64_apart {w : UInt64} (h : Apart a 8 b 8) :
    load64 (store64 m a w) b = load64 m b := by
  rw [load64, store64, load_store_apart h, load64]

lemma store64_outside {w : UInt64} (h : 8 ≤ (x - a).toNat) : store64 m a w x = m x :=
  store_outside h

/-- A number that is stored where only zeros follow is read back as a word. -/
lemma load64_store_narrow (hn : n ≤ 8) (hw : w < 256 ^ n)
    (hzero : ∀ i, n ≤ i → i < 8 → m (a + UInt64.ofNat i) = 0) :
    load64 (store m a n w) a = UInt64.ofNat w := by
  have hword : w < 256 ^ 8 := lt_of_lt_of_le hw (Nat.pow_le_pow_right (by decide) hn)
  have hload : load (store m a n w) a 8 = w % 256 ^ 8 := by
    refine load_ofBytes fun i hi => ?_
    rcases Nat.lt_or_ge i n with hlt | hge
    · exact store_inside hlt (by omega)
    · have hout : n ≤ (a + UInt64.ofNat i - a).toNat := by
        rwa [toNat_add_ofNat_sub a (by omega)]
      have hdiv : w / 256 ^ i = 0 :=
        Nat.div_eq_of_lt (lt_of_lt_of_le hw (Nat.pow_le_pow_right (by decide) hge))
      rw [store_outside hout, hzero i hge hi, hdiv]
      rfl
  rw [load64, hload, Nat.mod_eq_of_lt hword]

/-- The bytes of a word that is zero. -/
lemma byte_zero_of_load64 (h : load64 m a = 0) (hi : i < 8) : m (a + UInt64.ofNat i) = 0 := by
  rw [load64_byte m a hi, h]
  exact congrArg UInt8.ofNat (Nat.zero_div _)

/-- Storing a loaded word copies its bytes. -/
theorem store64_load64 (hi : i < 8) :
    store64 m a (load64 m' b) (a + UInt64.ofNat i) = m' (b + UInt64.ofNat i) := by
  rw [store64, store_inside hi (by omega), ← load64_byte m' b hi]

end Memory
