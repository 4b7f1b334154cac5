import Seaweed.Library.Records

/-!
# Two memories that agree where it has been written

A program that reads only what it has written does the same on every memory.  It may also read what
it has not written, as long as it finds 0 there: *settled* bytes are those that have been written or
are 0, and two runs that only read settled bytes stay together.

* `bytesAt`, `Agree`, `Settled` — bytes, agreement on bytes, and what may be read.
* `Agree.of_settled` — settled bytes are the same in memories that agree.
* **`Agree.store64`**, `Agree.storeWords` — writing the same keeps the agreement and extends it.
* `Blank` — a memory that was cleared, where everything is settled.
-/

namespace Agreement

open Memory Words Records

/-- The `n` bytes from `a` on. -/
def bytesAt (a : UInt64) (n : ℕ) : List UInt64 := (List.range n).map fun k => a + UInt64.ofNat k

/-- The memories have the same in the bytes `known`. -/
def Agree (known : List UInt64) (m m' : Mem) : Prop := ∀ x ∈ known, m x = m' x

/-- Each of the bytes `reads` is one of the bytes `known`, or is 0. -/
def Settled (known : List UInt64) (m : Mem) (reads : List UInt64) : Prop :=
  ∀ x ∈ reads, x ∈ known ∨ m x = 0

/-- The memory is 0 but for the bytes `known`. -/
def Blank (known : List UInt64) (m : Mem) : Prop := ∀ x, x ∈ known ∨ m x = 0

instance (known : List UInt64) (m : Mem) (reads : List UInt64) :
    Decidable (Settled known m reads) := List.decidableBAll _ reads

variable {known known' reads reads' : List UInt64} {m m' : Mem} {a x w : UInt64} {ws : List UInt64}
  {n k : ℕ}

/-! ## Bytes -/

lemma mem_bytesAt : x ∈ bytesAt a n ↔ ∃ k, k < n ∧ a + UInt64.ofNat k = x := by
  simp [bytesAt]

lemma add_mem_bytesAt (hk : k < n) : a + UInt64.ofNat k ∈ bytesAt a n :=
  mem_bytesAt.mpr ⟨k, hk, rfl⟩

lemma mem_bytesAt_iff (hn : n ≤ 2 ^ 64) : x ∈ bytesAt a n ↔ (x - a).toNat < n := by
  rw [mem_bytesAt]
  constructor
  · rintro ⟨k, hk, rfl⟩
    rwa [toNat_add_ofNat_sub a (by omega)]
  · intro hlt
    refine ⟨(x - a).toNat, hlt, ?_⟩
    rw [UInt64.ofNat_toNat, UInt64.add_comm, UInt64.sub_add_cancel]

/-! ## Agreement -/

lemma agree_append : Agree (known ++ known') m m' ↔ Agree known m m' ∧ Agree known' m m' := by
  simp only [Agree, List.forall_mem_append]

lemma Agree.mono (h : Agree known m m') (hsub : ∀ x ∈ known', x ∈ known) : Agree known' m m' :=
  fun x hx => h x (hsub x hx)

lemma Settled.mono (h : Settled known m reads) (hsub : ∀ x ∈ known, x ∈ known') :
    Settled known' m reads := fun x hx => (h x hx).imp_left (hsub x)

/-- **Settled bytes are the same in both.** -/
theorem Agree.of_settled (h : Agree known m m') (hs : Settled known m reads)
    (hs' : Settled known m' reads') (hx : x ∈ reads) (hx' : x ∈ reads') : m x = m' x := by
  rcases hs x hx with hmem | hzero
  · exact h x hmem
  · rcases hs' x hx' with hmem | hzero'
    · exact h x hmem
    · rw [hzero, hzero']

/-- More may be known. -/
lemma mem_append_insert {more new : List UInt64} (hx : x ∈ known ++ new) :
    x ∈ known ++ more ++ new := by
  rcases List.mem_append.mp hx with hold | hnew
  · exact List.mem_append_left _ (List.mem_append_left _ hold)
  · exact List.mem_append_right _ hnew

/-- What may be read is as good as known. -/
lemma Agree.extend (h : Agree known m m') (hs : Settled known m reads)
    (hs' : Settled known m' reads) : Agree (known ++ reads) m m' :=
  agree_append.mpr ⟨h, fun _ hx => h.of_settled hs hs' hx hx⟩

/-- A word whose bytes are the same. -/
lemma Agree.load64 (h : Agree (bytesAt a 8) m m') : load64 m a = load64 m' a := by
  rw [Memory.load64, Memory.load64]
  exact congrArg UInt64.ofNat (load_congr fun i hi => h _ (add_mem_bytesAt hi))

/-- **The same word is written to both.** -/
theorem Agree.store64 (h : Agree known m m') (a w : UInt64) :
    Agree (known ++ bytesAt a 8) (store64 m a w) (store64 m' a w) := by
  intro x hx
  by_cases hin : (x - a).toNat < 8
  · rw [Memory.store64, Memory.store64, store, store, if_pos hin, if_pos hin]
  · rw [store64_outside (by omega), store64_outside (by omega)]
    rcases List.mem_append.mp hx with hold | hnew
    · exact h x hold
    · exact absurd ((mem_bytesAt_iff (by omega)).mp hnew) hin

lemma bytesAt_append (a : UInt64) (n k : ℕ) :
    x ∈ bytesAt a (n + k) ↔ x ∈ bytesAt a n ∨ x ∈ bytesAt (a + UInt64.ofNat n) k := by
  simp only [mem_bytesAt]
  constructor
  · rintro ⟨i, hi, rfl⟩
    rcases Nat.lt_or_ge i n with hlt | hge
    · exact Or.inl ⟨i, hlt, rfl⟩
    · refine Or.inr ⟨i - n, by omega, ?_⟩
      rw [UInt64.add_assoc, ← UInt64.ofNat_add, Nat.add_sub_cancel' hge]
  · rintro (⟨i, hi, rfl⟩ | ⟨i, hi, rfl⟩)
    · exact ⟨i, by omega, rfl⟩
    · refine ⟨n + i, by omega, ?_⟩
      rw [UInt64.ofNat_add, UInt64.add_assoc]

/-- The bytes of one word more, which comes last, or first. -/
lemma mem_append_bytesAt_succ : x ∈ known ++ bytesAt a (8 * (n + 1)) ↔
    x ∈ known ++ bytesAt a (8 * n) ++ bytesAt (a + UInt64.ofNat (8 * n)) 8 := by
  rw [Nat.mul_add, Nat.mul_one, List.append_assoc, List.mem_append, List.mem_append,
    List.mem_append, bytesAt_append]

lemma mem_append_bytesAt_cons : x ∈ known ++ bytesAt a (8 * (n + 1)) ↔
    x ∈ known ++ bytesAt (a + 8) (8 * n) ++ bytesAt a 8 := by
  have height : (8 : UInt64) = UInt64.ofNat 8 := rfl
  rw [Nat.mul_add, Nat.mul_one, Nat.add_comm, List.append_assoc, List.mem_append, List.mem_append,
    List.mem_append, bytesAt_append, ← height]
  exact or_congr_right or_comm

/-- **The same record is written to both.** -/
theorem Agree.storeWords (h : Agree known m m') (a : UInt64) (ws : List UInt64) :
    Agree (known ++ bytesAt a (8 * ws.length)) (storeWords m a ws) (storeWords m' a ws) := by
  induction ws generalizing a with
  | nil => simpa [Records.storeWords, bytesAt] using h
  | cons w ws ih =>
      exact ((ih (a + 8)).store64 a w).mono fun x hx => mem_append_bytesAt_cons.mp hx

/-! ## Memory that was cleared -/

lemma Blank.settled (h : Blank known m) : Settled known m reads := fun x _ => h x

lemma Blank.mono (h : Blank known m) (hsub : ∀ x ∈ known, x ∈ known') : Blank known' m :=
  fun x => (h x).imp_left (hsub x)

lemma Blank.store64 (h : Blank known m) (a w : UInt64) :
    Blank (known ++ bytesAt a 8) (store64 m a w) := by
  intro x
  by_cases hin : (x - a).toNat < 8
  · exact Or.inl (List.mem_append_right _ ((mem_bytesAt_iff (by omega)).mpr hin))
  · rw [store64_outside (by omega)]
    exact (h x).imp_left (List.mem_append_left _)

lemma Blank.storeWords (h : Blank known m) (a : UInt64) (ws : List UInt64) :
    Blank (known ++ bytesAt a (8 * ws.length)) (storeWords m a ws) := by
  induction ws generalizing a with
  | nil => simpa [Records.storeWords, bytesAt] using h
  | cons w ws ih =>
      exact ((ih (a + 8)).store64 a w).mono fun x hx => mem_append_bytesAt_cons.mpr hx

end Agreement
