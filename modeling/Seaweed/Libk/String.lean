import Seaweed.Library.Memory

/-!
# Strings (`libk/string.c`)

* `CString` — the bytes before the NUL.
* `StringAt` — a string in memory, with its NUL.
* **`strcmp_eq_zero_iff`** — `strcmp` finds no difference exactly if the string is there.
* `strncmp_eq_zero_iff` — nor does `strncmp`, if the bytes are there.
-/

namespace Seaweed

open Memory

/-- The bytes of a string: none of them is the NUL that ends it. -/
structure CString where
  bytes : List UInt8
  noNul : ∀ x ∈ bytes, x ≠ 0

@[ext] lemma CString.ext {s t : CString} (h : s.bytes = t.bytes) : s = t := by
  cases s
  cases t
  cases h
  rfl

instance : DecidableEq CString := fun _ _ => decidable_of_iff _ (CString.ext_iff).symm

/-- A name of one letter. -/
def CString.single (c : UInt8) (h : c ≠ 0) : CString := ⟨[c], fun x hx => by
  rwa [List.mem_singleton.mp hx]⟩

/-- The string in memory at `a` is compared with `b`; the end of `b` reads as its NUL. -/
def strcmp (mem : Mem) (a : UInt64) : (b : List UInt8) → ℤ
  | [] => (mem a).toNat
  | x :: b => if mem a ≠ 0 ∧ mem a = x then strcmp mem (a + 1) b else (mem a).toNat - x.toNat

/-- The bytes at `str1` are compared with as many bytes as `str2` is long, whatever they are. -/
def strncmp (mem : Mem) (str1 : UInt64) : (str2 : List UInt8) → ℤ
  | [] => 0
  | x :: str2 => if mem str1 ≠ x then 1 else strncmp mem (str1 + 1) str2

/-- The bytes of a string, and its NUL, are in memory from `a` on. -/
def StringAt (mem : Mem) (a : UInt64) : List UInt8 → Prop
  | [] => mem a = 0
  | x :: bytes => mem a = x ∧ StringAt mem (a + 1) bytes

variable {mem : Mem} {a : UInt64} {bytes bytes' : List UInt8}

lemma toNat_eq_zero_iff {x : UInt8} : ((x.toNat : ℤ) = 0) ↔ x = 0 := by
  rw [← UInt8.toNat_inj, UInt8.toNat_zero]
  omega

/-- **`strcmp` returns 0 exactly if the strings are the same.** -/
theorem strcmp_eq_zero_iff (h : ∀ x ∈ bytes, x ≠ 0) :
    strcmp mem a bytes = 0 ↔ StringAt mem a bytes := by
  induction bytes generalizing a with
  | nil => exact toNat_eq_zero_iff
  | cons x bytes ih =>
      have hx : x ≠ 0 := h x List.mem_cons_self
      rw [strcmp, StringAt]
      split_ifs with hsame
      · rw [ih fun y hy => h y (List.mem_cons_of_mem _ hy)]
        exact (and_iff_right hsame.2).symm
      · have hne : mem a ≠ x := fun heq => hsame ⟨heq ▸ hx, heq⟩
        rw [← UInt8.toNat_inj.ne] at hne
        exact ⟨fun hzero => by omega, fun hat => absurd (congrArg UInt8.toNat hat.1) hne⟩

/-- **`strncmp` returns 0 exactly if the bytes are the same.** -/
theorem strncmp_eq_zero_iff :
    strncmp mem a bytes = 0 ↔ ∀ k v, bytes[k]? = some v → mem (a + UInt64.ofNat k) = v := by
  induction bytes generalizing a with
  | nil => simp [strncmp]
  | cons x bytes ih =>
      rw [strncmp]
      split_ifs with hne
      · refine iff_of_false one_ne_zero fun h => hne ?_
        simpa using h 0 x rfl
      · rw [ih]
        constructor
        · intro h k v hv
          cases k with
          | zero =>
              obtain rfl : x = v := by simpa using hv
              simpa using hne
          | succ k =>
              rw [add_succ]
              exact h k v hv
        · intro h k v hv
          rw [← add_succ]
          exact h (k + 1) v hv

/-- The bytes decide which string is there. -/
lemma stringAt_congr {mem' : Mem} {a' : UInt64}
    (h : ∀ j, j ≤ bytes.length → mem (a + UInt64.ofNat j) = mem' (a' + UInt64.ofNat j)) :
    StringAt mem a bytes ↔ StringAt mem' a' bytes := by
  induction bytes generalizing a a' with
  | nil =>
      have hnul : mem a = mem' a' := by simpa using h 0 (le_refl _)
      rw [StringAt, StringAt, hnul]
  | cons x bytes ih =>
      have hfirst : mem a = mem' a' := by simpa using h 0 (Nat.zero_le _)
      have hrest : StringAt mem (a + 1) bytes ↔ StringAt mem' (a' + 1) bytes := by
        refine ih fun j hj => ?_
        rw [← add_succ, ← add_succ]
        exact h (j + 1) (Nat.succ_le_succ hj)
      rw [StringAt, StringAt, hfirst, hrest]

/-- A string that is written out byte by byte. -/
lemma stringAt_of_bytes (h : ∀ j, j ≤ bytes.length → mem (a + UInt64.ofNat j) = bytes[j]?.getD 0) :
    StringAt mem a bytes := by
  induction bytes generalizing a with
  | nil => simpa [StringAt] using h 0 (le_refl _)
  | cons x bytes ih =>
      refine ⟨by simpa using h 0 (Nat.zero_le _), ih fun j hj => ?_⟩
      rw [← add_succ, h (j + 1) (Nat.succ_le_succ hj), List.getElem?_cons_succ]

/-- There is one string at an address. -/
theorem StringAt.unique (h : StringAt mem a bytes) (h' : StringAt mem a bytes')
    (hnul : ∀ x ∈ bytes, x ≠ 0) (hnul' : ∀ x ∈ bytes', x ≠ 0) : bytes = bytes' := by
  induction bytes generalizing a bytes' with
  | nil =>
      cases bytes' with
      | nil => rfl
      | cons y bytes' => exact absurd (h'.1.symm.trans h) (hnul' y List.mem_cons_self)
  | cons x bytes ih =>
      cases bytes' with
      | nil => exact absurd (h.1.symm.trans h') (hnul x List.mem_cons_self)
      | cons y bytes' =>
          rw [h.1.symm.trans h'.1, ih h.2 h'.2 (fun z hz => hnul z (List.mem_cons_of_mem _ hz))
            fun z hz => hnul' z (List.mem_cons_of_mem _ hz)]

end Seaweed
