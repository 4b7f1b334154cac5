import Seaweed.Library.Memory

/-!
# Four-level paging

How the processor translates an address in long mode, with 4 KiB pages, large pages of 2 MiB and
1 GiB, and without execute-disable.  Level 0 is the last one, whose entries are pages of 4 KiB, and
level 3 is the one that the root register points to.

* `decode` — what an entry says at its level: a page, a table, or nothing.
* `walk`, `translate` — the page walk.
* `walk_page`, `walk_table`, `walk_none` — one step of a walk.
* **`walk_isSome`** — where entry 0 of every table leads on, an address whose indices are 0 arrives;
  `walk_entry_isSome` — so does one that finds any entry above them.
-/

namespace Paging

open Memory Words

/-- What an entry refers to. -/
inductive Target
  | page (a : UInt64)
  | table (a : UInt64)
  deriving DecidableEq

/-- Bit `i` of an entry. -/
def bit (e : UInt64) (i : ℕ) : Bool := e.toNat.testBit i

/-- The address in an entry: bits 12 to 51. -/
def frameOf (e : UInt64) : UInt64 := UInt64.ofNat (e.toNat % 2 ^ 52 / 2 ^ 12 * 2 ^ 12)

/-- How many bytes an entry of a level covers. -/
def span (level : ℕ) : ℕ := 2 ^ (12 + 9 * level)

/-- Bit 0 says that the entry is there, and bit 63 is reserved.  Bit 7 makes the entry of a middle
level a large page, whose address bits below its size are reserved but for bit 12; it is reserved
in the root. -/
def decode (level : ℕ) (e : UInt64) : Option Target :=
  if bit e 0 = false ∨ bit e 63 = true then none
  else if level = 0 then some (.page (frameOf e))
  else if bit e 7 = false then some (.table (frameOf e))
  else if level = 3 ∨ e.toNat / 2 ^ 13 % 2 ^ (9 * level - 1) ≠ 0 then none
  else some (.page (UInt64.ofNat (e.toNat % 2 ^ 52 / span level * span level)))

/-- Entry `i` of a table. -/
def entry (mem : Mem) (table : UInt64) (i : ℕ) : UInt64 :=
  load64 mem (table + UInt64.ofNat (8 * i))

/-- The index of an address at a level. -/
def index (level : ℕ) (v : UInt64) : ℕ := v.toNat / span level % 512

/-- The walk through the last `levels` levels. -/
def walk (mem : Mem) (v : UInt64) : (levels : ℕ) → (table : UInt64) → Option UInt64
  | 0, _ => none
  | level + 1, table =>
      match decode level (entry mem table (index level v)) with
      | none => none
      | some (.page a) => some (a + UInt64.ofNat (v.toNat % span level))
      | some (.table t) => walk mem v level t

/-- Bits 47 to 63 of an address are equal. -/
def Canonical (v : UInt64) : Prop := v.toNat < 2 ^ 47 ∨ 2 ^ 64 - 2 ^ 47 ≤ v.toNat

instance (v : UInt64) : Decidable (Canonical v) := inferInstanceAs (Decidable (_ ∨ _))

/-- The physical address of `v`, with the root of the tables at `root`. -/
def translate (mem : Mem) (root v : UInt64) : Option UInt64 :=
  if Canonical v then walk mem v 4 root else none

variable {mem : Mem} {v table t a e : UInt64} {level : ℕ}

/-! ## One step of a walk -/

lemma index_lt (level : ℕ) (v : UInt64) : index level v < 512 := Nat.mod_lt _ (by decide)

lemma walk_page (h : decode level (entry mem table (index level v)) = some (.page a)) :
    walk mem v (level + 1) table = some (a + UInt64.ofNat (v.toNat % span level)) := by
  rw [walk, h]

lemma walk_table (h : decode level (entry mem table (index level v)) = some (.table t)) :
    walk mem v (level + 1) table = walk mem v level t := by
  rw [walk, h]

lemma walk_none (h : decode level (entry mem table (index level v)) = none) :
    walk mem v (level + 1) table = none := by
  rw [walk, h]

lemma translate_canonical (h : Canonical v) : translate mem t v = walk mem v 4 t := if_pos h

lemma bit_or (a b : UInt64) (i : ℕ) : bit (a ||| b) i = (bit a i || bit b i) := by
  rw [bit, UInt64.toNat_or, Nat.testBit_or, bit, bit]

lemma decode_zero (level : ℕ) : decode level 0 = none := if_pos (Or.inl rfl)

/-- An entry without the large-page bit. -/
lemma decode_table (h0 : bit e 0 = true) (h63 : bit e 63 = false)
    (h7 : bit e 7 = false) (hlevel : level ≠ 0) :
    decode level e = some (.table (frameOf e)) := by
  simp [decode, h0, h63, h7, hlevel]

lemma decode_lowest (h0 : bit e 0 = true) (h63 : bit e 63 = false) :
    decode 0 e = some (.page (frameOf e)) := by
  simp [decode, h0, h63]

/-- An entry with it, whose reserved bits are clear. -/
lemma decode_large (h0 : bit e 0 = true) (h63 : bit e 63 = false)
    (h7 : bit e 7 = true) (hlevel : level = 1 ∨ level = 2)
    (hreserved : e.toNat / 2 ^ 13 % 2 ^ (9 * level - 1) = 0) :
    decode level e =
      some (.page (UInt64.ofNat (e.toNat % 2 ^ 52 / span level * span level))) := by
  have hne : level ≠ 0 ∧ level ≠ 3 := by omega
  rw [decode, if_neg (by simp [h0, h63]), if_neg hne.1, if_neg (by simp [h7]),
    if_neg (not_or.mpr ⟨hne.2, not_not.mpr hreserved⟩)]

/-- An entry that refers to something is there. -/
lemma decode_isSome (h : decode level e ≠ none) :
    bit e 0 = true ∧ bit e 63 = false := by
  rw [decode] at h
  by_cases hbits : bit e 0 = false ∨ bit e 63 = true
  · exact absurd (if_pos hbits) h
  · simpa using hbits

/-! ## Addresses -/

/-- An address is a page boundary that fits into an entry. -/
def PageAligned (a : UInt64) : Prop := a.toNat % 4096 = 0 ∧ a.toNat < 2 ^ 52

lemma pageAligned_frameOf (e : UInt64) : PageAligned (frameOf e) := by
  have hlt : e.toNat % 2 ^ 52 / 2 ^ 12 * 2 ^ 12 < 2 ^ 52 := by omega
  rw [PageAligned, frameOf, toNat_ofNat_of_lt (by omega)]
  omega

/-- The low bits of an entry are not part of the address. -/
lemma frameOf_eq (ha : PageAligned a) (he : e.toNat / 2 ^ 12 % 2 ^ 40 = a.toNat / 2 ^ 12) :
    frameOf e = a := by
  obtain ⟨hmod, hlt⟩ := ha
  refine UInt64.toNat_inj.mp ?_
  rw [frameOf, toNat_ofNat_of_lt (by omega)]
  omega

/-! ## Walks that arrive -/

/-- **Where entry 0 of every table leads on, an address whose indices are 0 arrives.** -/
theorem walk_isSome (hlead : ∀ t, PageAligned t → bit (entry mem t 0) 0 = true ∧
      bit (entry mem t 0) 63 = false ∧ bit (entry mem t 0) 7 = false)
    (htable : PageAligned table) (levels : ℕ) (hzero : ∀ l, l < levels → index l v = 0)
    (hpos : 0 < levels) : walk mem v levels table ≠ none := by
  induction levels generalizing table with
  | zero => omega
  | succ level ih =>
      have hentry : entry mem table (index level v) = entry mem table 0 := by
        rw [hzero level (Nat.lt_succ_self level)]
      obtain ⟨h0, h63, h7⟩ := hlead table htable
      rw [← hentry] at h0 h63 h7
      rcases Nat.eq_zero_or_pos level with rfl | hlevel
      · rw [walk_page (decode_lowest h0 h63)]
        exact Option.some_ne_none _
      · rw [walk_table (decode_table h0 h63 h7 (by omega))]
        exact ih (pageAligned_frameOf _) (fun l hl => hzero l (by omega)) hlevel

/-- A table that an entry refers to is a frame, and the last level has none. -/
lemma decode_eq_table (h : decode level e = some (.table t)) : PageAligned t ∧ level ≠ 0 := by
  rw [decode] at h
  split_ifs at h with _ hlevel
  all_goals cases h
  exact ⟨pageAligned_frameOf e, hlevel⟩

/-- **One entry that refers to something is enough.** -/
theorem walk_entry_isSome (hlead : ∀ t, PageAligned t → bit (entry mem t 0) 0 = true ∧
      bit (entry mem t 0) 63 = false ∧ bit (entry mem t 0) 7 = false)
    (hentry : decode level (entry mem table (index level v)) ≠ none)
    (hzero : ∀ l, l < level → index l v = 0) : walk mem v (level + 1) table ≠ none := by
  obtain ⟨target, htarget⟩ := Option.ne_none_iff_exists'.mp hentry
  cases target with
  | page a =>
      rw [walk_page htarget]
      exact Option.some_ne_none _
  | table t =>
      obtain ⟨ht, hlevel⟩ := decode_eq_table htarget
      rw [walk_table htarget]
      exact walk_isSome hlead ht level hzero (by omega)

end Paging
