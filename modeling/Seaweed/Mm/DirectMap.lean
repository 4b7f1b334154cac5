import Seaweed.Library.Paging
import Seaweed.Mm.BootMemory

/-!
# The direct map

What the paging structures of `initVMM` translate addresses to.  The first 4 GiB of physical memory
are mapped at their own addresses and again from `HIGH_VMA` on, and the first of them once more from
`KERNEL_HIGH_VMA` on.  The page manager knows nothing of this: its limit is a sum of lengths.

* `kernelMap` — the translation; `KernelTables.translate_eq` — a walk through the tables computes
  it.
* **`kernelMapping_initVMM`** — the addresses that `initVMM` maps, and no other.
* **`directMap_covers_iff`** — whatever is handed out can be reached through the direct map exactly
  on the machines that have no free page from 4 GiB on.
-/

namespace Seaweed

open FirstFit Words Transition Memory Paging

/-! ## The words of the tables -/

/-- Word `k` of the eight frames from `kpml4Addr` on. -/
def tableWord (mem : Mem) (k : ℕ) : UInt64 := load64 mem (kpml4Addr + UInt64.ofNat (8 * k))

/-- The frame of a table. -/
def kernelTable (t : ℕ) : UInt64 := kpml4Addr + UInt64.ofNat (4096 * t)

variable {mem : Mem} {i j k n t : ℕ} {v w : UInt64}

lemma kernelTable_add (t i : ℕ) :
    kernelTable t + UInt64.ofNat (8 * i) = kpml4Addr + UInt64.ofNat (8 * (512 * t + i)) := by
  rw [kernelTable, UInt64.add_assoc, ← UInt64.ofNat_add]
  congr 2
  omega

lemma entry_kernelTable (mem : Mem) (t i : ℕ) :
    entry mem (kernelTable t) i = tableWord mem (512 * t + i) := by
  rw [entry, kernelTable_add, tableWord]

lemma tableWord_store64 (hk : k < 4096) (hj : j < 4096) :
    tableWord (store64 mem (kpml4Addr + UInt64.ofNat (8 * j)) w) k
      = if k = j then w else tableWord mem k := by
  rw [tableWord]
  split_ifs with h
  · rw [h, load64_store64]
  · rw [load64_store64_apart (apart_offsets _ (by omega) (by omega) (by omega)), tableWord]

/-- A store to an entry of one of the tables. -/
lemma tableWord_storeEntry (hk : k < 4096) (ht : t < 8) (hi : i < 512) :
    tableWord (storeEntry mem (kernelTable t) i w) k
      = if k = 512 * t + i then w else tableWord mem k := by
  rw [storeEntry, kernelTable_add, tableWord_store64 hk (by omega)]

/-- The entry that maps the `m`th large page. -/
def largeEntry (m : ℕ) : UInt64 := largePage (UInt64.ofNat (m * 0x200000))

/-- **The loop that maps 4 GiB in large pages**: the four tables of the direct map are one after
the other, and the last one repeats the first. -/
lemma tableWord_mapLargePages (hk : k < 4096) (n : ℕ) (hn : n ≤ 512) :
    tableWord (mapLargePages mem n) k =
      if 1024 ≤ k ∧ k < 3072 ∧ k % 512 < n then largeEntry (k - 1024)
      else if 3072 ≤ k ∧ k < 3584 ∧ k % 512 < n then largeEntry (k - 3072)
      else tableWord mem k := by
  induction n with
  | zero => simp [mapLargePages]
  | succ n ih =>
      have h1G : largePage (UInt64.ofNat n * 0x200000) = largeEntry n := by
        rw [largeEntry, UInt64.ofNat_mul]
        rfl
      have h2G : largePage (UInt64.ofNat n * 0x200000 + 0x40000000) = largeEntry (n + 512) := by
        rw [largeEntry, Nat.add_mul, UInt64.ofNat_add, UInt64.ofNat_mul]
        rfl
      have h3G : largePage (UInt64.ofNat n * 0x200000 + 0x40000000 * 2) =
          largeEntry (n + 1024) := by
        rw [largeEntry, Nat.add_mul, UInt64.ofNat_add, UInt64.ofNat_mul]
        rfl
      have h4G : largePage (UInt64.ofNat n * 0x200000 + 0x40000000 * 3) =
          largeEntry (n + 1536) := by
        rw [largeEntry, Nat.add_mul, UInt64.ofNat_add, UInt64.ofNat_mul]
        rfl
      have hstores : tableWord (mapLargePages mem (n + 1)) k =
          if k = 3072 + n then largeEntry n
          else if k = 2560 + n then largeEntry (n + 1536)
          else if k = 2048 + n then largeEntry (n + 1024)
          else if k = 1536 + n then largeEntry (n + 512)
          else if k = 1024 + n then largeEntry n
          else tableWord (mapLargePages mem n) k := by
        simp only [mapLargePages, h1G, h2G, h3G, h4G]
        rw [show kpml2AddrHH = kernelTable 6 from rfl, show kpml2Addr_4G = kernelTable 5 from rfl,
          show kpml2Addr_3G = kernelTable 4 from rfl, show kpml2Addr_2G = kernelTable 3 from rfl,
          show kpml2Addr_1G = kernelTable 2 from rfl]
        simp (disch := omega) only [tableWord_storeEntry]
      rw [hstores, ih (by omega)]
      by_cases hdirect : 1024 ≤ k ∧ k < 3072 ∧ k % 512 = n
      · -- one of the four stores to the direct map
        have hstored : 1024 ≤ k ∧ k < 3072 ∧ k % 512 < n + 1 := by omega
        have htable : k = 2560 + n ∨ k = 2048 + n ∨ k = 1536 + n ∨ k = 1024 + n := by omega
        rw [if_neg (by omega)]
        rcases htable with h4G | h3G | h2G | h1G
        · rw [if_pos h4G, if_pos hstored]
          exact congrArg largeEntry (by omega)
        · rw [if_neg (by omega), if_pos h3G, if_pos hstored]
          exact congrArg largeEntry (by omega)
        · rw [if_neg (by omega), if_neg (by omega), if_pos h2G, if_pos hstored]
          exact congrArg largeEntry (by omega)
        · rw [if_neg (by omega), if_neg (by omega), if_neg (by omega), if_pos h1G, if_pos hstored]
          exact congrArg largeEntry (by omega)
      · by_cases hhigh : k = 3072 + n
        · rw [if_pos hhigh, if_neg (by omega), if_pos ⟨by omega, by omega, by omega⟩]
          exact congrArg largeEntry (by omega)
        · -- no store to this word
          have hsame : 1024 ≤ k ∧ k < 3072 ∧ k % 512 < n ↔ 1024 ≤ k ∧ k < 3072 ∧
              k % 512 < n + 1 := by
            omega
          have hsame' : 3072 ≤ k ∧ k < 3584 ∧ k % 512 < n ↔ 3072 ≤ k ∧ k < 3584 ∧
              k % 512 < n + 1 := by
            omega
          rw [if_neg hhigh, if_neg (by omega), if_neg (by omega), if_neg (by omega),
            if_neg (by omega)]
          exact if_congr hsame rfl (if_congr hsame' rfl rfl)

/-- The words that `initVMM` leaves in the eight frames. -/
def kernelWord (k : ℕ) : UInt64 :=
  if k = 0 ∨ k = 256 then withKpageFlags kpml3Addr
  else if k = 511 then withKpageFlags kpml3AddrHH
  else if 512 ≤ k ∧ k < 516 then withKpageFlags (kernelTable (k - 510))
  else if 1024 ≤ k ∧ k < 3072 then largeEntry (k - 1024)
  else if 3072 ≤ k ∧ k < 3584 then largeEntry (k - 3072)
  else if k = 4094 then withKpageFlags kpml2AddrHH
  else 0

lemma tableWord_memsetMem (hk : k < 4096) : tableWord (memsetMem mem kpml4Addr 0 0x8000) k = 0 := by
  have hload : load (memsetMem mem kpml4Addr 0 0x8000) (kpml4Addr + UInt64.ofNat (8 * k)) 8
      = 0 % 256 ^ 8 := by
    refine load_ofBytes fun i hi => ?_
    have hoffset : (kpml4Addr + UInt64.ofNat (8 * k) + UInt64.ofNat i - kpml4Addr).toNat
        = 8 * k + i := by
      rw [UInt64.add_assoc, ← UInt64.ofNat_add, toNat_add_ofNat_sub _ (by omega)]
    rw [memsetMem, hoffset, if_pos (by omega), Nat.zero_div]
    rfl
  rw [tableWord, load64, hload]
  rfl

/-- **The tables, word by word.** -/
theorem tableWord_initVMM (heap : Heap) (mem : Mem) (hk : k < 4096) :
    tableWord (initVMM heap mem).2.2 k = kernelWord k := by
  simp only [initVMM]
  rw [tableWord_mapLargePages hk 512 (le_refl _),
    show kpml4Addr = kernelTable 0 from rfl, show kpml3Addr = kernelTable 1 from rfl,
    show kpml3AddrHH = kernelTable 7 from rfl]
  by_cases hdirect : 1024 ≤ k ∧ k < 3072
  · rw [if_pos ⟨hdirect.1, hdirect.2, by omega⟩, kernelWord, if_neg (by omega), if_neg (by omega),
      if_neg (by omega), if_pos hdirect]
  · by_cases hhigh : 3072 ≤ k ∧ k < 3584
    · rw [if_neg (by omega), if_pos ⟨hhigh.1, hhigh.2, by omega⟩, kernelWord, if_neg (by omega),
        if_neg (by omega), if_neg (by omega), if_neg hdirect, if_pos hhigh]
    · -- the entries of the upper levels, and zeros
      have hstore : ∀ {mem : Mem} {w : UInt64} (t i : ℕ), t < 8 → i < 512 →
          tableWord (storeEntry mem (kernelTable t) i w) k
            = if k = 512 * t + i then w else tableWord mem k :=
        fun t i ht hi => tableWord_storeEntry hk ht hi
      rw [if_neg (by omega), if_neg (by omega),
        hstore 7 510 (by omega) (by omega), hstore 0 511 (by omega) (by omega),
        hstore 1 3 (by omega) (by omega), hstore 1 2 (by omega) (by omega),
        hstore 1 1 (by omega) (by omega), hstore 1 0 (by omega) (by omega),
        hstore 0 0 (by omega) (by omega), hstore 0 256 (by omega) (by omega),
        show kernelTable 0 = kpml4Addr from rfl, tableWord_memsetMem hk, kernelWord]
      rw [if_neg hdirect, if_neg hhigh]
      by_cases hupper : k = 4094 ∨ k = 511 ∨ k = 515 ∨ k = 514 ∨ k = 513 ∨ k = 512 ∨ k = 0 ∨ k = 256
      · rcases hupper with rfl | rfl | rfl | rfl | rfl | rfl | rfl | rfl <;> decide
      · obtain ⟨h4094, h511, h515, h514, h513, h512, h0, h256⟩ :
            k ≠ 4094 ∧ k ≠ 511 ∧ k ≠ 515 ∧ k ≠ 514 ∧ k ≠ 513 ∧ k ≠ 512 ∧ k ≠ 0 ∧ k ≠ 256 := by
          simpa only [not_or] using hupper
        rw [if_neg h4094, if_neg h511, if_neg h515, if_neg h514, if_neg h513, if_neg h512,
          if_neg h0, if_neg h256, if_neg (not_or.mpr ⟨h0, h256⟩), if_neg h511, if_neg (by omega),
          if_neg h4094]

/-! ## What the entries refer to -/

lemma toNat_largeEntry (hm : n < 2048) : (largeEntry n).toNat = n * 0x200000 + 0x87 := by
  have hor : n * 0x200000 ||| 0x87 = n * 0x200000 + 0x87 := by
    rw [Nat.mul_comm]
    exact (Nat.two_pow_add_eq_or_of_lt (i := 21) (by decide) n).symm
  have hflags : largeEntry n = UInt64.ofNat (n * 0x200000) ||| 0x87 := by
    rw [largeEntry, largePage, withKpageFlags, UInt64.or_assoc, UInt64.or_assoc]
    rfl
  have hlow : (0x87 : UInt64).toNat = 0x87 := rfl
  rw [hflags, UInt64.toNat_or, toNat_ofNat_of_lt (by omega), hlow, hor]

/-- A large page is at a multiple of its size. -/
lemma decode_largeEntry (hm : n < 2048) :
    decode 1 (largeEntry n) = some (.page (UInt64.ofNat (n * 0x200000))) := by
  have hnat := toNat_largeEntry hm
  have hbit : ∀ i, bit (largeEntry n) i = decide ((n * 0x200000 + 0x87) / 2 ^ i % 2 = 1) := by
    intro i
    rw [bit, hnat, Nat.testBit_eq_decide_div_mod_eq]
  rw [decode_large (by rw [hbit]; simp; omega) (by rw [hbit]; simp; omega)
    (by rw [hbit]; simp; omega) (Or.inl rfl) (by rw [hnat]; omega), hnat,
    show span 1 = 0x200000 from rfl]
  have hbase : (n * 0x200000 + 0x87) % 2 ^ 52 / 0x200000 * 0x200000 = n * 0x200000 := by omega
  rw [hbase]

/-- On a page boundary the flags are in bits of their own. -/
lemma toNat_withKpageFlags {a : UInt64} (ha : PageAligned a) :
    (withKpageFlags a).toNat = a.toNat + 7 := by
  have hor : a.toNat / 4096 * 4096 ||| 7 = a.toNat / 4096 * 4096 + 7 := by
    rw [Nat.mul_comm]
    exact (Nat.two_pow_add_eq_or_of_lt (i := 12) (by decide) _).symm
  have hmul : a.toNat / 4096 * 4096 = a.toNat := by have := ha.1; omega
  rw [hmul] at hor
  rw [withKpageFlags, UInt64.or_assoc, UInt64.toNat_or, ← hor]
  rfl

lemma bit_withKpageFlags {a : UInt64} (ha : PageAligned a) (i : ℕ) :
    bit (withKpageFlags a) i = decide ((a.toNat + 7) / 2 ^ i % 2 = 1) := by
  rw [bit, toNat_withKpageFlags ha, Nat.testBit_eq_decide_div_mod_eq]

/-- The kernel's flags on a page boundary make it a table. -/
lemma decode_withKpageFlags {a : UInt64} (ha : PageAligned a) {level : ℕ} (hlevel : level ≠ 0) :
    decode level (withKpageFlags a) = some (.table a) := by
  obtain ⟨hmod, hlt⟩ := ha
  rw [decode_table (by rw [bit_withKpageFlags ⟨hmod, hlt⟩]; simp; omega)
    (by rw [bit_withKpageFlags ⟨hmod, hlt⟩]; simp; omega)
    (by rw [bit_withKpageFlags ⟨hmod, hlt⟩]; simp; omega) hlevel,
    frameOf_eq ⟨hmod, hlt⟩ (by rw [toNat_withKpageFlags ⟨hmod, hlt⟩]; omega)]

lemma pageAligned_kernelTable (ht : t < 8) : PageAligned (kernelTable t) := by
  rw [PageAligned, kernelTable, UInt64.toNat_add, toNat_ofNat_of_lt (by omega),
    show kpml4Addr.toNat = 0x200000 from rfl]
  omega

/-! ## The translation -/

/-- The frames hold the kernel's tables. -/
def KernelTables (mem : Mem) : Prop := ∀ k, k < 4096 → tableWord mem k = kernelWord k

/-- What the kernel's tables translate an address to. -/
def kernelMap (v : UInt64) : Option UInt64 :=
  if v < 0x100000000 then some v
  else if HIGH_VMA ≤ v ∧ v - HIGH_VMA < 0x100000000 then some (v - HIGH_VMA)
  else if KERNEL_HIGH_VMA ≤ v ∧ v - KERNEL_HIGH_VMA < 0x40000000 then some (v - KERNEL_HIGH_VMA)
  else none

lemma KernelTables.entry_eq (h : KernelTables mem) (ht : t < 8) (hi : i < 512) :
    entry mem (kernelTable t) i = kernelWord (512 * t + i) := by
  rw [entry_kernelTable, h _ (by omega)]

/-- A table of large pages maps a gibibyte. -/
lemma KernelTables.walk_large (h : KernelTables mem) (ht : 2 ≤ t) (ht' : t ≤ 6) (v : UInt64) :
    walk mem v 2 (kernelTable t) =
      some (UInt64.ofNat ((t - 2) % 4 * 2 ^ 30 + v.toNat % 2 ^ 30)) := by
  have hi := index_lt 1 v
  have hword : kernelWord (512 * t + index 1 v)
      = largeEntry ((t - 2) % 4 * 512 + index 1 v) := by
    rw [kernelWord, if_neg (by omega), if_neg (by omega), if_neg (by omega)]
    split_ifs <;> first | omega | exact congrArg largeEntry (by omega)
  have hdecode : decode 1 (entry mem (kernelTable t) (index 1 v))
      = some (.page (UInt64.ofNat (((t - 2) % 4 * 512 + index 1 v) * 0x200000))) := by
    rw [h.entry_eq (by omega) hi, hword, decode_largeEntry (by omega)]
  have hsum : ((t - 2) % 4 * 512 + index 1 v) * 0x200000 + v.toNat % span 1
      = (t - 2) % 4 * 2 ^ 30 + v.toNat % 2 ^ 30 := by
    rw [index, show span 1 = 0x200000 from rfl]
    omega
  rw [walk_page hdecode, ← UInt64.ofNat_add, hsum]

/-- The table of the direct map has four entries. -/
lemma KernelTables.walk_kpml3 (h : KernelTables mem) (v : UInt64) :
    walk mem v 3 kpml3Addr =
      if v.toNat % 2 ^ 39 < 2 ^ 32 then some (UInt64.ofNat (v.toNat % 2 ^ 39)) else none := by
  have hspan : index 2 v = v.toNat / 2 ^ 30 % 512 := rfl
  have hi := index_lt 2 v
  have hentry : entry mem kpml3Addr (index 2 v) = kernelWord (512 * 1 + index 2 v) :=
    h.entry_eq (t := 1) (by omega) hi
  split_ifs with hlow
  · have hword : kernelWord (512 * 1 + index 2 v) =
        withKpageFlags (kernelTable (index 2 v + 2)) := by
      rw [kernelWord, if_neg (by omega), if_neg (by omega), if_pos (by omega),
        show 512 * 1 + index 2 v - 510 = index 2 v + 2 by omega]
    have hsum : (index 2 v + 2 - 2) % 4 * 2 ^ 30 + v.toNat % 2 ^ 30 = v.toNat % 2 ^ 39 := by omega
    rw [walk_table (by rw [hentry, hword, decode_withKpageFlags (pageAligned_kernelTable (by omega))
      (by omega)]), h.walk_large (by omega) (by omega), hsum]
  · have hword : kernelWord (512 * 1 + index 2 v) = 0 := by
      rw [kernelWord, if_neg (by omega), if_neg (by omega), if_neg (by omega), if_neg (by omega),
        if_neg (by omega), if_neg (by omega)]
    exact walk_none (by rw [hentry, hword, decode_zero])

/-- The table of the kernel's own addresses has one. -/
lemma KernelTables.walk_kpml3HH (h : KernelTables mem) (v : UInt64) :
    walk mem v 3 kpml3AddrHH =
      if index 2 v = 510 then some (UInt64.ofNat (v.toNat % 2 ^ 30)) else none := by
  have hi := index_lt 2 v
  have hentry : entry mem kpml3AddrHH (index 2 v) = kernelWord (512 * 7 + index 2 v) :=
    h.entry_eq (t := 7) (by omega) hi
  split_ifs with htop
  · have hword : kernelWord (512 * 7 + index 2 v) = withKpageFlags (kernelTable 6) := by
      rw [htop]
      decide
    rw [walk_table (by rw [hentry, hword, decode_withKpageFlags (pageAligned_kernelTable (by omega))
      (by omega)]), h.walk_large (by omega) (by omega)]
    simp
  · have hword : kernelWord (512 * 7 + index 2 v) = 0 := by
      rw [kernelWord, if_neg (by omega), if_neg (by omega), if_neg (by omega), if_neg (by omega),
        if_neg (by omega), if_neg (by omega)]
    exact walk_none (by rw [hentry, hword, decode_zero])

/-- **What the kernel's tables translate an address to.** -/
theorem KernelTables.translate_eq (h : KernelTables mem) (v : UInt64) :
    translate mem kpml4Addr v = kernelMap v := by
  have hv := v.toNat_lt
  have hindex : index 3 v = v.toNat / 2 ^ 39 % 512 := rfl
  have hindex2 : index 2 v = v.toNat / 2 ^ 30 % 512 := rfl
  have hentry : entry mem kpml4Addr (index 3 v) = kernelWord (512 * 0 + index 3 v) :=
    h.entry_eq (t := 0) (by omega) (index_lt 3 v)
  rw [Nat.mul_zero, Nat.zero_add] at hentry
  -- the root leads to the two tables, and nowhere else
  have hlow : index 3 v = 0 ∨ index 3 v = 256 → walk mem v 4 kpml4Addr =
      if v.toNat % 2 ^ 39 < 2 ^ 32 then some (UInt64.ofNat (v.toNat % 2 ^ 39)) else none := by
    intro hi
    have hdecode : decode 3 (entry mem kpml4Addr (index 3 v)) = some (.table kpml3Addr) := by
      rw [hentry, kernelWord, if_pos hi]
      decide
    rw [walk_table hdecode, h.walk_kpml3]
  have hhigh : index 3 v = 511 → walk mem v 4 kpml4Addr =
      if index 2 v = 510 then some (UInt64.ofNat (v.toNat % 2 ^ 30)) else none := by
    intro hi
    have hdecode : decode 3 (entry mem kpml4Addr (index 3 v)) = some (.table kpml3AddrHH) := by
      rw [hentry, hi]
      decide
    rw [walk_table hdecode, h.walk_kpml3HH]
  have hnone : index 3 v ≠ 0 → index 3 v ≠ 256 → index 3 v ≠ 511 →
      walk mem v 4 kpml4Addr = none := by
    intro h0 h256 h511
    have := index_lt 3 v
    refine walk_none ?_
    rw [hentry, kernelWord, if_neg (by omega), if_neg h511, if_neg (by omega), if_neg (by omega),
      if_neg (by omega), if_neg (by omega), decode_zero]
  have hvma : HIGH_VMA.toNat = 0xffff800000000000 := rfl
  have hkvma : KERNEL_HIGH_VMA.toNat = 0xffffffff80000000 := rfl
  have h4G : (0x100000000 : UInt64).toNat = 2 ^ 32 := rfl
  have h1G : (0x40000000 : UInt64).toNat = 2 ^ 30 := rfl
  have heq : ∀ (n : ℕ) (w : UInt64), n = w.toNat → some (UInt64.ofNat n) = some w := by
    rintro n w rfl
    rw [UInt64.ofNat_toNat]
  have hdirect := UInt64.toNat_sub v HIGH_VMA
  have hkernel := UInt64.toNat_sub v KERNEL_HIGH_VMA
  rw [kernelMap]
  simp only [UInt64.lt_iff_toNat_lt, UInt64.le_iff_toNat_le, hvma, hkvma, h4G, h1G]
    at hdirect hkernel ⊢
  by_cases hcan : Canonical v
  · rw [Paging.translate, if_pos hcan]
    rw [Canonical] at hcan
    by_cases hi : index 3 v = 0 ∨ index 3 v = 256
    · rw [hlow hi]
      split_ifs <;> first | omega | rfl |
        exact heq _ _ (by omega)
    · by_cases htop : index 3 v = 511
      · rw [hhigh htop]
        split_ifs <;> first | omega | rfl |
          exact heq _ _ (by omega)
      · rw [hnone (by omega) (by omega) htop]
        split_ifs <;> first | omega | rfl
  · rw [Paging.translate, if_neg hcan]
    rw [Canonical] at hcan
    split_ifs <;> first | omega | rfl

/-- `initVMM` leaves the kernel's tables. -/
lemma kernelTables_initVMM (heap : Heap) (mem : Mem) : KernelTables (initVMM heap mem).2.2 :=
  fun _ hk => tableWord_initVMM heap mem hk

lemma kernelTables_bootMemory (mmapEntries : List MmapEntry) (bits kbits : Bitmap)
    (entries : ℕ → Allocation) (mem : Mem) :
    KernelTables (bootMemory mmapEntries bits kbits entries mem).mem :=
  kernelTables_initVMM _ _

/-- A byte is where the direct map has it exactly if it is below 4 GiB. -/
lemma kernelMap_direct (x : UInt64) : kernelMap (HIGH_VMA + x) = some x ↔ x.toNat < 2 ^ 32 := by
  have hx := x.toNat_lt
  have hvma : HIGH_VMA.toNat = 0xffff800000000000 := rfl
  have hkvma : KERNEL_HIGH_VMA.toNat = 0xffffffff80000000 := rfl
  have h4G : (0x100000000 : UInt64).toNat = 2 ^ 32 := rfl
  have h1G : (0x40000000 : UInt64).toNat = 2 ^ 30 := rfl
  have hadd := UInt64.toNat_add HIGH_VMA x
  have hback : HIGH_VMA + x - HIGH_VMA = x := by rw [UInt64.add_comm, UInt64.add_sub_cancel]
  have hkernel := UInt64.toNat_sub (HIGH_VMA + x) KERNEL_HIGH_VMA
  have hne : ∀ w : UInt64, some w = some x ↔ w.toNat = x.toNat := fun w => by
    rw [Option.some_inj, UInt64.toNat_inj]
  rw [kernelMap, hback]
  simp only [UInt64.lt_iff_toNat_lt, UInt64.le_iff_toNat_le, hvma, hkvma, h4G, h1G]
    at hadd hkernel ⊢
  split_ifs with hlow hdirect hhigh
  · rw [hne]
    omega
  · simp only [hdirect.2]
  · have hge : 2 ^ 32 ≤ x.toNat := by omega
    rw [hne]
    constructor <;> intro <;> omega
  · simp only [false_iff]
    omega

/-! ## The mapping of `initVMM` -/

/-- The translation that the kernel's paging structures are for. -/
structure KernelMapping (mem : Mem) (root : UInt64) : Prop where
  identity : ∀ p : UInt64, p.toNat < 2 ^ 32 → translate mem root p = some p
  direct : ∀ p : UInt64, p.toNat < 2 ^ 32 → translate mem root (HIGH_VMA + p) = some p
  kernel : ∀ p : UInt64, p.toNat < 2 ^ 30 → translate mem root (KERNEL_HIGH_VMA + p) = some p
  others : ∀ v : UInt64, (∀ p : UInt64, p.toNat < 2 ^ 32 → v ≠ p ∧ v ≠ HIGH_VMA + p) →
    (∀ p : UInt64, p.toNat < 2 ^ 30 → v ≠ KERNEL_HIGH_VMA + p) → translate mem root v = none

/-- The first gibibyte is there again for the kernel's own addresses. -/
lemma kernelMap_kernel {x : UInt64} (hx : x.toNat < 2 ^ 30) :
    kernelMap (KERNEL_HIGH_VMA + x) = some x := by
  have hvma : HIGH_VMA.toNat = 0xffff800000000000 := rfl
  have hkvma : KERNEL_HIGH_VMA.toNat = 0xffffffff80000000 := rfl
  have h4G : (0x100000000 : UInt64).toNat = 2 ^ 32 := rfl
  have h1G : (0x40000000 : UInt64).toNat = 2 ^ 30 := rfl
  have hadd := UInt64.toNat_add KERNEL_HIGH_VMA x
  have hback : KERNEL_HIGH_VMA + x - KERNEL_HIGH_VMA = x := by
    rw [UInt64.add_comm, UInt64.add_sub_cancel]
  have hdirect := UInt64.toNat_sub (KERNEL_HIGH_VMA + x) HIGH_VMA
  rw [kernelMap, hback]
  simp only [UInt64.lt_iff_toNat_lt, UInt64.le_iff_toNat_le, hvma, hkvma, h4G, h1G]
    at hadd hdirect ⊢
  rw [if_neg (by omega), if_neg (by omega), if_pos (by omega)]

lemma kernelMap_others {v : UInt64}
    (hdirect : ∀ p : UInt64, p.toNat < 2 ^ 32 → v ≠ p ∧ v ≠ HIGH_VMA + p)
    (hkernel : ∀ p : UInt64, p.toNat < 2 ^ 30 → v ≠ KERNEL_HIGH_VMA + p) : kernelMap v = none := by
  have hback : ∀ base : UInt64, v = base + (v - base) := fun base => by
    rw [UInt64.add_comm, UInt64.sub_add_cancel]
  rw [kernelMap, if_neg, if_neg, if_neg]
  · rintro ⟨_, hlt⟩
    exact hkernel _ (UInt64.lt_iff_toNat_lt.mp hlt) (hback _)
  · rintro ⟨_, hlt⟩
    exact (hdirect _ (UInt64.lt_iff_toNat_lt.mp hlt)).2 (hback _)
  · intro hlt
    exact (hdirect _ (UInt64.lt_iff_toNat_lt.mp hlt)).1 rfl

/-- **The kernel mapping.**  Whatever was in memory, the tables that `initVMM` leaves translate the
addresses they are for, and no other. -/
theorem kernelMapping_initVMM (heap : Heap) (mem : Mem) :
    KernelMapping (initVMM heap mem).2.2 (initVMM heap mem).1.cr3 := by
  have heq : ∀ v, translate (initVMM heap mem).2.2 (initVMM heap mem).1.cr3 v = kernelMap v :=
    (kernelTables_initVMM heap mem).translate_eq
  constructor
  case identity =>
    intro p hp
    rw [heq, kernelMap, if_pos (UInt64.lt_iff_toNat_lt.mpr hp)]
  case direct =>
    intro p hp
    rw [heq, kernelMap_direct]
    exact hp
  case kernel =>
    intro p hp
    rw [heq, kernelMap_kernel hp]
  case others =>
    intro v hdirect hkernel
    rw [heq, kernelMap_others hdirect hkernel]

/-! ## What is handed out -/

/-- Every page from 4 GiB on is at or above the limit, or taken: its bit was set before, or it is a
whole page of a reserved entry. -/
def HighPagesNotFree (mmapEntries : List MmapEntry) (bits : Bitmap) : Prop :=
  ∀ p, 0x100000 ≤ p → (totalLength mmapEntries / PAGESIZE).toNat ≤ p ∨ isset bits p = true ∨
    Reserved mmapEntries p

/-- **Whatever is handed out can be reached through the direct map, exactly when no page from 4 GiB
on is free.**  The allocations are those made at boot and all later ones. -/
theorem directMap_covers_iff (mmapEntries : List MmapEntry) (bits kbits : Bitmap)
    (entries : ℕ → Allocation) (mem : Mem) :
    (∀ (counts : List UInt64) (s : PageState),
      Run PageStep ⟨(bootMemory mmapEntries bits kbits entries mem).pmm,
        (bootMemory mmapEntries bits kbits entries mem).outstanding⟩
        (counts.map PageEvent.alloc) s →
      ∀ a ∈ s.outstanding, ∀ x : UInt64, x.toNat / 4096 ∈ a.pages →
        translate (bootMemory mmapEntries bits kbits entries mem).mem
          (bootMemory mmapEntries bits kbits entries mem).vmm.cr3 (HIGH_VMA + x) = some x) ↔
    HighPagesNotFree mmapEntries bits := by
  have hmap : ∀ x : UInt64, translate (bootMemory mmapEntries bits kbits entries mem).mem
      (bootMemory mmapEntries bits kbits entries mem).vmm.cr3 (HIGH_VMA + x) = some x ↔
      x.toNat < 2 ^ 32 := fun x => by
    rw [← kernelMap_direct]
    exact Eq.congr_left ((kernelTables_bootMemory _ _ _ _ _).translate_eq _)
  constructor
  · intro hruns p hp
    by_contra hfree
    simp only [not_or, Nat.not_le, Bool.not_eq_true] at hfree
    obtain ⟨hlim, hclear, hres⟩ := hfree
    obtain ⟨counts, s, hrun, a, ha, hpa⟩ :=
      (handedOut_boot mmapEntries bits kbits entries mem p).mpr
        ⟨hlim, hclear, le_trans (by decide) hp, hres⟩
    have hbound : (totalLength mmapEntries / PAGESIZE).toNat * 4096 ≤ 2 ^ 64 := by
      rw [UInt64.toNat_div, PAGESIZE_toNat]
      have := (totalLength mmapEntries).toNat_lt
      omega
    have hfirst : (UInt64.ofNat (p * 4096)).toNat = p * 4096 := toNat_ofNat_of_lt (by omega)
    have hcover := (hmap _).mp (hruns counts s hrun a ha (UInt64.ofNat (p * 4096))
      (by rwa [hfirst, Nat.mul_div_cancel _ (by omega)]))
    omega
  · intro hpages counts s hrun a ha x hx
    obtain ⟨hlim, hclear, _, hres⟩ := (handedOut_boot mmapEntries bits kbits entries mem _).mp
      ⟨counts, s, hrun, a, ha, hx⟩
    refine (hmap x).mpr ?_
    by_contra hhigh
    rcases hpages (x.toNat / 4096) (by omega) with hge | hset | hres'
    · omega
    · rw [hset] at hclear
      exact Bool.noConfusion hclear
    · exact hres hres'

/-- 8 GiB of memory, with the hole for devices below 4 GiB. -/
def map8G : List MmapEntry :=
  [⟨0, 0x9fc00, 1⟩, ⟨0x9fc00, 0x400, 2⟩, ⟨0xf0000, 0x10000, 2⟩, ⟨0x100000, 0xbff00000, 1⟩,
    ⟨0xfffc0000, 0x40000, 2⟩, ⟨0x100000000, 0x140000000, 1⟩]

/-- On a machine with 8 GiB the page at 4 GiB is handed out, and the direct map does not have it. -/
theorem directMap_above4G : ∃ (counts : List UInt64) (s : PageState),
    Run PageStep ⟨(bootMemory map8G (fun _ => 0) (fun _ => 0) (fun _ => ⟨0, 0⟩) (fun _ => 0)).pmm,
      (bootMemory map8G (fun _ => 0) (fun _ => 0) (fun _ => ⟨0, 0⟩) (fun _ => 0)).outstanding⟩
      (counts.map PageEvent.alloc) s ∧
    ∃ a ∈ s.outstanding, 0x100000 ∈ a.pages ∧
      translate (bootMemory map8G (fun _ => 0) (fun _ => 0) (fun _ => ⟨0, 0⟩) (fun _ => 0)).mem
        kpml4Addr (HIGH_VMA + 0x100000000) = none := by
  obtain ⟨counts, s, hrun, a, ha, hp⟩ :=
    (handedOut_boot map8G (fun _ => 0) (fun _ => 0) (fun _ => ⟨0, 0⟩) (fun _ => 0) 0x100000).mpr
      ⟨by decide, by decide, by decide, by
        rintro ⟨entry, hentry, htype, hp⟩
        revert htype hp
        fin_cases hentry <;> decide⟩
  refine ⟨counts, s, hrun, a, ha, hp, ((kernelTables_bootMemory _ _ _ _ _).translate_eq _).trans ?_⟩
  decide

end Seaweed
