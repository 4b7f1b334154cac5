import Seaweed.Mm.DirectMap

/-!
# The boot loader's page tables (`kernel/boot.asm`)

Before it enters long mode the boot loader clears six frames from `0x1000` on, and builds the first
page tables in five of them with stores of 16 and 32 bits.  They map the first gibibyte, three
times.  The kernel runs on them until `initVMM` loads the root of its own tables.

* `repStosw`, `setUpper`, `buildPageTables` — the code.
* `bootMap` — the translation.
* **`bootTables_translate`** — a walk through the tables computes it, and what is mapped when
  `initVMM` loads `cr3` stays where it is.
-/

namespace Seaweed.Boot

open Words Memory Paging

def pml4 : UInt32 := 0x1000
def pml3 : UInt32 := 0x2000
def pml2 : UInt32 := 0x3000
def hh_pml2 : UInt32 := 0x4000
def hh_pml3 : UInt32 := 0x5000

/-! ## The code -/

/-- `rep stosw` in the first segment, with the direction flag clear. -/
def repStosw (ax : UInt16) : (cx : ℕ) → (di : UInt16) → Mem → Mem
  | 0, _, mem => mem
  | cx + 1, di, mem => repStosw ax cx (di + 2) (store mem di.toUInt64 2 ax.toNat)

/-- `zeros out 0x1000 -> 0x6000`, and another 4 KiB. -/
def clearTables (mem : Mem) : Mem := repStosw 0 (0x6000 / 2) pml4.toUInt16 mem

/-- `mov word [addr], w`. -/
def movWord (mem : Mem) (addr w : UInt32) : Mem := store mem addr.toUInt64 2 (w.toNat % 2 ^ 16)

/-- `mov dword [addr], w`. -/
def movDword (mem : Mem) (addr w : UInt32) : Mem := store mem addr.toUInt64 4 w.toNat

/-- The entries of the upper levels. -/
def setUpper (mem : Mem) : Mem :=
  let mem := movWord mem (pml4 + 256 * 8) (pml3 ||| 0x3)
  let mem := movWord mem pml4 (pml3 ||| 0x3)
  let mem := movWord mem pml3 (pml2 ||| 0x3)
  let mem := movWord mem (pml4 + 511 * 8) (hh_pml3 ||| 0x3)
  movWord mem (hh_pml3 + 510 * 8) (hh_pml2 ||| 0x3)

/-- What the loop works on. -/
structure Building where
  eax : UInt32
  edi : UInt32
  mem : Mem

/-- One turn, up to the comparison. -/
def Building.turn (s : Building) : Building :=
  let eax := s.eax ||| (((1 : UInt32) <<< 7) ||| 0x3)
  { eax := eax + 0x200000
    edi := s.edi + 8
    mem := movDword (movDword s.mem (pml2 + s.edi) eax) (hh_pml2 + s.edi) eax }

/-- `jb buildPageTables`. -/
def buildPageTables : (fuel : ℕ) → Building → Option Building
  | 0, _ => none
  | fuel + 1, s =>
      if s.turn.eax < 0x40000000 then buildPageTables fuel s.turn else some s.turn

/-- The tables that `cr3` is set to. -/
def buildTables (fuel : ℕ) (mem : Mem) : Option Mem :=
  (buildPageTables fuel ⟨0, 0, setUpper mem⟩).map Building.mem

/-! ## TablesHold of the tables -/

/-- Word `k` of the five frames. -/
def bootWord (mem : Mem) (k : ℕ) : UInt64 := load64 mem (pml4.toUInt64 + UInt64.ofNat (8 * k))

/-- The byte is in one of the five frames. -/
def InTables (x : UInt64) : Prop := 0x1000 ≤ x ∧ x < 0x6000

variable {mem mem' : Mem} {i j k n t w : ℕ} {v x : UInt64}

/-- What `rep stosw` clears. -/
lemma repStosw_zero (cx : ℕ) (di : UInt16) (mem : Mem) (hroom : di.toNat + 2 * cx ≤ 2 ^ 16)
    (x : UInt64) : repStosw 0 cx di mem x =
      if di.toNat ≤ x.toNat ∧ x.toNat < di.toNat + 2 * cx then 0 else mem x := by
  induction cx generalizing di mem with
  | zero =>
      rw [repStosw, if_neg (by omega)]
  | succ cx ih =>
      have hx := x.toNat_lt
      have hdi : di.toUInt64.toNat = di.toNat := rfl
      have hsub := UInt64.toNat_sub x di.toUInt64
      have hstored : store mem di.toUInt64 2 (0 : UInt16).toNat x =
          if di.toNat ≤ x.toNat ∧ x.toNat < di.toNat + 2 then 0 else mem x := by
        rw [store]
        refine if_congr (by rw [hsub, hdi]; omega) ?_ rfl
        rw [show (0 : UInt16).toNat = 0 from rfl, Nat.zero_div]
        rfl
      rw [repStosw]
      rcases Nat.eq_zero_or_pos cx with rfl | hpos
      · rw [repStosw, hstored]
      · have hnext : (di + 2).toNat = di.toNat + 2 := by
          rw [UInt16.toNat_add, show (2 : UInt16).toNat = 2 from rfl]
          omega
        rw [ih (di + 2) _ (by rw [hnext]; omega), hstored, hnext]
        split_ifs <;> first | omega | rfl

lemma clearTables_eq (h : InTables x) : clearTables mem x = 0 := by
  obtain ⟨hge, hlt⟩ := h
  rw [UInt64.le_iff_toNat_le] at hge
  rw [UInt64.lt_iff_toNat_lt] at hlt
  have h1000 : (0x1000 : UInt64).toNat = 0x1000 := rfl
  have h6000 : (0x6000 : UInt64).toNat = 0x6000 := rfl
  have hpml4 : pml4.toUInt16.toNat = 0x1000 := rfl
  rw [clearTables, repStosw_zero _ _ _ (by rw [hpml4]; omega), hpml4, if_pos (by omega)]

lemma bootWord_cleared (h : ∀ x, InTables x → mem x = 0) (hk : k < 2560) : bootWord mem k = 0 := by
  refine load64_zero fun i hi => h _ ?_
  have hpml4 : pml4.toUInt64.toNat = 0x1000 := rfl
  have h1000 : (0x1000 : UInt64).toNat = 0x1000 := rfl
  have h6000 : (0x6000 : UInt64).toNat = 0x6000 := rfl
  have haddr : (pml4.toUInt64 + UInt64.ofNat (8 * k) + UInt64.ofNat i).toNat =
      0x1000 + 8 * k + i := by
    rw [UInt64.toNat_add, UInt64.toNat_add, toNat_ofNat_of_lt (by omega),
      toNat_ofNat_of_lt (by omega), hpml4]
    omega
  rw [InTables, UInt64.le_iff_toNat_le, UInt64.lt_iff_toNat_lt, haddr, h1000, h6000]
  omega

/-- **A store to a word that is zero**, of two or of four bytes. -/
lemma bootWord_store (hk : k < 2560) (hi : i < 2560) (hn : n ≤ 8) (hw : w < 256 ^ n)
    (hzero : bootWord mem i = 0) :
    bootWord (store mem (pml4.toUInt64 + UInt64.ofNat (8 * i)) n w) k =
      if k = i then UInt64.ofNat w else bootWord mem k := by
  rw [bootWord]
  split_ifs with h
  · rw [h, load64_store_narrow hn hw fun d _ hd => byte_zero_of_load64 hzero hd]
  · have hload := load_store_apart (m := mem) (w := w)
      (apart_offsets pml4.toUInt64 (i := 8 * i) (j := 8 * k) (n := n) (k := 8) (by omega) (by omega)
        (by omega))
    rw [load64, hload, bootWord, load64]

/-- A store into the frames is not seen elsewhere. -/
lemma store_outsideTables {addr : UInt64} (haddr : 0x1000 ≤ addr.toNat)
    (hend : addr.toNat + n ≤ 0x6000) (hx : ¬InTables x) : store mem addr n w x = mem x := by
  refine store_outside ?_
  have hlt := x.toNat_lt
  have h1000 : (0x1000 : UInt64).toNat = 0x1000 := rfl
  have h6000 : (0x6000 : UInt64).toNat = 0x6000 := rfl
  rw [InTables, UInt64.le_iff_toNat_le, UInt64.lt_iff_toNat_lt, h1000, h6000] at hx
  rw [UInt64.toNat_sub]
  omega

/-- The words of the five frames. -/
def TablesHold (mem : Mem) (f : ℕ → UInt64) : Prop := ∀ k, k < 2560 → bootWord mem k = f k

variable {f : ℕ → UInt64} {a b : UInt32}

lemma TablesHold.store (h : TablesHold mem f) (hi : i < 2560) (hn : n ≤ 8) (hw : w < 256 ^ n)
    (hzero : f i = 0) :
    TablesHold (store mem (pml4.toUInt64 + UInt64.ofNat (8 * i)) n w)
      (Function.update f i (UInt64.ofNat w)) := by
  intro k hk
  rw [bootWord_store hk hi hn hw ((h i hi).trans hzero), h k hk, Function.update_apply]

lemma TablesHold.movWord (h : TablesHold mem f)
    (haddr : a.toUInt64 = pml4.toUInt64 + UInt64.ofNat (8 * i)) (hi : i < 2560) (hzero : f i = 0) :
    TablesHold (movWord mem a b) (Function.update f i (UInt64.ofNat (b.toNat % 2 ^ 16))) := by
  rw [Boot.movWord, haddr]
  exact h.store hi (by decide) (Nat.mod_lt _ (by decide)) hzero

lemma TablesHold.movDword (h : TablesHold mem f)
    (haddr : a.toUInt64 = pml4.toUInt64 + UInt64.ofNat (8 * i)) (hi : i < 2560) (hzero : f i = 0) :
    TablesHold (movDword mem a b) (Function.update f i (UInt64.ofNat b.toNat)) := by
  rw [Boot.movDword, haddr]
  exact h.store hi (by decide) b.toNat_lt hzero

/-- The entries of the upper levels. -/
def upperWord (k : ℕ) : UInt64 :=
  if k = 0 ∨ k = 256 then 0x2003
  else if k = 511 then 0x5003
  else if k = 512 then 0x3003
  else if k = 2558 then 0x4003
  else 0

lemma words_setUpper (h : ∀ x, InTables x → mem x = 0) : TablesHold (setUpper mem) upperWord := by
  have h0 : TablesHold mem fun _ => 0 := fun k hk => bootWord_cleared h hk
  have h1 := h0.movWord (a := pml4 + 256 * 8) (b := pml3 ||| 0x3) (i := 256) rfl (by decide) rfl
  have h2 := h1.movWord (a := pml4) (b := pml3 ||| 0x3) (i := 0) rfl (by decide) (by decide)
  have h3 := h2.movWord (a := pml3) (b := pml2 ||| 0x3) (i := 512) rfl (by decide) (by decide)
  have h4 := h3.movWord (a := pml4 + 511 * 8) (b := hh_pml3 ||| 0x3) (i := 511) rfl (by decide)
    (by decide)
  have h5 := h4.movWord (a := hh_pml3 + 510 * 8) (b := hh_pml2 ||| 0x3) (i := 2558) rfl (by decide)
    (by decide)
  intro k hk
  refine (h5 k hk).trans ?_
  simp only [Function.update_apply, upperWord]
  split_ifs <;> first | omega | rfl

/-! ## The loop -/

/-- An entry for a page of 2 MiB. -/
def bootEntry (m : ℕ) : UInt64 := UInt64.ofNat (m * 0x200000 + 0x83)

/-- The words after `n` turns. -/
def bootWords (n k : ℕ) : UInt64 :=
  if 1024 ≤ k ∧ k < 2048 ∧ k % 512 < n then bootEntry (k % 512) else upperWord k

/-- After `n` turns; `mem` is what was in memory before. -/
structure Building.After (mem : Mem) (n : ℕ) (s : Building) : Prop where
  eax : s.eax.toNat = n * 0x200000 + if n = 0 then 0 else 0x83
  edi : s.edi.toNat = 8 * n
  words : TablesHold s.mem (bootWords n)
  outside : ∀ x, ¬InTables x → s.mem x = mem x

/-- The flags are in bits of their own. -/
lemma Building.After.flags {s : Building} (h : s.After mem n) :
    (s.eax ||| (((1 : UInt32) <<< 7) ||| 0x3)).toNat = n * 0x200000 + 0x83 := by
  have hlow : n * 0x200000 ||| 0x83 = n * 0x200000 + 0x83 := by
    rw [Nat.mul_comm]
    exact (Nat.two_pow_add_eq_or_of_lt (i := 21) (by decide) n).symm
  rw [UInt32.toNat_or, h.eax, show (((1 : UInt32) <<< 7) ||| 0x3).toNat = 0x83 from rfl]
  split_ifs with hzero
  · rw [Nat.add_zero, hlow]
  · rw [← hlow, Nat.or_assoc, Nat.or_self]

lemma Building.After.turn {s : Building} (h : s.After mem n) (hn : n < 512) :
    s.turn.After mem (n + 1) := by
  have hflags := h.flags
  have hedi := h.edi
  have haddr : ∀ (table : UInt32) (t : ℕ), t < 5 → table.toNat = 0x1000 + 4096 * t →
      (table + s.edi).toUInt64 = pml4.toUInt64 + UInt64.ofNat (8 * (512 * t + n)) := by
    intro table t ht htable
    rw [← UInt64.toNat_inj, UInt32.toNat_toUInt64, UInt32.toNat_add, UInt64.toNat_add, hedi, htable,
      toNat_ofNat_of_lt (by omega), show pml4.toUInt64.toNat = 0x1000 from rfl]
    omega
  have hfree : ∀ k, k % 512 = n → 1024 ≤ k → k < 2048 → bootWords n k = 0 := by
    intro k hmod hge hlt
    rw [bootWords, if_neg (by omega), upperWord, if_neg (by omega), if_neg (by omega),
      if_neg (by omega), if_neg (by omega)]
  have hlow := h.words.movDword (b := s.eax ||| (((1 : UInt32) <<< 7) ||| 0x3))
    (haddr pml2 2 (by decide) rfl) (by omega) (hfree _ (by omega) (by omega) (by omega))
  have hhigh := hlow.movDword (b := s.eax ||| (((1 : UInt32) <<< 7) ||| 0x3))
    (haddr hh_pml2 3 (by decide) rfl) (by omega) (by
      rw [Function.update_of_ne (by omega)]
      exact hfree _ (by omega) (by omega) (by omega))
  refine ⟨?_, ?_, fun k hk => (hhigh k hk).trans ?_, fun x hx => ?_⟩
  · show (_ + 0x200000 : UInt32).toNat = _
    rw [UInt32.toNat_add, hflags, show (0x200000 : UInt32).toNat = 0x200000 from rfl]
    rw [if_neg (Nat.succ_ne_zero n)]
    omega
  · show (s.edi + 8).toNat = _
    rw [UInt32.toNat_add, hedi, show (8 : UInt32).toNat = 8 from rfl]
    omega
  · -- the two entries of the turn, or what was there
    rw [hflags, ← bootEntry]
    by_cases hstored : 1024 ≤ k ∧ k < 2048 ∧ k % 512 = n
    · have hentry : bootWords (n + 1) k = bootEntry n := by
        rw [bootWords, if_pos (by omega), hstored.2.2]
      rw [hentry, Function.update_apply, Function.update_apply]
      split_ifs <;> first | omega | rfl
    · rw [Function.update_of_ne (by omega), Function.update_of_ne (by omega), bootWords, bootWords]
      exact if_congr (by omega) rfl rfl
  · have hstored : ∀ {mem : Mem} {w : ℕ} (table : UInt32) (t : ℕ), 2 ≤ t → t < 4 →
        table.toNat = 0x1000 + 4096 * t → store mem (table + s.edi).toUInt64 4 w x = mem x := by
      intro mem w table t hge hlt htable
      have hto : (table + s.edi).toUInt64.toNat = 0x1000 + 4096 * t + 8 * n := by
        rw [UInt32.toNat_toUInt64, UInt32.toNat_add, htable, hedi]
        omega
      exact store_outsideTables (by omega) (by omega) hx
    show store (store s.mem _ 4 _) _ 4 _ x = mem x
    rw [hstored hh_pml2 3 (by decide) (by decide) rfl, hstored pml2 2 (by decide) (by decide) rfl,
      h.outside x hx]

/-- **The loop ends after 512 turns**, and not before. -/
lemma buildPageTables_after {s : Building} (hs : s.After mem n) (hk : n + k + 1 = 512) :
    ∃ s', s'.After mem 512 ∧
      ∀ fuel, buildPageTables fuel s = if 512 ≤ n + fuel then some s' else none := by
  induction k generalizing s n with
  | zero =>
      obtain rfl : n = 511 := by omega
      have hturn := hs.turn (by decide)
      have hlast : ¬s.turn.eax < 0x40000000 := by
        rw [UInt32.lt_iff_toNat_lt, hturn.eax]
        decide
      refine ⟨s.turn, hturn, fun fuel => ?_⟩
      cases fuel with
      | zero => rfl
      | succ fuel => rw [buildPageTables, if_neg hlast, if_pos (by omega)]
  | succ k ih =>
      have hturn := hs.turn (by omega)
      have hnext : s.turn.eax < 0x40000000 := by
        rw [UInt32.lt_iff_toNat_lt, hturn.eax, if_neg (Nat.succ_ne_zero n),
          show (0x40000000 : UInt32).toNat = 0x40000000 from rfl]
        omega
      obtain ⟨s', hafter, hrest⟩ := ih hturn (by omega)
      refine ⟨s', hafter, fun fuel => ?_⟩
      cases fuel with
      | zero => rw [buildPageTables, if_neg (by omega)]
      | succ fuel =>
          rw [buildPageTables, if_pos hnext, hrest]
          exact if_congr (by omega) rfl rfl

/-! ## The translation -/

/-- What the boot loader's tables translate an address to. -/
def bootMap (v : UInt64) : Option UInt64 :=
  if v < 0x40000000 then some v
  else if HIGH_VMA ≤ v ∧ v - HIGH_VMA < 0x40000000 then some (v - HIGH_VMA)
  else if KERNEL_HIGH_VMA ≤ v ∧ v - KERNEL_HIGH_VMA < 0x40000000 then some (v - KERNEL_HIGH_VMA)
  else none

/-- What is mapped before is mapped to the same place by the kernel's tables. -/
lemma kernelMap_of_bootMap {p : UInt64} (h : bootMap v = some p) : kernelMap v = some p := by
  have hvma : HIGH_VMA.toNat = 0xffff800000000000 := rfl
  have hkvma : KERNEL_HIGH_VMA.toNat = 0xffffffff80000000 := rfl
  have h4G : (0x100000000 : UInt64).toNat = 2 ^ 32 := rfl
  have h1G : (0x40000000 : UInt64).toNat = 2 ^ 30 := rfl
  have hdirect := UInt64.toNat_sub v HIGH_VMA
  have hkernel := UInt64.toNat_sub v KERNEL_HIGH_VMA
  have hv := v.toNat_lt
  rw [← h, kernelMap, bootMap]
  rw [bootMap] at h
  simp only [UInt64.lt_iff_toNat_lt, UInt64.le_iff_toNat_le, hvma, hkvma, h4G, h1G]
    at h hdirect hkernel ⊢
  split_ifs at h ⊢ <;> first | omega | rfl

/-- The frame of a table. -/
def bootTable (t : ℕ) : UInt64 := pml4.toUInt64 + UInt64.ofNat (4096 * t)

lemma TablesHold.entry_eq (h : TablesHold mem f) (ht : t < 5) (hi : i < 512) :
    entry mem (bootTable t) i = f (512 * t + i) := by
  have haddr : bootTable t + UInt64.ofNat (8 * i) =
      pml4.toUInt64 + UInt64.ofNat (8 * (512 * t + i)) := by
    rw [bootTable, UInt64.add_assoc, ← UInt64.ofNat_add]
    congr 2
    omega
  rw [entry, haddr, ← h _ (by omega), bootWord]

lemma decode_bootEntry (hi : i < 512) :
    decode 1 (bootEntry i) = some (.page (UInt64.ofNat (i * 0x200000))) := by
  have hnat : (bootEntry i).toNat = i * 0x200000 + 0x83 := toNat_ofNat_of_lt (by omega)
  have hbit : ∀ j, bit (bootEntry i) j = decide ((i * 0x200000 + 0x83) / 2 ^ j % 2 = 1) := by
    intro j
    rw [bit, hnat, Nat.testBit_eq_decide_div_mod_eq]
  have hbase : (i * 0x200000 + 0x83) % 2 ^ 52 / 0x200000 * 0x200000 = i * 0x200000 := by omega
  rw [decode_large (by rw [hbit]; simp; omega) (by rw [hbit]; simp; omega)
    (by rw [hbit]; simp; omega) (Or.inl rfl) (by rw [hnat]; omega), hnat,
    show span 1 = 0x200000 from rfl, hbase]

/-- Both tables of large pages map the first gibibyte. -/
lemma TablesHold.walk_large (h : TablesHold mem (bootWords 512)) (ht : t = 2 ∨ t = 3) (v : UInt64) :
    walk mem v 2 (bootTable t) = some (UInt64.ofNat (v.toNat % 2 ^ 30)) := by
  have hi := index_lt 1 v
  have hword : bootWords 512 (512 * t + index 1 v) = bootEntry (index 1 v) := by
    rw [bootWords, if_pos (by omega)]
    exact congrArg bootEntry (by omega)
  have hdecode : decode 1 (entry mem (bootTable t) (index 1 v)) =
      some (.page (UInt64.ofNat (index 1 v * 0x200000))) := by
    rw [h.entry_eq (by omega) hi, hword, decode_bootEntry hi]
  have hsum : index 1 v * 0x200000 + v.toNat % span 1 = v.toNat % 2 ^ 30 := by
    rw [index, show span 1 = 0x200000 from rfl]
    omega
  rw [walk_page hdecode, ← UInt64.ofNat_add, hsum]

/-- Each table above them has one entry. -/
lemma TablesHold.walk_upper (h : TablesHold mem (bootWords 512)) {slot : ℕ}
    (ht : t = 1 ∧ slot = 0 ∨ t = 4 ∧ slot = 510) (v : UInt64) :
    walk mem v 3 (bootTable t) =
      if index 2 v = slot then some (UInt64.ofNat (v.toNat % 2 ^ 30)) else none := by
  have hi := index_lt 2 v
  have hentry : entry mem (bootTable t) (index 2 v) = upperWord (512 * t + index 2 v) := by
    rw [h.entry_eq (by omega) hi, bootWords, if_neg (by omega)]
  split_ifs with hslot
  · rcases ht with ⟨rfl, rfl⟩ | ⟨rfl, rfl⟩
    · have hdecode : decode 2 (entry mem (bootTable 1) (index 2 v)) =
          some (.table (bootTable 2)) := by
        rw [hentry, hslot]
        decide
      rw [walk_table hdecode, h.walk_large (Or.inl rfl)]
    · have hdecode : decode 2 (entry mem (bootTable 4) (index 2 v)) =
          some (.table (bootTable 3)) := by
        rw [hentry, hslot]
        decide
      rw [walk_table hdecode, h.walk_large (Or.inr rfl)]
  · refine walk_none ?_
    rw [hentry, upperWord, if_neg (by omega), if_neg (by omega), if_neg (by omega),
      if_neg (by omega), decode_zero]

/-- A walk through the tables. -/
lemma TablesHold.translate_eq (h : TablesHold mem (bootWords 512)) (v : UInt64) :
    translate mem pml4.toUInt64 v = bootMap v := by
  have hv := v.toNat_lt
  have hindex : index 3 v = v.toNat / 2 ^ 39 % 512 := rfl
  have hindex2 : index 2 v = v.toNat / 2 ^ 30 % 512 := rfl
  have hi := index_lt 3 v
  have hroot : bootTable 0 = pml4.toUInt64 := rfl
  have hentry : entry mem pml4.toUInt64 (index 3 v) = upperWord (index 3 v) := by
    rw [← hroot, h.entry_eq (by omega) hi, bootWords, if_neg (by omega), Nat.mul_zero, Nat.zero_add]
  -- the root leads to the two tables, and nowhere else
  have hlow : index 3 v = 0 ∨ index 3 v = 256 → walk mem v 4 pml4.toUInt64 =
      if index 2 v = 0 then some (UInt64.ofNat (v.toNat % 2 ^ 30)) else none := by
    intro hslot
    have hdecode : decode 3 (entry mem pml4.toUInt64 (index 3 v)) =
        some (.table (bootTable 1)) := by
      rw [hentry, upperWord, if_pos hslot]
      decide
    rw [walk_table hdecode, h.walk_upper (Or.inl ⟨rfl, rfl⟩)]
  have hhigh : index 3 v = 511 → walk mem v 4 pml4.toUInt64 =
      if index 2 v = 510 then some (UInt64.ofNat (v.toNat % 2 ^ 30)) else none := by
    intro hslot
    have hdecode : decode 3 (entry mem pml4.toUInt64 (index 3 v)) =
        some (.table (bootTable 4)) := by
      rw [hentry, hslot]
      decide
    rw [walk_table hdecode, h.walk_upper (Or.inr ⟨rfl, rfl⟩)]
  have hnone : index 3 v ≠ 0 → index 3 v ≠ 256 → index 3 v ≠ 511 →
      walk mem v 4 pml4.toUInt64 = none := by
    intro h0 h256 h511
    refine walk_none ?_
    rw [hentry, upperWord, if_neg (by omega), if_neg h511, if_neg (by omega), if_neg (by omega),
      decode_zero]
  have hvma : HIGH_VMA.toNat = 0xffff800000000000 := rfl
  have hkvma : KERNEL_HIGH_VMA.toNat = 0xffffffff80000000 := rfl
  have h1G : (0x40000000 : UInt64).toNat = 2 ^ 30 := rfl
  have heq : ∀ (n : ℕ) (w : UInt64), n = w.toNat → some (UInt64.ofNat n) = some w := by
    rintro n w rfl
    rw [UInt64.ofNat_toNat]
  have hdirect := UInt64.toNat_sub v HIGH_VMA
  have hkernel := UInt64.toNat_sub v KERNEL_HIGH_VMA
  rw [bootMap]
  simp only [UInt64.lt_iff_toNat_lt, UInt64.le_iff_toNat_le, hvma, hkvma, h1G] at hdirect hkernel ⊢
  by_cases hcan : Canonical v
  · rw [translate_canonical hcan]
    rw [Canonical] at hcan
    by_cases hslot : index 3 v = 0 ∨ index 3 v = 256
    · rw [hlow hslot]
      split_ifs <;> first | omega | rfl | exact heq _ _ (by omega)
    · by_cases htop : index 3 v = 511
      · rw [hhigh htop]
        split_ifs <;> first | omega | rfl | exact heq _ _ (by omega)
      · rw [hnone (by omega) (by omega) htop]
        split_ifs <;> first | omega | rfl
  · rw [Paging.translate, if_neg hcan]
    rw [Canonical] at hcan
    split_ifs <;> first | omega | rfl

/-! ## What the loader leaves -/

/-- The clearing goes on for one frame behind the tables, and no further. -/
lemma clearTables_outside (mem : Mem) (hx : x < 0x1000 ∨ 0x7000 ≤ x) :
    clearTables mem x = mem x := by
  have hpml4 : pml4.toUInt16.toNat = 0x1000 := rfl
  rw [UInt64.lt_iff_toNat_lt, UInt64.le_iff_toNat_le,
    show (0x1000 : UInt64).toNat = 0x1000 from rfl,
    show (0x7000 : UInt64).toNat = 0x7000 from rfl] at hx
  rw [clearTables, repStosw_zero _ _ _ (by rw [hpml4]; decide), hpml4, if_neg (by omega)]

lemma setUpper_outside (hx : ¬InTables x) : setUpper mem x = mem x := by
  have hword : ∀ (mem : Mem) (addr b : UInt32), 0x1000 ≤ addr.toNat → addr.toNat + 2 ≤ 0x6000 →
      movWord mem addr b x = mem x :=
    fun mem addr b haddr hend => store_outsideTables haddr hend hx
  rw [setUpper, hword _ _ _ (by decide) (by decide), hword _ _ _ (by decide) (by decide),
    hword _ _ _ (by decide) (by decide), hword _ _ _ (by decide) (by decide),
    hword _ _ _ (by decide) (by decide)]

/-- **The boot loader's tables.**  Whatever was in memory, and whatever the BIOS and the rest of the
loader store elsewhere between the clearing and the building, the tables translate the first
gibibyte at its own addresses and in both halves of the kernel's, and nothing else.  The loop makes
512 turns, and neither it nor the clearing stores anywhere else.  What is mapped then is mapped to
the same place by the tables of `initVMM`. -/
theorem bootTables_translate (mem₀ mem : Mem)
    (hkept : ∀ x, InTables x → mem x = clearTables mem₀ x) :
    (∀ x, x < 0x1000 ∨ 0x7000 ≤ x → clearTables mem₀ x = mem₀ x) ∧
      ∃ mem', (∀ fuel, buildTables fuel mem = if 512 ≤ fuel then some mem' else none) ∧
        (∀ x, ¬InTables x → mem' x = mem x) ∧
        (∀ v, translate mem' pml4.toUInt64 v = bootMap v) ∧
        ∀ heap mem'' v p, translate mem' pml4.toUInt64 v = some p →
          translate (initVMM heap mem'').2.2 (initVMM heap mem'').1.cr3 v = some p := by
  have hzero : ∀ x, InTables x → mem x = 0 := fun x hx => (hkept x hx).trans (clearTables_eq hx)
  have hwords : TablesHold (setUpper mem) (bootWords 0) := fun k hk => by
    rw [bootWords, if_neg (by omega), words_setUpper hzero k hk]
  have hstart : Building.After mem 0 ⟨0, 0, setUpper mem⟩ :=
    ⟨rfl, rfl, hwords, fun x hx => setUpper_outside hx⟩
  obtain ⟨s, hafter, hs⟩ := buildPageTables_after hstart (k := 511) rfl
  have hboot := hafter.words.translate_eq
  refine ⟨fun x => clearTables_outside mem₀, s.mem, fun fuel => ?_, hafter.outside, hboot,
    fun heap mem'' v p hv => ?_⟩
  · rw [buildTables, hs, Nat.zero_add]
    split_ifs <;> rfl
  · have hkernel := (kernelTables_initVMM heap mem'').translate_eq v
    exact hkernel.trans (kernelMap_of_bootMap (hboot v ▸ hv))

/-- On a machine whose memory is empty, when nothing else is stored. -/
theorem bootTables_translate_empty :
    ∃ mem, buildTables 512 (clearTables fun _ => 0) = some mem ∧
      translate mem pml4.toUInt64 (KERNEL_HIGH_VMA + 0x100000) = some 0x100000 := by
  obtain ⟨-, mem, hbuild, _, htranslate, _⟩ :=
    bootTables_translate (fun _ => 0) (clearTables fun _ => 0) fun _ _ => rfl
  exact ⟨mem, hbuild 512, (htranslate _).trans (by decide)⟩

end Seaweed.Boot
