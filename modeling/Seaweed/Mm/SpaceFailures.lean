import Seaweed.Mm.FreePages
import Seaweed.Mm.LargeSpaces

/-!
# Creating an address space without enough memory

`physicalPageAlloc` returns 0 when there is no room, and `createNewAddressSpace` does not look: 0 is
then the address of a table, or of the pages.  The slot of the directory is filled before anything
is built, and the root is in it from then on.

A store that the direct map does not have faults, and the fault stops only the core that made it; so
the stores before it count as well.

* `createStores`, `createNewAddressSpace_stores` — the call as a list of stores.
* `FailsSafely` — page 0 is left alone, only pages of the call are mapped, and nothing can run in
  what is left.
* `CreateHarmless`, **`allHarmless_createStores`** — which calls without enough memory store nothing
  that does harm, in terms of the free pages, the size and the flags.
* `createHarmless_plain` — the same on a machine of at most 4 GiB.
* **`failsSafely_iff`** — with a free slot a call without enough memory is never safe.
-/

namespace Seaweed

open FirstFit Words Transition Memory Paging

/-! ## The stores of a call -/

/-- A store to an entry of a table, and the pages of 4 KiB that the entry stands for. -/
structure EntryStore where
  table : UInt64
  index : ℕ
  entry : UInt64
  pages : ℕ

def EntryStore.address (st : EntryStore) : UInt64 := st.table + UInt64.ofNat (8 * st.index)

/-- The entries of the upper two levels. -/
def upperStores (pml4 pml3 pml2 : UInt64) : List EntryStore :=
  [⟨pml4 + HIGH_VMA, 256, withKpageFlags kpml3Addr, 1⟩,
    ⟨pml4 + HIGH_VMA, 511, withKpageFlags kpml3AddrHH, 1⟩,
    ⟨pml4 + HIGH_VMA, 0, withKpageFlags pml3, 1⟩, ⟨pml3 + HIGH_VMA, 0, withKpageFlags pml2, 1⟩]

/-- The entries of the loops. -/
def pageStores (table physical step flags : UInt64) (pages n : ℕ) : List EntryStore :=
  (List.range n).map fun i => ⟨table, i, (physical + UInt64.ofNat i * step) ||| flags, pages⟩

/-- The stores of a call, in their order. -/
def createStores (pmm : Pmm) (size flags : UInt64) : List EntryStore :=
  if flags &&& ((1 : UInt64) <<< 7) = 0 then
    let f := spaceFrames pmm size
    upperStores f.pml4 f.pml3 f.pml2 ++ ⟨f.pml2 + HIGH_VMA, 0, f.pml1 ||| flags, 1⟩ ::
      pageStores (f.pml1 + HIGH_VMA) f.physical 0x1000 flags 1 size.toNat
  else
    let f := largeFrames pmm size
    upperStores f.pml4 f.pml3 f.pml2 ++
      pageStores (f.pml2 + HIGH_VMA) f.physical 0x200000 flags 0x200 size.toNat

/-- One store after the other, up to a fault. -/
def runStores : Mem → List EntryStore → Option Mem
  | mem, [] => some mem
  | mem, st :: stores => do
      let mem ← storeVirtual mem st.table st.index st.entry
      runStores mem stores

/-- The stores before the first fault: the direct map has their addresses. -/
def performed (stores : List EntryStore) : List EntryStore :=
  stores.takeWhile fun st => (kernelMap st.address).isSome

variable {s s' : AddressSpaces} {pmm : Pmm} {size flags index : UInt64} {mem : Mem}
  {stores stores' : List EntryStore} {st : EntryStore} {p q i j k n : ℕ} {pages : List ℕ}

lemma runStores_append (mem : Mem) (stores stores' : List EntryStore) :
    runStores mem (stores ++ stores') =
      (runStores mem stores).bind fun mem => runStores mem stores' := by
  induction stores generalizing mem with
  | nil => rfl
  | cons st stores ih =>
      simp only [List.cons_append, runStores, Option.bind_eq_bind, Option.bind_assoc, ih]

/-- The loops of the call. -/
lemma runStores_pageStores (mem : Mem) (table physical step flags : UInt64) (pages n : ℕ) :
    runStores mem (pageStores table physical step flags pages n)
      = mapPages mem table physical step flags n := by
  induction n with
  | zero => rfl
  | succ n ih =>
      rw [pageStores, List.range_succ, List.map_append, runStores_append, ← pageStores, ih,
        mapPages]
      simp [runStores]

/-- **The call is its stores.** -/
theorem createNewAddressSpace_stores (s : AddressSpaces) (size flags : UInt64) :
    (createNewAddressSpace s size flags).map (fun r => r.2.mem)
      = runStores s.mem (createStores s.pmm size flags) := by
  by_cases hsmall : flags &&& ((1 : UInt64) <<< 7) = 0
  · rw [createNewAddressSpace_small _ _ hsmall, createStores, if_pos hsmall, Option.map_map]
    simp only [upperStores, List.cons_append, List.nil_append, runStores, runStores_pageStores,
      buildTables]
    exact Option.map_id'
  · rw [createNewAddressSpace_large _ _ hsmall, createStores, if_neg hsmall, Option.map_map]
    simp only [upperStores, List.cons_append, List.nil_append, runStores, runStores_pageStores,
      buildLargeTables]
    exact Option.map_id'

/-- A call returns exactly if all its stores are performed. -/
theorem runStores_isSome (mem : Mem) (stores : List EntryStore) :
    (runStores mem stores).isSome = true ↔ performed stores = stores := by
  induction stores generalizing mem with
  | nil => simp [runStores, performed]
  | cons st stores ih =>
      rw [runStores, performed, List.takeWhile_cons, storeVirtual, ← EntryStore.address]
      cases hmap : kernelMap st.address with
      | none => simp
      | some a =>
          rw [Option.map_some, Option.bind_eq_bind, Option.bind_some, ih, Option.isSome_some,
            if_pos rfl, List.cons_inj_right, performed]

/-! ## Failing safely -/

/-- What the calls of `physicalPageAlloc` return. -/
def allocResults (pmm : Pmm) (size flags : UInt64) : List UInt64 :=
  if flags &&& ((1 : UInt64) <<< 7) = 0 then
    let f := spaceFrames pmm size
    [f.pml4, f.pml3, f.pml2, f.pml1, f.physical]
  else
    let f := largeFrames pmm size
    [f.pml4, f.pml3, f.pml2, f.physical]

/-- The page is one that the call has been given. -/
def OwnPage (pmm : Pmm) (size flags : UInt64) (p : ℕ) : Prop :=
  isset pmm.bitmap p = false ∧
    isset (if flags &&& ((1 : UInt64) <<< 7) = 0 then (spaceFrames pmm size).pmm
      else (largeFrames pmm size).pmm).bitmap p = true

/-- The store is not to page 0, and what it maps is the kernel's or the call's own. -/
structure Harmless (pmm : Pmm) (size flags : UInt64) (st : EntryStore) : Prop where
  page0 : ∀ a, kernelMap st.address = some a → a.toNat / 4096 ≠ 0
  own : bit st.entry 0 = true → frameOf st.entry = kpml3Addr ∨ frameOf st.entry = kpml3AddrHH ∨
    ∀ k, k < st.pages → OwnPage pmm size flags ((frameOf st.entry).toNat / 4096 + k)

/-- The address spaces as the call leaves them.  After a fault nothing is known but the slot, which
has been filled before the first store. -/
def leftBehind (s : AddressSpaces) (size flags : UInt64) : AddressSpaces :=
  ((createNewAddressSpace s size flags).map Prod.snd).getD { s with
    pageDirectoryTables := Function.update s.pageDirectoryTables (findFirstFreeSlot s)
      { s.pageDirectoryTables (findFirstFreeSlot s) with
        pml4 := (spaceFrames s.pmm size).pml4
        pml3 := (spaceFrames s.pmm size).pml3
        pml2 := (spaceFrames s.pmm size).pml2
        flags := flags } }

/-- An allocation of the call has returned 0. -/
def HalfBuilt (s : AddressSpaces) (size flags : UInt64) : Prop := 0 ∈ allocResults s.pmm size flags

instance (s : AddressSpaces) (size flags : UInt64) : Decidable (HalfBuilt s size flags) :=
  inferInstanceAs (Decidable (_ ∈ _))

/-- Running out of memory does no harm: neither do the stores, nor can a half-built address space be
entered. -/
structure FailsSafely (s : AddressSpaces) (size flags : UInt64) : Prop where
  stores : ∀ st ∈ performed (createStores s.pmm size flags), Harmless s.pmm size flags st
  notEntered : HalfBuilt s size flags →
    ∀ cr3, initAddressSpace (leftBehind s size flags) cr3 (findFirstFreeSlot s) = cr3

/-- The first allocation is the root, on both paths. -/
lemma pml4_spaceFrames (pmm : Pmm) (size : UInt64) :
    (spaceFrames pmm size).pml4 = (physicalPageAlloc pmm 1).1 := by
  unfold spaceFrames
  with_reducible rfl

lemma pml4_largeFrames (pmm : Pmm) (size : UInt64) :
    (largeFrames pmm size).pml4 = (physicalPageAlloc pmm 1).1 := by
  unfold largeFrames
  with_reducible rfl

/-- A call that returns has the root in its slot. -/
lemma created_root (hcall : createNewAddressSpace s size flags = some (index, s')) :
    index = findFirstFreeSlot s ∧
      (s'.pageDirectoryTables index).pml4 = (physicalPageAlloc s.pmm 1).1 ∧
      s'.pageDirectoryCount = s.pageDirectoryCount := by
  by_cases hsmall : flags &&& ((1 : UInt64) <<< 7) = 0
  · rw [createNewAddressSpace_small _ _ hsmall, Option.map_eq_some_iff] at hcall
    obtain ⟨mem, _, heq⟩ := hcall
    rw [Prod.mk.injEq] at heq
    obtain ⟨rfl, rfl⟩ := heq
    simp only [Function.update_self, pml4_spaceFrames, and_self]
  · rw [createNewAddressSpace_large _ _ hsmall, Option.map_eq_some_iff] at hcall
    obtain ⟨mem, _, heq⟩ := hcall
    rw [Prod.mk.injEq] at heq
    obtain ⟨rfl, rfl⟩ := heq
    simp only [Function.update_self, pml4_largeFrames, and_self]

/-- **The root is in the slot, whether or not the call gets to its end.** -/
lemma leftBehind_root (s : AddressSpaces) (size flags : UInt64) :
    ((leftBehind s size flags).pageDirectoryTables (findFirstFreeSlot s)).pml4
        = (physicalPageAlloc s.pmm 1).1 ∧
      (leftBehind s size flags).pageDirectoryCount = s.pageDirectoryCount := by
  rcases hcall : createNewAddressSpace s size flags with _ | ⟨index, s'⟩
  · simp only [leftBehind, hcall, Option.map_none, Option.getD_none, Function.update_self,
      pml4_spaceFrames, and_self]
  · obtain ⟨rfl, hroot⟩ := created_root hcall
    simpa only [leftBehind, hcall, Option.map_some, Option.getD_some] using hroot

/-- The first store is to the root. -/
lemma createStores_head (pmm : Pmm) (size flags : UInt64) : (createStores pmm size flags).head? =
    some ⟨(physicalPageAlloc pmm 1).1 + HIGH_VMA, 256, withKpageFlags kpml3Addr, 1⟩ := by
  rw [createStores]
  split_ifs <;> simp only [upperStores, List.cons_append, List.head?_cons, pml4_spaceFrames,
    pml4_largeFrames]

/-- Without a root the kernel's entries go to page 0. -/
lemma not_harmless_zero (hroot : (physicalPageAlloc pmm 1).1 = 0) :
    ∃ st ∈ performed (createStores pmm size flags), ¬Harmless pmm size flags st := by
  have hhead := createStores_head pmm size flags
  rw [hroot] at hhead
  obtain ⟨stores, hstores⟩ := List.head?_eq_some_iff.mp hhead
  have hmap : kernelMap (EntryStore.address
      ⟨0 + HIGH_VMA, 256, withKpageFlags kpml3Addr, 1⟩) = some 0x800 := by decide
  refine ⟨_, ?_, fun hharmless => hharmless.page0 _ hmap (by decide)⟩
  rw [performed, hstores, List.takeWhile_cons, hmap, Option.isSome_some, if_pos rfl]
  exact List.mem_cons_self

/-- An address space is refused only if its index is too large, or its root is not there. -/
lemma initAddressSpace_refused : (∀ cr3, initAddressSpace s cr3 index = cr3) ↔
    s.pageDirectoryCount < index ∨ (s.pageDirectoryTables index).pml4 = 0 := by
  constructor
  · intro h
    by_contra hvalid
    have h0 := h 0
    rw [initAddressSpace, if_neg hvalid] at h0
    exact hvalid (Or.inr h0)
  · intro h cr3
    rw [initAddressSpace, if_pos h]

/-! ## Where the tables are reached

The kernel stores through the addresses of its direct map, and a page above 4 GiB has none there.
-/

/-- How many pages the kernel's tables map in one piece from page `p` on, at its address in the
direct map.  The direct map ends at 4 GiB; the addresses from `2 ^ 47 - 2 ^ 31` on lead to the
mapping of the kernel, and those from `2 ^ 47` on wrap around to the identity mapping. -/
def reach (p : ℕ) : ℕ :=
  if p < 2 ^ 20 then 2 ^ 20 - p
  else if 2 ^ 35 - 2 ^ 19 ≤ p ∧ p < 2 ^ 35 - 2 ^ 18 then 2 ^ 35 - 2 ^ 18 - p
  else if 2 ^ 35 ≤ p ∧ p < 2 ^ 35 + 2 ^ 20 then 2 ^ 35 + 2 ^ 20 - p
  else 0

/-- The page that is found there. -/
def reachedPage (p : ℕ) : ℕ :=
  if p < 2 ^ 20 then p else if p < 2 ^ 35 then p - (2 ^ 35 - 2 ^ 19) else p - 2 ^ 35

/-- **The places of a table**, and of what follows it. -/
lemma kernelMap_table (hp : p < 2 ^ 52) (hi : i < 512 * (reach p + 1)) :
    (512 * reach p ≤ i → kernelMap (pageAddress p + HIGH_VMA + UInt64.ofNat (8 * i)) = none) ∧
      (i < 512 * reach p → ∃ a,
        kernelMap (pageAddress p + HIGH_VMA + UInt64.ofNat (8 * i)) = some a ∧
          a.toNat / 4096 = reachedPage p + i / 512) := by
  have hvma : HIGH_VMA.toNat = 0xffff800000000000 := rfl
  have hkvma : KERNEL_HIGH_VMA.toNat = 0xffffffff80000000 := rfl
  have h4G : (0x100000000 : UInt64).toNat = 2 ^ 32 := rfl
  have h1G : (0x40000000 : UInt64).toNat = 2 ^ 30 := rfl
  have hreach : reach p ≤ 2 ^ 20 := by
    rw [reach]
    split_ifs <;> omega
  have hsum : (pageAddress p + HIGH_VMA + UInt64.ofNat (8 * i)).toNat =
      (p * 4096 + 0xffff800000000000 + 8 * i) % 2 ^ 64 := by
    rw [UInt64.toNat_add, UInt64.toNat_add, pageAddress, pageAddress_toNat hp, hvma,
      toNat_ofNat_of_lt (by omega)]
    omega
  generalize pageAddress p + HIGH_VMA + UInt64.ofNat (8 * i) = v at hsum ⊢
  have hdirect := UInt64.toNat_sub v HIGH_VMA
  have hkernel := UInt64.toNat_sub v KERNEL_HIGH_VMA
  rw [hvma] at hdirect
  rw [hkvma] at hkernel
  constructor
  · intro hend
    rw [kernelMap]
    simp only [UInt64.lt_iff_toNat_lt, UInt64.le_iff_toNat_le, hvma, hkvma, h4G, h1G]
    rw [reach] at hend hi
    split_ifs at hend hi ⊢ <;> first | rfl | omega
  · intro hlt
    rw [kernelMap]
    simp only [UInt64.lt_iff_toNat_lt, UInt64.le_iff_toNat_le, hvma, hkvma, h4G, h1G]
    rw [reach] at hlt hi
    rw [reachedPage]
    split_ifs at hlt hi ⊢ <;> first | omega | exact ⟨_, rfl, by omega⟩

/-! ## Which stores are harmless -/

/-- The entry is not present, or it names one of the kernel's two tables, or the `n` pages that it
stands for are all in the list. -/
def Names (pages : List ℕ) (n : ℕ) (entry : UInt64) : Prop :=
  bit entry 0 = true → frameOf entry = kpml3Addr ∨ frameOf entry = kpml3AddrHH ∨
    ∀ k, k < n → (frameOf entry).toNat / 4096 + k ∈ pages

/-- The pages that the call is given for its tables. -/
def tablePages (pmm : Pmm) (flags : UInt64) : List ℕ :=
  (freePages pmm).take (if flags &&& ((1 : UInt64) <<< 7) = 0 then 4 else 3)

/-- All stores before a fault are harmless. -/
def AllHarmless (pmm : Pmm) (size flags : UInt64) (stores : List EntryStore) : Prop :=
  ∀ st ∈ performed stores, Harmless pmm size flags st

lemma allHarmless_cons : AllHarmless pmm size flags (st :: stores) ↔
    (kernelMap st.address ≠ none →
      Harmless pmm size flags st ∧ AllHarmless pmm size flags stores) := by
  rw [AllHarmless, performed, List.takeWhile_cons]
  cases hmap : kernelMap st.address with
  | none => simp
  | some a =>
      rw [Option.isSome_some, if_pos rfl, List.forall_mem_cons]
      exact ⟨fun h _ => h, fun h => h (by simp)⟩

/-- A store to a table. -/
lemma harmless_iff (hown : ∀ p, OwnPage pmm size flags p ↔ p ∈ pages) (hp : p < 2 ^ 52)
    (hi : i < 512 * reach p) (entry : UInt64) (n : ℕ) :
    Harmless pmm size flags ⟨pageAddress p + HIGH_VMA, i, entry, n⟩ ↔
      reachedPage p + i / 512 ≠ 0 ∧ Names pages n entry := by
  obtain ⟨a, hmap, ha⟩ := (kernelMap_table hp (by omega)).2 hi
  have hnames : (∀ k, k < n → OwnPage pmm size flags ((frameOf entry).toNat / 4096 + k)) ↔
      ∀ k, k < n → (frameOf entry).toNat / 4096 + k ∈ pages :=
    forall₂_congr fun k _ => hown _
  constructor
  · rintro ⟨hpage0, hown'⟩
    rw [hnames] at hown'
    exact ⟨ha ▸ hpage0 a hmap, hown'⟩
  · rintro ⟨hpage, hentry⟩
    refine ⟨fun b hb => ?_, by rwa [hnames]⟩
    obtain rfl : a = b := Option.some.inj (hmap.symm.trans hb)
    rwa [ha]

/-- The first store to a table, at any of its entries. -/
lemma allHarmless_table (hown : ∀ p, OwnPage pmm size flags p ↔ p ∈ pages) (hp : p < 2 ^ 52)
    (hi : i < 512) (entry : UInt64) (n : ℕ) :
    AllHarmless pmm size flags (⟨pageAddress p + HIGH_VMA, i, entry, n⟩ :: stores) ↔
      (reach p ≠ 0 → reachedPage p ≠ 0 ∧ Names pages n entry ∧
        AllHarmless pmm size flags stores) := by
  obtain ⟨hnone, hsome⟩ := @kernelMap_table p i hp (by omega)
  rw [allHarmless_cons]
  by_cases hreach : reach p = 0
  · have hmap : kernelMap (EntryStore.address ⟨pageAddress p + HIGH_VMA, i, entry, n⟩) = none :=
      hnone (by omega)
    simp [hmap, hreach]
  · obtain ⟨a, hmap, -⟩ := hsome (by omega)
    have hmapped : kernelMap (EntryStore.address
        ⟨pageAddress p + HIGH_VMA, i, entry, n⟩) ≠ none := by
      rw [EntryStore.address, hmap]
      simp
    rw [harmless_iff hown hp (by omega), Nat.div_eq_of_lt hi, Nat.add_zero, and_assoc]
    exact ⟨fun h _ => h hmapped, fun h _ => h hreach⟩

/-- The turns of a loop from `j` on. -/
lemma allHarmless_turns (hown : ∀ p, OwnPage pmm size flags p ↔ p ∈ pages) (hp : p < 2 ^ 52)
    (entry : ℕ → UInt64) (hj : j ≤ 512 * reach p) :
    AllHarmless pmm size flags ((List.range' j k).map fun i =>
        ⟨pageAddress p + HIGH_VMA, i, entry i, n⟩) ↔
      ∀ i, j ≤ i → i < j + k → i < 512 * reach p →
        reachedPage p + i / 512 ≠ 0 ∧ Names pages n (entry i) := by
  induction k generalizing j with
  | zero =>
      refine ⟨fun _ i hji hik => absurd hik (by omega), fun _ st hst => ?_⟩
      exact absurd hst (by simp [performed])
  | succ k ih =>
      obtain ⟨hnone, hsome⟩ := @kernelMap_table p j hp (by omega)
      rw [List.range'_succ, List.map_cons, allHarmless_cons]
      rcases Nat.lt_or_ge j (512 * reach p) with hlt | hge
      · obtain ⟨a, hmap, -⟩ := hsome hlt
        have hmapped : kernelMap (EntryStore.address
            ⟨pageAddress p + HIGH_VMA, j, entry j, n⟩) ≠ none := by
          rw [EntryStore.address, hmap]
          simp
        rw [harmless_iff hown hp hlt, ih (by omega)]
        constructor
        · intro h i hji hik hi
          obtain ⟨hfirst, hrest⟩ := h hmapped
          rcases Nat.eq_or_lt_of_le hji with rfl | hji
          · exact hfirst
          · exact hrest i hji (by omega) hi
        · exact fun h _ => ⟨h j (le_refl _) (by omega) hlt,
            fun i hji hik hi => h i (by omega) (by omega) hi⟩
      · -- the loop has come to the end of the mapping
        refine ⟨fun _ i hji _ hi => absurd hi (by omega), fun _ hmapped => ?_⟩
        exact absurd (hnone hge) hmapped

/-- The loops, when there are no pages to be mapped. -/
lemma allHarmless_pageStores (hown : ∀ p, OwnPage pmm size flags p ↔ p ∈ pages) (hp : p < 2 ^ 52)
    (step : UInt64) (n m : ℕ) :
    AllHarmless pmm size flags (pageStores (pageAddress p + HIGH_VMA) 0 step flags n m) ↔
      ∀ i, i < m → i < 512 * reach p →
        reachedPage p ≠ 0 ∧ Names pages n (UInt64.ofNat i * step ||| flags) := by
  have hturns := allHarmless_turns (j := 0) (k := m) (n := n) hown hp
    (fun i => 0 + UInt64.ofNat i * step ||| flags) (Nat.zero_le _)
  rw [pageStores, List.range_eq_range', hturns]
  simp only [UInt64.zero_add]
  constructor
  · intro h i him hi
    have hfirst := (h 0 (le_refl _) (by omega) (by omega)).1
    exact ⟨by omega, (h i (Nat.zero_le _) (by omega) hi).2⟩
  · intro h i _ him hi
    obtain ⟨hpage, hnames⟩ := h i (by omega) hi
    exact ⟨by omega, hnames⟩

/-- A table with this number can be named by an entry, which has 40 bits of it. -/
def TableFound (pages : List ℕ) (p : ℕ) : Prop :=
  p % 2 ^ 40 ∈ pages ∨ pageAddress (p % 2 ^ 40) = kpml3Addr ∨ pageAddress (p % 2 ^ 40) = kpml3AddrHH

/-- The flags fill no bit of an address, which has room for 40 bits of a page number. -/
lemma pageAddress_or (hp : p < 2 ^ 52) (hflags : flags < 0x1000) :
    bit (pageAddress p ||| flags) 0 = bit flags 0 ∧
      frameOf (pageAddress p ||| flags) = pageAddress (p % 2 ^ 40) := by
  have haddr : (pageAddress p).toNat = p * 4096 := pageAddress_toNat hp
  have hframe : (pageAddress (p % 2 ^ 40)).toNat = p % 2 ^ 40 * 4096 := pageAddress_toNat (by omega)
  have hlt : flags.toNat < 2 ^ 12 := by simpa [UInt64.lt_iff_toNat_lt] using hflags
  have hentry : (pageAddress p ||| flags).toNat = p * 4096 + flags.toNat := by
    rw [UInt64.toNat_or, haddr, Nat.mul_comm, ← Nat.two_pow_add_eq_or_of_lt (i := 12) hlt]
  constructor
  · rw [bit, bit, hentry, Nat.testBit_zero, Nat.testBit_zero]
    congr 1
    rw [eq_iff_iff]
    omega
  · rw [← UInt64.toNat_inj, frameOf, hentry, hframe, toNat_ofNat_of_lt (by omega)]
    omega

lemma names_pageAddress (hp : p < 2 ^ 52) (hflags : flags < 0x1000) :
    Names pages 1 (pageAddress p ||| flags) ↔ (bit flags 0 = true → TableFound pages p) := by
  obtain ⟨hbit, hframe⟩ := pageAddress_or hp hflags
  have hpage : (pageAddress (p % 2 ^ 40)).toNat / 4096 = p % 2 ^ 40 := by
    rw [pageAddress, pageAddress_toNat (by omega)]
    omega
  rw [Names, hbit, hframe, hpage, TableFound]
  refine forall_congr' fun _ => ?_
  constructor
  · rintro (h | h | h)
    · exact .inr (.inl h)
    · exact .inr (.inr h)
    · exact .inl (h 0 Nat.one_pos)
  · rintro (h | h | h)
    · exact .inr (.inr fun k hk => by rwa [Nat.lt_one_iff.mp hk])
    · exact .inl h
    · exact .inr (.inl h)

lemma names_table (hp : p < 2 ^ 52) :
    Names pages 1 (withKpageFlags (pageAddress p)) ↔ TableFound pages p := by
  have hentry : withKpageFlags (pageAddress p) = pageAddress p ||| 7 := UInt64.or_assoc ..
  rw [hentry, names_pageAddress hp (by decide)]
  exact forall_prop_of_true (by decide)

lemma spaceFrames_handed (pmm : Pmm) (size : UInt64) : spaceFrames pmm size =
    ⟨pageAddress (handedPage pmm 0), pageAddress (handedPage pmm 1), pageAddress (handedPage pmm 2),
      pageAddress (handedPage pmm 3), (physicalPageAlloc (afterPages pmm 4) size).1,
      (physicalPageAlloc (afterPages pmm 4) size).2⟩ := by
  simp only [← physicalPageAlloc_afterPages]
  rfl

lemma largeFrames_handed (pmm : Pmm) (size : UInt64) : largeFrames pmm size =
    ⟨pageAddress (handedPage pmm 0), pageAddress (handedPage pmm 1), pageAddress (handedPage pmm 2),
      (physicalPageAlloc (afterPages pmm 3) (size * 0x200)).1,
      (physicalPageAlloc (afterPages pmm 3) (size * 0x200)).2⟩ := by
  simp only [← physicalPageAlloc_afterPages]
  rfl

/-- The stores to the last table: that of the entries for pages of 4 KiB, or of 2 MiB. -/
def LastHarmless (pmm : Pmm) (size flags : UInt64) : Prop :=
  if flags &&& ((1 : UInt64) <<< 7) = 0 then
    reach (handedPage pmm 2) ≠ 0 → reachedPage (handedPage pmm 2) ≠ 0 ∧
      Names (tablePages pmm flags) 1 (pageAddress (handedPage pmm 3) ||| flags) ∧
      ∀ i, i < size.toNat → i < 512 * reach (handedPage pmm 3) →
        reachedPage (handedPage pmm 3) ≠ 0 ∧
          Names (tablePages pmm flags) 1 (UInt64.ofNat i * 0x1000 ||| flags)
  else
    ∀ i, i < size.toNat → i < 512 * reach (handedPage pmm 2) →
      reachedPage (handedPage pmm 2) ≠ 0 ∧
        Names (tablePages pmm flags) 0x200 (UInt64.ofNat i * 0x200000 ||| flags)

/-- Where a call that cannot be given all it asks for finds its tables, and what is in the flags: a
table that is reached is not page 0, and no entry that is stored names another page. -/
def CreateHarmless (pmm : Pmm) (size flags : UInt64) : Prop :=
  reach (handedPage pmm 0) ≠ 0 → reachedPage (handedPage pmm 0) ≠ 0 ∧
    TableFound (tablePages pmm flags) (handedPage pmm 1) ∧
    (reach (handedPage pmm 1) ≠ 0 → reachedPage (handedPage pmm 1) ≠ 0 ∧
      TableFound (tablePages pmm flags) (handedPage pmm 2) ∧ LastHarmless pmm size flags)

/-- The upper levels. -/
lemma allHarmless_upper (hown : ∀ p, OwnPage pmm size flags p ↔ p ∈ pages) (hp : p < 2 ^ 52)
    (hq : q < 2 ^ 52) (hk : k < 2 ^ 52) :
    AllHarmless pmm size flags
        (upperStores (pageAddress p) (pageAddress q) (pageAddress k) ++ stores) ↔
      (reach p ≠ 0 → reachedPage p ≠ 0 ∧ TableFound pages q ∧
        (reach q ≠ 0 → reachedPage q ≠ 0 ∧ TableFound pages k ∧
          AllHarmless pmm size flags stores)) := by
  have hkernel : Names pages 1 (withKpageFlags kpml3Addr) := fun _ => .inl (by decide)
  have hkernelHH : Names pages 1 (withKpageFlags kpml3AddrHH) := fun _ => .inr (.inl (by decide))
  simp only [upperStores, List.cons_append, List.nil_append]
  rw [allHarmless_table hown hp (by decide), allHarmless_table hown hp (by decide),
    allHarmless_table hown hp (by decide), allHarmless_table hown hq (by decide), names_table hq,
    names_table hk]
  constructor
  · intro h hreach
    exact ((h hreach).2.2 hreach).2.2 hreach
  · intro h hreach
    have hrest := h hreach
    exact ⟨hrest.1, hkernel, fun _ => ⟨hrest.1, hkernelHH, h⟩⟩

/-- **The stores of a call that fails.** -/
theorem allHarmless_createStores (hfail : HalfBuilt s size flags) :
    AllHarmless s.pmm size flags (createStores s.pmm size flags) ↔
      CreateHarmless s.pmm size flags := by
  by_cases hroot : handedPage s.pmm 0 = 0
  · -- page 0 is the root, or what stands for a root
    have hzero : (physicalPageAlloc s.pmm 1).1 = 0 := by
      rw [(physicalPageAlloc_next _).1, hroot]
      rfl
    obtain ⟨st, hst, hharm⟩ : ∃ st ∈ performed (createStores s.pmm size flags),
        ¬Harmless s.pmm size flags st := not_harmless_zero hzero
    refine ⟨fun h => absurd (h st hst) hharm, fun h => ?_⟩
    rw [CreateHarmless, hroot] at h
    exact absurd rfl (h (by decide)).1
  · have hlt := handedPage_lt s.pmm
    rw [CreateHarmless, LastHarmless, createStores, tablePages]
    rw [HalfBuilt, allocResults] at hfail
    split_ifs at hfail ⊢ with hsmall
    · have hzero : (physicalPageAlloc (afterPages s.pmm 4) size).1 = 0 := by
        refine last_zero hroot ?_
        simp only [spaceFrames_handed, List.mem_cons, List.not_mem_nil, or_false] at hfail
        rcases hfail with h | h | h | h | h
        · exact .inl ⟨0, by decide, h.symm⟩
        · exact .inl ⟨1, by decide, h.symm⟩
        · exact .inl ⟨2, by decide, h.symm⟩
        · exact .inl ⟨3, by decide, h.symm⟩
        · exact .inr h.symm
      have hown : ∀ p, OwnPage s.pmm size flags p ↔ p ∈ (freePages s.pmm).take 4 := fun p => by
        rw [OwnPage, if_pos hsmall, spaceFrames_handed]
        exact isset_afterPages hroot hzero p
      simp only [spaceFrames_handed, hzero]
      rw [allHarmless_upper hown (hlt 0) (hlt 1) (hlt 2),
        allHarmless_table hown (hlt 2) (by decide), allHarmless_pageStores hown (hlt 3)]
    · have hzero : (physicalPageAlloc (afterPages s.pmm 3) (size * 0x200)).1 = 0 := by
        refine last_zero hroot ?_
        simp only [largeFrames_handed, List.mem_cons, List.not_mem_nil, or_false] at hfail
        rcases hfail with h | h | h | h
        · exact .inl ⟨0, by decide, h.symm⟩
        · exact .inl ⟨1, by decide, h.symm⟩
        · exact .inl ⟨2, by decide, h.symm⟩
        · exact .inr h.symm
      have hown : ∀ p, OwnPage s.pmm size flags p ↔ p ∈ (freePages s.pmm).take 3 := fun p => by
        rw [OwnPage, if_neg hsmall, largeFrames_handed]
        exact isset_afterPages hroot hzero p
      simp only [largeFrames_handed, hzero]
      rw [allHarmless_upper hown (hlt 0) (hlt 1) (hlt 2), allHarmless_pageStores hown (hlt 2)]

/-! ### A machine of 4 GiB -/

lemma reach_of_lt (hp : p < 2 ^ 20) : reach p = 2 ^ 20 - p ∧ reachedPage p = p :=
  ⟨if_pos hp, if_pos hp⟩

/-- Page 0 is found only if it is given. -/
lemma tableFound_zero (h0 : 0 ∉ pages) : ¬TableFound pages 0 := by
  rintro (h | h | h)
  · exact h0 h
  · exact absurd h (by decide)
  · exact absurd h (by decide)

/-- An entry of flags alone names page 0. -/
lemma names_zero (hflags : flags < 0x1000) (hn : 0 < n) (h0 : 0 ∉ pages)
    (h : Names pages n (0 ||| flags)) : bit flags 0 = false := by
  obtain ⟨hbit, hframe⟩ := @pageAddress_or flags 0 (by decide) hflags
  have hzero : pageAddress 0 = 0 := by decide
  rw [hzero] at hbit hframe
  rw [Names, hbit, hframe, show pageAddress (0 % 2 ^ 40) = 0 from hzero] at h
  by_contra hpresent
  rcases h (by simpa using hpresent) with h | h | h
  · exact absurd h (by decide)
  · exact absurd h (by decide)
  · exact h0 (by simpa using h 0 hn)

/-- No entry of the loops is present if the flags are not. -/
lemma names_turn (hclear : bit flags 0 = false) (i : ℕ) {step : UInt64}
    (hstep : step.toNat % 2 = 0) : Names pages n (UInt64.ofNat i * step ||| flags) := by
  intro hpresent
  rw [bit_or, hclear, Bool.or_false, bit, Nat.testBit_zero, decide_eq_true_eq, UInt64.toNat_mul,
    Nat.mod_mod_of_dvd _ (by decide), Nat.mul_mod, hstep, Nat.mul_zero] at hpresent
  exact absurd hpresent (by decide)

/-- The entries of the loop, of which the first is the flags alone. -/
lemma names_turns_iff {P : Prop} (hflags : flags < 0x1000) (hn : 0 < n) (h0 : 0 ∉ pages)
    {step : UInt64} (hstep : step.toNat % 2 = 0) (hj : 0 < j) :
    (∀ i, i < k → i < j → P ∧ Names pages n (UInt64.ofNat i * step ||| flags)) ↔
      k = 0 ∨ P ∧ bit flags 0 = false := by
  constructor
  · intro h
    rcases Nat.eq_zero_or_pos k with hk | hk
    · exact .inl hk
    · obtain ⟨hP, hfirst⟩ := h 0 hk hj
      rw [show UInt64.ofNat 0 * step = 0 from UInt64.zero_mul] at hfirst
      exact .inr ⟨hP, names_zero hflags hn h0 hfirst⟩
  · rintro (rfl | ⟨hP, hclear⟩) i hi -
    · exact absurd hi (Nat.not_lt_zero i)
    · exact ⟨hP, names_turn hclear i hstep⟩

/-- **On a machine of at most 4 GiB**, with flags that are no part of an address: page 0 is taken,
and what is mapped is there. -/
theorem createHarmless_plain (hlim : pageLimit pmm ≤ 2 ^ 20) (hflags : flags < 0x1000) :
    CreateHarmless pmm size flags ↔ isset pmm.bitmap 0 = true ∧ 3 ≤ (freePages pmm).length ∧
      if flags &&& ((1 : UInt64) <<< 7) = 0 then
        (bit flags 0 = true → 4 ≤ (freePages pmm).length) ∧
          (size = 0 ∨ 4 ≤ (freePages pmm).length ∧ bit flags 0 = false)
      else size = 0 ∨ bit flags 0 = false := by
  by_cases hroot : handedPage pmm 0 = 0
  · -- the root is page 0, or there is none
    rw [CreateHarmless, hroot]
    constructor
    · exact fun h => absurd rfl (h (by decide)).1
    · rintro ⟨h0, hlen, -⟩
      exact absurd hroot ((handedPage_mem h0).1 (by omega)).2
  · have h0 := isset_zero hroot
    have hne : ∀ j, handedPage pmm j ≠ 0 ↔ j < (freePages pmm).length := fun j => by
      refine ⟨fun h => ?_, fun h => ((handedPage_mem h0).1 h).2⟩
      by_contra hlen
      exact h ((handedPage_mem h0).2 (by omega))
    have hlt : ∀ j, handedPage pmm j < 2 ^ 20 := fun j => by
      by_cases hlen : j < (freePages pmm).length
      · have hmem := mem_freePages.mp ((handedPage_mem h0).1 hlen).1
        omega
      · rw [(handedPage_mem h0).2 (by omega)]
        decide
    have hzero : ∀ k, 0 ∉ (freePages pmm).take k := fun k hmem => by
      have hclear := (mem_freePages.mp (List.mem_of_mem_take hmem)).2
      rw [h0] at hclear
      exact Bool.noConfusion hclear
    have hfound : ∀ j k, j < k → (TableFound ((freePages pmm).take k) (handedPage pmm j) ↔
        j < (freePages pmm).length) := fun j k hjk => by
      constructor
      · intro h
        rw [← hne]
        intro hpage
        rw [hpage] at h
        exact tableFound_zero (hzero k) h
      · intro hlen
        left
        rw [Nat.mod_eq_of_lt (by have := hlt j; omega)]
        exact handedPage_mem_take hjk hlen
    have hreach : ∀ j, reach (handedPage pmm j) ≠ 0 := fun j => by
      rw [(reach_of_lt (hlt j)).1]
      have := hlt j
      omega
    have hlast : ∀ j, 0 < 512 * reach (handedPage pmm j) := fun j => by
      have := hreach j
      omega
    have hsize : size.toNat = 0 ↔ size = 0 := by rw [← UInt64.toNat_inj]; rfl
    rw [CreateHarmless, LastHarmless, tablePages]
    simp only [ne_eq, hreach, not_false_eq_true, forall_const, (reach_of_lt (hlt _)).2]
    simp only [hne]
    split_ifs with hsmall
    · rw [names_pageAddress (by have := hlt 3; omega) hflags,
        names_turns_iff hflags Nat.one_pos (hzero _) (by decide) (hlast 3), hfound 1 4 (by decide),
        hfound 2 4 (by decide), hfound 3 4 (by decide), hsize]
      simp only [h0, true_and]
      grind
    · rw [names_turns_iff hflags (by decide) (hzero _) (by decide) (hlast 2),
        hfound 1 3 (by decide), hfound 2 3 (by decide), hsize]
      simp only [h0, true_and]
      grind

/-! ## A call without enough memory -/

/-- **Running out of memory is safe at most when there is no slot either.**  With a free slot either
the root is 0, and page 0 is written, or it is in the slot, and the half-built address space can be
entered. -/
theorem failsSafely_iff (s : AddressSpaces) (size flags : UInt64) (hfail : HalfBuilt s size flags) :
    FailsSafely s size flags ↔
      s.pageDirectoryCount < findFirstFreeSlot s ∧ CreateHarmless s.pmm size flags := by
  obtain ⟨hroot, hcount⟩ := leftBehind_root s size flags
  have hrefused := @initAddressSpace_refused (leftBehind s size flags) (findFirstFreeSlot s)
  rw [hroot, hcount] at hrefused
  have hstores := allHarmless_createStores hfail
  constructor
  · rintro ⟨hharmless, hrun⟩
    rcases hrefused.mp (hrun hfail) with hlarge | hzero
    · exact ⟨hlarge, hstores.mp hharmless⟩
    · obtain ⟨st, hst, hharm⟩ : ∃ st ∈ performed (createStores s.pmm size flags),
          ¬Harmless s.pmm size flags st := not_harmless_zero hzero
      exact absurd (hharmless st hst) hharm
  · rintro ⟨hlarge, hharmless⟩
    exact ⟨hstores.mpr hharmless, fun _ => hrefused.mpr (Or.inl hlarge)⟩

/-! ## A machine with four free pages -/

/-- The fresh machine with four free pages: enough for the tables of an address space. -/
def crowdedSpaces : AddressSpaces :=
  { freshSpaces with pmm := ⟨fun i => if i < 36 then 0xff else 0, 0x124000, false⟩ }

/-- There is no page left for the address space itself. -/
theorem failsSafely_crowded_iff : FailsSafely crowdedSpaces 1 7 ↔
    crowdedSpaces.pageDirectoryCount < findFirstFreeSlot crowdedSpaces ∧
      CreateHarmless crowdedSpaces.pmm 1 7 :=
  failsSafely_iff crowdedSpaces 1 7 (by decide +kernel)

/-- The address space can be entered, and user code finds page 0 at address 0, where it may
write. -/
theorem failsSafely_crowded : HalfBuilt crowdedSpaces 1 7 ∧
    initAddressSpace (leftBehind crowdedSpaces 1 7) kpml4Addr 0 = 0x120000 ∧
    Paging.translate (leftBehind crowdedSpaces 1 7).mem 0x120000 0 = some 0 ∧
    ¬FailsSafely crowdedSpaces 1 7 := by
  have hhalf : HalfBuilt crowdedSpaces 1 7 := by decide +kernel
  have henter : initAddressSpace (leftBehind crowdedSpaces 1 7) kpml4Addr 0 = 0x120000 := by
    decide +kernel
  have hslot : findFirstFreeSlot crowdedSpaces = 0 := by decide +kernel
  refine ⟨hhalf, henter, by decide +kernel, fun h => ?_⟩
  have hrefused := h.notEntered hhalf kpml4Addr
  rw [hslot, henter] at hrefused
  exact absurd hrefused (by decide)

end Seaweed
