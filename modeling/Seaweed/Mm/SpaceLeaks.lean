import Seaweed.Mm.LargeSpaces

/-!
# Creating an address space and freeing it again

`freeAddressSpace` gives back what is in the slot of the directory: the tables.  The pages that the
address space maps are not recorded there, so they stay marked for good.  With large pages the slot
has no `pml1` of its own, and whatever was left in that field is freed as well.

* `isset_free_small`, `isset_free_large` — the bitmap afterwards, for both page sizes.
* **`createFree_leaks`** — no address space with at least one page can be created and freed without
  a trace.
-/

namespace Seaweed

open FirstFit Words Transition Memory

/-- The address space can be created and freed, and then everything is as it was. -/
def CreateFreeNeutral (s : AddressSpaces) (size flags : UInt64) : Prop :=
  ∃ index s', createNewAddressSpace s size flags = some (index, s') ∧
    (∀ p, isset (freeAddressSpace s' index).pmm.bitmap p = isset s.pmm.bitmap p) ∧
    (freeAddressSpace s' index).pageDirectoryTables = s.pageDirectoryTables

variable {s s' : AddressSpaces} {pmm : Pmm} {size flags index base : UInt64}
  {p4 p3 p2 p1 b p n : ℕ}

/-! ## Freeing one page -/

/-- The page that `physicalPageFree` clears for an address. -/
def freedPage (base : UInt64) : ℕ := (ROUNDUP base PAGESIZE).toNat

lemma freedPage_pageAddress (hp : p < 2 ^ 52) : freedPage (UInt64.ofNat p * PAGESIZE) = p :=
  pageAddress_roundup hp

lemma isset_freeOne (s : Pmm) (base : UInt64) (p : ℕ) :
    isset (physicalPageFree s base 1).bitmap p
      = (isset s.bitmap p && decide (p ≠ freedPage base)) := by
  have hfirst : (ROUNDUP base PAGESIZE).toNat < 2 ^ 52 := by
    rw [ROUNDUP, UInt64.toNat_div, PAGESIZE_toNat]
    have := (base + (PAGESIZE - 1)).toNat_lt
    omega
  have hone : (1 : UInt64).toNat = 1 := rfl
  have hturns : (ROUNDUP base PAGESIZE + 1).toNat - (ROUNDUP base PAGESIZE).toNat = 1 := by
    rw [UInt64.toNat_add, hone, Nat.mod_eq_of_lt (by omega)]
    omega
  rw [physicalPageFree, hturns, isset_clearRange, freedPage]
  congr 1
  exact decide_eq_decide.mpr (by omega)

/-- The four frees of `freeAddressSpace`. -/
lemma isset_freeAddressSpace (s : AddressSpaces) (index : UInt64) (p : ℕ) :
    isset (freeAddressSpace s index).pmm.bitmap p
      = (isset s.pmm.bitmap p &&
        decide (p ∉ [freedPage (s.pageDirectoryTables index).pml4,
          freedPage (s.pageDirectoryTables index).pml3,
          freedPage (s.pageDirectoryTables index).pml2,
          freedPage (s.pageDirectoryTables index).pml1])) := by
  simp only [freeAddressSpace, isset_freeOne, Bool.and_assoc, ← Bool.decide_and]
  congr 1
  refine decide_eq_decide.mpr ?_
  simp only [List.mem_cons, List.not_mem_nil, or_false, not_or, and_assoc, ne_eq]

/-! ## What an address space takes -/

/-- The frames of an address space with pages of 4 KiB. -/
lemma spaceFrames_eq (h : SpacePlan pmm [p4, p3, p2, p1] size.toNat b) (hsize : size ≠ 0) :
    spaceFrames pmm size = ⟨UInt64.ofNat p4 * PAGESIZE, UInt64.ofNat p3 * PAGESIZE,
      UInt64.ofNat p2 * PAGESIZE, UInt64.ofNat p1 * PAGESIZE, UInt64.ofNat b * PAGESIZE,
      takeRun (takePages pmm [p4, p3, p2, p1]) b size.toNat⟩ := by
  obtain ⟨h4, h3, h2, h1, _⟩ := h.lowest
  have hrun := h.physicalPageAlloc_eq hsize
  simp only [takePages] at hrun
  simp only [spaceFrames, takePages, h4.physicalPageAlloc_eq, h3.physicalPageAlloc_eq,
    h2.physicalPageAlloc_eq, h1.physicalPageAlloc_eq, hrun]

lemma isset_takeRun (s : Pmm) (b n p : ℕ) :
    isset (takeRun s b n).bitmap p = (isset s.bitmap p || decide (b ≤ p ∧ p < b + n)) :=
  isset_setRange ..

/-- The bits of a plan: the tables and the piece were clear, and are set now. -/
lemma SpacePlan.isset_after {tables : List ℕ} (h : SpacePlan pmm tables n b) (hn : 0 < n) (p : ℕ) :
    (isset (takeRun (takePages pmm tables) b n).bitmap p && decide (p ∉ tables))
      = (isset pmm.bitmap p || decide (b ≤ p ∧ p < b + n)) := by
  rw [isset_takeRun, isset_takePages]
  by_cases hp : p ∈ tables
  · have hclear := (h.lowest.clear hp).1
    have hlt := h.lt hn hp
    have hout : ¬(b ≤ p ∧ p < b + n) := by omega
    rw [decide_eq_false (not_not.mpr hp), hclear, decide_eq_false hout, Bool.and_false,
      Bool.or_false]
  · simp [hp]

/-! ## Both page sizes -/

/-- **With pages of 4 KiB the pages stay marked.** -/
theorem isset_free_small (hpos : 0 < size.toNat) (hsmall : flags &&& ((1 : UInt64) <<< 7) = 0)
    (hplan : SpacePlan s.pmm [p4, p3, p2, p1] size.toNat b)
    (hcall : createNewAddressSpace s size flags = some (index, s')) (p : ℕ) :
    isset (freeAddressSpace s' index).pmm.bitmap p
      = (isset s.pmm.bitmap p || decide (b ≤ p ∧ p < b + size.toNat)) := by
  have hne : size ≠ 0 := fun hzero => by
    rw [hzero, UInt64.toNat_zero] at hpos
    omega
  have hlast := hplan.last_lt
  have hfreed : ∀ q ∈ [p4, p3, p2, p1], freedPage (UInt64.ofNat q * PAGESIZE) = q := fun q hq =>
    freedPage_pageAddress (by have := hplan.lt hpos hq; omega)
  simp only [List.forall_mem_cons, List.not_mem_nil, false_imp_iff, implies_true, and_true]
    at hfreed
  obtain ⟨hf4, hf3, hf2, hf1⟩ := hfreed
  rw [createNewAddressSpace_small _ _ hsmall, spaceFrames_eq hplan hne, Option.map_eq_some_iff]
    at hcall
  obtain ⟨mem, _, heq⟩ := hcall
  rw [Prod.mk.injEq] at heq
  obtain ⟨rfl, rfl⟩ := heq
  rw [isset_freeAddressSpace]
  simp only [Function.update_self, hf4, hf3, hf2, hf1]
  exact hplan.isset_after hpos p

/-- **With pages of 2 MiB they stay marked as well**, and the page in the old `pml1` is given
away. -/
theorem isset_free_large (hpos : 0 < size.toNat) (hsize : size.toNat ≤ 512)
    (hlarge : flags &&& ((1 : UInt64) <<< 7) ≠ 0)
    (hplan : SpacePlan s.pmm [p4, p3, p2] (size * 0x200).toNat b)
    (hcall : createNewAddressSpace s size flags = some (index, s')) (p : ℕ) :
    isset (freeAddressSpace s' index).pmm.bitmap p
      = ((isset s.pmm.bitmap p || decide (b ≤ p ∧ p < b + size.toNat * 512)) &&
        decide (p ≠ freedPage (s.pageDirectoryTables index).pml1)) := by
  have hcount := toNat_largeCount hsize
  have hlast := hplan.last_lt
  have hfreed : ∀ q ∈ [p4, p3, p2], freedPage (UInt64.ofNat q * PAGESIZE) = q := fun q hq =>
    freedPage_pageAddress (by have := hplan.lt (by omega) hq; omega)
  simp only [List.forall_mem_cons, List.not_mem_nil, false_imp_iff, implies_true, and_true]
    at hfreed
  obtain ⟨hf4, hf3, hf2⟩ := hfreed
  rw [createNewAddressSpace_large _ _ hlarge,
    largeFrames_eq hplan (largeCount_ne_zero hpos hsize), Option.map_eq_some_iff] at hcall
  obtain ⟨mem, _, heq⟩ := hcall
  rw [Prod.mk.injEq] at heq
  obtain ⟨rfl, rfl⟩ := heq
  have hlist : ∀ q, p ∉ [p4, p3, p2, q] ↔ p ∉ [p4, p3, p2] ∧ p ≠ q := fun q => by
    simp only [List.mem_cons, List.not_mem_nil, or_false, not_or, and_assoc, ne_eq]
  rw [isset_freeAddressSpace, ← hcount, ← hplan.isset_after (by omega), Bool.and_assoc,
    ← Bool.decide_and]
  simp only [Function.update_self, hf4, hf3, hf2, hlist]

/-- **Creating an address space and freeing it never restores the bitmap.** -/
theorem createFree_leaks (s : AddressSpaces) (size flags : UInt64) (hpos : 1 ≤ size.toNat)
    (hsize : size.toNat ≤ 512) (hroom : AllSucceed s.pmm (createCounts size flags)) :
    ¬CreateFreeNeutral s size flags := by
  rintro ⟨index, s', hcall, hbits, _⟩
  by_cases hsmall : flags &&& ((1 : UInt64) <<< 7) = 0
  · rw [createCounts, if_pos hsmall] at hroom
    obtain ⟨tables, b, hlength, hplan⟩ := exists_plan 4 hroom
    obtain ⟨p4, p3, p2, p1, rfl⟩ := List.length_eq_four.mp hlength
    have hfirst := isset_free_small hpos hsmall hplan hcall b
    rw [hbits, hplan.clear le_rfl (by omega), decide_eq_true (by omega)] at hfirst
    exact Bool.noConfusion hfirst
  · rw [createCounts, if_neg hsmall] at hroom
    obtain ⟨tables, b, hlength, hplan⟩ := exists_plan 3 hroom
    obtain ⟨p4, p3, p2, rfl⟩ := List.length_eq_three.mp hlength
    have hcount := toNat_largeCount hsize
    -- the old `pml1` can be one of the pages, but not two
    have hleak : ∀ p, b ≤ p → p < b + 2 → p = freedPage (s.pageDirectoryTables index).pml1 := by
      intro p hp hp'
      by_contra hne
      have hpage := isset_free_large hpos hsize hsmall hplan hcall p
      rw [hbits, hplan.clear hp (by omega), decide_eq_true (by omega), decide_eq_true hne] at hpage
      exact Bool.noConfusion hpage
    have hfirst := hleak b le_rfl (by omega)
    have hsecond := hleak (b + 1) (by omega) (by omega)
    omega

/-- One page of 4 KiB on the fresh machine. -/
theorem createFree_leaks_onePage : ¬CreateFreeNeutral freshSpaces 1 7 :=
  createFree_leaks freshSpaces 1 7 (by decide) (by decide)
    (allSucceed_fresh (by decide) (by decide))

/-- The page at `0x124000` was free before, and is not afterwards. -/
theorem createFree_onePage : AllSucceed freshSpaces.pmm (createCounts 1 7) ∧
    (freshSpaces.pageDirectoryTables 0).pml4 = 0 ∧ isset freshSpaces.pmm.bitmap 0x124 = false ∧
    (createNewAddressSpace freshSpaces 1 7).all
      (fun r => isset (freeAddressSpace r.2 r.1).pmm.bitmap 0x124) = true ∧
    ¬CreateFreeNeutral freshSpaces 1 7 := by
  have hleak : (createNewAddressSpace freshSpaces 1 7).all
      (fun r => isset (freeAddressSpace r.2 r.1).pmm.bitmap 0x124) = true := by decide +kernel
  have hfree : isset freshSpaces.pmm.bitmap 0x124 = false := by decide
  refine ⟨allSucceed_fresh (by decide) (by decide), rfl, hfree, hleak, ?_⟩
  rintro ⟨index, s', hcall, hbits, _⟩
  rw [hcall, Option.all_some, hbits, hfree] at hleak
  exact Bool.noConfusion hleak

end Seaweed
