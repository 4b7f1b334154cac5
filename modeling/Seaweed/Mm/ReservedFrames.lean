import Seaweed.Mm.AddressSpaces
import Seaweed.Mm.PageRuns

/-!
# Reserved frames

What `initPMM` marks should stay marked.  Allocations are made among the other pages, and frees
give them back; but an address space with pages of 2 MiB has no `pml1`, and `freeAddressSpace`
frees it all the same: the 0 in the field is page 0.

* `SpaceStep` — the page manager and the address spaces in use, step by step.
* `SpacesOwned` — what is outstanding and what the live address spaces hold was free at the start.
* **`reservedPages_kept`** — as long as only address spaces with pages of 4 KiB are freed, every
  reserved page stays marked and no allocation that succeeds returns 0.
-/

namespace Seaweed

open FirstFit Words Transition Memory

/-! ## Steps -/

/-- The virtual page manager, the allocations its callers hold, and the slots of the live address
spaces. -/
structure SpaceState where
  spaces : AddressSpaces
  outstanding : List PageAlloc
  live : List UInt64

inductive SpaceEvent
  | page (e : PageEvent)
  | create (size flags : UInt64)
  | free (index : UInt64)

/-- There is room for an allocation. -/
def Succeeds (s : Pmm) (count : UInt64) : Prop :=
  count ≠ 0 ∧ ∃ b, Fits (PageFree s) (pageLimit s) count.toNat b

/-- There is room for several allocations in a row. -/
def AllSucceed : Pmm → List UInt64 → Prop
  | _, [] => True
  | s, count :: counts => Succeeds s count ∧ AllSucceed (physicalPageAlloc s count).2 counts

/-- What `createNewAddressSpace` asks for. -/
def createCounts (size flags : UInt64) : List UInt64 :=
  if flags &&& ((1 : UInt64) <<< 7) = 0 then [1, 1, 1, 1, size] else [1, 1, 1, size * 0x200]

/-- One call.  All allocations of an address space succeed, and what is freed is there. -/
inductive SpaceStep : SpaceState → SpaceEvent → SpaceState → Prop
  | page {s : SpaceState} {e : PageEvent} {s' : PageState}
      (hcall : PageStep ⟨s.spaces.pmm, s.outstanding⟩ e s') :
      SpaceStep s (.page e) ⟨{ s.spaces with pmm := s'.pmm }, s'.outstanding, s.live⟩
  | create {s : SpaceState} {size flags index : UInt64} {spaces' : AddressSpaces}
      (hroom : AllSucceed s.spaces.pmm (createCounts size flags))
      (hcall : createNewAddressSpace s.spaces size flags = some (index, spaces')) :
      SpaceStep s (.create size flags) ⟨spaces', s.outstanding, index :: s.live⟩
  | free {s : SpaceState} {index : UInt64} (hlive : index ∈ s.live) :
      SpaceStep s (.free index)
        ⟨freeAddressSpace s.spaces index, s.outstanding, s.live.filter (· ≠ index)⟩

/-- The address space in the slot has pages of 4 KiB. -/
def SmallPages (s : AddressSpaces) (index : UInt64) : Prop :=
  (s.pageDirectoryTables index).flags &&& ((1 : UInt64) <<< 7) = 0

instance (s : AddressSpaces) (index : UInt64) : Decidable (SmallPages s index) :=
  inferInstanceAs (Decidable (_ = _))

/-- A step that frees no address space with pages of 2 MiB. -/
def SmallFreesStep (s : SpaceState) (e : SpaceEvent) (s' : SpaceState) : Prop :=
  SpaceStep s e s' ∧ ∀ index, e = .free index → SmallPages s.spaces index

/-! ## Pages that were free at the start -/

/-- The allocation has no page that is set in `s₀`. -/
def Unreserved (s₀ : Pmm) (a : PageAlloc) : Prop :=
  ∃ b, a = allocAt b a.count ∧ b + a.count.toNat < 2 ^ 52 ∧ ∀ p ∈ a.pages, isset s₀.bitmap p = false

/-- What is set in `s₀` is set in `s`. -/
def Keeps (s₀ s : Pmm) : Prop := ∀ p, isset s₀.bitmap p = true → isset s.bitmap p = true

variable {s₀ s : Pmm} {a : PageAlloc} {count : UInt64}

/-- No call of the allocator clears a page. -/
lemma Keeps.alloc (h : Keeps s₀ s) (count : UInt64) : Keeps s₀ (physicalPageAlloc s count).2 := by
  intro p hp
  rcases physicalPageAlloc_cases s count with ⟨b, _, _, heq⟩ | ⟨_, heq⟩
  · rw [heq, isset_setRange, h p hp, Bool.true_or]
  · rw [heq]
    exact h p hp

/-- **What is handed out was free at the start.** -/
lemma Keeps.unreserved (h : Keeps s₀ s) (hroom : Succeeds s count) :
    Unreserved s₀ ⟨(physicalPageAlloc s count).1, count⟩ := by
  obtain ⟨hcount, b', hfit'⟩ := hroom
  rcases physicalPageAlloc_cases s count with ⟨b, _, ⟨hfit, _⟩, heq⟩ | ⟨hnone, _⟩
  · have hlast : b + count.toNat < 2 ^ 52 := lt_of_le_of_lt hfit.1 (pageLimit_lt s)
    have hb : b < 2 ^ 52 := by omega
    refine ⟨b, by rw [heq, allocAt], hlast, fun p hp => ?_⟩
    rw [heq, ← allocAt, pages_allocAt _ hb] at hp
    by_contra hset
    rw [Bool.not_eq_false] at hset
    have hfree := hfit.2 p hp.1 hp.2
    rw [PageFree, h p hset] at hfree
    exact Bool.noConfusion hfree
  · exact absurd hfit' (hnone hcount b')

/-- Giving it back clears no page that was set at the start. -/
lemma Keeps.free (h : Keeps s₀ s) (ha : Unreserved s₀ a) :
    Keeps s₀ (physicalPageFree s a.base a.count) := by
  obtain ⟨b, hab, hlast, hpages⟩ := ha
  intro p hp
  have hout : p ∉ a.pages := fun hin => by
    rw [hpages p hin] at hp
    exact Bool.noConfusion hp
  have hbits := isset_physicalPageFree s hlast p
  rw [← hab] at hbits
  rw [hbits, h p hp, decide_eq_true hout]
  rfl

/-- With page 0 set, what is handed out is not at address 0. -/
lemma Unreserved.base_ne_zero (hpage0 : isset s₀.bitmap 0 = true) (ha : Unreserved s₀ a)
    (hcount : a.count ≠ 0) : a.base ≠ 0 := by
  obtain ⟨b, hab, hlast, hpages⟩ := ha
  have hpos := toNat_pos hcount
  intro hzero
  have hmem : 0 ∈ a.pages := by
    rw [PageAlloc.pages, hzero]
    exact ⟨le_refl _, by simpa using hpos⟩
  rw [hpages 0 hmem] at hpage0
  exact Bool.noConfusion hpage0

/-! ## Address spaces -/

/-- The frames in a slot of the directory were free at the start. -/
structure SpaceOwned (s₀ : Pmm) (directory : PageDirectoryEntry) : Prop where
  pml4 : Unreserved s₀ ⟨directory.pml4, 1⟩
  pml3 : Unreserved s₀ ⟨directory.pml3, 1⟩
  pml2 : Unreserved s₀ ⟨directory.pml2, 1⟩
  pml1 : directory.flags &&& ((1 : UInt64) <<< 7) = 0 → Unreserved s₀ ⟨directory.pml1, 1⟩

variable {spaces spaces' : AddressSpaces} {size flags index : UInt64}

/-- What a call of `createNewAddressSpace` leaves in the first free slot and in the page manager. -/
structure Created (s₀ : Pmm) (spaces : AddressSpaces) (flags index : UInt64)
    (spaces' : AddressSpaces) : Prop where
  slot : index = findFirstFreeSlot spaces
  kept : Keeps s₀ spaces'.pmm
  owned : SpaceOwned s₀ (spaces'.pageDirectoryTables index)
  flags_eq : (spaces'.pageDirectoryTables index).flags = flags
  large : flags &&& ((1 : UInt64) <<< 7) ≠ 0 →
    (spaces'.pageDirectoryTables index).pml1 = (spaces.pageDirectoryTables index).pml1
  others : ∀ i, i ≠ index → spaces'.pageDirectoryTables i = spaces.pageDirectoryTables i
  count : spaces'.pageDirectoryCount = spaces.pageDirectoryCount

lemma created_small (h : Keeps s₀ spaces.pmm) (hsmall : flags &&& ((1 : UInt64) <<< 7) = 0)
    (hroom : AllSucceed spaces.pmm (createCounts size flags))
    (hcall : createNewAddressSpace spaces size flags = some (index, spaces')) :
    Created s₀ spaces flags index spaces' := by
  rw [createCounts, if_pos hsmall] at hroom
  obtain ⟨hroom4, hroom3, hroom2, hroom1, _, _⟩ := hroom
  rw [createNewAddressSpace_small _ _ hsmall, Option.map_eq_some_iff] at hcall
  obtain ⟨mem, _, heq⟩ := hcall
  rw [Prod.mk.injEq] at heq
  obtain ⟨rfl, rfl⟩ := heq
  have h4 := h.alloc 1
  have h3 := h4.alloc 1
  have h2 := h3.alloc 1
  have h1 := h2.alloc 1
  constructor
  case slot => rfl
  case kept => exact h1.alloc size
  case owned =>
    simp only [Function.update_self]
    exact ⟨h.unreserved hroom4, h4.unreserved hroom3, h3.unreserved hroom2,
      fun _ => h2.unreserved hroom1⟩
  case flags_eq => simp only [Function.update_self]
  case large => exact fun hlarge => absurd hsmall hlarge
  case others => exact fun i hi => Function.update_of_ne hi _ _
  case count => rfl

lemma created_large (h : Keeps s₀ spaces.pmm) (hlarge : flags &&& ((1 : UInt64) <<< 7) ≠ 0)
    (hroom : AllSucceed spaces.pmm (createCounts size flags))
    (hcall : createNewAddressSpace spaces size flags = some (index, spaces')) :
    Created s₀ spaces flags index spaces' := by
  rw [createCounts, if_neg hlarge] at hroom
  obtain ⟨hroom4, hroom3, hroom2, _, _⟩ := hroom
  have h4 := h.alloc 1
  have h3 := h4.alloc 1
  have h2 := h3.alloc 1
  simp only [createNewAddressSpace, if_neg hlarge, Option.bind_eq_bind,
    Option.bind_eq_some_iff] at hcall
  obtain ⟨_, _, _, _, _, _, _, _, _, _, heq⟩ := hcall
  rw [Option.pure_def, Option.some_inj, Prod.mk.injEq] at heq
  obtain ⟨rfl, rfl⟩ := heq
  constructor
  case slot => rfl
  case kept => exact h2.alloc (size * 0x200)
  case owned =>
    simp only [Function.update_self]
    exact ⟨h.unreserved hroom4, h4.unreserved hroom3, h3.unreserved hroom2,
      fun hsmall => absurd hsmall hlarge⟩
  case flags_eq => simp only [Function.update_self]
  case large => exact fun _ => by simp only [Function.update_self]
  case others => exact fun i hi => Function.update_of_ne hi _ _
  case count => rfl

/-- **A new address space has frames of its own**, but for `pml1` when its pages are large. -/
theorem created (h : Keeps s₀ spaces.pmm)
    (hroom : AllSucceed spaces.pmm (createCounts size flags))
    (hcall : createNewAddressSpace spaces size flags = some (index, spaces')) :
    Created s₀ spaces flags index spaces' := by
  by_cases hsmall : flags &&& ((1 : UInt64) <<< 7) = 0
  · exact created_small h hsmall hroom hcall
  · exact created_large h hsmall hroom hcall

/-- **Freeing an address space with pages of 4 KiB keeps the reserved pages.** -/
lemma keeps_freeAddressSpace (h : Keeps s₀ spaces.pmm)
    (howned : SpaceOwned s₀ (spaces.pageDirectoryTables index)) (hsmall : SmallPages spaces index) :
    Keeps s₀ (freeAddressSpace spaces index).pmm := by
  have h4 := h.free howned.pml4
  have h3 := h4.free howned.pml3
  have h2 := h3.free howned.pml2
  have h1 := h2.free (howned.pml1 hsmall)
  simp only [freeAddressSpace]
  exact h1

/-- Without a `pml1` the last of the four frees clears page 0. -/
lemma isset_freeAddressSpace_zero (hpml1 : (spaces.pageDirectoryTables index).pml1 = 0) :
    isset (freeAddressSpace spaces index).pmm.bitmap 0 = false := by
  have hmem : 0 ∈ (allocAt 0 1).pages := by
    rw [pages_allocAt _ (by decide)]
    decide
  have hbits : ∀ s, isset (physicalPageFree s 0 1).bitmap 0 = false := fun s => by
    have hclear := isset_physicalPageFree s (show 0 + (1 : UInt64).toNat < 2 ^ 52 by decide) 0
    rw [decide_eq_false (not_not.mpr hmem), Bool.and_false] at hclear
    exact hclear
  simp only [freeAddressSpace, hpml1]
  exact hbits _

/-! ## Runs -/

/-- What has been handed out was free at the start, and the slots of the table hold either what a
live address space needs or nothing. -/
structure SpacesOwned (s₀ : Pmm) (s : SpaceState) : Prop where
  kept : Keeps s₀ s.spaces.pmm
  outstanding : ∀ a ∈ s.outstanding, Unreserved s₀ a
  live : ∀ index ∈ s.live, SpaceOwned s₀ (s.spaces.pageDirectoryTables index)
  large : ∀ index ∈ s.live, index.toNat < 100 → ¬SmallPages s.spaces index →
    (s.spaces.pageDirectoryTables index).pml1 = 0
  empty : ∀ i : UInt64, i.toNat < 100 → i ∉ s.live →
    s.spaces.pageDirectoryTables i = ⟨0, 0, 0, 0, 0⟩

variable {st st' : SpaceState} {e : SpaceEvent} {es : List SpaceEvent}

/-- A call of the page manager. -/
lemma SpacesOwned.page (h : SpacesOwned s₀ st) {e : PageEvent}
    {s' : PageState} (hcall : PageStep ⟨st.spaces.pmm, st.outstanding⟩ e s') :
    SpacesOwned s₀ ⟨{ st.spaces with pmm := s'.pmm }, s'.outstanding, st.live⟩ := by
  have hother : Keeps s₀ s'.pmm → (∀ a ∈ s'.outstanding, Unreserved s₀ a) →
      SpacesOwned s₀ ⟨{ st.spaces with pmm := s'.pmm }, s'.outstanding, st.live⟩ :=
    fun hkept hout => ⟨hkept, hout, h.live, h.large, h.empty⟩
  cases hcall with
  | @alloc count base pmm' hcount hcall hbase =>
      have hpmm : pmm' = (physicalPageAlloc st.spaces.pmm count).2 := by rw [hcall]
      refine hother (hpmm ▸ h.kept.alloc count) fun a ha => ?_
      rcases List.mem_cons.mp ha with rfl | ha
      · rcases physicalPageAlloc_cases st.spaces.pmm count with ⟨b, _, ⟨hfit, _⟩, _⟩ | ⟨_, heq⟩
        · have hun := h.kept.unreserved ⟨hcount, b, hfit⟩
          rwa [hcall] at hun
        · rw [heq, Prod.mk.injEq] at hcall
          exact absurd hcall.1.symm hbase
      · exact h.outstanding a ha
  | @allocFail count pmm' hcount hcall =>
      have hpmm : pmm' = (physicalPageAlloc st.spaces.pmm count).2 := by rw [hcall]
      exact hother (hpmm ▸ h.kept.alloc count) h.outstanding
  | @free a ha =>
      exact hother (h.kept.free (h.outstanding a ha))
        fun a' ha' => h.outstanding a' (List.mem_of_mem_erase ha')

/-- The slot that is found has no root in it, or does not exist. -/
lemma findFirstFreeSlot_cases (spaces : AddressSpaces) :
    (spaces.pageDirectoryTables (findFirstFreeSlot spaces)).pml4 = 0 ∨
      (findFirstFreeSlot spaces).toNat = 2 ^ 64 - 1 := by
  rw [findFirstFreeSlot]
  rcases firstIndex_cases (fun i => (spaces.pageDirectoryTables (UInt64.ofNat i)).pml4 == 0)
    spaces.pageDirectoryCount.toNat with ⟨i, hi, _, hfree, _⟩ | ⟨hi, _⟩
  · rw [hi, ofInt_natCast]
    exact Or.inl (by simpa using hfree)
  · rw [hi]
    exact Or.inr rfl

/-- A new address space. -/
lemma SpacesOwned.create (hpage0 : isset s₀.bitmap 0 = true) (h : SpacesOwned s₀ st)
    (hroom : AllSucceed st.spaces.pmm (createCounts size flags))
    (hcall : createNewAddressSpace st.spaces size flags = some (index, spaces')) :
    SpacesOwned s₀ ⟨spaces', st.outstanding, index :: st.live⟩ := by
  have hnew := created h.kept hroom hcall
  -- the slot of a live address space is not taken for a free one
  have hslot : index.toNat < 100 → index ∉ st.live := by
    intro hlt hlive
    rcases findFirstFreeSlot_cases st.spaces with hzero | hnone
    · rw [← hnew.slot] at hzero
      exact (h.live index hlive).pml4.base_ne_zero hpage0 (show (1 : UInt64) ≠ 0 by decide) hzero
    · rw [← hnew.slot] at hnone
      omega
  constructor
  case kept => exact hnew.kept
  case outstanding => exact h.outstanding
  case live =>
    intro i hi
    by_cases hindex : i = index
    · rw [hindex]
      exact hnew.owned
    · rw [hnew.others i hindex]
      exact h.live i (List.mem_of_ne_of_mem hindex hi)
  case large =>
    intro i hi hlt hlarge
    by_cases hindex : i = index
    · subst hindex
      rw [SmallPages, hnew.flags_eq] at hlarge
      rw [hnew.large hlarge, h.empty i hlt (hslot hlt)]
    · rw [SmallPages, hnew.others i hindex] at hlarge
      rw [hnew.others i hindex]
      exact h.large i (List.mem_of_ne_of_mem hindex hi) hlt hlarge
  case empty =>
    intro i hlt hi
    rw [List.mem_cons, not_or] at hi
    rw [hnew.others i hi.1]
    exact h.empty i hlt hi.2

/-- An address space with pages of 4 KiB is given back. -/
lemma SpacesOwned.free (h : SpacesOwned s₀ st) (hlive : index ∈ st.live)
    (hsmall : SmallPages st.spaces index) :
    SpacesOwned s₀ ⟨freeAddressSpace st.spaces index, st.outstanding,
      st.live.filter (· ≠ index)⟩ := by
  have hothers : ∀ i, i ≠ index → (freeAddressSpace st.spaces index).pageDirectoryTables i
      = st.spaces.pageDirectoryTables i := fun i hi => Function.update_of_ne hi _ _
  have hmem : ∀ i, i ∈ st.live.filter (· ≠ index) ↔ i ∈ st.live ∧ i ≠ index := by
    intro i
    rw [List.mem_filter, decide_eq_true_eq]
  constructor
  case kept => exact keeps_freeAddressSpace h.kept (h.live index hlive) hsmall
  case outstanding => exact h.outstanding
  case live =>
    intro i hi
    obtain ⟨hi, hne⟩ := (hmem i).mp hi
    rw [hothers i hne]
    exact h.live i hi
  case large =>
    intro i hi hlt hlarge
    obtain ⟨hi, hne⟩ := (hmem i).mp hi
    rw [SmallPages, hothers i hne] at hlarge
    rw [hothers i hne]
    exact h.large i hi hlt hlarge
  case empty =>
    intro i hlt hi
    by_cases hindex : i = index
    · rw [hindex]
      exact Function.update_self _ _ _
    · rw [hothers i hindex]
      exact h.empty i hlt fun hi' => hi ((hmem i).mpr ⟨hi', hindex⟩)

/-- **One step.** -/
lemma spacesOwned_step (hpage0 : isset s₀.bitmap 0 = true) (st : SpaceState) (e : SpaceEvent)
    (st' : SpaceState) (h : SpacesOwned s₀ st) (hstep : SmallFreesStep st e st') :
    SpacesOwned s₀ st' := by
  obtain ⟨hcall, hsmall⟩ := hstep
  cases hcall with
  | page hcall => exact h.page hcall
  | create hroom hcall => exact h.create hpage0 hroom hcall
  | @free index hlive => exact h.free hlive (hsmall index rfl)

/-- The reserved pages are marked, no allocation that succeeds returns 0, and freeing an address
space in the table keeps it so exactly if its pages are small. -/
structure ReservedKept (s₀ : Pmm) (s : SpaceState) : Prop where
  marked : Keeps s₀ s.spaces.pmm
  nonzero : ∀ count, Succeeds s.spaces.pmm count → (physicalPageAlloc s.spaces.pmm count).1 ≠ 0
  free_iff : ∀ index ∈ s.live, index.toNat < 100 →
    (Keeps s₀ (freeAddressSpace s.spaces index).pmm ↔ SmallPages s.spaces index)

/-- **Reserved pages stay reserved as long as only address spaces with pages of 4 KiB are freed.**
`initVMM` has cleared the table. -/
theorem reservedPages_kept (mmapEntries : List MmapEntry) (bits : Bitmap) (spaces : AddressSpaces)
    (hpmm : spaces.pmm = initPMM ⟨bits, 0, false⟩ mmapEntries)
    (hempty : ∀ i : UInt64, i.toNat < 100 → spaces.pageDirectoryTables i = ⟨0, 0, 0, 0, 0⟩)
    (hrun : Run SmallFreesStep ⟨spaces, [], []⟩ es st) :
    ReservedKept (initPMM ⟨bits, 0, false⟩ mmapEntries) st := by
  have hpage0 := (isset_initPMM bits false mmapEntries 0).mpr (Or.inr (Or.inl (by decide)))
  have hstart : SpacesOwned (initPMM ⟨bits, 0, false⟩ mmapEntries) ⟨spaces, [], []⟩ :=
    { kept := fun p hp => by rwa [hpmm]
      outstanding := by simp
      live := by simp
      large := by simp
      empty := fun i hi _ => hempty i hi }
  have h := hrun.invariant (I := SpacesOwned (initPMM ⟨bits, 0, false⟩ mmapEntries))
    (spacesOwned_step hpage0) hstart
  refine ⟨h.kept, fun count hroom => ?_,
    fun index hlive hlt => ⟨fun hkeeps => ?_, fun hsmall => ?_⟩⟩
  · exact (h.kept.unreserved hroom).base_ne_zero hpage0 hroom.1
  · by_contra hlarge
    have hclear := isset_freeAddressSpace_zero (h.large index hlive hlt hlarge)
    rw [hkeeps 0 hpage0] at hclear
    exact Bool.noConfusion hclear
  · exact keeps_freeAddressSpace h.kept (h.live index hlive) hsmall

/-! ## One address space, with small pages and with large ones -/

/-- With all free pages in one piece allocations succeed until the pages run out. -/
lemma allSucceed_takenBelow {counts : List UInt64} {b : ℕ} (h : TakenBelow s b)
    (hcounts : ∀ count ∈ counts, count ≠ 0)
    (hroom : b + (counts.map UInt64.toNat).sum ≤ pageLimit s) : AllSucceed s counts := by
  induction counts generalizing s b with
  | nil => trivial
  | cons count counts ih =>
      rw [List.map_cons, List.sum_cons] at hroom
      rw [List.forall_mem_cons] at hcounts
      obtain ⟨_, hnext, hlim⟩ := physicalPageAlloc_takenBelow h hcounts.1 (by omega)
      refine ⟨⟨hcounts.1, b, by omega, fun p hp _ => ?_⟩, ih hnext hcounts.2 (by omega)⟩
      rw [PageFree, h p]
      exact decide_eq_false (by omega)

/-- The address space that a call on the fresh machine creates, and the state after it. -/
def firstSpace (size flags : UInt64) : UInt64 × AddressSpaces :=
  (createNewAddressSpace freshSpaces size flags).getD (0, freshSpaces)

lemma createStep_first {size flags : UInt64}
    (hroom : AllSucceed freshSpaces.pmm (createCounts size flags))
    (hindex : (createNewAddressSpace freshSpaces size flags).map Prod.fst = some 0) :
    SpaceStep ⟨freshSpaces, [], []⟩ (.create size flags) ⟨(firstSpace size flags).2, [], [0]⟩ := by
  obtain ⟨⟨index, spaces'⟩, hcall, rfl⟩ := Option.map_eq_some_iff.mp hindex
  have hfirst : firstSpace size flags = (0, spaces') := by rw [firstSpace, hcall, Option.getD_some]
  rw [hfirst]
  exact SpaceStep.create hroom hcall

/-- There is room for them on the fresh machine. -/
lemma allSucceed_fresh {counts : List UInt64} (hcounts : counts.all (· != 0) = true)
    (hroom : lowPages + (counts.map UInt64.toNat).sum ≤ 0x2000) :
    AllSucceed freshSpaces.pmm counts := by
  rw [pmm_freshSpaces]
  refine allSucceed_takenBelow takenBelow_plainMap (fun count hcount => ?_)
    (by rwa [pageLimit_plainMap])
  simpa using List.all_eq_true.mp hcounts count hcount

lemma freeStep_first (spaces : AddressSpaces) :
    SpaceStep ⟨spaces, [], [0]⟩ (.free 0) ⟨freeAddressSpace spaces 0, [], []⟩ := by
  have hstep := SpaceStep.free (s := ⟨spaces, [], [(0 : UInt64)]⟩) List.mem_cons_self
  have hlive : [(0 : UInt64)].filter (· ≠ 0) = [] := by simp
  simpa only [hlive] using hstep

/-- An address space of one small page comes and goes. -/
theorem reservedPages_kept_onePage : ReservedKept (initPMM ⟨fun _ => 0, 0, false⟩ plainMap)
    ⟨freeAddressSpace (firstSpace 1 7).2 0, [], []⟩ := by
  have hcreate := @createStep_first 1 7
    (allSucceed_fresh (by decide) (by decide)) (by decide +kernel)
  exact reservedPages_kept plainMap (fun _ => 0) freshSpaces pmm_freshSpaces (fun _ _ => rfl)
    ((Run.single ⟨hcreate, fun _ h => nomatch h⟩).snoc
      ⟨freeStep_first _, fun index h => by cases h; decide +kernel⟩)

/-- **A large page loses page 0**: once its address space has been freed, the next page that is
asked for is page 0, and the caller takes it for a failure. -/
theorem reservedPages_largePage : ∃ s : SpaceState,
    Run SpaceStep ⟨freshSpaces, [], []⟩ [.create 1 0x87, .free 0] s ∧
    isset (initPMM ⟨fun _ => 0, 0, false⟩ plainMap).bitmap 0 = true ∧
    isset s.spaces.pmm.bitmap 0 = false ∧
    Succeeds s.spaces.pmm 1 ∧ (physicalPageAlloc s.spaces.pmm 1).1 = 0 := by
  have hcreate := @createStep_first 1 0x87
    (allSucceed_fresh (by decide) (by decide)) (by decide +kernel)
  refine ⟨⟨freeAddressSpace (firstSpace 1 0x87).2 0, [], []⟩,
    (Run.single hcreate).snoc (freeStep_first _), ?_, ?_, ⟨by decide, 0, ?_, ?_⟩, ?_⟩
  · rw [← pmm_freshSpaces]
    decide
  · decide +kernel
  · decide +kernel
  · intro q _ hq
    obtain rfl : q = 0 := by
      have hone : (1 : UInt64).toNat = 1 := rfl
      omega
    show isset _ 0 = false
    decide +kernel
  · decide +kernel

end Seaweed
