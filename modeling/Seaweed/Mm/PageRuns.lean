import Seaweed.Library.Ledger
import Seaweed.Library.Runs
import Seaweed.Mm.PhysicalPageManager

/-!
# Runs of the physical page manager

Any interleaving of `physicalPageAlloc` and `physicalPageFree`, where a free gives back exactly
what an earlier allocation returned.  The page manager follows a `Ledger` whose reserved cells are
the pages set at the start: `Follows` says how, `follows_step` carries it over one call and
`follows_run` over a run.

* **`outstandingPages_exact`** — the set bits are the initial ones plus the outstanding pages, at
  every point of every run.
-/

namespace Seaweed

open FirstFit Words Transition

/-- What a successful call of `physicalPageAlloc` gives its caller. -/
structure PageAlloc where
  base : UInt64
  count : UInt64
  deriving DecidableEq

/-- The pages of an allocation. -/
def PageAlloc.pages (a : PageAlloc) : Extent := ⟨(a.base / PAGESIZE).toNat, a.count.toNat⟩

/-- The page manager and the allocations its callers hold. -/
structure PageState where
  pmm : Pmm
  outstanding : List PageAlloc

inductive PageEvent
  | alloc (count : UInt64)
  | free (a : PageAlloc)

/-- One call.  An allocation asks for at least one page, and what is freed was allocated. -/
inductive PageStep : PageState → PageEvent → PageState → Prop
  | alloc {s : PageState} {count base : UInt64} {pmm' : Pmm} (hcount : count ≠ 0)
      (hcall : physicalPageAlloc s.pmm count = (base, pmm')) (hbase : base ≠ 0) :
      PageStep s (.alloc count) ⟨pmm', ⟨base, count⟩ :: s.outstanding⟩
  | allocFail {s : PageState} {count : UInt64} {pmm' : Pmm} (hcount : count ≠ 0)
      (hcall : physicalPageAlloc s.pmm count = (0, pmm')) :
      PageStep s (.alloc count) ⟨pmm', s.outstanding⟩
  | free {s : PageState} {a : PageAlloc} (hmem : a ∈ s.outstanding) :
      PageStep s (.free a) ⟨physicalPageFree s.pmm a.base a.count, s.outstanding.erase a⟩

/-! ## One call -/

/-- The allocation of `count` pages from page `b` on. -/
def allocAt (b : ℕ) (count : UInt64) : PageAlloc := ⟨UInt64.ofNat b * PAGESIZE, count⟩

theorem pages_allocAt {b : ℕ} (count : UInt64) (hb : b < 2 ^ 52) :
    (allocAt b count).pages = ⟨b, count.toNat⟩ := by
  rw [PageAlloc.pages, allocAt, pageAddress_div hb]

/-- **A free clears exactly the pages of the allocation it is given.** -/
theorem isset_physicalPageFree (s : Pmm) {b : ℕ} {count : UInt64}
    (hlast : b + count.toNat < 2 ^ 52) (p : ℕ) :
    isset (physicalPageFree s (allocAt b count).base count).bitmap p
      = (isset s.bitmap p && decide (p ∉ (allocAt b count).pages)) := by
  have hfirst : (ROUNDUP (UInt64.ofNat b * PAGESIZE) PAGESIZE).toNat = b :=
    pageAddress_roundup (by omega)
  have hturns : (ROUNDUP (UInt64.ofNat b * PAGESIZE) PAGESIZE + count).toNat - b
      = count.toNat := by
    rw [UInt64.toNat_add, hfirst, Nat.mod_eq_of_lt (by omega)]
    omega
  rw [pages_allocAt _ (by omega), physicalPageFree, allocAt, hfirst, hturns, isset_clearRange]
  rfl

/-- The marks an allocation makes. -/
theorem isset_allocated (s : Pmm) {b : ℕ} {count : UInt64} (hb : b < 2 ^ 52) (p : ℕ) :
    isset (setRange s.bitmap b count.toNat) p
      = (isset s.bitmap p || decide (p ∈ (allocAt b count).pages)) := by
  rw [isset_setRange, pages_allocAt _ hb]
  rfl

/-! ## The ledger the page manager follows -/

/-- The page manager follows a ledger: the held extents are the outstanding allocations, each
held under its address, and the set bits are the occupied cells. -/
structure Follows (s₀ : Pmm) (s : PageState)
    (L : Ledger {p | isset s₀.bitmap p = true} (pageLimit s₀)) : Prop where
  held : L.held = s.outstanding.map PageAlloc.pages
  bits : ∀ p, isset s.pmm.bitmap p = true ↔ p ∈ L.occupied
  aligned : ∀ a ∈ s.outstanding, ∃ b, a = allocAt b a.count ∧ b + a.count.toNat < 2 ^ 52
  memory : s.pmm.totalDetectedMemory = s₀.totalDetectedMemory

variable {s₀ : Pmm} {s s' : PageState} {e : PageEvent} {es : List PageEvent}

theorem Follows.limit {L} (h : Follows s₀ s L) : pageLimit s.pmm = pageLimit s₀ := by
  rw [pageLimit, h.memory, pageLimit]

theorem Follows.free_iff {L} (h : Follows s₀ s L) (p : ℕ) : PageFree s.pmm p ↔ p ∉ L.occupied := by
  rw [PageFree, ← h.bits p, Bool.not_eq_true]

/-- At the start nothing is held. -/
theorem follows_start (s₀ : Pmm) : Follows s₀ ⟨s₀, []⟩ (Ledger.empty _ _) where
  held := rfl
  bits := fun p => by simp [Ledger.mem_occupied, Ledger.held_empty]
  aligned := by simp
  memory := rfl

/-- A page that an allocation finds free is not page 0, so its address is not `0`. -/
theorem Follows.allocAt_ne_zero {L} (h : Follows s₀ s L) (hpage0 : isset s₀.bitmap 0 = true)
    {count : UInt64} (hcount : count ≠ 0) {b : ℕ}
    (hfit : Fits (PageFree s.pmm) (pageLimit s.pmm) count.toNat b) :
    UInt64.ofNat b * PAGESIZE ≠ 0 := by
  have hpos := toNat_pos hcount
  have hlim := pageLimit_lt s.pmm
  have hlast := hfit.1
  intro hzero
  have hb : b * 4096 = 0 := by
    rw [← pageAddress_toNat (by omega), hzero, UInt64.toNat_zero]
  obtain rfl : b = 0 := by omega
  have hfree := hfit.2 0 (le_refl _) (by omega)
  exact (h.free_iff 0).mp hfree (Or.inl hpage0)

/-- **A successful allocation hands out an extent of free cells.** -/
theorem Follows.alloc {L} (h : Follows s₀ s L) {count : UInt64} (hcount : count ≠ 0) {b : ℕ}
    (hfit : Fits (PageFree s.pmm) (pageLimit s.pmm) count.toNat b) :
    ∃ L', Follows s₀ ⟨{ s.pmm with bitmap := setRange s.pmm.bitmap b count.toNat, lock := false },
      allocAt b count :: s.outstanding⟩ L' := by
  have hlast : b + count.toNat < 2 ^ 52 := lt_of_le_of_lt hfit.1 (pageLimit_lt s.pmm)
  have hb : b < 2 ^ 52 := by omega
  have hfit' : Fits (· ∉ L.occupied) (pageLimit s₀) count.toNat b :=
    ⟨h.limit ▸ hfit.1, fun p hp hp' => (h.free_iff p).mp (hfit.2 p hp hp')⟩
  refine ⟨L.take ⟨b, count.toNat⟩ (toNat_pos hcount) hfit', ?_, ?_, ?_, h.memory⟩
  · rw [Ledger.held_take, List.map_cons, pages_allocAt _ hb, h.held]
  · intro p
    rw [Ledger.mem_occupied_take, ← h.bits p, isset_allocated _ hb, pages_allocAt _ hb,
      Bool.or_eq_true, decide_eq_true_eq]
  · intro a ha
    rcases List.mem_cons.mp ha with rfl | ha
    · exact ⟨b, rfl, hlast⟩
    · exact h.aligned a ha

/-- **A free takes a held extent back.** -/
theorem Follows.free {L} (h : Follows s₀ s L) {a : PageAlloc} (ha : a ∈ s.outstanding) :
    ∃ L', Follows s₀ ⟨physicalPageFree s.pmm a.base a.count, s.outstanding.erase a⟩ L' := by
  obtain ⟨b, hab, hlast⟩ := h.aligned a ha
  have hperm : L.held.Perm (a.pages :: (s.outstanding.erase a).map PageAlloc.pages) := by
    rw [h.held, ← List.map_cons]
    exact (List.perm_cons_erase ha).map _
  refine ⟨L.give _ hperm, rfl, ?_, fun a' ha' => h.aligned a' (List.mem_of_mem_erase ha'),
    h.memory⟩
  intro p
  have hbits := isset_physicalPageFree s.pmm hlast p
  rw [← hab] at hbits
  rw [Ledger.mem_occupied_give, ← h.bits p, hbits, Bool.and_eq_true, decide_eq_true_eq]

/-- **One call keeps to the ledger.** -/
theorem follows_step (hpage0 : isset s₀.bitmap 0 = true) (s : PageState) (e : PageEvent)
    (s' : PageState) (h : ∃ L, Follows s₀ s L) (hstep : PageStep s e s') :
    ∃ L, Follows s₀ s' L := by
  obtain ⟨L, hL⟩ := h
  cases hstep with
  | @alloc count base pmm' hcount hcall hbase =>
      rcases physicalPageAlloc_cases s.pmm count with ⟨b, _, hfirst, heq⟩ | ⟨_, heq⟩
      · rw [heq, Prod.mk.injEq] at hcall
        obtain ⟨rfl, rfl⟩ := hcall
        exact hL.alloc hcount hfirst.1
      · rw [heq, Prod.mk.injEq] at hcall
        exact absurd hcall.1.symm hbase
  | @allocFail count pmm' hcount hcall =>
      rcases physicalPageAlloc_cases s.pmm count with ⟨b, _, hfirst, heq⟩ | ⟨_, heq⟩
      · rw [heq, Prod.mk.injEq] at hcall
        exact absurd hcall.1 (hL.allocAt_ne_zero hpage0 hcount hfirst.1)
      · rw [heq, Prod.mk.injEq] at hcall
        obtain ⟨_, rfl⟩ := hcall
        exact ⟨L, hL.held, hL.bits, hL.aligned, hL.memory⟩
  | @free a ha => exact hL.free ha

/-- Every run keeps to a ledger. -/
theorem follows_run (hpage0 : isset s₀.bitmap 0 = true)
    (hrun : Run PageStep ⟨s₀, []⟩ es s) : ∃ L, Follows s₀ s L :=
  hrun.invariant (I := fun s => ∃ L, Follows s₀ s L) (follows_step hpage0) ⟨_, follows_start s₀⟩

/-! ## Which pages can be handed out -/

/-- Some run of allocations hands out page `p`. -/
def HandedOut (s₀ : Pmm) (p : ℕ) : Prop :=
  ∃ (counts : List UInt64) (s : PageState), Run PageStep ⟨s₀, []⟩ (counts.map PageEvent.alloc) s ∧
    ∃ a ∈ s.outstanding, p ∈ a.pages

/-- The page manager after one page has been handed out. -/
def takePage (s : Pmm) (b : ℕ) : Pmm := { s with bitmap := setRange s.bitmap b 1, lock := false }

lemma isset_takePage (s : Pmm) (b p : ℕ) :
    isset (takePage s b).bitmap p = (isset s.bitmap p || decide (p = b)) := by
  rw [takePage, isset_setRange]
  congr 1
  exact decide_eq_decide.mpr (by omega)

/-- Asking for one page hands out the lowest free one. -/
lemma alloc_one {s : PageState} {b : ℕ} (hpage0 : isset s.pmm.bitmap 0 = true)
    (hlim : b < pageLimit s.pmm) (hfree : PageFree s.pmm b)
    (hbelow : ∀ q, q < b → isset s.pmm.bitmap q = true) :
    PageStep s (.alloc 1) ⟨takePage s.pmm b, allocAt b 1 :: s.outstanding⟩ := by
  have hone : (1 : UInt64).toNat = 1 := rfl
  have hfit : Fits (PageFree s.pmm) (pageLimit s.pmm) (1 : UInt64).toNat b :=
    ⟨by omega, fun q hq hq' => by rwa [show q = b by omega]⟩
  have hfirst : IsFirstFit (PageFree s.pmm) (pageLimit s.pmm) (1 : UInt64).toNat b := by
    refine ⟨hfit, fun b' hlt hfit' => ?_⟩
    have hclear : isset s.pmm.bitmap b' = false := hfit'.2 b' (le_refl _) (by omega)
    rw [hbelow b' hlt] at hclear
    exact Bool.noConfusion hclear
  refine PageStep.alloc (by decide) (physicalPageAlloc_firstFit (by decide) hfirst) ?_
  exact (follows_start s.pmm).allocAt_ne_zero hpage0 (by decide) hfit

/-- Allocating one page at a time reaches every free page `p`.  The induction is on how far below
`p` a free page may still be. -/
theorem alloc_reaches {p : ℕ} (d : ℕ) (s : PageState) (hpage0 : isset s.pmm.bitmap 0 = true)
    (hlim : p < pageLimit s.pmm) (hfree : PageFree s.pmm p)
    (hbelow : ∀ q, q + d < p → isset s.pmm.bitmap q = true) :
    ∃ (counts : List UInt64) (s' : PageState), Run PageStep s (counts.map PageEvent.alloc) s' ∧
      ∃ a ∈ s'.outstanding, p ∈ a.pages := by
  induction d generalizing s with
  | zero =>
      have hbound := pageLimit_lt s.pmm
      refine ⟨[1], _, Run.single (alloc_one hpage0 hlim hfree hbelow), allocAt p 1,
        List.mem_cons_self, ?_⟩
      rw [pages_allocAt _ (by omega)]
      exact ⟨le_refl _, Nat.lt_succ_self p⟩
  | succ d ih =>
      by_cases hlow : d < p ∧ PageFree s.pmm (p - (d + 1))
      · -- the first page of the gap is free: one allocation takes it
        obtain ⟨hd, hlow⟩ := hlow
        have halloc := alloc_one hpage0 (by omega) hlow fun q hq => hbelow q (by omega)
        obtain ⟨counts, s', hrun, hout⟩ := ih
          ⟨takePage s.pmm (p - (d + 1)), allocAt (p - (d + 1)) 1 :: s.outstanding⟩
          (by rw [isset_takePage, hpage0, Bool.true_or]) hlim
          (by
            rw [PageFree] at hfree ⊢
            rw [isset_takePage, hfree, Bool.false_or]
            exact decide_eq_false (by omega))
          (fun q hq => by
            rw [isset_takePage, Bool.or_eq_true, decide_eq_true_eq]
            by_cases hqp : q = p - (d + 1)
            · exact Or.inr hqp
            · exact Or.inl (hbelow q (by omega)))
        exact ⟨1 :: counts, s', (Run.single halloc).append hrun, hout⟩
      · -- it is taken, so the gap is one page shorter
        refine ih s hpage0 hlim hfree fun q hq => ?_
        by_cases hqp : q + (d + 1) < p
        · exact hbelow q hqp
        · rw [show q = p - (d + 1) by omega]
          exact Bool.not_eq_false _ |>.mp fun hclear => hlow ⟨by omega, hclear⟩

/-- **A page can be handed out exactly when it is free and below the limit.** -/
theorem handedOut_iff (hpage0 : isset s₀.bitmap 0 = true) (p : ℕ) :
    HandedOut s₀ p ↔ p < pageLimit s₀ ∧ PageFree s₀ p := by
  constructor
  · rintro ⟨counts, s, hrun, a, ha, hp⟩
    obtain ⟨L, hL⟩ := follows_run hpage0 hrun
    have hmem : a.pages ∈ L.held := hL.held ▸ List.mem_map_of_mem ha
    exact ⟨lt_of_lt_of_le hp.2 (L.within _ hmem),
      Bool.eq_false_of_not_eq_true (L.fresh _ hmem p hp)⟩
  · rintro ⟨hlim, hfree⟩
    exact alloc_reaches p ⟨s₀, []⟩ hpage0 hlim hfree fun q hq => by omega

/-- A page that was free at the start of a run has been handed out in it, or still can be. -/
theorem handedOut_later (hpage0 : isset s₀.bitmap 0 = true) (hrun : Run PageStep ⟨s₀, []⟩ es s)
    {p : ℕ} (hlim : p < pageLimit s₀) (hfree : PageFree s₀ p) :
    ∃ (counts : List UInt64) (s' : PageState), Run PageStep s (counts.map PageEvent.alloc) s' ∧
      ∃ a ∈ s'.outstanding, p ∈ a.pages := by
  obtain ⟨L, hL⟩ := follows_run hpage0 hrun
  by_cases htaken : p ∈ L.occupied
  · rcases htaken with hres | ⟨e, he, hp⟩
    · rw [PageFree] at hfree
      rw [Set.mem_ofPred_eq, hfree] at hres
      exact Bool.noConfusion hres
    · rw [hL.held, List.mem_map] at he
      obtain ⟨a, ha, rfl⟩ := he
      exact ⟨[], s, Run.nil, a, ha, hp⟩
  · have hpage0' : isset s.pmm.bitmap 0 = true := (hL.bits 0).mpr (Or.inl hpage0)
    exact alloc_reaches p s hpage0' (hL.limit ▸ hlim) ((hL.free_iff p).mpr htaken)
      fun q hq => by omega

/-! ## What callers can rely on -/

/-- **A free undoes its allocation exactly.** -/
theorem physicalPageFree_undoes (s : Pmm) {count base : UInt64} {s' : Pmm}
    (hcall : physicalPageAlloc s count = (base, s')) (hbase : base ≠ 0) :
    (physicalPageFree s' base count).bitmap = s.bitmap := by
  rcases physicalPageAlloc_cases s count with ⟨b, hcount, hfirst, heq⟩ | ⟨_, heq⟩
  · rw [heq, Prod.mk.injEq] at hcall
    obtain ⟨rfl, rfl⟩ := hcall
    have hlast : b + count.toNat < 2 ^ 52 := lt_of_le_of_lt hfirst.1.1 (pageLimit_lt s)
    refine bitmap_ext fun p => ?_
    have hbits := isset_physicalPageFree
      { s with bitmap := setRange s.bitmap b count.toNat, lock := false } hlast p
    rw [allocAt] at hbits
    rw [hbits, isset_allocated s (by omega), allocAt]
    by_cases hp : p ∈ (⟨UInt64.ofNat b * PAGESIZE, count⟩ : PageAlloc).pages
    · have hfree : isset s.bitmap p = false := by
        rw [← allocAt, pages_allocAt _ (by omega)] at hp
        exact hfirst.1.2 p hp.1 hp.2
      simp [hp, hfree]
    · simp [hp]
  · rw [heq, Prod.mk.injEq] at hcall
    exact absurd hcall.1.symm hbase

/-- What holds between two calls: below the limit the set bits are the initial ones and the pages
of the outstanding allocations; these are page aligned, below the limit, disjoint from the initial
pages and from each other; freeing one clears its own pages and nothing else, and freeing one that
has just been made gives back the bitmap from before. -/
structure PagesAccounted (s₀ : Pmm) (s : PageState) : Prop where
  bits : ∀ p, p < pageLimit s₀ → (isset s.pmm.bitmap p = true ↔
    isset s₀.bitmap p = true ∨ ∃ a ∈ s.outstanding, p ∈ a.pages)
  aligned : ∀ a ∈ s.outstanding, a.base.toNat % 4096 = 0
  below : ∀ a ∈ s.outstanding, a.pages.start + a.count.toNat ≤ pageLimit s₀
  fresh : ∀ a ∈ s.outstanding, ∀ p ∈ a.pages, isset s₀.bitmap p = false
  apart : s.outstanding.Pairwise (fun a a' => a.pages.Apart a'.pages)
  free_exact : ∀ a ∈ s.outstanding, ∀ p, isset (physicalPageFree s.pmm a.base a.count).bitmap p
    = (isset s.pmm.bitmap p && decide (p ∉ a.pages))
  free_undoes : ∀ count base pmm', physicalPageAlloc s.pmm count = (base, pmm') → base ≠ 0 →
    (physicalPageFree pmm' base count).bitmap = s.pmm.bitmap

/-- **The allocator accounts for every page**, whatever the bitmap and the limit at the start, as
long as page 0 is set, and however allocations and frees are interleaved. -/
theorem outstandingPages_exact (hpage0 : isset s₀.bitmap 0 = true)
    (hrun : Run PageStep ⟨s₀, []⟩ es s) : PagesAccounted s₀ s := by
  obtain ⟨L, hL⟩ := follows_run hpage0 hrun
  have hmem : ∀ a ∈ s.outstanding, a.pages ∈ L.held := fun a ha =>
    hL.held ▸ List.mem_map_of_mem ha
  constructor
  case bits =>
    intro p _
    rw [hL.bits p, Ledger.mem_occupied, hL.held]
    simp
  case aligned =>
    intro a ha
    obtain ⟨b, hab, hlast⟩ := hL.aligned a ha
    rw [hab, allocAt, pageAddress_toNat (by omega), Nat.mul_mod_left]
  case below => exact fun a ha => L.within _ (hmem a ha)
  case fresh => exact fun a ha p hp => Bool.eq_false_of_not_eq_true (L.fresh _ (hmem a ha) p hp)
  case apart =>
    have hapart := L.apart
    rwa [hL.held, List.pairwise_map] at hapart
  case free_exact =>
    intro a ha p
    obtain ⟨b, hab, hlast⟩ := hL.aligned a ha
    have hbits := isset_physicalPageFree s.pmm hlast p
    rwa [← hab] at hbits
  case free_undoes => exact fun count base pmm' => physicalPageFree_undoes s.pmm

/-- Four pages of memory, the first of them taken. -/
def fourPages : Pmm := { bitmap := fun i => if i = 0 then 1 else 0
                         totalDetectedMemory := 0x4000
                         lock := false }

/-- The page manager after these have been allocated in two pieces. -/
def fourPagesTaken : Pmm := (physicalPageAlloc (physicalPageAlloc fourPages 2).2 1).2

/-- The account after the first of the pieces has been freed. -/
theorem outstandingPages_exact_fourPages :
    PagesAccounted fourPages ⟨physicalPageFree fourPagesTaken 0x1000 2, [⟨0x3000, 1⟩]⟩ := by
  have hfirst : PageStep ⟨fourPages, []⟩ (.alloc 2)
      ⟨(physicalPageAlloc fourPages 2).2, [⟨0x1000, 2⟩]⟩ :=
    .alloc (by decide) (Prod.ext (by decide) rfl) (by decide)
  have hsecond : PageStep ⟨(physicalPageAlloc fourPages 2).2, [⟨0x1000, 2⟩]⟩ (.alloc 1)
      ⟨fourPagesTaken, [⟨0x3000, 1⟩, ⟨0x1000, 2⟩]⟩ :=
    .alloc (by decide) (Prod.ext (by decide) rfl) (by decide)
  have hfree := PageStep.free (s := ⟨fourPagesTaken, [⟨0x3000, 1⟩, ⟨0x1000, 2⟩]⟩)
    (a := ⟨0x1000, 2⟩) (List.mem_cons_of_mem _ List.mem_cons_self)
  rw [show [(⟨0x3000, 1⟩ : PageAlloc), ⟨0x1000, 2⟩].erase ⟨0x1000, 2⟩ = [⟨0x3000, 1⟩] by decide]
    at hfree
  exact outstandingPages_exact (by decide) (((Run.single hfirst).snoc hsecond).snoc hfree)

end Seaweed
