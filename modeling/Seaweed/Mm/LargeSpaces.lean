import Seaweed.Mm.ExactSpaces
import Seaweed.Mm.SpacePlan

/-!
# Address spaces with large pages

The other path of `createNewAddressSpace`: three tables, and entries of the third one that map
2 MiB each.  Such an entry has no room for the low bits of an address, and the page manager, which
looks for the first run of 4 KiB pages that is long enough, knows nothing about that.

* `largeFrames`, `buildLargeTables`, `createNewAddressSpace_large` — the path.
* `LargeMapped` — every region is mapped to its slice of the pages.
* `LargeOk` — the run starts at a multiple of 2 MiB, the flags are flags, and the tables are in the
  direct map.
* **`largeSpace_iff`** — this is what it takes.
-/

namespace Seaweed

open FirstFit Words Transition Memory Paging

/-! ## The path with pages of 2 MiB -/

/-- What the page manager gives an address space of `size` pages of 2 MiB: the three tables, the
pages, and its own state after that. -/
structure LargeFrames where
  pml4 : UInt64
  pml3 : UInt64
  pml2 : UInt64
  physical : UInt64
  pmm : Pmm

def largeFrames (pmm : Pmm) (size : UInt64) : LargeFrames :=
  let (pml4, pmm) := physicalPageAlloc pmm 1
  let (pml3, pmm) := physicalPageAlloc pmm 1
  let (pml2, pmm) := physicalPageAlloc pmm 1
  let (physical, pmm) := physicalPageAlloc pmm (size * 0x200)
  ⟨pml4, pml3, pml2, physical, pmm⟩

/-- The stores of the call. -/
def buildLargeTables (mem : Mem) (f : LargeFrames) (size flags : UInt64) : Option Mem := do
  let mem ← storeVirtual mem (f.pml4 + HIGH_VMA) 256 (withKpageFlags kpml3Addr)
  let mem ← storeVirtual mem (f.pml4 + HIGH_VMA) 511 (withKpageFlags kpml3AddrHH)
  let mem ← storeVirtual mem (f.pml4 + HIGH_VMA) 0 (withKpageFlags f.pml3)
  let mem ← storeVirtual mem (f.pml3 + HIGH_VMA) 0 (withKpageFlags f.pml2)
  mapPages mem (f.pml2 + HIGH_VMA) f.physical 0x200000 flags size.toNat

/-- The call takes a slot of the directory, whose `pml1` it leaves as it is. -/
theorem createNewAddressSpace_large (s : AddressSpaces) (size : UInt64) {flags : UInt64}
    (hlarge : flags &&& ((1 : UInt64) <<< 7) ≠ 0) :
    createNewAddressSpace s size flags =
      (buildLargeTables s.mem (largeFrames s.pmm size) size flags).map fun mem =>
        (findFirstFreeSlot s, { s with
          pageDirectoryTables := Function.update s.pageDirectoryTables (findFirstFreeSlot s)
            { pml4 := (largeFrames s.pmm size).pml4
              pml3 := (largeFrames s.pmm size).pml3
              pml2 := (largeFrames s.pmm size).pml2
              pml1 := (s.pageDirectoryTables (findFirstFreeSlot s)).pml1
              flags := flags }
          pmm := (largeFrames s.pmm size).pmm
          mem := mem }) := by
  simp only [createNewAddressSpace, buildLargeTables, largeFrames, if_neg hlarge,
    UInt64.add_sub_cancel, Option.map_eq_bind, Option.bind_eq_bind, Option.bind_assoc]
  rfl

variable {s : AddressSpaces} {pmm : Pmm} {size flags a : UInt64} {p4 p3 p2 b i n : ℕ}
  {mem mem' : Mem}

/-- Where the frames are. -/
lemma largeFrames_eq (h : SpacePlan pmm [p4, p3, p2] (size * 0x200).toNat b)
    (hsize : size * 0x200 ≠ 0) :
    largeFrames pmm size = ⟨UInt64.ofNat p4 * PAGESIZE, UInt64.ofNat p3 * PAGESIZE,
      UInt64.ofNat p2 * PAGESIZE, UInt64.ofNat b * PAGESIZE,
      takeRun (takePages pmm [p4, p3, p2]) b (size * 0x200).toNat⟩ := by
  obtain ⟨h4, h3, h2, _⟩ := h.lowest
  have hrun := h.physicalPageAlloc_eq hsize
  simp only [takePages] at hrun
  simp only [largeFrames, takePages, h4.physicalPageAlloc_eq, h3.physicalPageAlloc_eq,
    h2.physicalPageAlloc_eq, hrun]

/-! ## The property and the condition -/

/-- Region `i` is a large page, at the `i`th slice of the pages. -/
structure SliceMapped (mem : Mem) (directory : PageDirectoryEntry) (physical : UInt64) (i : ℕ) :
    Prop where
  aligned : (entry mem directory.pml2 i).toNat / 2 ^ 12 % 2 ^ 9 = 0
  refers : decode 1 (entry mem directory.pml2 i)
    = some (.page (physical + UInt64.ofNat i * 0x200000))
  region : ∀ x : UInt64, x.toNat < 0x200000 →
    translate mem directory.pml4 (UInt64.ofNat i * 0x200000 + x)
      = some (physical + UInt64.ofNat i * 0x200000 + x)

/-- The call returns, the regions are mapped to their slices, and no frame outside the pages that
were handed out is mapped there. -/
def LargeMapped (s : AddressSpaces) (size flags : UInt64) : Prop :=
  ∃ index s', createNewAddressSpace s size flags = some (index, s') ∧
    (∀ i, i < size.toNat → SliceMapped s'.mem (s'.pageDirectoryTables index)
      (largeFrames s.pmm size).physical i) ∧
    ∀ v : UInt64, v.toNat < size.toNat * 0x200000 → ∀ a ∈ translate s'.mem
      (s'.pageDirectoryTables index).pml4 v,
      a.toNat / 4096 ∈ PageAlloc.pages ⟨(largeFrames s.pmm size).physical, size * 0x200⟩

/-- The address of slice `i` of the run from page `b` on. -/
def sliceAddress (b i : ℕ) : UInt64 := UInt64.ofNat ((b + 512 * i) * 4096)

/-- The run from page `b` on can be mapped in large pages with these flags, and the table in page
`p2`, above which there is no other, is in the direct map. -/
structure LargeOk (p2 b size : ℕ) (flags : UInt64) : Prop where
  present : bit flags 0 = true
  executable : bit flags 63 = false
  aligned : b % 512 = 0
  flagsOnly : ∀ i, i < size → frameOf (sliceAddress b i ||| flags) = sliceAddress b i
  direct : p2 < 0x100000

/-! ## One entry -/

lemma sliceAddress_eq (b i : ℕ) :
    UInt64.ofNat b * PAGESIZE + UInt64.ofNat i * 0x200000 = sliceAddress b i := by
  have hsum : (b + 512 * i) * 4096 = b * 4096 + i * 0x200000 := by omega
  rw [sliceAddress, hsum, UInt64.ofNat_add, UInt64.ofNat_mul, UInt64.ofNat_mul]
  rfl

lemma toNat_sliceAddress (h : b + 512 * i < 2 ^ 52) :
    (sliceAddress b i).toNat = (b + 512 * i) * 4096 := toNat_ofNat_of_lt (by omega)

lemma bit_large (hlarge : flags &&& ((1 : UInt64) <<< 7) ≠ 0) : bit flags 7 = true := by
  by_contra hbit
  rw [bit, Bool.not_eq_true] at hbit
  have hseven : ((1 : UInt64) <<< 7).toNat = 2 ^ 7 := rfl
  refine hlarge (UInt64.toNat_inj.mp (Nat.eq_of_testBit_eq fun i => ?_))
  rw [UInt64.toNat_and, hseven, Nat.testBit_and, Nat.testBit_two_pow, UInt64.toNat_zero,
    Nat.zero_testBit]
  by_cases hi : 7 = i
  · rw [← hi, hbit, Bool.false_and]
  · rw [decide_eq_false hi, Bool.and_false]

/-- **A large entry maps a 4 KiB boundary exactly if the boundary is one of 2 MiB** and the flags do
not reach into the address. -/
lemma largeEntry_iff (ha : a.toNat % 4096 = 0) (hlarge : flags &&& ((1 : UInt64) <<< 7) ≠ 0) :
    (decode 1 (a ||| flags) = some (.page a) ∧ (a ||| flags).toNat / 2 ^ 12 % 2 ^ 9 = 0) ↔
      bit flags 0 = true ∧ bit flags 63 = false ∧ a.toNat % 0x200000 = 0 ∧
        frameOf (a ||| flags) = a := by
  have h7 : bit (a ||| flags) 7 = true := by rw [bit_low ha (by omega), bit_large hlarge]
  have hspan : span 1 = 2 ^ 21 := rfl
  have hframe : (frameOf (a ||| flags)).toNat = (a ||| flags).toNat % 2 ^ 52 / 2 ^ 12 * 2 ^ 12 :=
    toNat_ofNat_of_lt (by omega)
  constructor
  · rintro ⟨hdecode, haligned⟩
    have hsome : decode 1 (a ||| flags) ≠ none := by
      rw [hdecode]
      exact Option.some_ne_none _
    obtain ⟨h0, h63⟩ := decode_isSome hsome
    rw [decode_large h0 h63 h7 (Or.inl rfl) (by omega), Option.some_inj, Target.page.injEq,
      hspan] at hdecode
    have hnat : a.toNat = (a ||| flags).toNat % 2 ^ 52 / 2 ^ 21 * 2 ^ 21 := by
      rw [← toNat_ofNat_of_lt (n := (a ||| flags).toNat % 2 ^ 52 / 2 ^ 21 * 2 ^ 21) (by omega),
        hdecode]
    rw [bit_low ha (by omega)] at h0
    rw [bit_or, Bool.or_eq_false_iff] at h63
    exact ⟨h0, h63.2, by omega, UInt64.toNat_inj.mp (by omega)⟩
  · rintro ⟨h0, h63, haligned, hflags⟩
    rw [hflags] at hframe
    have hpage : UInt64.ofNat ((a ||| flags).toNat % 2 ^ 52 / span 1 * span 1) = a := by
      refine UInt64.toNat_inj.mp ?_
      rw [hspan, toNat_ofNat_of_lt (by omega)]
      omega
    refine ⟨?_, by omega⟩
    rw [decode_large (by rw [bit_low ha (by omega), h0]) (by rw [bit_high (by omega), h63]) h7
      (Or.inl rfl) (by omega), hpage]

/-! ## Tables in the direct map -/

/-- The tables are frames in ascending order, and all of them are in the direct map. -/
structure LargeDirect (f : LargeFrames) : Prop where
  aligned4 : PageAligned f.pml4
  aligned3 : PageAligned f.pml3
  aligned2 : PageAligned f.pml2
  lt43 : f.pml4.toNat < f.pml3.toNat
  lt32 : f.pml3.toNat < f.pml2.toNat
  direct : f.pml2.toNat < 2 ^ 32

/-- The stores of the call, in physical memory. -/
def builtLargeTables (mem : Mem) (f : LargeFrames) (size flags : UInt64) : Mem :=
  fillEntries
    (storeEntry (storeEntry (storeEntry (storeEntry mem
      f.pml4 256 (withKpageFlags kpml3Addr)) f.pml4 511 (withKpageFlags kpml3AddrHH))
      f.pml4 0 (withKpageFlags f.pml3)) f.pml3 0 (withKpageFlags f.pml2))
    f.pml2 f.physical 0x200000 flags size.toNat

variable {f : LargeFrames}

lemma LargeDirect.of_plan (h : SpacePlan pmm [p4, p3, p2] (size * 0x200).toNat b)
    (hsize : size * 0x200 ≠ 0) (hdirect : p2 < 0x100000) : LargeDirect (largeFrames pmm size) := by
  have hpair := h.lowest.pairwise
  simp only [List.pairwise_cons, List.mem_cons, List.not_mem_nil, or_false] at hpair
  have h43 : p4 < p3 := hpair.1 p3 (Or.inl rfl)
  have h32 : p3 < p2 := hpair.2.1 p2 rfl
  have haddr : ∀ p, p ≤ p2 → (UInt64.ofNat p * PAGESIZE).toNat = p * 4096 :=
    fun p hp => pageAddress_toNat (by omega)
  have haligned : ∀ p, p ≤ p2 → PageAligned (UInt64.ofNat p * PAGESIZE) := fun p hp => by
    rw [PageAligned, haddr p hp]
    omega
  rw [largeFrames_eq h hsize]
  constructor
  case aligned4 => exact haligned p4 (by omega)
  case aligned3 => exact haligned p3 (by omega)
  case aligned2 => exact haligned p2 le_rfl
  case lt43 =>
    simp only [haddr p4 (by omega), haddr p3 (by omega)]
    omega
  case lt32 =>
    simp only [haddr p3 (by omega), haddr p2 le_rfl]
    omega
  case direct =>
    simp only [haddr p2 le_rfl]
    omega

section Direct

variable (h : LargeDirect f) (hsize : size.toNat ≤ 512)
include h hsize

lemma LargeDirect.buildLargeTables_eq (mem : Mem) (flags : UInt64) :
    buildLargeTables mem f size flags = some (builtLargeTables mem f size flags) := by
  obtain ⟨⟨h4, _⟩, ⟨h3, _⟩, ⟨h2, _⟩, h43, h32, hdirect⟩ := h
  have hstore4 := fun i => storeVirtual_table (i := i) h4 (by omega)
  have hstore3 := storeVirtual_table (i := 0) h3 (by omega) (by omega)
  have hpages : ∀ mem, mapPages mem (f.pml2 + HIGH_VMA) f.physical 0x200000 flags size.toNat =
      some (fillEntries mem f.pml2 f.physical 0x200000 flags size.toNat) := fun mem => by
    rw [mapPages_eq _ (by omega), if_pos (by omega)]
  simp only [buildLargeTables, builtLargeTables, hpages, Option.bind_eq_bind, Option.bind_some,
    hstore4 256 (by omega), hstore4 511 (by omega), hstore4 0 (by omega), hstore3]

lemma LargeDirect.entry_pml2 (mem : Mem) (flags : UInt64) (hi : i < size.toNat) :
    entry (builtLargeTables mem f size flags) f.pml2 i
      = (f.physical + UInt64.ofNat i * 0x200000) ||| flags := by
  rw [builtLargeTables, entry_fillEntries h.aligned2 h.aligned2 _ hsize (by omega),
    if_pos ⟨rfl, hi⟩]

lemma LargeDirect.entry_pml3 (mem : Mem) (flags : UInt64) :
    entry (builtLargeTables mem f size flags) f.pml3 0 = withKpageFlags f.pml2 := by
  have hne : f.pml3 ≠ f.pml2 := fun heq => absurd h.lt32 (by rw [heq]; exact lt_irrefl _)
  rw [builtLargeTables, entry_fillEntries h.aligned2 h.aligned3 _ hsize (by omega),
    if_neg fun heq => hne heq.1, entry_storeEntry h.aligned3 h.aligned3 (by omega) (by omega),
    if_pos ⟨rfl, rfl⟩]

lemma LargeDirect.entry_pml4 (mem : Mem) (flags : UInt64) :
    entry (builtLargeTables mem f size flags) f.pml4 0 = withKpageFlags f.pml3 := by
  have h42 : f.pml4 ≠ f.pml2 := fun heq => by
    have h43 := h.lt43
    have h32 := h.lt32
    rw [heq] at h43
    omega
  have h43 : f.pml4 ≠ f.pml3 := fun heq => absurd h.lt43 (by rw [heq]; exact lt_irrefl _)
  rw [builtLargeTables, entry_fillEntries h.aligned2 h.aligned4 _ hsize (by omega),
    if_neg fun heq => h42 heq.1, entry_storeEntry h.aligned3 h.aligned4 (by omega) (by omega),
    if_neg fun heq => h43 heq.1, entry_storeEntry h.aligned4 h.aligned4 (by omega) (by omega),
    if_pos ⟨rfl, rfl⟩]

/-- **A region is translated by its entry.** -/
lemma LargeDirect.translate_region {x : UInt64} (mem : Mem) (hi : i < size.toNat)
    (hx : x.toNat < 0x200000)
    (hentry : decode 1 (entry (builtLargeTables mem f size flags) f.pml2 i) = some (.page a)) :
    translate (builtLargeTables mem f size flags) f.pml4 (UInt64.ofNat i * 0x200000 + x)
      = some (a + x) := by
  have hregion : (0x200000 : UInt64).toNat = 0x200000 := rfl
  have hv : (UInt64.ofNat i * 0x200000 + x).toNat = i * 0x200000 + x.toNat := by
    rw [UInt64.toNat_add, UInt64.toNat_mul, toNat_ofNat_of_lt (by omega), hregion]
    omega
  have h3 : index 3 (UInt64.ofNat i * 0x200000 + x) = 0 := by
    rw [index, hv, show span 3 = 2 ^ 39 from rfl]
    omega
  have h2 : index 2 (UInt64.ofNat i * 0x200000 + x) = 0 := by
    rw [index, hv, show span 2 = 2 ^ 30 from rfl]
    omega
  have h1 : index 1 (UInt64.ofNat i * 0x200000 + x) = i := by
    rw [index, hv, show span 1 = 2 ^ 21 from rfl]
    omega
  have hoffset : UInt64.ofNat ((UInt64.ofNat i * 0x200000 + x).toNat % span 1) = x := by
    refine UInt64.toNat_inj.mp ?_
    rw [hv, show span 1 = 2 ^ 21 from rfl, toNat_ofNat_of_lt (by omega)]
    omega
  rw [translate_canonical (Or.inl (by omega)),
    walk_table (by
      rw [h3, h.entry_pml4 hsize]
      exact decode_withKpageFlags h.aligned3 (by decide)),
    walk_table (by
      rw [h2, h.entry_pml3 hsize]
      exact decode_withKpageFlags h.aligned2 (by decide)),
    walk_page (by rw [h1, hentry]), hoffset]

end Direct

/-! ## Tables outside the direct map -/

/-- What is not in the direct map is not written. -/
lemma storeVirtual_outside {table w x : UInt64} (h : storeVirtual mem table i w = some mem')
    (hx : 2 ^ 32 + 8 ≤ x.toNat) : mem' x = mem x := by
  rw [storeVirtual, Option.map_eq_some_iff] at h
  obtain ⟨a, ha, rfl⟩ := h
  have hlow : a.toNat < 2 ^ 32 := by
    have h4G : (0x100000000 : UInt64).toNat = 2 ^ 32 := rfl
    have h1G : (0x40000000 : UInt64).toNat = 2 ^ 30 := rfl
    rw [kernelMap] at ha
    simp only [UInt64.lt_iff_toNat_lt, h4G, h1G] at ha
    split_ifs at ha with h1 h2 h3
    all_goals
      rw [Option.some_inj] at ha
      subst ha
      omega
  refine store64_outside ?_
  rw [UInt64.toNat_sub]
  have := x.toNat_lt
  omega

lemma mapPages_outside {table physical step x : UInt64} (hx : 2 ^ 32 + 8 ≤ x.toNat) (n : ℕ)
    (h : mapPages mem table physical step flags n = some mem') : mem' x = mem x := by
  induction n generalizing mem' with
  | zero =>
      obtain rfl : mem = mem' := Option.some_inj.mp h
      rfl
  | succ n ih =>
      rw [mapPages, Option.bind_eq_bind, Option.bind_eq_some_iff] at h
      obtain ⟨mem₁, hrest, hlast⟩ := h
      rw [storeVirtual_outside hlast hx, ih hrest]

lemma buildLargeTables_outside {x : UInt64} (h : buildLargeTables mem f size flags = some mem')
    (hx : 2 ^ 32 + 8 ≤ x.toNat) : mem' x = mem x := by
  simp only [buildLargeTables, Option.bind_eq_bind, Option.bind_eq_some_iff] at h
  obtain ⟨mem₁, h₁, mem₂, h₂, mem₃, h₃, mem₄, h₄, hpages⟩ := h
  rw [mapPages_outside hx _ hpages, storeVirtual_outside h₄ hx, storeVirtual_outside h₃ hx,
    storeVirtual_outside h₂ hx, storeVirtual_outside h₁ hx]

/-- **A table outside the direct map is not built.**  The call does not return, or it has written
somewhere else. -/
lemma entry_pml2_outside (hmod : f.pml2.toNat % 4096 = 0) (hhigh : 2 ^ 32 ≤ f.pml2.toNat)
    (hpos : 0 < size.toNat) (hsize : size.toNat ≤ 512)
    (h : buildLargeTables (fun _ => 0) f size flags = some mem') : entry mem' f.pml2 0 = 0 := by
  rcases Nat.lt_or_ge (f.pml2.toNat + 8 * size.toNat) (2 ^ 47 - 2 ^ 31) with hlow | hwrap
  · -- the first store to the table faults
    have hnone : ∀ mem, mapPages mem (f.pml2 + HIGH_VMA) f.physical 0x200000 flags size.toNat
        = none := fun mem => by rw [mapPages_eq _ hlow, if_neg (by omega)]
    simp only [buildLargeTables, hnone, Option.bind_eq_bind, Option.bind_fun_none] at h
    cases h
  · refine load64_zero fun i hi => ?_
    refine buildLargeTables_outside h ?_
    have hlt := f.pml2.toNat_lt
    rw [UInt64.toNat_add, UInt64.toNat_add, toNat_ofNat_of_lt (by omega),
      toNat_ofNat_of_lt (by omega)]
    omega

/-! ## The condition -/

variable {spaces : AddressSpaces}

lemma toNat_largeCount (hsize : size.toNat ≤ 512) : (size * 0x200).toNat = size.toNat * 512 := by
  rw [UInt64.toNat_mul, show (0x200 : UInt64).toNat = 512 from rfl, Nat.mod_eq_of_lt (by omega)]

lemma largeCount_ne_zero (hpos : 0 < size.toNat) (hsize : size.toNat ≤ 512) :
    size * 0x200 ≠ 0 := fun hzero => by
  have hcount := toNat_largeCount hsize
  rw [hzero, UInt64.toNat_zero] at hcount
  omega

/-- An address in a region, and its offset there. -/
lemma region_add_offset (v : UInt64) : UInt64.ofNat (v.toNat / 0x200000) * 0x200000
    + UInt64.ofNat (v.toNat % 0x200000) = v := by
  have hregion : (0x200000 : UInt64) = UInt64.ofNat 0x200000 := rfl
  rw [hregion, ← UInt64.ofNat_mul, ← UInt64.ofNat_add, Nat.mul_comm, Nat.div_add_mod,
    UInt64.ofNat_toNat]

section Plan

variable (hpos : 0 < size.toNat) (hsize : size.toNat ≤ 512)
  (hlarge : flags &&& ((1 : UInt64) <<< 7) ≠ 0)
  (hplan : SpacePlan spaces.pmm [p4, p3, p2] (size * 0x200).toNat b)
include hpos hsize hlarge hplan

/-- The condition is enough. -/
lemma LargeOk.largeMapped (hok : LargeOk p2 b size.toNat flags) :
    LargeMapped spaces size flags := by
  have hne := largeCount_ne_zero hpos hsize
  have hdirect := LargeDirect.of_plan hplan hne hok.direct
  have hphysical : (largeFrames spaces.pmm size).physical = UInt64.ofNat b * PAGESIZE := by
    rw [largeFrames_eq hplan hne]
  have hlast := hplan.last_lt
  have hcount := toNat_largeCount hsize
  have hslice : ∀ i, i < size.toNat → (sliceAddress b i).toNat = (b + 512 * i) * 4096 :=
    fun i hi => toNat_sliceAddress (by omega)
  have hentry : ∀ i, i < size.toNat → entry (builtLargeTables spaces.mem
      (largeFrames spaces.pmm size) size flags) (largeFrames spaces.pmm size).pml2 i
        = sliceAddress b i ||| flags := fun i hi => by
    rw [hdirect.entry_pml2 hsize _ _ hi, hphysical, sliceAddress_eq]
  have hpage : ∀ i, i < size.toNat →
      decode 1 (sliceAddress b i ||| flags) = some (.page (sliceAddress b i)) ∧
      (sliceAddress b i ||| flags).toNat / 2 ^ 12 % 2 ^ 9 = 0 := fun i hi => by
    have haligned := hok.aligned
    refine (largeEntry_iff (by rw [hslice i hi]; omega) hlarge).mpr
      ⟨hok.present, hok.executable, by rw [hslice i hi]; omega, hok.flagsOnly i hi⟩
  have hregion : ∀ i, i < size.toNat → ∀ x : UInt64, x.toNat < 0x200000 →
      translate (builtLargeTables spaces.mem (largeFrames spaces.pmm size) size flags)
        (largeFrames spaces.pmm size).pml4 (UInt64.ofNat i * 0x200000 + x)
          = some (sliceAddress b i + x) := fun i hi x hx =>
    hdirect.translate_region hsize _ hi hx (by rw [hentry i hi, (hpage i hi).1])
  rw [LargeMapped, createNewAddressSpace_large _ _ hlarge, hdirect.buildLargeTables_eq hsize]
  refine ⟨_, _, rfl, fun i hi => ?_, fun v hv a ha => ?_⟩
  · simp only [Function.update_self]
    constructor
    case aligned =>
      rw [hentry i hi]
      exact (hpage i hi).2
    case refers => rw [hentry i hi, (hpage i hi).1, hphysical, sliceAddress_eq]
    case region =>
      intro x hx
      rw [hregion i hi x hx, hphysical, sliceAddress_eq]
  · have hi : v.toNat / 0x200000 < size.toNat := Nat.div_lt_of_lt_mul (by omega)
    have hx : (UInt64.ofNat (v.toNat % 0x200000)).toNat = v.toNat % 0x200000 :=
      toNat_ofNat_of_lt (by omega)
    have htranslate := hregion _ hi (UInt64.ofNat (v.toNat % 0x200000)) (by omega)
    rw [region_add_offset] at htranslate
    simp only [Function.update_self] at ha
    rw [htranslate, Option.mem_some_iff] at ha
    rw [hphysical, ← allocAt, pages_allocAt _ (by omega), Extent.mem_iff, ← ha, UInt64.toNat_add,
      hslice _ hi, hx, hcount]
    dsimp only
    omega

/-- And it is needed, if the address space is to be right whatever was in memory. -/
lemma LargeOk.of_largeMapped (h : LargeMapped { spaces with mem := fun _ => 0 } size flags) :
    LargeOk p2 b size.toNat flags := by
  have hne := largeCount_ne_zero hpos hsize
  have hlast := hplan.last_lt
  have hcount := toNat_largeCount hsize
  have hframes := largeFrames_eq hplan hne
  have hphysical : (largeFrames spaces.pmm size).physical = UInt64.ofNat b * PAGESIZE := by
    rw [hframes]
  have hp2 : p2 < b := hplan.lt (by omega) (by simp)
  obtain ⟨index, s', hcall, hslices, _⟩ := h
  rw [createNewAddressSpace_large _ _ hlarge, Option.map_eq_some_iff] at hcall
  obtain ⟨mem', hbuild, heq⟩ := hcall
  rw [Prod.mk.injEq] at heq
  obtain ⟨rfl, rfl⟩ := heq
  simp only [Function.update_self] at hbuild hslices
  have hdirect : p2 < 0x100000 := by
    by_contra hhigh
    have haddr : (largeFrames spaces.pmm size).pml2.toNat = p2 * 4096 := by
      rw [hframes]
      exact pageAddress_toNat (by omega)
    have hrefers := (hslices 0 hpos).refers
    rw [entry_pml2_outside (by omega) (by omega) hpos hsize hbuild, decode_zero] at hrefers
    exact Option.some_ne_none _ hrefers.symm
  have htables := LargeDirect.of_plan hplan hne hdirect
  rw [htables.buildLargeTables_eq hsize, Option.some_inj] at hbuild
  subst hbuild
  have hpage : ∀ i, i < size.toNat → bit flags 0 = true ∧ bit flags 63 = false ∧
      (sliceAddress b i).toNat % 0x200000 = 0 ∧
        frameOf (sliceAddress b i ||| flags) = sliceAddress b i := fun i hi => by
    obtain ⟨haligned, hrefers, _⟩ := hslices i hi
    rw [htables.entry_pml2 hsize _ _ hi, hphysical, sliceAddress_eq] at haligned hrefers
    refine (largeEntry_iff ?_ hlarge).mp ⟨hrefers, haligned⟩
    rw [toNat_sliceAddress (by omega)]
    omega
  obtain ⟨h0, h63, haligned, _⟩ := hpage 0 hpos
  rw [toNat_sliceAddress (by omega)] at haligned
  exact ⟨h0, h63, by omega, fun i hi => (hpage i hi).2.2.2, hdirect⟩

end Plan

/-- **An address space with large pages maps its regions to the slices of its pages exactly if the
run that first fit finds starts at a multiple of 2 MiB**, the flags are flags, and the tables are in
the direct map. -/
theorem largeSpace_iff (s : AddressSpaces) (size flags : UInt64) (hpos : 1 ≤ size.toNat)
    (hsize : size.toNat ≤ 512) (hlarge : flags &&& ((1 : UInt64) <<< 7) ≠ 0)
    (hroom : AllSucceed s.pmm (createCounts size flags)) :
    (∀ mem, LargeMapped { s with mem := mem } size flags) ↔
      ∃ p4 p3 p2 b, SpacePlan s.pmm [p4, p3, p2] (size.toNat * 512) b ∧
        LargeOk p2 b size.toNat flags := by
  have hcount := toNat_largeCount hsize
  constructor
  · intro h
    rw [createCounts, if_neg hlarge] at hroom
    obtain ⟨tables, b, hlength, hplan⟩ := exists_plan 3 hroom
    obtain ⟨p4, p3, p2, rfl⟩ := List.length_eq_three.mp hlength
    exact ⟨p4, p3, p2, b, hcount ▸ hplan,
      LargeOk.of_largeMapped hpos hsize hlarge hplan (h fun _ => 0)⟩
  · rintro ⟨p4, p3, p2, b, hplan, hok⟩ mem
    rw [← hcount] at hplan
    exact LargeOk.largeMapped hpos hsize hlarge hplan hok

/-! ## A run that fits, and one that does not -/

/-- The pages below `0x1fd` are taken, so the tables take those up to the boundary at `0x200`. -/
def boundarySpaces : AddressSpaces :=
  { freshSpaces with pmm := ⟨fun i => if i < 63 then 0xff else if i = 63 then 0x1f else 0,
    0x2000000, false⟩ }

lemma takenBelow_boundary : TakenBelow boundarySpaces.pmm 0x1fd := by
  intro p
  have hbit : p % 8 < 8 := Nat.mod_lt _ (by decide)
  rw [isset, boundarySpaces]
  by_cases hlow : p / 8 < 63
  · simp only [hlow, if_true]
    rw [decide_eq_true (by omega)]
    interval_cases p % 8 <;> decide
  · by_cases hmid : p / 8 = 63
    · have hp : p < 0x1fd ↔ p % 8 < 5 := by omega
      simp only [hmid, lt_irrefl, if_false, if_true, hp]
      interval_cases p % 8 <;> decide
    · simp only [hlow, hmid, if_false]
      rw [decide_eq_false (by omega)]
      interval_cases p % 8 <;> decide

/-- One large page after the boundary. -/
theorem largeSpace_boundary :
    (∀ mem, LargeMapped { boundarySpaces with mem := mem } 1 0x87) ↔
      ∃ p4 p3 p2 b, SpacePlan boundarySpaces.pmm [p4, p3, p2] ((1 : UInt64).toNat * 512) b ∧
        LargeOk p2 b (1 : UInt64).toNat 0x87 := by
  have hcounts : (createCounts 1 0x87).all (· != 0) = true := by decide
  refine largeSpace_iff boundarySpaces 1 0x87 (by decide) (by decide) (by decide)
    (allSucceed_takenBelow takenBelow_boundary (fun count hcount => ?_) (by decide))
  simpa using List.all_eq_true.mp hcounts count hcount

/-- On the fresh machine the run starts at page `0x123`, and the entry that should map it maps
nothing. -/
theorem largeSpace_unaligned : AllSucceed freshSpaces.pmm (createCounts 1 0x87) ∧
    ¬LargeMapped freshSpaces 1 0x87 := by
  refine ⟨allSucceed_fresh (by decide) (by decide), ?_⟩
  rintro ⟨index, s', hcall, hslices, _⟩
  have hentry : (createNewAddressSpace freshSpaces 1 0x87).all fun r =>
      (entry r.2.mem (r.2.pageDirectoryTables r.1).pml2 0).toNat / 2 ^ 12 % 2 ^ 9 != 0 := by
    decide +kernel
  rw [hcall, Option.all_some, (hslices 0 (by decide)).aligned] at hentry
  exact absurd hentry (by decide)

end Seaweed
