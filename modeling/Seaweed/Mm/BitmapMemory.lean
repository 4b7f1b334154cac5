import Seaweed.Mm.E820
import Seaweed.Mm.KHeap

/-!
# The memory of the page bitmap

The bitmap lies at physical address 0x1f300, below the 0x120000 bytes that `initPMM` marks, and has
no declared end.  The `memset` that should clear it is made before any memory has been counted, so
its length is 0.  The bits that are set come from the base and the length of the entries alone.

* **`oldMemory_iff`** — what was there before makes no difference exactly if it makes none
  where `initPMM` marks nothing, and is clear where there is memory to hand out.
* `initPMMLocations`, `initPMM_untouched` — the bits that `initPMM` sets, and nothing else is
  written.
* **`bitmapWrites_iff`** — every byte written is in the low memory exactly if the reserved entries
  end early enough.
-/

namespace Seaweed

open FirstFit Words

variable {mmapEntries : List MmapEntry} {bits bits' : Bitmap} {entry : MmapEntry} {s : Pmm}
  {start length : UInt64} {i l p : ℕ}

/-! ## What was there before -/

/-- The bitmap is the same for both contents of its memory, as far as it is used, and usable pages
above the low memory are free. -/
structure OldMemoryIrrelevant (mmapEntries : List MmapEntry) (bits bits' : Bitmap) : Prop where
  same : ∀ p, p < pageLimit (initPMM ⟨bits, 0, false⟩ mmapEntries) →
    isset (initPMM ⟨bits, 0, false⟩ mmapEntries).bitmap p
      = isset (initPMM ⟨bits', 0, false⟩ mmapEntries).bitmap p
  free : ∀ p, lowPages ≤ p → OnlyRam mmapEntries p →
    PageFree (initPMM ⟨bits, 0, false⟩ mmapEntries) p ∧
      PageFree (initPMM ⟨bits', 0, false⟩ mmapEntries) p

/-- The two contents agree wherever `initPMM` marks nothing, and have no bit set for a usable
page. -/
structure OldMemoryClean (mmapEntries : List MmapEntry) (bits bits' : Bitmap) : Prop where
  agree : ∀ p, lowPages ≤ p → p < (totalLength mmapEntries / PAGESIZE).toNat →
    ¬ Reserved mmapEntries p → isset bits p = isset bits' p
  clear : ∀ p, lowPages ≤ p → OnlyRam mmapEntries p → isset bits p = false ∧ isset bits' p = false

/-- A page that is marked for an entry has a byte that the entry covers. -/
lemma MmapEntry.covers_of_mem_frames (hp : p ∈ entry.frames) :
    ∃ x, p * 4096 ≤ x ∧ x < (p + 1) * 4096 ∧ entry.Covers x := by
  have hfirst : (entry.base / PAGESIZE).toNat ≤ p := hp.1
  have hlast : p < (entry.base / PAGESIZE).toNat + (entry.length / PAGESIZE).toNat := hp.2
  rw [UInt64.toNat_div, PAGESIZE_toNat] at hfirst
  rw [UInt64.toNat_div, UInt64.toNat_div, PAGESIZE_toNat] at hlast
  -- as far into the page as the entry begins into its first one
  refine ⟨p * 4096 + entry.base.toNat % 4096, by omega, by omega, ?_, ?_⟩
  · omega
  · omega

/-- A usable page is not marked for any entry. -/
lemma OnlyRam.not_reserved (h : OnlyRam mmapEntries p) : ¬ Reserved mmapEntries p := by
  rintro ⟨entry, hentry, htype, hp⟩
  obtain ⟨x, hx, hx', hcovers⟩ := MmapEntry.covers_of_mem_frames hp
  exact (h x hx hx').2 entry hentry htype hcovers

/-- A page above the low memory that is not reserved has the bit it had before. -/
lemma isset_initPMM_of_not_reserved (hlow : lowPages ≤ p) (hres : ¬ Reserved mmapEntries p) :
    isset (initPMM ⟨bits, 0, false⟩ mmapEntries).bitmap p = isset bits p := by
  rw [Bool.eq_iff_iff, isset_initPMM]
  exact ⟨fun h => h.resolve_right fun h => h.elim (Nat.not_lt_of_le hlow) hres, Or.inl⟩

/-- **Exactly when old memory makes no difference.** -/
theorem oldMemory_iff (mmapEntries : List MmapEntry) (bits bits' : Bitmap) :
    OldMemoryIrrelevant mmapEntries bits bits' ↔ OldMemoryClean mmapEntries bits bits' := by
  constructor
  · intro h
    constructor
    case agree =>
      intro p hlow hlim hres
      have hsame := h.same p (by rwa [pageLimit_initPMM])
      rwa [isset_initPMM_of_not_reserved hlow hres, isset_initPMM_of_not_reserved hlow hres]
        at hsame
    case clear =>
      intro p hlow hram
      have hfree := h.free p hlow hram
      rwa [PageFree, PageFree, isset_initPMM_of_not_reserved hlow hram.not_reserved,
        isset_initPMM_of_not_reserved hlow hram.not_reserved] at hfree
  · intro h
    constructor
    case same =>
      intro p hlim
      rw [pageLimit_initPMM] at hlim
      by_cases hmarked : p < lowPages ∨ Reserved mmapEntries p
      · rw [(isset_initPMM bits false mmapEntries p).mpr (Or.inr hmarked),
          (isset_initPMM bits' false mmapEntries p).mpr (Or.inr hmarked)]
      · rw [not_or, Nat.not_lt] at hmarked
        rw [isset_initPMM_of_not_reserved hmarked.1 hmarked.2,
          isset_initPMM_of_not_reserved hmarked.1 hmarked.2]
        exact h.agree p hmarked.1 hlim hmarked.2
    case free =>
      intro p hlow hram
      rw [PageFree, PageFree, isset_initPMM_of_not_reserved hlow hram.not_reserved,
        isset_initPMM_of_not_reserved hlow hram.not_reserved]
      exact h.clear p hlow hram

/-- A usable page whose bit was set before stays taken. -/
theorem oldMemory_survives : ¬ OldMemoryIrrelevant plainMap (fun _ => 0) (fun _ => 0xff) := by
  intro h
  have hsame := h.same lowPages (by rw [pageLimit_initPMM]; decide)
  have hres : ¬ Reserved plainMap lowPages := by
    rintro ⟨entry, hentry, htype, _⟩
    obtain rfl := List.mem_singleton.mp hentry
    exact htype rfl
  rw [isset_initPMM_of_not_reserved le_rfl hres, isset_initPMM_of_not_reserved le_rfl hres] at hsame
  exact absurd hsame (by decide)

/-! ## What is written -/

/-- The bits that `allocateRegion` sets. -/
def regionLocations (start length : UInt64) : List ℕ :=
  List.range' (start / PAGESIZE).toNat (length / PAGESIZE).toNat

/-- The bits that `initPMM` sets, in its order. -/
def initPMMLocations (mmapEntries : List MmapEntry) : List ℕ :=
  (mmapEntries.flatMap fun entry =>
    if entry.type ≠ 1 then regionLocations entry.base entry.length else []) ++
  regionLocations 0 (0x100000 + 0x20000)

/-- The pointer `bitmap`. -/
def bitmapAddress : UInt64 := 0xf900 + 64000 + HIGH_VMA

/-- The physical address of the byte that `set` writes. -/
def writtenByte (location : ℕ) : UInt64 := bitmapAddress + UInt64.ofNat (location / 8) - HIGH_VMA

lemma setRange_untouched {bitmap : Bitmap} {first n : ℕ}
    (h : ∀ l ∈ List.range' first n, l / 8 ≠ i) :
    setRange bitmap first n i = bitmap i := by
  induction n with
  | zero => rfl
  | succ n ih =>
      have hne : i ≠ (first + n) / 8 := fun heq =>
        h (first + n) (List.mem_range'_1.mpr ⟨by omega, by omega⟩) heq.symm
      rw [setRange, set, Function.update_of_ne hne]
      refine ih fun l hl => h l ?_
      rw [List.mem_range'_1] at hl ⊢
      omega

lemma allocateRegion_untouched (h : ∀ l ∈ regionLocations start length, l / 8 ≠ i) :
    (allocateRegion s start length).bitmap i = s.bitmap i :=
  setRange_untouched h

lemma countEntries_untouched (h : ∀ l ∈ mmapEntries.flatMap fun entry =>
      if entry.type ≠ 1 then regionLocations entry.base entry.length else [], l / 8 ≠ i) :
    (mmapEntries.foldl countEntry s).bitmap i = s.bitmap i := by
  induction mmapEntries generalizing s with
  | nil => rfl
  | cons entry rest ih =>
      rw [List.flatMap_cons, List.forall_mem_append] at h
      rw [List.foldl_cons, ih h.2]
      have hentry := h.1
      simp only [countEntry]
      split_ifs with htype
      · rw [if_pos htype] at hentry
        exact allocateRegion_untouched hentry
      · rfl

/-- **`initPMM` writes no byte but those of the bits it sets.** -/
theorem initPMM_untouched (h : ∀ l ∈ initPMMLocations mmapEntries, l / 8 ≠ i) :
    (initPMM ⟨bits, 0, false⟩ mmapEntries).bitmap i = bits i := by
  rw [initPMMLocations, List.forall_mem_append] at h
  have hmem : memset bits 0 ((0 : UInt64) / PAGESIZE).toNat i = bits i := if_neg (Nat.not_lt_zero i)
  rw [initPMM, allocateRegion_untouched h.2, countEntries_untouched h.1]
  dsimp only
  exact hmem

/-- The reserved entries that have a page at all end below page `0x806800`, just above 32 GiB. -/
def ReservedLow (mmapEntries : List MmapEntry) : Prop :=
  ∀ entry ∈ mmapEntries, entry.type ≠ 1 → entry.length.toNat / 4096 ≠ 0 →
    entry.base.toNat / 4096 + entry.length.toNat / 4096 ≤ 8 * (0x120000 - 0x1f300)

lemma mem_regionLocations : l ∈ regionLocations start length ↔
    start.toNat / 4096 ≤ l ∧ l < start.toNat / 4096 + length.toNat / 4096 := by
  rw [regionLocations, List.mem_range'_1, UInt64.toNat_div, UInt64.toNat_div, PAGESIZE_toNat]

lemma mem_initPMMLocations : l ∈ initPMMLocations mmapEntries ↔
    (∃ entry ∈ mmapEntries, entry.type ≠ 1 ∧ l ∈ regionLocations entry.base entry.length) ∨
      l < lowPages := by
  have hlow : l ∈ regionLocations 0 (0x100000 + 0x20000) ↔ l < lowPages := by
    have hlen : ((0x100000 + 0x20000 : UInt64)).toNat / 4096 = lowPages := rfl
    rw [mem_regionLocations, hlen, UInt64.toNat_zero]
    omega
  rw [initPMMLocations, List.mem_append, hlow, List.mem_flatMap]
  refine or_congr_left (exists_congr fun entry => and_congr_right fun _ => ?_)
  split_ifs with htype
  · exact (and_iff_right htype).symm
  · exact iff_of_false List.not_mem_nil fun h => htype h.1

lemma toNat_writtenByte (hl : l < 2 ^ 60) : (writtenByte l).toNat = 0x1f300 + l / 8 := by
  have haddr : writtenByte l = 0x1f300 + UInt64.ofNat (l / 8) := by
    rw [writtenByte, bitmapAddress, UInt64.add_assoc _ HIGH_VMA, UInt64.add_comm HIGH_VMA,
      ← UInt64.add_assoc, UInt64.add_sub_cancel]
    rfl
  have hbase : (0x1f300 : UInt64).toNat = 0x1f300 := rfl
  rw [haddr, UInt64.toNat_add, hbase, toNat_ofNat_of_lt (by omega), Nat.mod_eq_of_lt (by omega)]

lemma lt_of_mem_regionLocations (hl : l ∈ regionLocations start length) : l < 2 ^ 60 := by
  have hstart := start.toNat_lt
  have hlength := length.toNat_lt
  have := (mem_regionLocations.mp hl).2
  omega

/-- **Exactly when every byte that is written lies between the base of the bitmap and the end of the
low memory.** -/
theorem bitmapWrites_iff (mmapEntries : List MmapEntry) :
    (∀ l ∈ initPMMLocations mmapEntries,
      0x1f300 ≤ (writtenByte l).toNat ∧ (writtenByte l).toNat < 0x120000) ↔
    ReservedLow mmapEntries := by
  constructor
  · intro hinside entry hentry htype hpages
    -- the last page of the entry
    set l := entry.base.toNat / 4096 + entry.length.toNat / 4096 - 1 with hl
    have hmem : l ∈ regionLocations entry.base entry.length :=
      mem_regionLocations.mpr ⟨by omega, by omega⟩
    have hlast := (hinside l (mem_initPMMLocations.mpr (Or.inl ⟨entry, hentry, htype, hmem⟩))).2
    rw [toNat_writtenByte (lt_of_mem_regionLocations hmem)] at hlast
    omega
  · intro hlow l hl
    rcases mem_initPMMLocations.mp hl with ⟨entry, hentry, htype, hmem⟩ | hlt
    · have hend := hlow entry hentry htype
      have hrange := mem_regionLocations.mp hmem
      rw [toNat_writtenByte (lt_of_mem_regionLocations hmem)]
      omega
    · rw [lowPages] at hlt
      rw [toNat_writtenByte (by omega)]
      omega

/-- A machine with 32 MiB of memory and a reserved region of 12 GiB below the end of the first
terabyte. -/
def mapReservedHigh : List MmapEntry := [⟨0, 0x2000000, 1⟩, ⟨0xfd00000000, 0x300000000, 2⟩]

/-- **The bitmap runs out of the low memory**: the byte for the first page of the region is at
physical address 0x1fbf300, in a page that is free to be handed out. -/
theorem bitmapWrites_outside : ¬ ∀ l ∈ initPMMLocations mapReservedHigh,
    0x1f300 ≤ (writtenByte l).toNat ∧ (writtenByte l).toNat < 0x120000 := by
  intro hinside
  have hmem : 0xfd00000 ∈ initPMMLocations mapReservedHigh :=
    mem_initPMMLocations.mpr (Or.inl ⟨_, List.mem_cons_of_mem _ List.mem_cons_self, by decide,
      mem_regionLocations.mpr ⟨by decide, by decide⟩⟩)
  exact absurd (hinside _ hmem).2 (by decide)

end Seaweed
