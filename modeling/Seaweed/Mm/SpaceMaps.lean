import Seaweed.Mm.AddressSpaces
import Seaweed.Mm.PageRuns

/-!
# The tables of a new address space

`createNewAddressSpace` asks for its frames from the lowest page on and writes the entries it needs.
The other entries of its tables stay as it finds them: a frame that was used before brings its old
words along.

* `framesInOrder_spaceFrames` — where the frames are.
* `buildTables_eq` — the call gets through if the tables are in the direct map.
* **`entry_builtTables`** — the entries after the call: those that are `written`, and the old ones.
-/

namespace Seaweed

open FirstFit Words Transition Memory Paging

/-! ## The frames -/

/-- The lowest free page. -/
def LowestFree (s : Pmm) (p : ℕ) : Prop :=
  p < pageLimit s ∧ isset s.bitmap p = false ∧ ∀ q, q < p → isset s.bitmap q = true

/-- A single page is the lowest free one. -/
lemma physicalPageAlloc_one {s : Pmm} (h : (physicalPageAlloc s 1).1 ≠ 0) :
    ∃ p, LowestFree s p ∧ physicalPageAlloc s 1 = (UInt64.ofNat p * PAGESIZE, takePage s p) := by
  rcases physicalPageAlloc_cases s 1 with ⟨p, _, ⟨hfit, hfirst⟩, heq⟩ | ⟨_, heq⟩
  · have hone : (1 : UInt64).toNat = 1 := rfl
    rw [hone] at hfit hfirst
    have hlim := hfit.1
    refine ⟨p, ⟨by omega, hfit.2 p (le_refl _) (by omega), fun q hq => ?_⟩, heq⟩
    by_contra hclear
    rw [Bool.not_eq_true] at hclear
    exact hfirst q hq ⟨by omega, fun r hr hr' => by rwa [show r = q by omega]⟩
  · exact absurd (by rw [heq]) h

/-- All that `createNewAddressSpace` asks for is there. -/
structure AllocsSucceed (f : SpaceFrames) : Prop where
  pml4 : f.pml4 ≠ 0
  pml3 : f.pml3 ≠ 0
  pml2 : f.pml2 ≠ 0
  pml1 : f.pml1 ≠ 0
  physical : f.physical ≠ 0

/-- Where the frames are: on page boundaries, the tables in ascending order, and the pages, at least
one, after them and in memory. -/
structure FramesInOrder (f : SpaceFrames) (size memory : ℕ) : Prop where
  aligned4 : f.pml4.toNat % 4096 = 0
  aligned3 : f.pml3.toNat % 4096 = 0
  aligned2 : f.pml2.toNat % 4096 = 0
  aligned1 : f.pml1.toNat % 4096 = 0
  alignedPages : f.physical.toNat % 4096 = 0
  pos : 0 < size
  lt43 : f.pml4.toNat < f.pml3.toNat
  lt32 : f.pml3.toNat < f.pml2.toNat
  lt21 : f.pml2.toNat < f.pml1.toNat
  lt1 : f.pml1.toNat < f.physical.toNat
  last : f.physical.toNat + 4096 * size ≤ memory

lemma LowestFree.lt_of_taken {s : Pmm} {p q : ℕ} (hp : LowestFree s p)
    (hq : isset (takePage s p).bitmap q = false) : p < q := by
  rw [isset_takePage, Bool.or_eq_false_iff, decide_eq_false_iff_not] at hq
  by_contra hge
  rcases Nat.lt_or_eq_of_le (Nat.le_of_not_lt hge) with hlt | heq
  · rw [hp.2.2 q hlt] at hq
    exact Bool.noConfusion hq.1
  · exact hq.2 heq

/-- **First fit puts the frames in order.** -/
theorem framesInOrder_spaceFrames {pmm : Pmm} {size : UInt64}
    (h : AllocsSucceed (spaceFrames pmm size)) :
    FramesInOrder (spaceFrames pmm size) size.toNat pmm.totalDetectedMemory.toNat := by
  obtain ⟨h4, h3, h2, h1, hb⟩ := h
  simp only [spaceFrames] at h4 h3 h2 h1 hb
  obtain ⟨p4, hp4, heq4⟩ := physicalPageAlloc_one h4
  rw [heq4] at h3 h2 h1 hb
  obtain ⟨p3, hp3, heq3⟩ := physicalPageAlloc_one h3
  rw [heq3] at h2 h1 hb
  obtain ⟨p2, hp2, heq2⟩ := physicalPageAlloc_one h2
  rw [heq2] at h1 hb
  obtain ⟨p1, hp1, heq1⟩ := physicalPageAlloc_one h1
  rw [heq1] at hb
  rcases physicalPageAlloc_cases (takePage (takePage (takePage (takePage pmm p4) p3) p2) p1) size
    with ⟨b, hsize, ⟨hfit, _⟩, heq⟩ | ⟨_, heq⟩
  · have hpos := toNat_pos hsize
    have hlt43 := hp4.lt_of_taken hp3.2.1
    have hlt32 := hp3.lt_of_taken hp2.2.1
    have hlt21 := hp2.lt_of_taken hp1.2.1
    have hlt1 := hp1.lt_of_taken (hfit.2 b (le_refl _) (by omega))
    have hlast : b + size.toNat ≤ pageLimit pmm := hfit.1
    have hlim := pageLimit_lt pmm
    have hbound : (b + size.toNat) * 4096 ≤ pmm.totalDetectedMemory.toNat :=
      le_trans (Nat.mul_le_mul_right _ hlast) (pageLimit_le pmm)
    have haddr : ∀ p, p ≤ b → (UInt64.ofNat p * PAGESIZE).toNat = p * 4096 :=
      fun p hp => pageAddress_toNat (by omega)
    have haligned : ∀ p, p ≤ b → (UInt64.ofNat p * PAGESIZE).toNat % 4096 = 0 := fun p hp => by
      rw [haddr p hp, Nat.mul_mod_left]
    have hlt : ∀ p q, p < q → q ≤ b →
        (UInt64.ofNat p * PAGESIZE).toNat < (UInt64.ofNat q * PAGESIZE).toNat := by
      intro p q hpq hq
      rw [haddr p (by omega), haddr q hq]
      exact Nat.mul_lt_mul_of_pos_right hpq (by decide)
    have hframes : spaceFrames pmm size = ⟨UInt64.ofNat p4 * PAGESIZE, UInt64.ofNat p3 * PAGESIZE,
        UInt64.ofNat p2 * PAGESIZE, UInt64.ofNat p1 * PAGESIZE, UInt64.ofNat b * PAGESIZE,
        (physicalPageAlloc
          (takePage (takePage (takePage (takePage pmm p4) p3) p2) p1) size).2⟩ := by
      simp only [spaceFrames, heq4, heq3, heq2, heq1, heq]
    rw [hframes]
    exact
    { aligned4 := haligned p4 (by omega)
      aligned3 := haligned p3 (by omega)
      aligned2 := haligned p2 (by omega)
      aligned1 := haligned p1 (by omega)
      alignedPages := haligned b (le_refl _)
      pos := hpos
      lt43 := hlt p4 p3 hlt43 (by omega)
      lt32 := hlt p3 p2 hlt32 (by omega)
      lt21 := hlt p2 p1 hlt21 (by omega)
      lt1 := hlt p1 b hlt1 (le_refl _)
      last := by
        simp only [haddr b (le_refl _)]
        rw [Nat.add_mul, Nat.mul_comm size.toNat] at hbound
        exact hbound }
  · exact absurd (by rw [heq]) hb

/-- The tables are frames whose addresses fit into an entry. -/
lemma FramesInOrder.pageAligned {f : SpaceFrames} {size memory : ℕ}
    (h : FramesInOrder f size memory) (hlow : f.pml1.toNat < 2 ^ 46) :
    PageAligned f.pml4 ∧ PageAligned f.pml3 ∧ PageAligned f.pml2 ∧ PageAligned f.pml1 := by
  obtain ⟨h4, h3, h2, h1, _, _, h43, h32, h21, _, _⟩ := h
  exact ⟨⟨h4, by omega⟩, ⟨h3, by omega⟩, ⟨h2, by omega⟩, ⟨h1, by omega⟩⟩

/-! ## Stores through the direct map -/

variable {mem mem' : Mem} {a b x : UInt64} {i j n : ℕ} {w : UInt64}

/-- Below the kernel's own addresses the direct map has the first 4 GiB and no more. -/
lemma kernelMap_highVma (hx : x.toNat < 2 ^ 47 - 2 ^ 31) :
    kernelMap (HIGH_VMA + x) = if x.toNat < 2 ^ 32 then some x else none := by
  have hvma : HIGH_VMA.toNat = 0xffff800000000000 := rfl
  have hkvma : KERNEL_HIGH_VMA.toNat = 0xffffffff80000000 := rfl
  split_ifs with hlow
  · exact (kernelMap_direct x).mpr hlow
  · have hadd := UInt64.toNat_add HIGH_VMA x
    have hback : HIGH_VMA + x - HIGH_VMA = x := by rw [UInt64.add_comm, UInt64.add_sub_cancel]
    have h4G : (0x100000000 : UInt64).toNat = 2 ^ 32 := rfl
    rw [kernelMap, hback]
    simp only [UInt64.lt_iff_toNat_lt, UInt64.le_iff_toNat_le, hvma, hkvma, h4G] at hadd ⊢
    rw [if_neg (by omega), if_neg (by omega), if_neg (by omega)]

lemma storeVirtual_eq (hlast : a.toNat + 8 * i < 2 ^ 47 - 2 ^ 31) :
    storeVirtual mem (a + HIGH_VMA) i w =
      if a.toNat + 8 * i < 2 ^ 32 then some (storeEntry mem a i w) else none := by
  have haddr : (a + UInt64.ofNat (8 * i)).toNat = a.toNat + 8 * i := by
    rw [UInt64.toNat_add, toNat_ofNat_of_lt (by omega), Nat.mod_eq_of_lt (by omega)]
  rw [storeVirtual, UInt64.add_comm a, UInt64.add_assoc, kernelMap_highVma (by omega), haddr]
  split_ifs <;> rfl

/-- An entry of a table in the first 4 GiB. -/
lemma storeVirtual_table (hmod : a.toNat % 4096 = 0) (hlow : a.toNat < 2 ^ 32) (hi : i < 512)
    (mem : Mem) (w : UInt64) :
    storeVirtual mem (a + HIGH_VMA) i w = some (storeEntry mem a i w) := by
  rw [storeVirtual_eq (by omega), if_pos (by omega)]

/-- The entries that `mapPages` writes, in physical memory. -/
def fillEntries (mem : Mem) (table physical step flags : UInt64) : ℕ → Mem
  | 0 => mem
  | n + 1 => storeEntry (fillEntries mem table physical step flags n) table n
      ((physical + UInt64.ofNat n * step) ||| flags)

variable {physical step flags : UInt64}

lemma mapPages_eq (n : ℕ) (hlast : a.toNat + 8 * n < 2 ^ 47 - 2 ^ 31) :
    mapPages mem (a + HIGH_VMA) physical step flags n =
      if n = 0 ∨ a.toNat + 8 * (n - 1) < 2 ^ 32 then some (fillEntries mem a physical step flags n)
      else none := by
  induction n with
  | zero => rfl
  | succ n ih =>
      rw [mapPages, ih (by omega)]
      by_cases hlow : a.toNat + 8 * n < 2 ^ 32
      · rw [if_pos (by omega), if_pos (by omega), Option.bind_eq_bind, Option.bind_some,
          storeVirtual_eq (by omega), if_pos hlow]
        rfl
      · rw [if_neg (c := n + 1 = 0 ∨ _) (by omega)]
        split_ifs
        · rw [Option.bind_eq_bind, Option.bind_some, storeVirtual_eq (by omega), if_neg hlow]
        · rfl

/-! ## Entries -/

/-- A store to an entry of a table, seen from the entries of all tables. -/
lemma entry_storeEntry (ha : PageAligned a) (hb : PageAligned b) (hi : i < 512) (hj : j < 512) :
    entry (storeEntry mem a i w) b j = if b = a ∧ j = i then w else entry mem b j := by
  obtain ⟨hamod, halt⟩ := ha
  obtain ⟨hbmod, hblt⟩ := hb
  split_ifs with h
  · obtain ⟨rfl, rfl⟩ := h
    exact load64_store64 _ _ _
  · have hne : b.toNat ≠ a.toNat ∨ j ≠ i := by
      by_cases hab : b = a
      · exact Or.inr fun hji => h ⟨hab, hji⟩
      · exact Or.inl (mt UInt64.toNat_inj.mp hab)
    refine load64_store64_apart (apart_of_le ?_ ?_)
    · rw [toNat_entry_sub _ _ hi hj]
      omega
    · rw [toNat_entry_sub _ _ hj hi]
      omega

lemma entry_fillEntries (ha : PageAligned a) (hb : PageAligned b) (n : ℕ) (hn : n ≤ 512)
    (hj : j < 512) : entry (fillEntries mem a physical step flags n) b j =
      if b = a ∧ j < n then (physical + UInt64.ofNat j * step) ||| flags else entry mem b j := by
  induction n with
  | zero => simp [fillEntries]
  | succ n ih =>
      rw [fillEntries, entry_storeEntry ha hb (by omega) hj, ih (by omega)]
      by_cases hab : b = a
      · simp only [hab, true_and]
        rcases Nat.lt_trichotomy j n with hlt | rfl | hgt
        · rw [if_neg (by omega), if_pos hlt, if_pos (by omega)]
        · rw [if_pos rfl, if_pos (by omega)]
        · rw [if_neg (by omega), if_neg (by omega), if_neg (by omega)]
      · simp only [hab, false_and, if_false]

/-- The entries that are written are in the table and after it. -/
lemma fillEntries_outside (n : ℕ) (h : 8 * n ≤ (x - a).toNat) :
    fillEntries mem a physical step flags n x = mem x := by
  induction n with
  | zero => rfl
  | succ n ih =>
      rw [fillEntries, storeEntry, store64_outside, ih (by omega)]
      rw [toNat_sub_add_ofNat (by omega)]
      omega

/-- A byte of another page is not in a table. -/
lemma storeEntry_outside (ha : PageAligned a) (hi : i < 512)
    (h : x.toNat / 4096 ≠ a.toNat / 4096) : storeEntry mem a i w x = mem x := by
  obtain ⟨hamod, halt⟩ := ha
  have hx := x.toNat_lt
  have hfar : 4096 ≤ (x - a).toNat := by
    rw [UInt64.toNat_sub]
    omega
  rw [storeEntry, store64_outside]
  rw [toNat_sub_add_ofNat (by omega)]
  omega

/-! ## What the call leaves in memory -/

variable {f : SpaceFrames} {size t : UInt64} {memory : ℕ}

/-- The stores of the call, in physical memory. -/
def builtTables (mem : Mem) (f : SpaceFrames) (size flags : UInt64) : Mem :=
  fillEntries
    (storeEntry (storeEntry (storeEntry (storeEntry (storeEntry mem
      f.pml4 256 (withKpageFlags kpml3Addr)) f.pml4 511 (withKpageFlags kpml3AddrHH))
      f.pml4 0 (withKpageFlags f.pml3)) f.pml3 0 (withKpageFlags f.pml2))
      f.pml2 0 (f.pml1 ||| flags))
    f.pml1 f.physical 0x1000 flags size.toNat

/-- **The call gets through** exactly if the table of the pages is in the direct map as far as it is
written; the other tables are below it. -/
theorem buildTables_eq (h : FramesInOrder f size.toNat memory)
    (hlow : f.pml1.toNat + 8 * size.toNat < 2 ^ 46) :
    buildTables mem f size flags =
      if f.pml1.toNat + 8 * (size.toNat - 1) < 2 ^ 32 then some (builtTables mem f size flags)
      else none := by
  have hpos := h.pos
  have hpages : ∀ mem, mapPages mem (f.pml1 + HIGH_VMA) f.physical 0x1000 flags size.toNat =
      if size.toNat = 0 ∨ f.pml1.toNat + 8 * (size.toNat - 1) < 2 ^ 32 then
        some (fillEntries mem f.pml1 f.physical 0x1000 flags size.toNat)
      else none := fun mem => mapPages_eq _ (by omega)
  split_ifs with hdirect
  · obtain ⟨h4, h3, h2, h1, _, _, h43, h32, h21, _, _⟩ := h
    have hstore4 := fun i => storeVirtual_table (i := i) h4 (by omega)
    have hstore3 := storeVirtual_table (i := 0) h3 (by omega) (by omega)
    have hstore2 := storeVirtual_table (i := 0) h2 (by omega) (by omega)
    simp only [buildTables, builtTables, hpages, if_pos (Or.inr hdirect), Option.bind_eq_bind,
      Option.bind_some, hstore4 256 (by omega), hstore4 511 (by omega), hstore4 0 (by omega),
      hstore3, hstore2]
  · have hnone : ∀ mem, mapPages mem (f.pml1 + HIGH_VMA) f.physical 0x1000 flags size.toNat
        = none := fun mem => by rw [hpages, if_neg (by omega)]
    simp only [buildTables, hnone, Option.bind_eq_bind, Option.bind_fun_none]

/-- What the call writes into entry `j` of the table at `t`. -/
def written (f : SpaceFrames) (size : ℕ) (flags t : UInt64) (j : ℕ) : Option UInt64 :=
  if t = f.pml1 ∧ j < size then some ((f.physical + UInt64.ofNat j * 0x1000) ||| flags)
  else if t = f.pml2 ∧ j = 0 then some (f.pml1 ||| flags)
  else if t = f.pml3 ∧ j = 0 then some (withKpageFlags f.pml2)
  else if t = f.pml4 ∧ j = 0 then some (withKpageFlags f.pml3)
  else if t = f.pml4 ∧ j = 511 then some (withKpageFlags kpml3AddrHH)
  else if t = f.pml4 ∧ j = 256 then some (withKpageFlags kpml3Addr)
  else none

/-- The loop runs upwards, so it cannot reach a table below. -/
lemma entry_fillEntries_below (n : ℕ) (hlt : b.toNat + 4096 ≤ a.toNat)
    (hlast : a.toNat + 8 * n ≤ 2 ^ 63) (hj : j < 512) :
    entry (fillEntries mem a physical step flags n) b j = entry mem b j := by
  have hbyte : ∀ i, i < 8 →
      fillEntries mem a physical step flags n (b + UInt64.ofNat (8 * j) + UInt64.ofNat i)
        = mem (b + UInt64.ofNat (8 * j) + UInt64.ofNat i) := by
    intro i hi
    refine fillEntries_outside n ?_
    have hx : (b + UInt64.ofNat (8 * j) + UInt64.ofNat i).toNat = b.toNat + 8 * j + i := by
      rw [UInt64.toNat_add, UInt64.toNat_add, toNat_ofNat_of_lt (by omega),
        toNat_ofNat_of_lt (by omega)]
      omega
    rw [UInt64.toNat_sub, hx]
    omega
  rw [entry, load64, load_congr hbyte, entry, load64]

/-- **The entries after the call.**  Those that are not written stay as they were. -/
theorem entry_builtTables (h : FramesInOrder f size.toNat memory)
    (hlow : f.pml1.toNat + 8 * size.toNat < 2 ^ 46) (ht : PageAligned t) (hj : j < 512)
    (hsize : size.toNat ≤ 512 ∨ t.toNat < f.pml1.toNat) :
    entry (builtTables mem f size flags) t j
      = (written f size.toNat flags t j).getD (entry mem t j) := by
  obtain ⟨h4, h3, h2, h1⟩ := h.pageAligned (by omega)
  have hfill : ∀ mem, entry (fillEntries mem f.pml1 f.physical 0x1000 flags size.toNat) t j =
      if t = f.pml1 ∧ j < size.toNat then (f.physical + UInt64.ofNat j * 0x1000) ||| flags
      else entry mem t j := by
    intro mem
    rcases hsize with hsize | hlt
    · exact entry_fillEntries h1 ht _ hsize hj
    · have htmod := ht.1
      have h1mod := h1.1
      have hne : ¬(t = f.pml1 ∧ j < size.toNat) := fun heq => by
        rw [heq.1] at hlt
        exact lt_irrefl _ hlt
      rw [if_neg hne, entry_fillEntries_below _ (by omega) (by omega) hj]
  rw [builtTables, hfill, entry_storeEntry h2 ht (by omega) hj,
    entry_storeEntry h3 ht (by omega) hj, entry_storeEntry h4 ht (by omega) hj,
    entry_storeEntry h4 ht (by omega) hj,
    entry_storeEntry h4 ht (by omega) hj, written]
  split_ifs <;> rfl

/-- Byte `x` is in one of the four tables. -/
def InTables (f : SpaceFrames) (x : UInt64) : Prop :=
  x.toNat / 4096 = f.pml4.toNat / 4096 ∨ x.toNat / 4096 = f.pml3.toNat / 4096 ∨
    x.toNat / 4096 = f.pml2.toNat / 4096 ∨ x.toNat / 4096 = f.pml1.toNat / 4096

/-- Nothing else is written. -/
lemma builtTables_outside (h : FramesInOrder f size.toNat memory) (hlow : f.pml1.toNat < 2 ^ 46)
    (hsize : size.toNat ≤ 512) (hx : ¬InTables f x) : builtTables mem f size flags x = mem x := by
  simp only [InTables, not_or] at hx
  obtain ⟨hx4, hx3, hx2, hx1⟩ := hx
  obtain ⟨h4, h3, h2, h1⟩ := h.pageAligned hlow
  have hfar : 8 * size.toNat ≤ (x - f.pml1).toNat := by
    have hmod := h1.1
    have hxlt := x.toNat_lt
    rw [UInt64.toNat_sub]
    omega
  rw [builtTables, fillEntries_outside _ hfar, storeEntry_outside h2 (by omega) hx2,
    storeEntry_outside h3 (by omega) hx3, storeEntry_outside h4 (by omega) hx4,
    storeEntry_outside h4 (by omega) hx4, storeEntry_outside h4 (by omega) hx4]

end Seaweed
