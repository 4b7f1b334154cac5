import Seaweed.Mm.HeapRuns

/-!
# Growing a block (`krealloc` in `kernel/mm/kHeap.c`)

Three units meet in `krealloc`: `kfree` returns a number of blocks, `kmalloc` takes a number of
bytes, and `memcpy64` copies words of eight bytes.  The number of blocks is added to the bytes
asked for and then used as the number of words.

* `krealloc`, `krealloc_run` — on the heap it is a `kfree` and a `kmalloc`.
* `Grows` — what a caller that passes the number of bytes to add relies on.
* `HeapFollows.krealloc_eq` — what `krealloc` does when its free finds the entry.
* **`krealloc_grows_iff`** — it does what the caller relies on only for a single block, and then
  only if the block stays where it is or nothing after its first word has to be copied.
-/

namespace Seaweed

open FirstFit Words Transition Memory

def krealloc (h : Heap) (mem : Mem) (addr size : UInt64) : Option UInt64 × Heap × Mem :=
  let sizeOfAllocation := (kfree h addr).1
  let newAddr := (kmalloc (kfree h addr).2 (sizeOfAllocation + size)).1
  (newAddr, (kmalloc (kfree h addr).2 (sizeOfAllocation + size)).2,
    memcpy64 mem (newAddr.getD 0) addr sizeOfAllocation.toNat)

variable {h₀ heap : Heap} {s : HeapState} {recorded : List Block}
  {L : Ledger {p | isset h₀.kbitmap p = true} kbitmapSize} {es : List HeapEvent}
  {a new : Block} {mem : Mem} {size p : UInt64}

/-- **On the heap `krealloc` is a `kfree` and a `kmalloc`**, so its runs are runs of the heap. -/
theorem krealloc_run (ha : a ∈ s.live) (hfree : HasFreeBlock (kfree s.heap a.addr).2)
    (hroom : TableRoom (kfree s.heap a.addr).2)
    (hcall : (krealloc s.heap mem a.addr size).1 = some p) :
    Run HeapStep s [.free a, .malloc ((kfree s.heap a.addr).1 + size)]
      ⟨(krealloc s.heap mem a.addr size).2.1, ⟨p, (kfree s.heap a.addr).1 + size,
        nextSlot (kfree s.heap a.addr).2⟩ :: s.live.erase a⟩ :=
  (Run.single (HeapStep.free ha)).snoc (HeapStep.malloc hfree hroom (Prod.ext hcall rfl))

/-! ## What the caller relies on -/

/-- The call returns an allocation, `new`, that has room for the old blocks and `size` more bytes
and begins with the old content, and nothing outside it is written. -/
structure Grows (heap : Heap) (mem : Mem) (a : Block) (size : UInt64) (new : Block) : Prop where
  returns : (krealloc heap mem a.addr size).1 = some new.addr
  inTable : new.slot < tableEntries
  entry : (krealloc heap mem a.addr size).2.1.allocationBitmap new.slot
    = new.entry heap.kHeapBegin
  within : new.start heap.kHeapBegin + new.count ≤ kbitmapSize
  marked : ∀ p ∈ new.blocks heap.kHeapBegin,
    isset (krealloc heap mem a.addr size).2.1.kbitmap p = true
  room : 32 * a.count + size.toNat ≤ 32 * new.count
  content : ∀ i, i < 32 * a.count → (krealloc heap mem a.addr size).2.2
    (new.addr + UInt64.ofNat i) = mem (a.addr + UInt64.ofNat i)
  confined : ∀ x, 32 * new.count ≤ (x - new.addr).toNat →
    (krealloc heap mem a.addr size).2.2 x = mem x

/-- Block `p` is free, or will be once `a` has been freed. -/
def FreeOrOwn (heap : Heap) (a : Block) (p : ℕ) : Prop :=
  BlockFree heap p ∨ p ∈ a.blocks heap.kHeapBegin

instance (heap : Heap) (a : Block) : DecidablePred (FreeOrOwn heap a) := fun p =>
  inferInstanceAs (Decidable (BlockFree heap p ∨ p ∈ a.blocks heap.kHeapBegin))

/-- The blocks that the caller asks for fit somewhere. -/
def HasRoom (heap : Heap) (a : Block) (size : UInt64) : Prop :=
  ∃ b, Fits (FreeOrOwn heap a) kbitmapSize (a.count + (size.toNat + 31) / 32) b

/-- The free finds its entry, the allocation is a single block, the size is a whole number of
blocks, and where the first fit is the bytes after the first word are there already, as they are
when it is the old place. -/
def KreallocOk (heap : Heap) (mem : Mem) (a : Block) (size : UInt64) : Prop :=
  FreeOk heap a ∧ a.count = 1 ∧ 32 ∣ size.toNat ∧
    ∀ b, IsFirstFit (FreeOrOwn heap a) kbitmapSize (size.toNat / 32 + 1) b →
      ∀ i, 8 ≤ i → i < 32 →
        mem (blockAddr heap.kHeapBegin b + UInt64.ofNat i) = mem (a.addr + UInt64.ofNat i)

/-! ## What `krealloc` does -/

/-- Where the table and the ledger agree, an entry that is in use belongs to the allocation that
starts at its block. -/
lemma HeapFollows.count_eq (h : HeapFollows h₀ heap recorded L) (ha : a ∈ recorded)
    (haddr : new.addr = a.addr) (hin : new.slot < tableEntries)
    (hentry : heap.allocationBitmap new.slot = new.entry h₀.kHeapBegin)
    (hlast : new.start h₀.kHeapBegin + new.count ≤ kbitmapSize) (hpos : 0 < new.count) :
    new.count = a.count := by
  have hstart : new.start h₀.kHeapBegin = a.start h₀.kHeapBegin := by
    rw [Block.start, haddr, Block.start]
  have hsize : (new.entry h₀.kHeapBegin).size.toNat = new.count :=
    Block.toNat_entry_size _ (by omega)
  have hblock : (new.entry h₀.kHeapBegin).block.toNat = new.start h₀.kHeapBegin :=
    Block.toNat_entry_block (by omega)
  by_cases hown : ∃ a' ∈ recorded, a'.slot = new.slot
  · obtain ⟨a', ha', hslot⟩ := hown
    rw [← hslot, h.entries a' ha'] at hentry
    rw [← hentry, h.entry_block ha', hstart] at hblock
    obtain rfl := h.start_inj ha' ha hblock
    rw [← hsize, ← hentry, h.entry_size ha']
  · have hempty := h.emptied new.slot hin fun a' ha' heq => hown ⟨a', ha', heq⟩
    rw [← hentry, hempty] at hsize
    exact absurd hpos (by rw [← hsize]; decide)

/-- The room that the caller asks for bounds the size. -/
lemma HasRoom.size_lt (hroom : HasRoom heap a size) :
    a.count + (size.toNat + 31) / 32 ≤ kbitmapSize := by
  obtain ⟨b, hfit⟩ := hroom
  have := hfit.1
  omega

/-- The number of blocks `krealloc` asks for, once its free has returned `n`. -/
lemma ROUNDUP_add {n : ℕ} (hn : n + (size.toNat + 31) / 32 ≤ kbitmapSize) :
    (ROUNDUP (UInt64.ofNat n + size) 32).toNat = (n + size.toNat + 31) / 32 := by
  have hlast : ((32 : UInt64) - 1).toNat = 31 := rfl
  have hunit : (32 : UInt64).toNat = 32 := rfl
  rw [kbitmapSize_eq] at hn
  rw [ROUNDUP, UInt64.toNat_div, UInt64.toNat_add, UInt64.toNat_add,
    toNat_ofNat_of_lt (by omega), hlast, hunit]
  omega

/-- Once `a` has been freed its blocks are free as well. -/
lemma HeapFollows.free_release (h : HeapFollows h₀ heap recorded L) (p : ℕ) :
    BlockFree (releaseBlock heap a.slot (a.start h₀.kHeapBegin) a.count) p ↔
      FreeOrOwn heap a p := by
  rw [BlockFree, kbitmap_releaseBlock, isset_clearRange, FreeOrOwn, BlockFree, h.begins,
    Bool.and_eq_false_iff, decide_eq_false_iff_not, not_not]
  rfl

/-- **`krealloc`, when its free finds the entry**: the first fit for too few blocks, and a copy of
too few bytes. -/
theorem HeapFollows.krealloc_eq (h : HeapFollows h₀ heap recorded L) (ha : a ∈ recorded)
    (hok : FreeOk heap a) (hroom : HasRoom heap a size) (mem : Mem) :
    ∃ (grown : Block) (b : ℕ) (L' : Ledger {p | isset h₀.kbitmap p = true} kbitmapSize),
      grown.addr = blockAddr h₀.kHeapBegin b ∧
      grown.count = (a.count + size.toNat + 31) / 32 ∧
      IsFirstFit (FreeOrOwn heap a) kbitmapSize ((a.count + size.toNat + 31) / 32) b ∧
      (krealloc heap mem a.addr size).1 = some grown.addr ∧
      HeapFollows h₀ (krealloc heap mem a.addr size).2.1 (grown :: recorded.erase a) L' ∧
      (krealloc heap mem a.addr size).2.2 = memcpy64 mem grown.addr a.addr a.count := by
  have hhit := (h.freeOk_iff ha).mp hok
  have hpos := h.count_pos ha
  have hwithin := h.within ha
  have hcount := ROUNDUP_add hroom.size_lt
  have hfreed := h.kfree_hit ha hhit
  obtain ⟨L', h'⟩ := h.release ha
  set freed := releaseBlock heap a.slot (a.start h₀.kHeapBegin) a.count with hdef
  have hcount0 : ROUNDUP (UInt64.ofNat a.count + size) 32 ≠ 0 := by
    intro hzero
    rw [hzero, UInt64.toNat_zero] at hcount
    omega
  have hfree : HasFreeBlock freed := by
    refine ⟨a.start h₀.kHeapBegin, by omega, (h.free_release _).mpr (Or.inr ?_)⟩
    rw [h.begins]
    exact ⟨le_refl _, Nat.lt_add_of_pos_right hpos⟩
  have htable : TableRoom freed := by
    refine ⟨a.slot, h.inTable a ha, ?_⟩
    rw [hdef, allocationBitmap_releaseBlock, Function.update_self]
  obtain ⟨b₀, hfit₀⟩ := hroom
  have hfit : Fits (BlockFree freed) kbitmapSize
      (ROUNDUP (UInt64.ofNat a.count + size) 32).toNat b₀ := by
    rw [hcount]
    refine ⟨by have := hfit₀.1; omega, fun p hp hp' => (h.free_release p).mpr ?_⟩
    exact hfit₀.2 p hp (by omega)
  obtain ⟨b, _, hfirst⟩ := hfit.exists_first
  have hcall := kmalloc_firstFit hfree hcount0 hfirst
  obtain ⟨L'', h''⟩ := h'.malloc htable hcount0 hfirst.1
  refine ⟨mallocAt freed b (UInt64.ofNat a.count + size), b, L'', ?_, ?_, ?_, ?_, ?_, ?_⟩
  · rw [mallocAt, h'.begins]
  · rw [count_mallocAt, hcount]
  · rw [← hcount]
    exact (IsFirstFit.congr fun p _ => h.free_release p).mp hfirst
  · rw [krealloc, hfreed, hcall, mallocAt]
  · rw [krealloc, hfreed, hcall]
    exact h''
  · rw [krealloc, hfreed, hcall, toNat_ofNat_of_lt]
    · rfl
    · rw [kbitmapSize_eq] at hwithin
      omega

/-- Under the rounded size there is never room for a block more than the size. -/
lemma ROUNDUP_le (hsize : size.toNat + 31 < 2 ^ 64) :
    32 * (ROUNDUP size 32).toNat < size.toNat + 32 := by
  have hlast : ((32 : UInt64) - 1).toNat = 31 := rfl
  have hunit : (32 : UInt64).toNat = 32 := rfl
  rw [ROUNDUP, UInt64.toNat_div, UInt64.toNat_add, hlast, hunit, Nat.mod_eq_of_lt hsize]
  omega

/-- A run of blocks longer than the allocation has one that is free already. -/
lemma HasRoom.hasFreeBlock (hroom : HasRoom heap a size) (hsize : 0 < size.toNat) :
    HasFreeBlock heap := by
  obtain ⟨b, hlast, hfree⟩ := hroom
  rcases hfree b le_rfl (by omega) with hclear | hown
  · exact ⟨b, by omega, hclear⟩
  · -- the first block of the run is in the allocation, so the last one is behind it
    set l := b + (a.count + (size.toNat + 31) / 32) - 1 with hl
    rcases hfree l (by omega) (by omega) with hclear | hown'
    · exact ⟨l, by omega, hclear⟩
    · have h₁ : a.start heap.kHeapBegin ≤ b := hown.1
      have h₂ : l < a.start heap.kHeapBegin + a.count := hown'.2
      omega

/-- When the free misses its entry the new allocation is too small for the old content. -/
lemma HeapFollows.not_grows (h : HeapFollows h₀ heap recorded L) (ha : a ∈ recorded)
    (hno : ¬ FreeOk heap a) (hroom : HasRoom heap a size) : ¬ Grows heap mem a size new := by
  intro hgrows
  have hpos := h.count_pos ha
  have hbound := hroom.size_lt
  rw [kbitmapSize_eq] at hbound
  obtain ⟨_, hlt, hempty⟩ := (h.kfreeSlot_cases ha).resolve_left fun hhit =>
    hno ((h.freeOk_iff ha).mpr hhit)
  have hin := h.inTable a ha
  have htable : TableRoom heap := ⟨_, lt_trans hlt hin, by rw [hempty]⟩
  have hmiss := h.kfree_miss ha hempty
  have hreturns := hgrows.returns
  have hentry := hgrows.entry
  rw [krealloc, hmiss, UInt64.zero_add] at hreturns hentry
  -- `kmalloc` has returned an address, so it has been asked for some blocks
  have hcount : ROUNDUP size 32 ≠ 0 := by
    intro hzero
    rw [kmalloc_zero heap hzero] at hreturns
    exact nomatch hreturns
  have hsize : 0 < size.toNat := by
    rcases Nat.eq_zero_or_pos size.toNat with hzero | hsize
    · obtain rfl : size = 0 := UInt64.toNat_inj.mp hzero
      exact absurd (by decide) hcount
    · exact hsize
  rcases kmalloc_cases (hroom.hasFreeBlock hsize) size with ⟨b, _, hfirst, hcall⟩ | ⟨_, hcall⟩
  · obtain ⟨L', h'⟩ := h.malloc htable hcount hfirst.1
    rw [hcall] at hreturns hentry
    have haddr : new.addr = (mallocAt heap b size).addr := (Option.some.inj hreturns).symm
    have hsame := h'.count_eq List.mem_cons_self haddr hgrows.inTable
      (by rw [hentry, h.begins]) (by rw [← h.begins]; exact hgrows.within)
      (by have := hgrows.room; omega)
    have hsmall := @ROUNDUP_le size (by omega)
    have hlarge := hgrows.room
    rw [hsame, count_mallocAt] at hlarge
    omega
  · rw [hcall] at hreturns
    exact nomatch hreturns

/-- **Exactly when `krealloc` does what its caller relies on**, in any heap that follows a
ledger. -/
theorem HeapFollows.grows_iff (h : HeapFollows h₀ heap recorded L) (ha : a ∈ recorded)
    (hroom : HasRoom heap a size) (mem : Mem) :
    (∃ new, Grows heap mem a size new) ↔ KreallocOk heap mem a size := by
  have hpos := h.count_pos ha
  constructor
  · rintro ⟨new, hgrows⟩
    have hok : FreeOk heap a := by
      by_contra hno
      exact h.not_grows ha hno hroom hgrows
    obtain ⟨grown, b, L', haddr, hcount, hfirst, hret, h', hmem⟩ :=
      h.krealloc_eq ha hok hroom mem
    have hnew : new.addr = grown.addr := (Option.some.inj (hret.symm.trans hgrows.returns)).symm
    have hsame := h'.count_eq List.mem_cons_self hnew hgrows.inTable
      (by rw [hgrows.entry, h.begins]) (by rw [← h.begins]; exact hgrows.within)
      (by have := hgrows.room; omega)
    have hroom' := hgrows.room
    rw [hsame, hcount] at hroom'
    have hone : a.count = 1 := by omega
    refine ⟨hok, hone, by omega, fun b' hfirst' i hi hi' => ?_⟩
    obtain rfl : b = b' := by
      rw [show (a.count + size.toNat + 31) / 32 = size.toNat / 32 + 1 by omega] at hfirst
      exact hfirst.unique hfirst'
    have hcontent := hgrows.content i (by omega)
    rw [hmem, hnew, memcpy64_outside (by rw [toNat_add_ofNat_sub _ (by omega)]; omega)] at hcontent
    rw [h.begins, ← haddr, hcontent]
  · rintro ⟨hok, hone, hdvd, hcontent⟩
    obtain ⟨grown, b, L', haddr, hcount, hfirst, hret, h', hmem⟩ :=
      h.krealloc_eq ha hok hroom mem
    rw [show (a.count + size.toNat + 31) / 32 = size.toNat / 32 + 1 by omega] at hfirst
    have hnew : grown ∈ grown :: recorded.erase a := List.mem_cons_self
    have hgrown := h'.count_pos hnew
    refine ⟨grown, hret, h'.inTable grown hnew, ?_, ?_, ?_, ?_, ?_, ?_⟩
    · rw [h.begins]
      exact h'.entries _ hnew
    · rw [h.begins]
      exact h'.within hnew
    · rw [h.begins]
      exact fun p hp => h'.marked hnew hp
    · omega
    · intro i hi
      rw [hmem, hone]
      rcases Nat.lt_or_ge i 8 with hword | hrest
      · rw [memcpy64_one, store64_load64 hword]
      · rw [memcpy64_outside (by rw [toNat_add_ofNat_sub _ (by omega)]; omega)]
        rw [haddr, ← h.begins, hcontent b hfirst i hrest (by omega)]
    · intro x hx
      rw [hmem, hone]
      exact memcpy64_outside (by omega)

/-- **Exactly when `krealloc` does what its caller relies on**, in any state the heap can reach: for
a live allocation, a size for which there is room, and any memory. -/
theorem krealloc_grows_iff (pmm : Pmm) (bits : Bitmap) (entries : ℕ → Allocation) (h₀ : Heap)
    (hinit : h₀ = (kHeapInit pmm bits entries).1) (hrun : Run HeapStep ⟨h₀, []⟩ es s)
    (ha : a ∈ s.live) (hroom : HasRoom s.heap a size) (mem : Mem) :
    (∃ new, Grows s.heap mem a size new) ↔ KreallocOk s.heap mem a size := by
  subst hinit
  obtain ⟨lost, L, h⟩ := heapFollows_run (freshHeap_kHeapInit pmm bits entries) hrun
  exact h.grows_iff (List.mem_append_left lost ha) hroom mem

/-- The first state of a machine with 32 MiB in one piece. -/
def plainState : HeapState := ⟨(kHeapInit plainPmm (fun _ => 0xff) (fun _ => ⟨0xff, 0xff⟩)).1, []⟩

/-- The state after one `kmalloc` of `size` bytes. -/
def oneBlock (size : UInt64) : HeapState := (HeapMove.malloc size 0 0).next plainState

lemma run_oneBlock {size : UInt64} (henabled : (HeapMove.malloc size 0 0).Enabled plainState) :
    Run HeapStep plainState [.malloc size] (oneBlock size) :=
  Run.single (heapStep_next _ _ henabled)

/-- A single block grows in place by a whole number of blocks. -/
theorem krealloc_grows_oneBlock :
    ∃ new, Grows (oneBlock 32).heap (fun _ => 0) ⟨0xffff800000124000, 32, 0⟩ 64 new := by
  have hrun : Run HeapStep plainState [.malloc 32] (oneBlock 32) :=
    run_oneBlock (by rw [plainState, plainHeap_eq]; decide +kernel)
  refine (krealloc_grows_iff plainPmm _ _ _ rfl hrun ?_ ⟨0, ?_⟩ _).mpr ⟨?_, ?_, ?_, ?_⟩
  · rw [oneBlock, plainState, plainHeap_eq]; decide +kernel
  · rw [oneBlock, plainState, plainHeap_eq]; decide +kernel
  · rw [oneBlock, plainState, plainHeap_eq]; decide +kernel
  · decide
  · decide
  · exact fun _ _ _ _ _ => rfl

/-- **Two blocks do not grow.**  The new allocation has three blocks, and the caller needs four. -/
theorem krealloc_tooSmall : ∃ (s : HeapState) (a : Block),
    Run HeapStep ⟨(kHeapInit plainPmm (fun _ => 0xff) (fun _ => ⟨0xff, 0xff⟩)).1, []⟩
      [.malloc 64] s ∧
    a ∈ s.live ∧ HasRoom s.heap a 64 ∧ ¬ ∃ new, Grows s.heap (fun _ => 0) a 64 new := by
  have hrun : Run HeapStep plainState [.malloc 64] (oneBlock 64) :=
    run_oneBlock (by rw [plainState, plainHeap_eq]; decide +kernel)
  have hmem : ⟨0xffff800000124000, 64, 0⟩ ∈ (oneBlock 64).live := by
    rw [oneBlock, plainState, plainHeap_eq]
    decide +kernel
  have hroom : HasRoom (oneBlock 64).heap ⟨0xffff800000124000, 64, 0⟩ 64 := by
    refine ⟨0, ?_⟩
    rw [oneBlock, plainState, plainHeap_eq]
    decide +kernel
  obtain ⟨lost, L, h⟩ := heapFollows_run (freshHeap_kHeapInit plainPmm _ _) hrun
  refine ⟨oneBlock 64, _, hrun, hmem, hroom, fun hgrows => ?_⟩
  have hone := ((h.grows_iff (List.mem_append_left lost hmem) hroom _).mp hgrows).2.1
  exact absurd hone (by decide)

end Seaweed
