import Seaweed.Mm.HeapAccess

/-!
# The allocation table

The table has sixteen pages, which is room for 16384 entries.  `allocationBitmapSize` is 262144, the
number of blocks of the heap is 32768, and neither search of the table knows about the pages.  An
address for which `kfree` finds no entry takes it to the entry behind the last one.

* `HeapCall` — the calls, with the table entries they touch.
* **`tableEntries_run`** — as long as the table has room for what is allocated, only entries in the
  sixteen pages are touched.
* `tableEntries_exceeded` — one-block allocations fill the table before they fill the heap.
* **`kfree_harmless_iff`** — when a free of any address at all does no harm.
-/

namespace Seaweed

open FirstFit Words Transition

/-! ## Calls that are watched -/

/-- The table entries among the places. -/
def entriesOf (places : List HeapPlace) : List ℕ :=
  places.filterMap fun
    | .bit _ => none
    | .entry i => some i

/-- The heap, the allocations its callers hold, and the table entries that have been touched. -/
structure HeapTrace where
  heap : Heap
  live : List Block
  touched : List ℕ

/-- One call, with nothing required of the heap; what is freed is live. -/
inductive HeapCall : HeapTrace → HeapEvent → HeapTrace → Prop
  | malloc {t : HeapTrace} {size p : UInt64} {h' : Heap}
      (hcall : kmalloc t.heap size = (some p, h')) :
      HeapCall t (.malloc size) ⟨h', ⟨p, size, nextSlot t.heap⟩ :: t.live,
        t.touched ++ entriesOf (kmallocAccesses t.heap size)⟩
  | mallocFail {t : HeapTrace} {size : UInt64} {h' : Heap}
      (hcall : kmalloc t.heap size = (none, h')) :
      HeapCall t (.malloc size) ⟨h', t.live,
        t.touched ++ entriesOf (kmallocAccesses t.heap size)⟩
  | free {t : HeapTrace} {a : Block} (hmem : a ∈ t.live) :
      HeapCall t (.free a) ⟨(kfree t.heap a.addr).2, t.live.erase a,
        t.touched ++ entriesOf (kfreeAccesses t.heap a.addr)⟩

/-- A `kmalloc` for which there is a run of free blocks finds an empty entry in the sixteen pages;
on a full heap the search does not take a bit outside the bitmap for a free block. -/
def TableOk (heap : Heap) : HeapEvent → Prop
  | .malloc size => (TableRoom heap ∨ NoRun heap size) ∧ ¬ FindsStrayBlock heap size
  | .free _ => True

/-- A call that meets the condition. -/
def TableCall (t : HeapTrace) (e : HeapEvent) (t' : HeapTrace) : Prop :=
  HeapCall t e t' ∧ TableOk t.heap e

variable {h₀ heap : Heap} {t t' : HeapTrace} {recorded lost : List Block}
  {L : Ledger {p | isset h₀.kbitmap p = true} kbitmapSize} {e : HeapEvent} {es : List HeapEvent}
  {a : Block} {size addr : UInt64} {places places' : List HeapPlace} {i k : ℕ}

/-! ## What one call touches -/

lemma mem_entriesOf : i ∈ entriesOf places ↔ .entry i ∈ places := by
  rw [entriesOf, List.mem_filterMap]
  constructor
  · rintro ⟨place, hplace, heq⟩
    cases place with
    | bit j => exact nomatch heq
    | entry j =>
        obtain rfl : j = i := Option.some.inj heq
        exact hplace
  · exact fun hplace => ⟨_, hplace, rfl⟩

/-- The entries that `kmalloc` touches: none, or those up to the first empty one. -/
lemma mem_kmallocAccesses : .entry i ∈ kmallocAccesses heap size ↔
    (blockSearch heap size).isSome = true ∧
      (i ∈ stopReads (fun i => (heap.allocationBitmap i).size == 0) allocationBitmapSize ∨
        i = nextSlot heap) := by
  simp only [kmallocAccesses, List.mem_append, firstFreeSlotReads, List.mem_map, reduceCtorEq,
    and_false, exists_false, false_or]
  rcases blockSearch heap size with _ | base
  · simp
  · simp only [firstFreeAllocationSlotReads, List.mem_append, List.mem_cons, List.mem_map,
      HeapPlace.entry.injEq, exists_eq_right, reduceCtorEq, and_false, exists_false, or_false,
      Option.isSome_some, true_and]

/-- The entries that `kfree` touches: those up to the one it stops at. -/
lemma mem_kfreeAccesses : .entry i ∈ kfreeAccesses heap addr ↔
    i ≤ kfreeSlot heap addr ∧ (i < allocationBitmapSize ∨ i = kfreeSlot heap addr) := by
  simp only [kfreeAccesses, List.mem_append, List.mem_cons, List.mem_map, HeapPlace.entry.injEq,
    exists_eq_right, reduceCtorEq, and_false, exists_false, or_false, mem_stopReads, kfreeSlot]
  omega

/-- With room in the table `kmalloc` does not look at an entry behind the sixteen pages. -/
lemma kmalloc_touches (hroom : TableRoom heap) (hi : .entry i ∈ kmallocAccesses heap size) :
    i < tableEntries := by
  have hslot := (nextSlot_spec hroom).1
  rcases (mem_kmallocAccesses.mp hi).2 with hread | rfl
  · have hle := (mem_stopReads.mp hread).1
    rw [← nextSlot_eq hroom] at hle
    omega
  · exact hslot

/-- A free of a recorded allocation does not either. -/
lemma HeapFollows.kfree_touches (h : HeapFollows h₀ heap recorded L) (ha : a ∈ recorded)
    (hi : .entry i ∈ kfreeAccesses heap a.addr) : i < tableEntries := by
  have hin := h.inTable a ha
  have hle := (mem_kfreeAccesses.mp hi).1
  rcases h.kfreeSlot_cases ha with hhit | ⟨_, hlt, _⟩
  · omega
  · omega

/-- Without room in the table `kmalloc` looks behind the sixteen pages whenever it finds blocks. -/
lemma kmalloc_touches_outside (hfull : ¬ TableRoom heap)
    (hfound : (blockSearch heap size).isSome = true) :
    .entry tableEntries ∈ kmallocAccesses heap size := by
  refine mem_kmallocAccesses.mpr ⟨hfound, Or.inl (mem_stopReads.mpr ⟨?_, by decide⟩)⟩
  by_contra hlt
  rcases stopIndex_cases (fun i => (heap.allocationBitmap i).size == 0) allocationBitmapSize with
    ⟨_, hstop, _⟩ | ⟨heq, _⟩
  · exact hfull ⟨_, Nat.lt_of_not_le hlt, by simpa using hstop⟩
  · rw [heq] at hlt
    exact hlt (by decide)

/-! ## Runs -/

/-- Everything that has been touched is in the sixteen pages, and the heap follows a ledger. -/
def TableInside (h₀ : Heap) (t : HeapTrace) : Prop :=
  (∀ i ∈ t.touched, i < tableEntries) ∧ ∃ lost L, HeapFollows h₀ t.heap (t.live ++ lost) L

/-- **One call** that meets the condition. -/
lemma tableInside_step (h : TableInside h₀ t) (hcall : TableCall t e t') : TableInside h₀ t' := by
  obtain ⟨htouched, lost, L, h⟩ := h
  obtain ⟨hcall, hok⟩ := hcall
  have hinside : ∀ places, (∀ i, .entry i ∈ places → i < tableEntries) →
      ∀ i ∈ t.touched ++ entriesOf places, i < tableEntries := fun places hplaces i hi =>
    (List.mem_append.mp hi).elim (htouched i) fun hi => hplaces i (mem_entriesOf.mp hi)
  cases hcall with
  | @malloc size p h' hcall =>
      obtain ⟨hroom, hstray⟩ := hok
      have hrun : ¬ NoRun t.heap size := by
        intro hno
        rw [(kmalloc_none_iff t.heap size).mpr ⟨hno, hstray⟩] at hcall
        exact nomatch (Prod.ext_iff.mp hcall).1
      have hroom := hroom.resolve_right hrun
      have hfree : HasFreeBlock t.heap := by
        rw [NoRun] at hrun
        push Not at hrun
        obtain ⟨hcount, b, hlast, hclear⟩ := hrun
        have hpos := toNat_pos hcount
        exact ⟨b, by omega, hclear b le_rfl (by omega)⟩
      obtain ⟨lost', L', h', _⟩ := heapFollows_step h
        (HeapStep.malloc (s := ⟨t.heap, t.live⟩) hfree hroom hcall)
      exact ⟨hinside _ fun i hi => kmalloc_touches hroom hi, lost', L', h'⟩
  | @mallocFail size h' hcall =>
      rw [kmalloc_eq] at hcall
      rcases hsearch : blockSearch t.heap size with _ | base
      · rw [hsearch] at hcall
        obtain rfl : t.heap = h' := (Prod.ext_iff.mp hcall).2
        refine ⟨hinside _ fun i hi => ?_, lost, L, h⟩
        rw [mem_kmallocAccesses, hsearch] at hi
        exact nomatch hi.1
      · rw [hsearch] at hcall
        exact nomatch (Prod.ext_iff.mp hcall).1
  | @free a hmem =>
      obtain ⟨lost', L', h', _⟩ := heapFollows_step h (HeapStep.free (s := ⟨t.heap, t.live⟩) hmem)
      exact ⟨hinside _ fun i hi => h.kfree_touches (List.mem_append_left lost hmem) hi, lost', L',
        h'⟩

/-- **The bookkeeping stays in its own memory** as long as the table has room for what is allocated:
in any order of calls, every entry that is touched is in the sixteen pages. -/
theorem tableEntries_run (pmm : Pmm) (bits : Bitmap) (entries : ℕ → Allocation) (h₀ : Heap)
    (hinit : h₀ = (kHeapInit pmm bits entries).1) (hrun : Run TableCall ⟨h₀, [], []⟩ es t) :
    ∀ i ∈ t.touched, i < tableEntries := by
  subst hinit
  have hstart := heapFollows_start (freshHeap_kHeapInit pmm bits entries)
  exact (hrun.invariant (fun _ _ _ h hcall => tableInside_step h hcall)
    ⟨fun i hi => absurd hi List.not_mem_nil, [], _, hstart⟩).1

/-! ## Too many blocks for the table -/

/-- The first `k` blocks and the first `k` entries are in use. -/
structure FilledUpTo (k : ℕ) (heap : Heap) : Prop where
  bits : ∀ p, p < kbitmapSize → (BlockFree heap p ↔ k ≤ p)
  table : ∀ i, i < tableEntries → ((heap.allocationBitmap i).size = 0 ↔ k ≤ i)

lemma filled_start (hfresh : FreshHeap h₀) : FilledUpTo 0 h₀ where
  bits := fun p hp => iff_of_true (hfresh.clear p hp) p.zero_le
  table := fun i hi => iff_of_true (by rw [hfresh.table i hi]) i.zero_le

/-- The next block is the first free one. -/
lemma FilledUpTo.firstFit (h : FilledUpTo k heap) (hk : k < kbitmapSize) :
    IsFirstFit (BlockFree heap) kbitmapSize (ROUNDUP 32 32).toNat k := by
  have hone : (ROUNDUP 32 32).toNat = 1 := rfl
  rw [hone]
  refine ⟨⟨hk, fun p hp hp' => (h.bits p (by omega)).mpr hp⟩, fun b hb hfit => ?_⟩
  have := (h.bits b (by omega)).mp (hfit.2 b le_rfl (by omega))
  omega

/-- So it is found. -/
lemma FilledUpTo.kmalloc_eq (h : FilledUpTo k heap) (hk : k < kbitmapSize) :
    kmalloc heap 32 = (some (blockAddr heap.kHeapBegin k), recordBlock heap (nextSlot heap) k 1) :=
  kmalloc_firstFit ⟨k, hk, (h.bits k hk).mpr le_rfl⟩ (by decide) (h.firstFit hk)

/-- The next entry is the first empty one. -/
lemma FilledUpTo.nextSlot_eq (h : FilledUpTo k heap) (hk : k < tableEntries) :
    nextSlot heap = k := by
  have hempty : (heap.allocationBitmap k).size = 0 := (h.table k hk).mpr le_rfl
  obtain ⟨hlt, hslot⟩ := nextSlot_spec ⟨k, hk, hempty⟩
  exact le_antisymm (nextSlot_le hk hempty) ((h.table _ hlt).mp hslot)

lemma FilledUpTo.succ (h : FilledUpTo k heap) (hk : k < tableEntries) :
    FilledUpTo (k + 1) (recordBlock heap (nextSlot heap) k 1) where
  bits := fun p hp => by
    have hcell := h.bits p hp
    rw [BlockFree] at hcell ⊢
    rw [kbitmap_recordBlock, isset_setRange, Bool.or_eq_false_iff, hcell, decide_eq_false_iff_not]
    have hone : (1 : UInt64).toNat = 1 := rfl
    omega
  table := fun i hi => by
    rw [h.nextSlot_eq hk, allocationBitmap_recordBlock]
    by_cases heq : i = k
    · rw [heq, Function.update_self]
      exact iff_of_false (fun hzero : UInt64.toUInt16 1 = 0 => absurd hzero (by decide)) (by omega)
    · rw [Function.update_of_ne heq, h.table i hi]
      omega

lemma FilledUpTo.tableOk (h : FilledUpTo k heap) (hk : k < tableEntries) :
    TableOk heap (.malloc 32) :=
  have hsize : k < kbitmapSize := lt_of_lt_of_le hk (by decide)
  ⟨Or.inl ⟨k, hk, (h.table k hk).mpr le_rfl⟩,
    fun hstray => hstray.1 ⟨k, hsize, (h.bits k hsize).mpr le_rfl⟩⟩

/-- As many one-block allocations as the table has entries. -/
lemma filled_run (hfresh : FreshHeap h₀) (hk : k ≤ tableEntries) : ∃ t,
    Run TableCall ⟨h₀, [], []⟩ (List.replicate k (.malloc 32)) t ∧ FilledUpTo k t.heap := by
  induction k with
  | zero => exact ⟨_, Run.nil, filled_start hfresh⟩
  | succ k ih =>
      obtain ⟨t, hrun, hfilled⟩ := ih (by omega)
      have hsize : k < kbitmapSize := lt_of_lt_of_le hk (by decide)
      rw [List.replicate_succ']
      exact ⟨_, hrun.snoc ⟨HeapCall.malloc (hfilled.kmalloc_eq hsize), hfilled.tableOk hk⟩,
        hfilled.succ hk⟩

/-- The table has room for 16384 allocations. -/
theorem tableEntries_run_filled : ∃ t,
    Run TableCall ⟨(kHeapInit plainPmm (fun _ => 0xff) (fun _ => ⟨0xff, 0xff⟩)).1, [], []⟩
      (List.replicate tableEntries (.malloc 32)) t ∧ ∀ i ∈ t.touched, i < tableEntries := by
  obtain ⟨t, hrun, _⟩ := filled_run (freshHeap_kHeapInit plainPmm _ _) le_rfl
  exact ⟨t, hrun, tableEntries_run plainPmm _ _ _ rfl hrun⟩

/-- **The next one-block allocation goes behind the table**, although half of the heap is free. -/
theorem tableEntries_exceeded : ∃ t,
    Run HeapCall ⟨(kHeapInit plainPmm (fun _ => 0xff) (fun _ => ⟨0xff, 0xff⟩)).1, [], []⟩
      (List.replicate (tableEntries + 1) (.malloc 32)) t ∧ ¬ ∀ i ∈ t.touched, i < tableEntries := by
  obtain ⟨t, hrun, hfilled⟩ := filled_run (freshHeap_kHeapInit plainPmm _ _) le_rfl
  have hcall := hfilled.kmalloc_eq (by decide)
  have hfull : ¬ TableRoom t.heap := by
    rintro ⟨i, hi, hempty⟩
    have := (hfilled.table i hi).mp hempty
    omega
  have hfound : (blockSearch t.heap 32).isSome = true := by
    rw [Seaweed.kmalloc_eq] at hcall
    rcases hsearch : blockSearch t.heap 32 with _ | base
    · rw [hsearch] at hcall
      exact nomatch (Prod.ext_iff.mp hcall).1
    · rfl
  rw [List.replicate_succ']
  have hrun := hrun.mono fun _ _ _ hstep => hstep.1
  refine ⟨_, hrun.snoc (HeapCall.malloc hcall), fun hinside => ?_⟩
  have hlast := hinside tableEntries (List.mem_append_right _
    (mem_entriesOf.mpr (kmalloc_touches_outside hfull hfound)))
  exact absurd hlast (lt_irrefl _)

/-! ## A free of any address -/

/-- Freeing the address returns 0, changes nothing, and touches no entry behind the last one. -/
structure FreeHarmless (heap : Heap) (addr : UInt64) : Prop where
  returns : (kfree heap addr).1 = 0
  bits : (kfree heap addr).2.kbitmap = heap.kbitmap
  table : (kfree heap addr).2.allocationBitmap = heap.allocationBitmap
  inside : ∀ i, .entry i ∈ kfreeAccesses heap addr → i < allocationBitmapSize

/-- The address is in block 0, and the first entry that reads as block 0 is an empty one. -/
def StrayFreeOk (heap : Heap) (addr : UInt64) : Prop :=
  bitmapBase heap.kHeapBegin addr = 0 ∧ ∃ i, i < allocationBitmapSize ∧
    heap.allocationBitmap i = ⟨0, 0⟩ ∧ ∀ j, j < i → (heap.allocationBitmap j).block ≠ 0

/-- A harmless free has found an empty entry. -/
lemma FreeHarmless.strayFreeOk (h : FreeHarmless heap addr) : StrayFreeOk heap addr := by
  have hlt := h.inside _ (mem_kfreeAccesses.mpr ⟨le_rfl, Or.inr rfl⟩)
  have hempty : heap.allocationBitmap (kfreeSlot heap addr) = ⟨0, 0⟩ := by
    rw [← h.table]
    exact Function.update_self ..
  have hbase : bitmapBase heap.kHeapBegin addr = 0 := by
    have hblock := kfreeSlot_block hlt
    rw [hempty] at hblock
    exact UInt64.toNat_inj.mp hblock.symm
  refine ⟨hbase, kfreeSlot heap addr, hlt, hempty, fun j hj hzero => kfreeSlot_first hj ?_⟩
  rw [hzero, hbase]
  rfl

/-- **Exactly when a free does no harm**, whatever the heap and whatever the address. -/
theorem kfree_harmless_iff (heap : Heap) (addr : UInt64) :
    FreeHarmless heap addr ↔ StrayFreeOk heap addr := by
  refine ⟨FreeHarmless.strayFreeOk, ?_⟩
  rintro ⟨hbase, i, hi, hempty, hfirst⟩
  have hle : kfreeSlot heap addr ≤ i := kfreeSlot_le hi (by rw [hempty, hbase]; rfl)
  have hslot : kfreeSlot heap addr = i := by
    by_contra hne
    have hblock := kfreeSlot_block (lt_of_le_of_lt hle hi)
    rw [hbase] at hblock
    exact hfirst _ (lt_of_le_of_ne hle hne) (UInt16.toNat_inj.mp hblock)
  have hcall : kfree heap addr = (0, heap) := by
    have hsame : Function.update heap.allocationBitmap i ⟨0, 0⟩ = heap.allocationBitmap := by
      rw [← hempty, Function.update_eq_self]
    rw [kfree_eq heap (b := 0) (by rw [hbase]; rfl) (by decide), hslot, hempty, releaseBlock, hsame]
    rfl
  constructor
  case returns => rw [hcall]
  case bits => rw [hcall]
  case table => rw [hcall]
  case inside =>
    intro j hj
    have := (mem_kfreeAccesses.mp hj).1
    omega

/-- Two allocations, and a free of the second. -/
def freedMoves : List HeapMove :=
  [.malloc 32 0 0, .malloc 32 1 1, .free ⟨0xffff800000124020, 32, 1⟩ 1 1 1]

/-- **A second free does harm**: it finds no entry, and goes to the one behind the last. -/
theorem kfree_twice : ∃ s : HeapState,
    Run HeapStep ⟨(kHeapInit plainPmm (fun _ => 0xff) (fun _ => ⟨0xff, 0xff⟩)).1, []⟩
      (freedMoves.map HeapMove.event) s ∧
    (∀ a ∈ s.live, a.addr ≠ 0xffff800000124020) ∧ ¬ FreeHarmless s.heap 0xffff800000124020 := by
  rw [plainHeap_eq]
  refine ⟨_, Run.replay heapStep_next _ _ ?_, ?_, fun hharmless =>
    absurd hharmless.strayFreeOk.1 ?_⟩
  · decide +kernel
  · decide +kernel
  · decide +kernel

end Seaweed
