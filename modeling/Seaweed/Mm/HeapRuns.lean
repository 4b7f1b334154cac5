import Seaweed.Library.Ledger
import Seaweed.Library.Runs
import Seaweed.Mm.BootMemory

/-!
# Runs of the kernel heap

Any interleaving of `kmalloc` and `kfree` on live addresses.  `krealloc` is such a pair, so its
runs are among these.

`kfree` looks for its table entry by the block field alone, and an emptied entry reads as block 0.
So an allocation at block 0 may be missed: the search stops at an earlier empty entry, and the
allocation is *lost* — no longer live for its owner, but still marked and still in the table.  The
heap follows a `Ledger` that holds the live and the lost allocations (`HeapFollows`).

* `kfreeSlot_cases` — the search finds the right entry, or misses an allocation at block 0.
* `heapFollows_run` — every run keeps to a ledger, with some allocations lost.
* **`liveAllocations_isolated`** — whatever is lost, the live allocations are isolated.
-/

namespace Seaweed

open FirstFit Words Transition

/-- A live allocation: the address `kmalloc` returned, the size it was asked for, and the table
entry it was recorded in. -/
structure Block where
  addr : UInt64
  size : UInt64
  slot : ℕ
  deriving DecidableEq

namespace Block

/-- The first block of the allocation. -/
def start (kHeapBegin : UInt64) (a : Block) : ℕ := (bitmapBase kHeapBegin a.addr).toNat

/-- How many blocks the size asked for takes. -/
def count (a : Block) : ℕ := (ROUNDUP a.size 32).toNat

def blocks (kHeapBegin : UInt64) (a : Block) : Extent := ⟨a.start kHeapBegin, a.count⟩

/-- What the table should say about the allocation. -/
def entry (kHeapBegin : UInt64) (a : Block) : Allocation :=
  ⟨UInt16.ofNat (a.start kHeapBegin), UInt16.ofNat a.count⟩

/-- The number of blocks survives the 16 bits of the table entry. -/
lemma toNat_entry_size {a : Block} (kHeapBegin : UInt64) (h : a.count ≤ kbitmapSize) :
    (a.entry kHeapBegin).size.toNat = a.count := by
  rw [kbitmapSize_eq] at h
  rw [entry, UInt16.toNat_ofNat', Nat.mod_eq_of_lt (by omega)]

/-- So does the first block. -/
lemma toNat_entry_block {a : Block} {kHeapBegin : UInt64} (h : a.start kHeapBegin ≤ kbitmapSize) :
    (a.entry kHeapBegin).block.toNat = a.start kHeapBegin := by
  rw [kbitmapSize_eq] at h
  rw [entry, UInt16.toNat_ofNat', Nat.mod_eq_of_lt (by omega)]

end Block

/-- The heap and the allocations its callers hold. -/
structure HeapState where
  heap : Heap
  live : List Block

inductive HeapEvent
  | malloc (size : UInt64)
  | free (a : Block)

/-- One call.  `kmalloc` is not called on a full heap, and finds room in the table when it
succeeds; what is freed is live. -/
inductive HeapStep : HeapState → HeapEvent → HeapState → Prop
  | malloc {s : HeapState} {size p : UInt64} {h' : Heap} (hfree : HasFreeBlock s.heap)
      (hroom : TableRoom s.heap) (hcall : kmalloc s.heap size = (some p, h')) :
      HeapStep s (.malloc size) ⟨h', ⟨p, size, nextSlot s.heap⟩ :: s.live⟩
  | mallocFail {s : HeapState} {size : UInt64} {h' : Heap} (hfree : HasFreeBlock s.heap)
      (hcall : kmalloc s.heap size = (none, h')) :
      HeapStep s (.malloc size) ⟨h', s.live⟩
  | free {s : HeapState} {a : Block} (hmem : a ∈ s.live) :
      HeapStep s (.free a) ⟨(kfree s.heap a.addr).2, s.live.erase a⟩

/-! ## The ledger the heap follows -/

/-- The heap follows a ledger.  The *recorded* allocations are those with a table entry; their
blocks are the held extents, the set bits are the occupied cells, and every entry of the table that
is not theirs is empty. -/
structure HeapFollows (h₀ heap : Heap) (recorded : List Block)
    (L : Ledger {p | isset h₀.kbitmap p = true} kbitmapSize) : Prop where
  held : L.held = recorded.map (Block.blocks h₀.kHeapBegin)
  bits : ∀ p, isset heap.kbitmap p = true ↔ p ∈ L.occupied
  address : ∀ a ∈ recorded, a.addr = blockAddr h₀.kHeapBegin (a.start h₀.kHeapBegin)
  room : ∀ a ∈ recorded, a.size.toNat ≤ 32 * a.count
  slots : (recorded.map Block.slot).Nodup
  inTable : ∀ a ∈ recorded, a.slot < tableEntries
  entries : ∀ a ∈ recorded, heap.allocationBitmap a.slot = a.entry h₀.kHeapBegin
  emptied : ∀ i, i < tableEntries → (∀ a ∈ recorded, a.slot ≠ i) → heap.allocationBitmap i = ⟨0, 0⟩
  outside : ∀ i, tableEntries ≤ i → heap.allocationBitmap i = h₀.allocationBitmap i
  begins : heap.kHeapBegin = h₀.kHeapBegin
  pointers : heap.kbitmapPtr = h₀.kbitmapPtr ∧ heap.allocationBitmapPtr = h₀.allocationBitmapPtr

/-- The state `kHeapInit` leaves: an empty table and a clear bitmap. -/
structure FreshHeap (h₀ : Heap) : Prop where
  table : ∀ i, i < tableEntries → h₀.allocationBitmap i = ⟨0, 0⟩
  clear : ∀ p, p < kbitmapSize → isset h₀.kbitmap p = false

lemma freshHeap_kHeapInit (pmm : Pmm) (bits : Bitmap) (entries : ℕ → Allocation) :
    FreshHeap (kHeapInit pmm bits entries).1 where
  table := fun i hi => by
    show memset entries ⟨0, 0⟩ tableEntries i = _
    rw [memset, if_pos hi]
  clear := fun p hp => isset_memset_zero bits (by rw [kbitmapSize_eq] at hp; omega)

variable {h₀ heap : Heap} {s s' : HeapState} {recorded lost : List Block}
  {L : Ledger {p | isset h₀.kbitmap p = true} kbitmapSize} {e : HeapEvent} {es : List HeapEvent}
  {a a' : Block}

/-- At the start nothing is recorded. -/
lemma heapFollows_start (hfresh : FreshHeap h₀) : HeapFollows h₀ h₀ [] (Ledger.empty _ _) where
  held := rfl
  bits := fun p => by simp [Ledger.mem_occupied]
  address := by simp
  room := by simp
  slots := List.nodup_nil
  inTable := by simp
  entries := by simp
  emptied := fun i hi _ => hfresh.table i hi
  outside := fun _ _ => rfl
  begins := rfl
  pointers := ⟨rfl, rfl⟩

namespace HeapFollows

lemma free_iff (h : HeapFollows h₀ heap recorded L) (p : ℕ) :
    BlockFree heap p ↔ p ∉ L.occupied := by
  rw [BlockFree, ← h.bits p, Bool.not_eq_true]

lemma blocks_mem (h : HeapFollows h₀ heap recorded L) (ha : a ∈ recorded) :
    a.blocks h₀.kHeapBegin ∈ L.held :=
  h.held ▸ List.mem_map_of_mem ha

lemma marked (h : HeapFollows h₀ heap recorded L) (ha : a ∈ recorded) {p : ℕ}
    (hp : p ∈ a.blocks h₀.kHeapBegin) : isset heap.kbitmap p = true :=
  (h.bits p).mpr (Or.inr ⟨_, h.blocks_mem ha, hp⟩)

lemma within (h : HeapFollows h₀ heap recorded L) (ha : a ∈ recorded) :
    a.start h₀.kHeapBegin + a.count ≤ kbitmapSize :=
  L.within _ (h.blocks_mem ha)

lemma count_pos (h : HeapFollows h₀ heap recorded L) (ha : a ∈ recorded) : 0 < a.count :=
  L.nonempty _ (h.blocks_mem ha)

lemma entry_size (h : HeapFollows h₀ heap recorded L) (ha : a ∈ recorded) :
    (a.entry h₀.kHeapBegin).size.toNat = a.count :=
  Block.toNat_entry_size _ (le_trans (Nat.le_add_left ..) (h.within ha))

lemma entry_block (h : HeapFollows h₀ heap recorded L) (ha : a ∈ recorded) :
    (a.entry h₀.kHeapBegin).block.toNat = a.start h₀.kHeapBegin :=
  Block.toNat_entry_block (le_trans (Nat.le_add_right ..) (h.within ha))

/-- The entry of a recorded allocation is in use. -/
lemma size_ne_zero (h : HeapFollows h₀ heap recorded L) (ha : a ∈ recorded) :
    (heap.allocationBitmap a.slot).size ≠ 0 := by
  intro hzero
  have hsize := h.entry_size ha
  rw [← h.entries a ha, hzero, UInt16.toNat_zero] at hsize
  exact absurd (h.count_pos ha) (by omega)

lemma pairwise_apart (h : HeapFollows h₀ heap recorded L) :
    recorded.Pairwise fun a a' => (a.blocks h₀.kHeapBegin).Apart (a'.blocks h₀.kHeapBegin) := by
  have := L.apart
  rwa [h.held, List.pairwise_map] at this

lemma apart (h : HeapFollows h₀ heap recorded L) (ha : a ∈ recorded) (ha' : a' ∈ recorded)
    (hne : a ≠ a') : (a.blocks h₀.kHeapBegin).Apart (a'.blocks h₀.kHeapBegin) :=
  have _ : Std.Symm fun a a' : Block =>
      (a.blocks h₀.kHeapBegin).Apart (a'.blocks h₀.kHeapBegin) := ⟨fun _ _ => Extent.Apart.symm⟩
  h.pairwise_apart.forall ha ha' hne

/-- **A block is the first block of at most one recorded allocation.** -/
lemma start_inj (h : HeapFollows h₀ heap recorded L) (ha : a ∈ recorded) (ha' : a' ∈ recorded)
    (hstart : a.start h₀.kHeapBegin = a'.start h₀.kHeapBegin) : a = a' := by
  by_contra hne
  refine h.apart ha ha' hne (a.start h₀.kHeapBegin) ⟨le_refl _, ?_⟩ ⟨hstart.symm.le, ?_⟩
  · exact Nat.lt_add_of_pos_right (h.count_pos ha)
  · rw [hstart]
    exact Nat.lt_add_of_pos_right (h.count_pos ha')

/-- The order of the recorded allocations does not matter. -/
lemma perm (h : HeapFollows h₀ heap recorded L) {recorded' : List Block}
    (hperm : recorded.Perm recorded') : ∃ L', HeapFollows h₀ heap recorded' L' := by
  refine ⟨L.permute (recorded'.map (Block.blocks h₀.kHeapBegin))
    (h.held ▸ hperm.map _), ?_⟩
  exact
    { h with
      held := rfl
      bits := fun p => by rw [Ledger.mem_occupied_permute, h.bits p]
      address := fun a ha => h.address a (hperm.mem_iff.mpr ha)
      room := fun a ha => h.room a (hperm.mem_iff.mpr ha)
      slots := ((hperm.map _).nodup_iff).mp h.slots
      inTable := fun a ha => h.inTable a (hperm.mem_iff.mpr ha)
      entries := fun a ha => h.entries a (hperm.mem_iff.mpr ha)
      emptied := fun i hi hne => h.emptied i hi fun a ha => hne a (hperm.mem_iff.mp ha) }

end HeapFollows

/-! ## One `kmalloc` -/

/-- The allocation that `kmalloc` makes when the first fit is at block `b`. -/
def mallocAt (heap : Heap) (b : ℕ) (size : UInt64) : Block :=
  ⟨blockAddr heap.kHeapBegin b, size, nextSlot heap⟩

lemma start_mallocAt (hbegin : heap.kHeapBegin = h₀.kHeapBegin) {b : ℕ} (hb : b < kbitmapSize)
    (size : UInt64) : (mallocAt heap b size).start h₀.kHeapBegin = b := by
  rw [Block.start, mallocAt, hbegin, bitmapBase_blockAddr hb]

lemma count_mallocAt (heap : Heap) (b : ℕ) (size : UInt64) :
    (mallocAt heap b size).count = (ROUNDUP size 32).toNat := rfl

/-- **A successful `kmalloc` takes free blocks and an empty table entry.** -/
theorem HeapFollows.malloc (h : HeapFollows h₀ heap recorded L) (hroom : TableRoom heap)
    {size : UInt64} {b : ℕ} (hcount : ROUNDUP size 32 ≠ 0)
    (hfit : Fits (BlockFree heap) kbitmapSize (ROUNDUP size 32).toNat b) :
    ∃ L', HeapFollows h₀ (recordBlock heap (nextSlot heap) b (ROUNDUP size 32))
      (mallocAt heap b size :: recorded) L' := by
  have hpos := toNat_pos hcount
  have hb : b < kbitmapSize := by have := hfit.1; omega
  obtain ⟨hslot, hempty⟩ := nextSlot_spec hroom
  have hnew : ∀ a ∈ recorded, a.slot ≠ nextSlot heap := fun a ha heq =>
    h.size_ne_zero ha (heq ▸ hempty)
  have hstart := start_mallocAt h.begins hb size
  have hblocks : (mallocAt heap b size).blocks h₀.kHeapBegin = ⟨b, (ROUNDUP size 32).toNat⟩ := by
    rw [Block.blocks, hstart, Block.count, mallocAt]
  have hfit' : Fits (· ∉ L.occupied) kbitmapSize (ROUNDUP size 32).toNat b :=
    ⟨hfit.1, fun p hp hp' => (h.free_iff p).mp (hfit.2 p hp hp')⟩
  refine ⟨L.take ⟨b, (ROUNDUP size 32).toNat⟩ hpos hfit', ?_⟩
  constructor
  case held => rw [Ledger.held_take, List.map_cons, hblocks, h.held]
  case bits =>
    intro p
    rw [Ledger.mem_occupied_take, ← h.bits p, kbitmap_recordBlock, isset_setRange, Bool.or_eq_true,
      decide_eq_true_eq]
    rfl
  case address =>
    refine List.forall_mem_cons.mpr ⟨?_, h.address⟩
    rw [hstart, mallocAt, h.begins]
  case room => exact List.forall_mem_cons.mpr ⟨ROUNDUP_room hcount, h.room⟩
  case slots =>
    rw [List.map_cons, List.nodup_cons]
    refine ⟨fun hmem => ?_, h.slots⟩
    obtain ⟨a, ha, heq⟩ := List.mem_map.mp hmem
    exact hnew a ha heq
  case inTable => exact List.forall_mem_cons.mpr ⟨hslot, h.inTable⟩
  case entries =>
    refine List.forall_mem_cons.mpr ⟨?_, fun a ha => ?_⟩
    · rw [Block.entry, hstart]
      simp [mallocAt, Block.count]
    · rw [allocationBitmap_recordBlock, Function.update_of_ne (hnew a ha), h.entries a ha]
  case emptied =>
    intro i hi hne
    have hi' : i ≠ nextSlot heap := fun heq => hne _ List.mem_cons_self heq.symm
    rw [allocationBitmap_recordBlock, Function.update_of_ne hi']
    exact h.emptied i hi fun a ha => hne a (List.mem_cons_of_mem _ ha)
  case outside =>
    intro i hi
    rw [allocationBitmap_recordBlock, Function.update_of_ne (by omega)]
    exact h.outside i hi
  case begins => exact h.begins
  case pointers => exact h.pointers

/-! ## One `kfree` -/

/-- **Where the search of `kfree` stops**: at the entry of the allocation, or at an empty entry
before it, which reads as block 0. -/
theorem HeapFollows.kfreeSlot_cases (h : HeapFollows h₀ heap recorded L) (ha : a ∈ recorded) :
    kfreeSlot heap a.addr = a.slot ∨
    (a.start h₀.kHeapBegin = 0 ∧ kfreeSlot heap a.addr < a.slot ∧
      heap.allocationBitmap (kfreeSlot heap a.addr) = ⟨0, 0⟩) := by
  have hin := h.inTable a ha
  have hstart : (bitmapBase heap.kHeapBegin a.addr).toNat = a.start h₀.kHeapBegin := by
    rw [Block.start, h.begins]
  have hslot : a.slot < allocationBitmapSize := lt_trans hin (by decide)
  have hle : kfreeSlot heap a.addr ≤ a.slot :=
    kfreeSlot_le hslot (by rw [h.entries a ha, h.entry_block ha, hstart])
  have hstop := kfreeSlot_block (lt_of_le_of_lt hle hslot)
  rw [hstart] at hstop
  by_cases hown : ∃ a' ∈ recorded, a'.slot = kfreeSlot heap a.addr
  · obtain ⟨a', ha', hslot⟩ := hown
    rw [← hslot, h.entries a' ha', h.entry_block ha'] at hstop
    obtain rfl := h.start_inj ha' ha hstop
    exact Or.inl hslot.symm
  · have hempty := h.emptied (kfreeSlot heap a.addr) (by omega) fun a' ha' heq =>
      hown ⟨a', ha', heq⟩
    refine Or.inr ⟨?_, lt_of_le_of_ne hle fun heq => hown ⟨a, ha, heq.symm⟩, hempty⟩
    rw [hempty] at hstop
    exact hstop.symm

/-- The allocation is not at block 0, or every table entry before its own is in use: then the
search of `kfree` cannot stop early. -/
def FreeOk (heap : Heap) (a : Block) : Prop :=
  a.start heap.kHeapBegin ≠ 0 ∨ ∀ i, i < a.slot → (heap.allocationBitmap i).size ≠ 0

instance (heap : Heap) (a : Block) : Decidable (FreeOk heap a) :=
  inferInstanceAs (Decidable (_ ∨ _))

/-- **The search of `kfree` finds the entry of the allocation exactly when it cannot stop
early.** -/
theorem HeapFollows.freeOk_iff (h : HeapFollows h₀ heap recorded L) (ha : a ∈ recorded) :
    FreeOk heap a ↔ kfreeSlot heap a.addr = a.slot := by
  rw [FreeOk, h.begins]
  constructor
  · intro hok
    rcases h.kfreeSlot_cases ha with hhit | ⟨hstart, hlt, hempty⟩
    · exact hhit
    · rcases hok with hne | hused
      · exact absurd hstart hne
      · exact absurd (by rw [hempty]) (hused _ hlt)
  · intro hhit
    by_contra hno
    push Not at hno
    obtain ⟨hstart, i, hi, hsize⟩ := hno
    have hin := h.inTable a ha
    have hempty := h.emptied i (by omega) fun a' ha' heq =>
      h.size_ne_zero ha' (heq ▸ hsize)
    have hle : kfreeSlot heap a.addr ≤ i := by
      refine kfreeSlot_le (lt_trans (lt_trans hi hin) (by decide)) ?_
      rw [hempty, h.begins]
      exact hstart.symm
    omega

/-- The first block of an allocation is in the page bitmap of the heap. -/
lemma HeapFollows.start_lt (h : HeapFollows h₀ heap recorded L) (ha : a ∈ recorded) :
    a.start h₀.kHeapBegin < kbitmapSize := by
  have hwithin := h.within ha
  have hpos := h.count_pos ha
  omega

/-- A free that finds its entry gives back the blocks and the entry of the allocation. -/
lemma HeapFollows.kfree_hit (h : HeapFollows h₀ heap recorded L) (ha : a ∈ recorded)
    (hhit : kfreeSlot heap a.addr = a.slot) :
    kfree heap a.addr = (UInt64.ofNat a.count,
      releaseBlock heap a.slot (a.start h₀.kHeapBegin) a.count) := by
  have hsize := h.entry_size ha
  have hret : (a.entry h₀.kHeapBegin).size.toUInt64 = UInt64.ofNat a.count := by
    rw [← UInt64.toNat_inj, UInt16.toNat_toUInt64, hsize, toNat_ofNat_of_lt]
    have := h.within ha
    rw [kbitmapSize_eq] at this
    omega
  rw [kfree_eq heap (by rw [h.begins]; rfl) (h.start_lt ha), hhit, h.entries a ha, hsize, hret]

/-- A free that misses its entry stops at an empty one: it returns 0 and does nothing. -/
lemma HeapFollows.kfree_miss (h : HeapFollows h₀ heap recorded L) (ha : a ∈ recorded)
    (hempty : heap.allocationBitmap (kfreeSlot heap a.addr) = ⟨0, 0⟩) :
    kfree heap a.addr = (0, heap) := by
  have hsame : Function.update heap.allocationBitmap (kfreeSlot heap a.addr) ⟨0, 0⟩
      = heap.allocationBitmap := by rw [← hempty, Function.update_eq_self]
  rw [kfree_eq heap (by rw [h.begins]; rfl) (h.start_lt ha), hempty, releaseBlock, hsame]
  rfl

/-- **A free that finds its entry takes the allocation out of the ledger.** -/
theorem HeapFollows.release (h : HeapFollows h₀ heap recorded L) (ha : a ∈ recorded) :
    ∃ L', HeapFollows h₀ (releaseBlock heap a.slot (a.start h₀.kHeapBegin) a.count)
      (recorded.erase a) L' := by
  obtain ⟨L', h'⟩ := h.perm (List.perm_cons_erase ha)
  have hperm : L'.held.Perm
      (a.blocks h₀.kHeapBegin :: (recorded.erase a).map (Block.blocks h₀.kHeapBegin)) := by
    rw [h'.held, List.map_cons]
  have hmem : ∀ a' ∈ recorded.erase a, a' ∈ a :: recorded.erase a := fun a' ha' =>
    List.mem_cons_of_mem a ha'
  have hslots := List.nodup_cons.mp (List.map_cons ▸ h'.slots)
  have hother : ∀ a' ∈ recorded.erase a, a'.slot ≠ a.slot := fun a' ha' heq =>
    hslots.1 (heq ▸ List.mem_map_of_mem ha')
  refine ⟨L'.give _ hperm, ?_⟩
  constructor
  case held => rfl
  case bits =>
    intro p
    rw [Ledger.mem_occupied_give, ← h'.bits p, kbitmap_releaseBlock, isset_clearRange,
      Bool.and_eq_true, decide_eq_true_eq]
    rfl
  case address => exact fun a' ha' => h'.address a' (hmem a' ha')
  case room => exact fun a' ha' => h'.room a' (hmem a' ha')
  case slots => exact hslots.2
  case inTable => exact fun a' ha' => h'.inTable a' (hmem a' ha')
  case entries =>
    intro a' ha'
    rw [allocationBitmap_releaseBlock, Function.update_of_ne (hother a' ha'),
      h'.entries a' (hmem a' ha')]
  case emptied =>
    intro i hi hne
    by_cases heq : i = a.slot
    · rw [heq, allocationBitmap_releaseBlock, Function.update_self]
    · rw [allocationBitmap_releaseBlock, Function.update_of_ne heq]
      refine h'.emptied i hi fun a' ha' => ?_
      rcases List.mem_cons.mp ha' with rfl | ha'
      · exact fun h => heq h.symm
      · exact hne a' ha'
  case outside =>
    intro i hi
    have hin := h.inTable a ha
    rw [allocationBitmap_releaseBlock, Function.update_of_ne (by omega), h'.outside i hi]
  case begins => exact h'.begins
  case pointers => exact h'.pointers

/-! ## Runs -/

/-- **One call keeps to the ledger.**  A free either finds its entry, or cannot and loses the
allocation. -/
theorem heapFollows_step (h : HeapFollows h₀ s.heap (s.live ++ lost) L) (hstep : HeapStep s e s') :
    ∃ lost' L', HeapFollows h₀ s'.heap (s'.live ++ lost') L' ∧
      (lost' = lost ∨ ∃ a, e = .free a ∧ ¬ FreeOk s.heap a ∧ lost' = a :: lost) := by
  cases hstep with
  | @malloc size p h' hfree hroom hcall =>
      rcases kmalloc_cases hfree size with ⟨b, hcount, hfirst, heq⟩ | ⟨_, heq⟩
      · rw [heq, Prod.mk.injEq, Option.some.injEq] at hcall
        obtain ⟨rfl, rfl⟩ := hcall
        obtain ⟨L', h'⟩ := h.malloc hroom hcount hfirst.1
        exact ⟨lost, L', h', Or.inl rfl⟩
      · rw [heq, Prod.mk.injEq] at hcall
        exact nomatch hcall.1
  | @mallocFail size h' hfree hcall =>
      rcases kmalloc_cases hfree size with ⟨b, _, _, heq⟩ | ⟨_, heq⟩
      · rw [heq, Prod.mk.injEq] at hcall
        exact nomatch hcall.1
      · rw [heq, Prod.mk.injEq] at hcall
        obtain ⟨_, rfl⟩ := hcall
        exact ⟨lost, L, h, Or.inl rfl⟩
  | @free a hmem =>
      have ha : a ∈ s.live ++ lost := List.mem_append_left _ hmem
      rcases h.kfreeSlot_cases ha with hhit | ⟨_, hlt, hempty⟩
      · obtain ⟨L', h'⟩ := h.release ha
        rw [List.erase_append_left _ hmem] at h'
        exact ⟨lost, L', by rw [h.kfree_hit ha hhit]; exact h', Or.inl rfl⟩
      · have hperm : (s.live ++ lost).Perm (s.live.erase a ++ a :: lost) :=
          ((List.perm_cons_erase hmem).append_right lost).trans List.perm_middle.symm
        obtain ⟨L', h'⟩ := h.perm hperm
        refine ⟨a :: lost, L', by rw [h.kfree_miss ha hempty]; exact h', Or.inr ⟨a, rfl, ?_, rfl⟩⟩
        rw [h.freeOk_iff ha]
        exact hlt.ne

/-- Every run keeps to a ledger, with some allocations lost on the way. -/
theorem heapFollows_run (hfresh : FreshHeap h₀) (hrun : Run HeapStep ⟨h₀, []⟩ es s) :
    ∃ lost L, HeapFollows h₀ s.heap (s.live ++ lost) L := by
  refine hrun.invariant (I := fun s => ∃ lost L, HeapFollows h₀ s.heap (s.live ++ lost) L) ?_
    ⟨[], _, heapFollows_start hfresh⟩
  rintro s e s' ⟨lost, L, h⟩ hstep
  obtain ⟨lost', L', h', _⟩ := heapFollows_step h hstep
  exact ⟨lost', L', h'⟩

/-! ## Computing a run -/

/-- What a call does, spelled out: where a `kmalloc` finds room, and how many blocks a `kfree`
releases at which entry. -/
inductive HeapMove
  | malloc (size : UInt64) (slot b : ℕ)
  | free (a : Block) (slot b count : ℕ)

namespace HeapMove

def event : HeapMove → HeapEvent
  | malloc size _ _ => .malloc size
  | free a _ _ _ => .free a

/-- The state the call leads to. -/
def next (s : HeapState) : HeapMove → HeapState
  | malloc size slot b => ⟨recordBlock s.heap slot b (ROUNDUP size 32),
      ⟨blockAddr s.heap.kHeapBegin b, size, slot⟩ :: s.live⟩
  | free a slot b count => ⟨releaseBlock s.heap slot b count, s.live.erase a⟩

/-- The call does what the move says.  For a `kmalloc` the last block and the last table entry are
required to be free, which is more than it needs. -/
def Enabled (s : HeapState) : HeapMove → Prop
  | malloc size slot b => BlockFree s.heap (kbitmapSize - 1) ∧
      (s.heap.allocationBitmap (tableEntries - 1)).size = 0 ∧ ROUNDUP size 32 ≠ 0 ∧
      IsFirstFit (BlockFree s.heap) kbitmapSize (ROUNDUP size 32).toNat b ∧ nextSlot s.heap = slot
  | free a slot b count => a ∈ s.live ∧ b < kbitmapSize ∧
      (bitmapBase s.heap.kHeapBegin a.addr).toNat = b ∧ kfreeSlot s.heap a.addr = slot ∧
      (s.heap.allocationBitmap slot).size.toNat = count

instance (s : HeapState) : ∀ m, Decidable (Enabled s m)
  | malloc _ _ _ => inferInstanceAs (Decidable (_ ∧ _))
  | free _ _ _ _ => inferInstanceAs (Decidable (_ ∧ _))

end HeapMove

lemma heapStep_next (s : HeapState) (m : HeapMove) (h : m.Enabled s) :
    HeapStep s m.event (m.next s) := by
  cases m with
  | malloc size slot b =>
      obtain ⟨hblock, hentry, hcount, hfirst, rfl⟩ := h
      have hfree : HasFreeBlock s.heap := ⟨_, by decide, hblock⟩
      exact HeapStep.malloc hfree ⟨_, by decide, hentry⟩ (kmalloc_firstFit hfree hcount hfirst)
  | free a slot b count =>
      obtain ⟨hmem, hb, hbase, rfl, rfl⟩ := h
      have hstep := HeapStep.free hmem
      rwa [kfree_eq s.heap hbase hb] at hstep

/-! ## Isolation -/

/-- A call has left the bits and the table entry of an allocation as they were. -/
def Unchanged (kHeapBegin : UInt64) (heap heap' : Heap) (a : Block) : Prop :=
  heap'.allocationBitmap a.slot = heap.allocationBitmap a.slot ∧
    ∀ p ∈ a.blocks kHeapBegin, isset heap'.kbitmap p = isset heap.kbitmap p

/-- What follows the same ledger's rules before and after has not changed in between. -/
lemma HeapFollows.unchanged {heap' : Heap} {recorded' : List Block}
    {L' : Ledger {p | isset h₀.kbitmap p = true} kbitmapSize}
    (h : HeapFollows h₀ heap recorded L) (h' : HeapFollows h₀ heap' recorded' L')
    (ha : a ∈ recorded) (ha' : a ∈ recorded') : Unchanged h₀.kHeapBegin heap heap' a :=
  ⟨by rw [h'.entries a ha', h.entries a ha],
    fun p hp => by rw [h'.marked ha' hp, h.marked ha hp]⟩

/-- The live allocations are isolated: their blocks are pairwise apart, inside the heap, large
enough and marked, the table records each of them, and no call touches the marks or the entry of
another one. -/
structure HeapIsolated (h₀ : Heap) (s : HeapState) : Prop where
  address : ∀ a ∈ s.live, a.addr = blockAddr h₀.kHeapBegin (a.start h₀.kHeapBegin)
  apart : s.live.Pairwise fun a a' => (a.blocks h₀.kHeapBegin).Apart (a'.blocks h₀.kHeapBegin)
  within : ∀ a ∈ s.live, a.start h₀.kHeapBegin + a.count ≤ kbitmapSize
  room : ∀ a ∈ s.live, a.size.toNat ≤ 32 * a.count
  marked : ∀ a ∈ s.live, ∀ p ∈ a.blocks h₀.kHeapBegin, isset s.heap.kbitmap p = true
  recorded : ∀ a ∈ s.live, s.heap.allocationBitmap a.slot = a.entry h₀.kHeapBegin
  malloc_frame : ∀ size s', HeapStep s (.malloc size) s' → ∀ a ∈ s.live,
    Unchanged h₀.kHeapBegin s.heap s'.heap a
  free_frame : ∀ a ∈ s.live, ∀ a' ∈ s.live, a' ≠ a →
    Unchanged h₀.kHeapBegin s.heap (kfree s.heap a.addr).2 a'

/-- **The live allocations are isolated**, in whatever order the heap is used, and even after a
free has matched the wrong entry. -/
theorem liveAllocations_isolated (pmm : Pmm) (bits : Bitmap) (entries : ℕ → Allocation)
    (h₀ : Heap) (hinit : h₀ = (kHeapInit pmm bits entries).1)
    (hrun : Run HeapStep ⟨h₀, []⟩ es s) : HeapIsolated h₀ s := by
  subst hinit
  obtain ⟨lost, L, h⟩ := heapFollows_run (freshHeap_kHeapInit pmm bits entries) hrun
  have hmem : ∀ a ∈ s.live, a ∈ s.live ++ lost := fun a ha => List.mem_append_left lost ha
  constructor
  case address => exact fun a ha => h.address a (hmem a ha)
  case apart => exact (List.pairwise_append.mp h.pairwise_apart).1
  case within => exact fun a ha => h.within (hmem a ha)
  case room => exact fun a ha => h.room a (hmem a ha)
  case marked => exact fun a ha p hp => h.marked (hmem a ha) hp
  case recorded => exact fun a ha => h.entries a (hmem a ha)
  case malloc_frame =>
    intro size s' hstep a ha
    obtain ⟨lost', L', h', _⟩ := heapFollows_step h hstep
    refine h.unchanged h' (hmem a ha) (List.mem_append_left lost' ?_)
    cases hstep with
    | malloc => exact List.mem_cons_of_mem _ ha
    | mallocFail => exact ha
  case free_frame =>
    intro a ha a' ha' hne
    obtain ⟨lost', L', h', _⟩ := heapFollows_step h (HeapStep.free ha)
    exact h.unchanged h' (hmem a' ha')
      (List.mem_append_left lost' ((List.mem_erase_of_ne hne).mpr ha'))

/-- `A` at block 0 is freed and its entry goes to `C`, so that `D`, which gets block 0 again, is
recorded behind it; then `C` is freed and leaves an empty entry before that of `D`. -/
def lossMoves : List HeapMove :=
  [.malloc 32 0 0, .malloc 32 1 1, .free ⟨0xffff800000124000, 32, 0⟩ 0 0 1, .malloc 64 0 2,
    .malloc 32 2 0, .free ⟨0xffff800000124040, 64, 0⟩ 0 2 2]

/-- The allocations that live after `lossMoves` are isolated. -/
theorem liveAllocations_isolated_lossMoves :
    HeapIsolated (kHeapInit plainPmm (fun _ => 0xff) (fun _ => ⟨0xff, 0xff⟩)).1
      (lossMoves.foldl HeapMove.next
        ⟨(kHeapInit plainPmm (fun _ => 0xff) (fun _ => ⟨0xff, 0xff⟩)).1, []⟩) :=
  liveAllocations_isolated plainPmm _ _ _ rfl
    (Run.replay heapStep_next _ _ (by rw [plainHeap_eq]; decide +kernel))

end Seaweed
