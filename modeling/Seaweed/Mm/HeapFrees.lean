import Seaweed.Mm.HeapRuns

/-!
# Frees of the kernel heap

When a free finds the entry of its allocation it is exact.  When its search stops early, at an
emptied entry, the allocation is lost.

* `FreesExactly` — the number of blocks is returned, and just these and the entry are cleared.
* `HeapFollows.freesExactly_iff` — a free is exact precisely when its search cannot stop early.
* **`kfree_exact_run`** — when no free can stop early, nothing is ever lost.
* **`kfree_loses_block0`** — a run in which one does.
-/

namespace Seaweed

open FirstFit Words Transition

variable {h₀ heap : Heap} {s : HeapState} {recorded : List Block}
  {L : Ledger {p | isset h₀.kbitmap p = true} kbitmapSize} {es : List HeapEvent} {a : Block}

/-! ## Freeing exactly -/

/-- Freeing the allocation returns its number of blocks, clears its bits and no other, and empties
its table entry and no other. -/
structure FreesExactly (heap : Heap) (a : Block) : Prop where
  returns : (kfree heap a.addr).1.toNat = a.count
  bits : ∀ p, isset (kfree heap a.addr).2.kbitmap p
    = (isset heap.kbitmap p && decide (p ∉ a.blocks heap.kHeapBegin))
  table : (kfree heap a.addr).2.allocationBitmap
    = Function.update heap.allocationBitmap a.slot ⟨0, 0⟩

/-- **A free is exact precisely when its search cannot stop early.** -/
theorem HeapFollows.freesExactly_iff (h : HeapFollows h₀ heap recorded L) (ha : a ∈ recorded) :
    FreesExactly heap a ↔ FreeOk heap a := by
  rw [h.freeOk_iff ha]
  constructor
  · intro hexact
    rcases h.kfreeSlot_cases ha with hhit | ⟨_, _, hempty⟩
    · exact hhit
    · have hcount := hexact.returns
      rw [h.kfree_miss ha hempty, UInt64.toNat_zero] at hcount
      exact absurd (h.count_pos ha) (by omega)
  · intro hhit
    have hlast := h.within ha
    rw [kbitmapSize_eq] at hlast
    constructor
    case returns => rw [h.kfree_hit ha hhit, toNat_ofNat_of_lt (by omega)]
    case bits =>
      intro p
      rw [h.kfree_hit ha hhit, kbitmap_releaseBlock, isset_clearRange, h.begins]
      rfl
    case table => rw [h.kfree_hit ha hhit, allocationBitmap_releaseBlock]

/-! ## Careful runs -/

/-- A step whose free, if it is one, cannot stop early. -/
def CarefulStep (s : HeapState) (e : HeapEvent) (s' : HeapState) : Prop :=
  HeapStep s e s' ∧ ∀ a, e = .free a → FreeOk s.heap a

/-- Nothing is lost: the set bits are the blocks of the live allocations, a live allocation is
freed exactly as long as its free cannot stop early, and with nothing live the heap is empty
again. -/
structure HeapAccounted (h₀ : Heap) (s : HeapState) : Prop where
  bits : ∀ p, p < kbitmapSize →
    (isset s.heap.kbitmap p = true ↔ ∃ a ∈ s.live, p ∈ a.blocks h₀.kHeapBegin)
  exact_iff : ∀ a ∈ s.live, FreesExactly s.heap a ↔ FreeOk s.heap a
  restored : s.live = [] → s.heap = h₀

/-- Careful runs keep to a ledger without losing anything. -/
lemma heapFollows_careful (hfresh : FreshHeap h₀) (hrun : Run CarefulStep ⟨h₀, []⟩ es s) :
    ∃ L, HeapFollows h₀ s.heap s.live L := by
  refine hrun.invariant (I := fun s => ∃ L, HeapFollows h₀ s.heap s.live L) ?_
    ⟨_, heapFollows_start hfresh⟩
  rintro s e s' ⟨L, h⟩ ⟨hstep, hok⟩
  rw [← List.append_nil s.live] at h
  obtain ⟨lost', L', h', rfl | ⟨a, rfl, hno, _⟩⟩ := heapFollows_step h hstep
  · exact ⟨L', by rwa [List.append_nil] at h'⟩
  · exact absurd (hok a rfl) hno

/-- With nothing recorded the heap is as it was at the start. -/
lemma HeapFollows.restored (hfresh : FreshHeap h₀) (h : HeapFollows h₀ heap [] L) : heap = h₀ := by
  have hheld : L.held = [] := h.held
  refine Heap.ext h.begins h.pointers.1 (bitmap_ext fun p => ?_) h.pointers.2 (funext fun i => ?_)
  · rw [Bool.eq_iff_iff, h.bits p, Ledger.mem_occupied, hheld]
    simp
  · rcases Nat.lt_or_ge i tableEntries with hi | hi
    · rw [h.emptied i hi (by simp), hfresh.table i hi]
    · exact h.outside i hi

/-- **A heap whose frees cannot stop early loses nothing**, in whatever order it is used. -/
theorem kfree_exact_run (pmm : Pmm) (bits : Bitmap) (entries : ℕ → Allocation) (h₀ : Heap)
    (hinit : h₀ = (kHeapInit pmm bits entries).1) (hrun : Run CarefulStep ⟨h₀, []⟩ es s) :
    HeapAccounted h₀ s := by
  subst hinit
  have hfresh := freshHeap_kHeapInit pmm bits entries
  obtain ⟨L, h⟩ := heapFollows_careful hfresh hrun
  constructor
  case bits =>
    intro p hp
    rw [h.bits p, Ledger.mem_occupied, h.held, Set.mem_ofPred_eq, hfresh.clear p hp]
    simp
  case exact_iff => exact fun a ha => h.freesExactly_iff ha
  case restored =>
    intro hnil
    rw [hnil] at h
    exact h.restored hfresh

/-- A move whose free, if it is one, cannot stop early. -/
def HeapMove.Careful (s : HeapState) : HeapMove → Prop
  | malloc size slot b => Enabled s (malloc size slot b)
  | free a slot b count => Enabled s (free a slot b count) ∧ FreeOk s.heap a

instance (s : HeapState) : ∀ m, Decidable (HeapMove.Careful s m)
  | .malloc size slot b => inferInstanceAs (Decidable (HeapMove.Enabled s (.malloc size slot b)))
  | .free _ _ _ _ => inferInstanceAs (Decidable (_ ∧ _))

lemma carefulStep_next (s : HeapState) (m : HeapMove) (h : m.Careful s) :
    CarefulStep s m.event (m.next s) := by
  cases m with
  | malloc size slot b => exact ⟨heapStep_next s _ h, fun a ha => nomatch ha⟩
  | free a slot b count =>
      refine ⟨heapStep_next s _ h.1, fun a' ha' => ?_⟩
      obtain rfl : a = a' := by injection ha'
      exact h.2

/-- Two allocations, and a free of the first, which is recorded in the first entry. -/
def carefulMoves : List HeapMove :=
  [.malloc 32 0 0, .malloc 40 1 1, .free ⟨0xffff800000124000, 32, 0⟩ 0 0 1]

/-- After `carefulMoves` nothing is lost. -/
theorem kfree_exact_run_carefulMoves :
    HeapAccounted (kHeapInit plainPmm (fun _ => 0xff) (fun _ => ⟨0xff, 0xff⟩)).1
      (carefulMoves.foldl HeapMove.next
        ⟨(kHeapInit plainPmm (fun _ => 0xff) (fun _ => ⟨0xff, 0xff⟩)).1, []⟩) :=
  kfree_exact_run plainPmm _ _ _ rfl
    (Run.replay carefulStep_next _ _ (by rw [plainHeap_eq]; decide +kernel))

/-- **A free can lose its allocation.**  After `lossMoves`, freeing the allocation at block 0
returns 0. -/
theorem kfree_loses_block0 : ∃ (s : HeapState) (a : Block),
    Run HeapStep ⟨(kHeapInit plainPmm (fun _ => 0xff) (fun _ => ⟨0xff, 0xff⟩)).1, []⟩
      (lossMoves.map HeapMove.event) s ∧
    a ∈ s.live ∧ ¬ FreesExactly s.heap a := by
  rw [plainHeap_eq]
  refine ⟨_, ⟨0xffff800000124000, 32, 2⟩, Run.replay heapStep_next _ _ ?_, ?_,
    fun hexact => absurd hexact.returns ?_⟩
  · decide +kernel
  · decide +kernel
  · decide +kernel

end Seaweed
