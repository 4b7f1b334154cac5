import Seaweed.Mm.HeapFrees
import Seaweed.Mm.Krealloc

/-!
# Copying out of a freed block (`krealloc` in `kernel/mm/kHeap.c`)

`krealloc` frees the old blocks, allocates, and then copies out of what it has freed.  The new
allocation may overlap the old one; but it does not begin inside it, as the first fit would have
been found at the beginning of the old blocks already.

* `Released` — the free has given back all blocks of the allocation.
* `CopiesOut` — the new address is not inside the old blocks, and the words arrive.
* `blockAddr_outside` — blocks that are not inside others do not have their addresses there.
* **`krealloc_copiesOut`** — so it is after every run.
-/

namespace Seaweed

open FirstFit Words Transition Memory

/-- `kfree` has released the blocks of the allocation. -/
def Released (heap : Heap) (a : Block) : Prop :=
  ∀ p, p ∈ a.blocks heap.kHeapBegin → BlockFree (kfree heap a.addr).2 p

/-- The new address is not inside the old blocks.  As many words as there were blocks have been
copied, and every word of the copy is what the old one was before the call. -/
structure CopiesOut (heap : Heap) (mem : Mem) (a : Block) (size new : UInt64) : Prop where
  outside : new.toNat ≤ a.addr.toNat ∨ a.addr.toNat + 32 * a.count ≤ new.toNat
  words : (krealloc heap mem a.addr size).2.2 = memcpy64 mem new a.addr a.count
  copied : ∀ i, i < a.count →
    load64 (krealloc heap mem a.addr size).2.2 (new + UInt64.ofNat (8 * i)) =
    load64 mem (a.addr + UInt64.ofNat (8 * i))

variable {h₀ heap : Heap} {s : HeapState} {recorded : List Block}
  {L : Ledger {p | isset h₀.kbitmap p = true} kbitmapSize} {es : List HeapEvent} {a : Block}
  {mem : Mem} {size new : UInt64}

/-! ## Addresses -/

lemma blockAddr_add (kHeapBegin : UInt64) (b n : ℕ) :
    blockAddr kHeapBegin (b + n) = blockAddr kHeapBegin b + UInt64.ofNat (32 * n) := by
  have hunit : UInt64.ofNat n * BLOCKSIZE = UInt64.ofNat (32 * n) := by
    rw [Nat.mul_comm, UInt64.ofNat_mul]
    rfl
  rw [blockAddr, blockAddr, UInt64.ofNat_add, UInt64.add_mul, hunit, UInt64.add_assoc,
    UInt64.add_assoc, UInt64.add_assoc, UInt64.add_assoc, UInt64.add_comm (UInt64.ofNat (32 * n)),
    UInt64.add_assoc]

/-- **Blocks that do not begin inside others** begin at the same address or as far from it as the
others are long, counting up and around. -/
lemma blockAddr_outside {b c n : ℕ} (h : b ≤ c ∨ c + n ≤ b) (hb : b < kbitmapSize)
    (hc : c + n ≤ kbitmapSize) (kHeapBegin : UInt64) :
    blockAddr kHeapBegin b = blockAddr kHeapBegin c ∨
      32 * n ≤ (blockAddr kHeapBegin b - blockAddr kHeapBegin c).toNat := by
  rw [kbitmapSize_eq] at hb hc
  rcases h with hle | hge
  · obtain ⟨d, rfl⟩ := Nat.exists_eq_add_of_le hle
    rcases Nat.eq_zero_or_pos d with rfl | hpos
    · exact Or.inl rfl
    · right
      have hback : blockAddr kHeapBegin b - blockAddr kHeapBegin (b + d) =
          -UInt64.ofNat (32 * d) := by
        rw [blockAddr_add, UInt64.sub_eq_add_neg, UInt64.neg_add, UInt64.sub_eq_add_neg,
          ← UInt64.add_assoc, ← UInt64.sub_eq_add_neg (blockAddr kHeapBegin b), UInt64.sub_self,
          UInt64.zero_add]
      rw [hback, UInt64.toNat_neg, toNat_ofNat_of_lt (by omega), UInt64.size]
      omega
  · obtain ⟨d, rfl⟩ := Nat.exists_eq_add_of_le hge
    right
    rw [Nat.add_assoc, blockAddr_add, toNat_add_ofNat_sub _ (by omega)]
    omega

/-- Seen as numbers, the one address is not inside what begins at the other. -/
lemma toNat_outside {p q : UInt64} {n : ℕ} (h : p = q ∨ n ≤ (p - q).toNat) :
    p.toNat ≤ q.toNat ∨ q.toNat + n ≤ p.toNat := by
  rcases h with rfl | hdist
  · exact Or.inl (Nat.le_refl _)
  · have hp := p.toNat_lt
    have hq := q.toNat_lt
    rw [UInt64.toNat_sub] at hdist
    omega

/-! ## The new allocation -/

/-- A free that has released blocks has found the entry. -/
lemma HeapFollows.freed (h : HeapFollows h₀ heap recorded L) (ha : a ∈ recorded)
    (hreleased : Released heap a) : (kfree heap a.addr).1 = UInt64.ofNat a.count := by
  rcases h.kfreeSlot_cases ha with hhit | ⟨_, _, hempty⟩
  · rw [h.kfree_hit ha hhit]
  · have hfirst : a.start h₀.kHeapBegin ∈ a.blocks h₀.kHeapBegin :=
      ⟨le_refl _, Nat.lt_add_of_pos_right (h.count_pos ha)⟩
    have hclear := hreleased (a.start h₀.kHeapBegin) (by rwa [h.begins])
    rw [h.kfree_miss ha hempty, BlockFree, h.marked ha hfirst] at hclear
    cases hclear

/-- **The new allocation** does not begin inside the blocks that have just been released. -/
lemma HeapFollows.new_outside (h : HeapFollows h₀ heap recorded L) (ha : a ∈ recorded)
    (hreleased : Released heap a) (hnew : (krealloc heap mem a.addr size).1 = some new) :
    new = a.addr ∨ 32 * a.count ≤ (new - a.addr).toNat := by
  have hwithin := h.within ha
  have hpos := h.count_pos ha
  have hbegins : (kfree heap a.addr).2.kHeapBegin = h₀.kHeapBegin := h.begins
  have hfree : HasFreeBlock (kfree heap a.addr).2 := by
    refine ⟨a.start h₀.kHeapBegin, by omega, hreleased _ ?_⟩
    rw [h.begins]
    exact ⟨le_refl _, Nat.lt_add_of_pos_right hpos⟩
  have hkmalloc : (kmalloc (kfree heap a.addr).2 ((kfree heap a.addr).1 + size)).1 = some new :=
    hnew
  rcases kmalloc_cases hfree ((kfree heap a.addr).1 + size) with ⟨b, hcount, hfirst, hcall⟩ |
    ⟨_, hcall⟩
  · rw [hcall, hbegins, Option.some_inj] at hkmalloc
    have houtside := hfirst.outside hreleased
    rw [h.begins] at houtside
    have hlast := hfirst.1.1
    have hsome := toNat_pos hcount
    have haddr := blockAddr_outside houtside (by omega) hwithin h₀.kHeapBegin
    rwa [← hkmalloc, h.address a ha]
  · rw [hcall] at hkmalloc
    cases hkmalloc

lemma HeapFollows.copiesOut (h : HeapFollows h₀ heap recorded L) (ha : a ∈ recorded)
    (hreleased : Released heap a) (hnew : (krealloc heap mem a.addr size).1 = some new) :
    CopiesOut heap mem a size new := by
  have hwithin := h.within ha
  rw [kbitmapSize_eq] at hwithin
  have houtside := h.new_outside ha hreleased hnew
  have hkmalloc : (kmalloc (kfree heap a.addr).2 ((kfree heap a.addr).1 + size)).1 = some new :=
    hnew
  have hwords : (krealloc heap mem a.addr size).2.2 = memcpy64 mem new a.addr a.count := by
    rw [krealloc, hkmalloc, Option.getD_some, h.freed ha hreleased, toNat_ofNat_of_lt (by omega)]
  constructor
  case outside => exact toNat_outside houtside
  case words => exact hwords
  case copied =>
    intro i hi
    rw [hwords]
    exact load64_memcpy64 (houtside.imp_right (by omega)) hi (by omega)

/-- **Copying out of the freed blocks is safe**, in every state that the heap can reach. -/
theorem krealloc_copiesOut (pmm : Pmm) (bits : Bitmap) (entries : ℕ → Allocation) (h₀ : Heap)
    (hinit : h₀ = (kHeapInit pmm bits entries).1) (hrun : Run HeapStep ⟨h₀, []⟩ es s)
    (ha : a ∈ s.live) (size : UInt64) (mem : Mem) (hreleased : Released s.heap a)
    (hnew : (krealloc s.heap mem a.addr size).1 = some new) : CopiesOut s.heap mem a size new := by
  subst hinit
  obtain ⟨lost, L, h⟩ := heapFollows_run (freshHeap_kHeapInit pmm bits entries) hrun
  exact h.copiesOut (List.mem_append_left lost ha) hreleased hnew

/-- Two blocks behind a free one. -/
def movedState : HeapState := carefulMoves.foldl HeapMove.next plainState

/-- They move down by one, onto themselves. -/
theorem krealloc_copiesOut_overlap : CopiesOut movedState.heap (fun x => x.toUInt8)
    ⟨0xffff800000124020, 40, 1⟩ 60 0xffff800000124000 := by
  have hrun : Run HeapStep plainState (carefulMoves.map HeapMove.event) movedState :=
    Run.replay heapStep_next _ _ (by rw [plainState, plainHeap_eq]; decide +kernel)
  have hlive : (⟨0xffff800000124020, 40, 1⟩ : Block) ∈ movedState.live := by
    rw [movedState, plainState, plainHeap_eq]
    decide +kernel
  have hreleased : Released movedState.heap ⟨0xffff800000124020, 40, 1⟩ := by
    have hblocks : Block.blocks movedState.heap.kHeapBegin ⟨0xffff800000124020, 40, 1⟩ =
        ⟨1, 2⟩ := by
      rw [movedState, plainState, plainHeap_eq]
      decide +kernel
    rw [Released, hblocks, movedState, plainState, plainHeap_eq]
    rintro p ⟨hfirst, hlast⟩
    change 1 ≤ p at hfirst
    change p < 1 + 2 at hlast
    have hp : p = 1 ∨ p = 2 := by omega
    rcases hp with rfl | rfl
    · decide +kernel
    · decide +kernel
  exact krealloc_copiesOut plainPmm _ _ _ rfl hrun hlive _ _ hreleased
    (by rw [movedState, plainState, plainHeap_eq]; decide +kernel)

end Seaweed
