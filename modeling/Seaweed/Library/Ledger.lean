import Seaweed.Library.FirstFit

/-!
# The ledger of an allocator

What an allocator over a row of cells is *for*, independently of how it finds room or where it
writes things down: at any time some extents are held, no two of them share a cell, none touches
a reserved cell, and each lies below the limit.  A `Ledger` carries these facts as fields, so an
allocator that is shown to follow a ledger inherits them.

* `Ledger.take` — hand out an extent of free cells.
* `Ledger.give` — take a held extent back.
* `Ledger.mem_occupied_take`, `Ledger.mem_occupied_give` — what each does to the occupied cells.
-/

namespace FirstFit

/-- The extents handed out of the cells below `limit`, none of them touching `reserved`. -/
structure Ledger (reserved : Set ℕ) (limit : ℕ) where
  held : List Extent
  apart : held.Pairwise Extent.Apart
  nonempty : ∀ e ∈ held, 0 < e.len
  within : ∀ e ∈ held, e.start + e.len ≤ limit
  fresh : ∀ e ∈ held, ∀ p ∈ e, p ∉ reserved

namespace Ledger

variable {reserved : Set ℕ} {limit : ℕ} {p : ℕ} {e f : Extent}

/-- The occupied cells: the reserved ones and those of the held extents. -/
def occupied (L : Ledger reserved limit) : Set ℕ :=
  {p | p ∈ reserved ∨ ∃ e ∈ L.held, p ∈ e}

theorem mem_occupied (L : Ledger reserved limit) :
    p ∈ L.occupied ↔ p ∈ reserved ∨ ∃ e ∈ L.held, p ∈ e := Iff.rfl

/-- Nothing is held yet. -/
def empty (reserved : Set ℕ) (limit : ℕ) : Ledger reserved limit where
  held := []
  apart := List.Pairwise.nil
  nonempty := by simp
  within := by simp
  fresh := by simp

@[simp] theorem held_empty : (empty reserved limit).held = [] := rfl

/-- Hand out an extent of free cells. -/
def take (L : Ledger reserved limit) (e : Extent) (hlen : 0 < e.len)
    (hfit : Fits (· ∉ L.occupied) limit e.len e.start) : Ledger reserved limit where
  held := e :: L.held
  apart := by
    refine List.pairwise_cons.mpr ⟨fun f hf p he hpf => ?_, L.apart⟩
    exact hfit.2 p he.1 he.2 (Or.inr ⟨f, hf, hpf⟩)
  nonempty := by
    intro f hf
    rcases List.mem_cons.mp hf with rfl | hf
    · exact hlen
    · exact L.nonempty f hf
  within := by
    intro f hf
    rcases List.mem_cons.mp hf with rfl | hf
    · exact hfit.1
    · exact L.within f hf
  fresh := by
    intro f hf p hp hres
    rcases List.mem_cons.mp hf with rfl | hf
    · exact hfit.2 p hp.1 hp.2 (Or.inl hres)
    · exact L.fresh f hf p hp hres

@[simp] theorem held_take (L : Ledger reserved limit) (hlen : 0 < e.len)
    (hfit : Fits (· ∉ L.occupied) limit e.len e.start) :
    (L.take e hlen hfit).held = e :: L.held := rfl

theorem mem_occupied_take (L : Ledger reserved limit) (hlen : 0 < e.len)
    (hfit : Fits (· ∉ L.occupied) limit e.len e.start) :
    p ∈ (L.take e hlen hfit).occupied ↔ p ∈ L.occupied ∨ p ∈ e := by
  simp only [mem_occupied, held_take, List.mem_cons, exists_eq_or_imp]
  rw [or_assoc, or_comm (a := p ∈ e)]

/-- Rearrange the list of held extents. -/
def permute (L : Ledger reserved limit) (held' : List Extent) (h : L.held.Perm held') :
    Ledger reserved limit where
  held := held'
  apart := (h.pairwise_iff fun {_ _} => Extent.Apart.symm).mp L.apart
  nonempty := fun e he => L.nonempty e (h.mem_iff.mpr he)
  within := fun e he => L.within e (h.mem_iff.mpr he)
  fresh := fun e he => L.fresh e (h.mem_iff.mpr he)

theorem mem_occupied_permute (L : Ledger reserved limit) {held' : List Extent}
    (h : L.held.Perm held') : p ∈ (L.permute held' h).occupied ↔ p ∈ L.occupied := by
  simp only [mem_occupied, permute, h.mem_iff]

/-- Take a held extent back, leaving the others. -/
def give (L : Ledger reserved limit) (rest : List Extent) (h : L.held.Perm (e :: rest)) :
    Ledger reserved limit where
  held := rest
  apart := (List.pairwise_cons.mp (L.permute _ h).apart).2
  nonempty := fun f hf => (L.permute _ h).nonempty f (List.mem_cons_of_mem e hf)
  within := fun f hf => (L.permute _ h).within f (List.mem_cons_of_mem e hf)
  fresh := fun f hf => (L.permute _ h).fresh f (List.mem_cons_of_mem e hf)

/-- **Giving an extent back frees exactly its own cells**: it shares none with the reserved
cells or with the other held extents. -/
theorem mem_occupied_give (L : Ledger reserved limit) {rest : List Extent}
    (h : L.held.Perm (e :: rest)) :
    p ∈ (L.give rest h).occupied ↔ p ∈ L.occupied ∧ p ∉ e := by
  have hmem : e ∈ L.held := h.mem_iff.mpr List.mem_cons_self
  have hapart := (List.pairwise_cons.mp (L.permute _ h).apart).1
  rw [← L.mem_occupied_permute h]
  simp only [mem_occupied, give, permute, List.mem_cons, exists_eq_or_imp]
  constructor
  · rintro (hres | ⟨f, hf, hp⟩)
    · exact ⟨Or.inl hres, fun he => L.fresh e hmem p he hres⟩
    · exact ⟨Or.inr (Or.inr ⟨f, hf, hp⟩), fun he => hapart f hf p he hp⟩
  · rintro ⟨hres | hpe | hf, hne⟩
    · exact Or.inl hres
    · exact absurd hpe hne
    · exact Or.inr hf

end Ledger

end FirstFit
