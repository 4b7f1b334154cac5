import Seaweed.Library.Records
import Mathlib.Data.Set.Function

/-!
# Programs that keep to a region of memory

A program may be the only one that uses some region.  What it does there commutes with whatever the
others store elsewhere, so their stores may come at any time while it is at work.

* `Within` — a change of memory that writes nothing outside a region, and looks at nothing outside.
* `applyStores` — stores of the others.
* **`Within.applyStores`** — they commute.
* `within_storeBytes`, `within_store` — the stores that a program is made of.
-/

namespace Regions

open Memory Records

/-! ## Regions -/

section General

variable {Addr Val : Type*} {region : Set Addr} {f g : (Addr → Val) → Addr → Val}
  {m m' : Addr → Val} {stores : Addr → Option Val}

/-- The rest is left as it is, and the region is given values that only depend on the region. -/
structure Within (region : Set Addr) (f : (Addr → Val) → Addr → Val) : Prop where
  outside : ∀ m, Set.EqOn (f m) m regionᶜ
  inside : ∀ m m', Set.EqOn m m' region → Set.EqOn (f m) (f m') region

lemma Within.refl : Within region (fun m : Addr → Val => m) :=
  ⟨fun _ => Set.eqOn_refl _ _, fun _ _ h => h⟩

lemma Within.comp (hg : Within region g) (hf : Within region f) :
    Within region (fun m => g (f m)) :=
  ⟨fun m => (hg.outside (f m)).trans (hf.outside m), fun m m' h => hg.inside _ _ (hf.inside m m' h)⟩

/-- The memory after the stores. -/
def applyStores (stores : Addr → Option Val) (m : Addr → Val) : Addr → Val :=
  fun x => (stores x).getD (m x)

/-- None of the stores is in the region. -/
def Avoids (stores : Addr → Option Val) (region : Set Addr) : Prop := ∀ x ∈ region, stores x = none

lemma applyStores_of_none {x : Addr} (h : stores x = none) : applyStores stores m x = m x := by
  rw [applyStores, h, Option.getD_none]

lemma Avoids.eqOn (h : Avoids stores region) (m : Addr → Val) :
    Set.EqOn (applyStores stores m) m region :=
  fun x hx => applyStores_of_none (h x hx)

/-- **The stores of the others commute with the program.** -/
theorem Within.applyStores (hf : Within region f) (h : Avoids stores region) (m : Addr → Val) :
    f (applyStores stores m) = Regions.applyStores stores (f m) := by
  funext x
  by_cases hx : x ∈ region
  · rw [hf.inside _ m (h.eqOn m) hx, applyStores_of_none (h x hx)]
  · rw [hf.outside _ hx, Regions.applyStores, Regions.applyStores, hf.outside m hx]

/-- Memories that differ outside the region only stay so under the same stores. -/
lemma eqOn_applyStores (h : Set.EqOn m m' region) (stores : Addr → Option Val) :
    Set.EqOn (applyStores stores m) (applyStores stores m') region := fun x hx => by
  rw [applyStores, applyStores, h hx]

end General

/-! ## Stores of bytes -/

variable {region : Set UInt64} {a : UInt64} {n w : ℕ}

/-- Bytes are stored into the region, which may depend on the region. -/
lemma within_storeBytes {bs : Mem → List UInt8} (hregion : ∀ x, (x - a).toNat < n → x ∈ region)
    (hlength : ∀ m, (bs m).length = n) (hbs : ∀ m m', Set.EqOn m m' region → bs m = bs m') :
    Within region (fun m => storeBytes m a (bs m)) where
  outside m x hx := storeBytes_outside (by
    rw [hlength]
    exact Nat.not_lt.mp fun hlt => hx (hregion x hlt))
  inside m m' h x hx := by
    show (_ : Option UInt8).getD _ = (_ : Option UInt8).getD _
    rw [hbs m m' h, h hx]

lemma within_store (hregion : ∀ x, (x - a).toNat < n → x ∈ region) :
    Within region (fun m => store m a n w) where
  outside m x hx := store_outside (Nat.not_lt.mp fun hlt => hx (hregion x hlt))
  inside m m' h x hx := by
    show ite _ _ _ = ite _ _ _
    rw [h hx]

end Regions
