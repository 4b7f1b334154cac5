import Mathlib.Tactic

/-!
# Rooted trees given by their edges

A relation `leads a e b`, edge `e` goes from `a` to `b`, and a root.  Where no edge leads back to
the root and at most one leads to any other node, what can be reached from the root is a tree.

* `Step`, `Reach` — one edge, and any number of them.
* `IsTree` — the condition, on the nodes that can be reached.
* **`IsTree.acyclic`** — no node is below itself.
* **`IsTree.subtrees_apart`** — two edges from one node lead to subtrees without a common node.
* **`IsTree.induction`** — over finitely many nodes, induction from the leaves to the root.
-/

namespace RootedTree

variable {Node Edge : Type*} {leads : Node → Edge → Node → Prop} {root a b c d : Node} {e e' : Edge}

/-- Some edge goes from `a` to `b`. -/
def Step (leads : Node → Edge → Node → Prop) (a b : Node) : Prop := ∃ e, leads a e b

/-- A path goes from `a` to `b`. -/
def Reach (leads : Node → Edge → Node → Prop) : Node → Node → Prop :=
  Relation.ReflTransGen (Step leads)

/-- Each node is behind one edge, and no edge leads back. -/
structure IsTree (leads : Node → Edge → Node → Prop) (root : Node) : Prop where
  root_free : ∀ a e, Reach leads root a → ¬ leads a e root
  one_edge : ∀ a e a' e' b, Reach leads root a → Reach leads root a' → leads a e b →
    leads a' e' b → a = a' ∧ e = e'

namespace IsTree

/-- A node has one parent. -/
lemma parent_eq (h : IsTree leads root) (ha : Reach leads root a) (hb : Reach leads root b)
    (hac : Step leads a c) (hbc : Step leads b c) : a = b := by
  obtain ⟨e, he⟩ := hac
  obtain ⟨e', he'⟩ := hbc
  exact (h.one_edge _ _ _ _ _ ha hb he he').1

/-- **No node is below itself.** -/
theorem acyclic (h : IsTree leads root) (hb : Reach leads root b) :
    ¬ Relation.TransGen (Step leads) b b := by
  induction hb with
  | refl =>
      intro hcycle
      obtain ⟨a, ha, e, he⟩ := Relation.TransGen.tail'_iff.mp hcycle
      exact h.root_free a e ha he
  | @tail b c hb hbc ih =>
      intro hcycle
      -- the cycle comes back to `c` from its one parent, so that is on a cycle as well
      obtain ⟨a, hca, hac⟩ := Relation.TransGen.tail'_iff.mp hcycle
      obtain rfl := h.parent_eq ((hb.tail hbc).trans hca) hb hac hbc
      exact ih (Relation.TransGen.head' hbc hca)

/-- A node is not below its child. -/
lemma not_reach_parent (h : IsTree leads root) (ha : Reach leads root a) (hab : Step leads a b) :
    ¬ Reach leads b a :=
  fun hba => h.acyclic ha (Relation.TransGen.head' hab hba)

/-- A child of `a` is not below another child. -/
lemma child_eq_of_reach (h : IsTree leads root) (ha : Reach leads root a) (hab : Step leads a b)
    (hac : Step leads a c) (hbc : Reach leads b c) : b = c := by
  rcases Relation.ReflTransGen.cases_tail hbc with heq | ⟨d, hbd, hdc⟩
  · exact heq.symm
  · obtain rfl := h.parent_eq ((ha.tail hab).trans hbd) ha hdc hac
    exact absurd hbd (h.not_reach_parent ha hab)

/-- **Two edges from one node lead to subtrees without a common node.** -/
theorem subtrees_apart (h : IsTree leads root) (ha : Reach leads root a) (hab : leads a e b)
    (hac : leads a e' c) (hbd : Reach leads b d) (hcd : Reach leads c d) : e = e' := by
  induction hbd with
  | refl =>
      obtain rfl := h.child_eq_of_reach ha ⟨e', hac⟩ ⟨e, hab⟩ hcd
      exact (h.one_edge _ _ _ _ _ ha ha hab hac).2
  | @tail d d' hbd hdd' ih =>
      rcases Relation.ReflTransGen.cases_tail hcd with rfl | ⟨p, hcp, hpd'⟩
      · obtain rfl := h.child_eq_of_reach ha ⟨e, hab⟩ ⟨e', hac⟩ (hbd.tail hdd')
        exact (h.one_edge _ _ _ _ _ ha ha hab hac).2
      · have hb : Reach leads root b := ha.tail ⟨e, hab⟩
        have hc : Reach leads root c := ha.tail ⟨e', hac⟩
        obtain rfl := h.parent_eq (hc.trans hcp) (hb.trans hbd) hpd' hdd'
        exact ih hcp

/-- **Induction from the leaves to the root.**  What holds of a node as soon as it holds of its
children holds of every node that can be reached. -/
theorem induction [Finite Node] (h : IsTree leads root) {motive : Node → Prop}
    (hstep : ∀ a, Reach leads root a → (∀ b, Step leads a b → motive b) → motive a)
    (ha : Reach leads root a) : motive a := by
  -- below, and reachable: on a finite type this is well founded because it has no cycles
  let below : Node → Node → Prop := fun b a =>
    Reach leads root a ∧ Relation.TransGen (Step leads) a b
  have htrans : IsTrans Node below := ⟨fun _ _ _ hcb hba => ⟨hba.1, hba.2.trans hcb.2⟩⟩
  have hirrefl : Std.Irrefl below := ⟨fun _ hbelow => h.acyclic hbelow.1 hbelow.2⟩
  have hwf : WellFounded below := Finite.wellFounded_of_trans_of_irrefl below
  induction a using hwf.induction with
  | _ a ih => exact hstep a ha fun b hab => ih b ⟨ha, .single hab⟩ (ha.tail hab)

end IsTree

end RootedTree
