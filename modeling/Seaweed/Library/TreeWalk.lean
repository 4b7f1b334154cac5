import Seaweed.Library.RootedTree

/-!
# Walking a graph without marks

A walk visits a node, and then walks on along each of the edges that go out from it.  It keeps no
record of where it has been.

* `Walk` — the walk ends, and these are the nodes it has visited, in their order.
* `Walk.mem_iff` — they are the nodes that can be reached.
* **`walk_nodup_iff`** — the walk ends, and visits no node twice, exactly if the graph is a tree.
-/

namespace RootedTree

variable {Node Edge : Type*}

/-- The walk from a node ends, after it has visited the nodes of the list. -/
inductive Walk (edges : Node → List Edge) (target : Edge → Node) : Node → List Node → Prop
  | visit (a : Node) (sub : Edge → List Node)
      (h : ∀ e ∈ edges a, Walk edges target (target e) (sub e)) :
      Walk edges target a (a :: (edges a).flatMap sub)

/-- The lists hold the edges of the relation, none of them twice. -/
structure Lists (leads : Node → Edge → Node → Prop) (edges : Node → List Edge)
    (target : Edge → Node) :
    Prop where
  leads_iff : ∀ a e b, leads a e b ↔ e ∈ edges a ∧ target e = b
  nodup : ∀ a, (edges a).Nodup

variable {leads : Node → Edge → Node → Prop} {edges : Node → List Edge} {target : Edge → Node}
  {a b c x : Node} {e e' : Edge} {v : List Node}

lemma Lists.step_iff (hl : Lists leads edges target) :
    Step leads a b ↔ ∃ e ∈ edges a, target e = b :=
  exists_congr fun e => hl.leads_iff a e b

/-- What can be reached from a node is the node, and what can be reached behind its edges. -/
lemma Lists.reach_iff (hl : Lists leads edges target) :
    Reach leads a x ↔ x = a ∨ ∃ e ∈ edges a, Reach leads (target e) x := by
  constructor
  · intro hreach
    rcases Relation.ReflTransGen.cases_head hreach with heq | ⟨b, hab, hbx⟩
    · exact Or.inl heq.symm
    · obtain ⟨e, he, rfl⟩ := hl.step_iff.mp hab
      exact Or.inr ⟨e, he, hbx⟩
  · rintro (rfl | ⟨e, he, hreach⟩)
    · exact .refl
    · exact hreach.head (hl.step_iff.mpr ⟨e, he, rfl⟩)

/-- **A walk that ends has visited what can be reached.** -/
lemma Walk.mem_iff (hw : Walk edges target a v) (hl : Lists leads edges target) :
    x ∈ v ↔ Reach leads a x := by
  induction hw with
  | visit a sub _ ih =>
      rw [List.mem_cons, List.mem_flatMap, hl.reach_iff]
      exact or_congr_right (exists_congr fun e => and_congr_right fun he => ih e he)

/-- **If it has visited no node twice**, the graph is a tree. -/
lemma Walk.isTree (hw : Walk edges target a v) (hl : Lists leads edges target) (hnodup : v.Nodup) :
    IsTree leads a := by
  induction hw with
  | visit a sub hsub ih =>
      obtain ⟨hhead, htail⟩ := List.nodup_cons.mp hnodup
      obtain ⟨heach, hapart⟩ := List.nodup_flatMap.mp htail
      -- nothing behind an edge leads back, and nothing is behind two edges
      have hback : ∀ e ∈ edges a, ¬Reach leads (target e) a := fun e he hreach =>
        hhead (List.mem_flatMap.mpr ⟨e, he, ((hsub e he).mem_iff hl).mpr hreach⟩)
      have hsame : ∀ e ∈ edges a, ∀ e' ∈ edges a, ∀ x, Reach leads (target e) x →
          Reach leads (target e') x → e = e' := by
        intro e he e' he' x hx hx'
        by_contra hne
        have hsymm : Std.Symm (Function.onFun List.Disjoint sub) := ⟨fun _ _ h => h.symm⟩
        have hdisjoint := hapart.forall he he' hne
        exact hdisjoint (((hsub e he).mem_iff hl).mpr hx) (((hsub e' he').mem_iff hl).mpr hx')
      have hbelow : ∀ e ∈ edges a, IsTree leads (target e) := fun e he =>
        ih e he (heach e he)
      have hend : ∀ {c d b}, leads c d b → Step leads c b := fun h => ⟨_, h⟩
      constructor
      case root_free =>
        intro c d hc hleads
        rcases hl.reach_iff.mp hc with rfl | ⟨e, he, hreach⟩
        · obtain ⟨he, heq⟩ := (hl.leads_iff _ _ _).mp hleads
          exact hback d he (heq ▸ .refl)
        · exact hback e he (hreach.tail (hend hleads))
      case one_edge =>
        intro c d c' d' b hc hc' hleads hleads'
        rcases hl.reach_iff.mp hc with rfl | ⟨e, he, hreach⟩ <;>
          rcases hl.reach_iff.mp hc' with rfl | ⟨e', he', hreach'⟩
        · obtain ⟨hd, heq⟩ := (hl.leads_iff _ _ _).mp hleads
          obtain ⟨hd', heq'⟩ := (hl.leads_iff _ _ _).mp hleads'
          exact ⟨rfl, hsame d hd d' hd' b (heq ▸ .refl) (heq' ▸ .refl)⟩
        · obtain ⟨hd, rfl⟩ := (hl.leads_iff _ _ _).mp hleads
          obtain rfl := hsame d hd e' he' _ .refl (hreach'.tail (hend hleads'))
          exact absurd hleads' ((hbelow d hd).root_free c' d' hreach')
        · obtain ⟨hd', rfl⟩ := (hl.leads_iff _ _ _).mp hleads'
          obtain rfl := hsame d' hd' e he _ .refl (hreach.tail (hend hleads))
          exact absurd hleads ((hbelow d' hd').root_free c d hreach)
        · obtain rfl :=
            hsame e he e' he' b (hreach.tail (hend hleads)) (hreach'.tail (hend hleads'))
          exact (hbelow e he).one_edge c d c' d' b hreach hreach' hleads hleads'

/-- **A walk of a tree ends**, and visits no node twice. -/
lemma IsTree.walk [Finite Node] (h : IsTree leads a) (hl : Lists leads edges target) :
    ∃ v, Walk edges target a v ∧ v.Nodup := by
  refine h.induction (motive := fun b => ∃ v, Walk edges target b v ∧ v.Nodup)
    (fun b hb ih => ?_) .refl
  choose! sub hsub using ih
  have hstep : ∀ e ∈ edges b, Step leads b (target e) := fun e he => hl.step_iff.mpr ⟨e, he, rfl⟩
  have hleads : ∀ e ∈ edges b, leads b e (target e) :=
    fun e he => (hl.leads_iff _ _ _).mpr ⟨he, rfl⟩
  have hwalk : ∀ e ∈ edges b, Walk edges target (target e) (sub (target e)) := fun e he =>
    (hsub _ (hstep e he)).1
  refine ⟨_, .visit b (fun e => sub (target e)) hwalk, List.nodup_cons.mpr ⟨fun hmem => ?_, ?_⟩⟩
  · obtain ⟨e, he, hx⟩ := List.mem_flatMap.mp hmem
    exact h.not_reach_parent hb (hstep e he) (((hwalk e he).mem_iff hl).mp hx)
  · refine List.nodup_flatMap.mpr ⟨fun e he => (hsub _ (hstep e he)).2, ?_⟩
    refine (hl.nodup b).pairwise_of_forall_ne fun e he e' he' hne x hx hx' => hne ?_
    exact h.subtrees_apart hb (hleads e he) (hleads e' he') (((hwalk e he).mem_iff hl).mp hx)
      (((hwalk e' he').mem_iff hl).mp hx')

/-- **The walk ends and visits no node twice exactly if the graph is a tree.** -/
theorem walk_nodup_iff [Finite Node] (hl : Lists leads edges target) :
    (∃ v, Walk edges target a v ∧ v.Nodup) ↔ IsTree leads a :=
  ⟨fun ⟨_, hw, hnodup⟩ => hw.isTree hl hnodup, fun h => h.walk hl⟩

end RootedTree
