import Mathlib.Tactic

/-!
# Runs of a transition system

A component is a labelled step relation; what it does over time is a *run*, the list of the
events that took place and the state they lead to.  Runs are built by adding one step at the end,
so an induction over a run is "what one step preserves, the whole run preserves".

* `Run.invariant` — the induction, once and for all.
* `Run.mono` — fewer steps make fewer runs.
* `Run.simulate` — a step-by-step simulation lifts to runs.
* `Run.append` — runs compose.
* `Run.replay` — where the steps can be computed, computing them is a run.
-/

namespace Transition

variable {State State' Event Event' : Type*}

/-- `Run step s es s'`: starting from `s`, the events `es` take place in that order and lead to
`s'`. -/
inductive Run (step : State → Event → State → Prop) (s : State) : List Event → State → Prop
  | nil : Run step s [] s
  | snoc {es : List Event} {e : Event} {s' s'' : State} :
      Run step s es s' → step s' e s'' → Run step s (es ++ [e]) s''

variable {step : State → Event → State → Prop} {s s' s'' : State} {es es' : List Event} {e : Event}

/-- A single step is a run. -/
theorem Run.single (h : step s e s') : Run step s [e] s' := by
  simpa using Run.snoc Run.nil h

/-- **Invariants.**  What holds at the start and is preserved by every step holds at the end. -/
theorem Run.invariant {I : State → Prop} (hpres : ∀ s e s', I s → step s e s' → I s')
    (h : Run step s es s') (h0 : I s) : I s' := by
  induction h with
  | nil => exact h0
  | snoc _ hstep ih => exact hpres _ _ _ ih hstep

/-- **Composition.**  A run from where another one ended continues it. -/
theorem Run.append (h : Run step s es s') (h' : Run step s' es' s'') :
    Run step s (es ++ es') s'' := by
  induction h' with
  | nil => simpa using h
  | snoc _ hstep ih =>
      rw [← List.append_assoc]
      exact Run.snoc ih hstep

/-- A run of a relation is a run of every larger one. -/
theorem Run.mono {step' : State → Event → State → Prop}
    (hstep : ∀ s e s', step s e s' → step' s e s') (h : Run step s es s') : Run step' s es s' := by
  induction h with
  | nil => exact Run.nil
  | snoc _ hlast ih => exact ih.snoc (hstep _ _ _ hlast)

/-- **Simulation.**  If every concrete step from related states is matched by an abstract step
with the translated event, every concrete run is matched by an abstract run. -/
theorem Run.simulate {step' : State' → Event' → State' → Prop} {R : State → State' → Prop}
    {f : Event → Event'}
    (hsim : ∀ s e s' a, R s a → step s e s' → ∃ a', step' a (f e) a' ∧ R s' a')
    (h : Run step s es s') {a : State'} (h0 : R s a) :
    ∃ a', Run step' a (es.map f) a' ∧ R s' a' := by
  induction h with
  | nil => exact ⟨a, Run.nil, h0⟩
  | snoc _ hstep ih =>
      obtain ⟨a', hrun, hR⟩ := ih
      obtain ⟨a'', hstep', hR'⟩ := hsim _ _ _ _ hR hstep
      exact ⟨a'', by rw [List.map_append]; exact Run.snoc hrun hstep', hR'⟩

/-! ## Computed runs -/

/-- Each move is enabled when its turn comes, if `next` computes the states in between. -/
def Replays (enabled : State → Event → Prop) (next : State → Event → State) :
    State → List Event → Prop
  | _, [] => True
  | s, e :: es => enabled s e ∧ Replays enabled next (next s e) es

instance decidableReplays {enabled : State → Event → Prop} {next : State → Event → State}
    [∀ s e, Decidable (enabled s e)] :
    ∀ (s : State) (es : List Event), Decidable (Replays enabled next s es)
  | _, [] => inferInstanceAs (Decidable True)
  | s, e :: es =>
      have : Decidable (Replays enabled next (next s e) es) := decidableReplays (next s e) es
      inferInstanceAs (Decidable (enabled s e ∧ Replays enabled next (next s e) es))

/-- **Replay.**  Let a *move* be an event together with what the step does, as far as that has to
be found out.  When every move is enabled in its turn, computing the moves is a run. -/
theorem Run.replay {Move : Type*} {event : Move → Event} {enabled : State → Move → Prop}
    {next : State → Move → State} (hnext : ∀ s m, enabled s m → step s (event m) (next s m)) :
    ∀ (moves : List Move) (s : State), Replays enabled next s moves →
      Run step s (moves.map event) (moves.foldl next s)
  | [], _, _ => Run.nil
  | m :: moves, s, ⟨hm, hmoves⟩ =>
      (Run.single (hnext s m hm)).append (Run.replay hnext moves (next s m) hmoves)

end Transition
