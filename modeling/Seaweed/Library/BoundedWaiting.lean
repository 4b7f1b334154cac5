import Seaweed.Library.Runs
import Seaweed.Library.RunQueue

/-!
# How long a task waits in a run queue

A task that waits is switched to after as many turns as there are tasks, also when tasks are created
in the meantime: a new task goes before it, but counts itself.

* `ahead` — the number of switches to other tasks that come first.
* `Waits.step` — a turn makes it less, and a creation makes it one more.
* **`Waits.dispatched`** — so the task has its turn.
-/

namespace RunQueue

open Transition

variable {Core : Type*}

/-- The task has been created, and no core runs it. -/
structure Waits (q : RunQueue Core) (i : ℕ) : Prop where
  created : i < q.created
  notRunning : ∀ c, q.running c ≠ some i

/-- The tasks that have never run go first, in their order, and then the queue. -/
def ahead (q : RunQueue Core) (i : ℕ) : ℕ :=
  if i < q.started then q.created - q.started + q.queue.idxOf i else i - q.started

variable {q q' : RunQueue Core} {i : ℕ} {e : Event Core} {es : List (Event Core)}

lemma Waits.mem_queue (h : q.Waits i) (hi : i < q.started) : i ∈ q.queue :=
  ((q.mem_started i).mp hi).resolve_right fun ⟨c, hc⟩ => h.notRunning c hc

/-- Fewer than all tasks go first. -/
lemma Waits.ahead_lt (h : q.Waits i) : q.ahead i < q.created := by
  rw [ahead]
  split
  case isTrue hi =>
      have hidx := List.idxOf_lt_length_of_mem (h.mem_queue hi)
      have hlen : q.queue.length ≤ q.started :=
        length_le_of_nodup q.nodup fun j hj => q.queue_lt_started hj
      have hle := q.started_le
      omega
  case isFalse hi =>
      have hlt := h.created
      omega

/-! ## Counting -/

/-- A core asks for a task. -/
def Event.isTurn : Event Core → Bool
  | .create => false
  | _ => true

def turns (es : List (Event Core)) : ℕ := es.countP Event.isTurn

def creations (es : List (Event Core)) : ℕ := es.countP fun e => !e.isTurn

lemma turns_concat (es : List (Event Core)) (e : Event Core) :
    turns (es ++ [e]) = turns es + if e.isTurn then 1 else 0 := by
  simp only [turns, List.countP_append, List.countP_singleton]

lemma creations_concat (es : List (Event Core)) (e : Event Core) :
    creations (es ++ [e]) = creations es + if e.isTurn then 0 else 1 := by
  cases h : e.isTurn <;> simp [creations, h]

variable [DecidableEq Core]

lemma Step.created_eq (hstep : Step q e q') :
    q'.created = q.created + if e.isTurn then 0 else 1 := by
  cases hstep <;> rfl

lemma Run.created_eq (hrun : Run Step q es q') : q'.created = q.created + creations es := by
  induction hrun with
  | nil => rfl
  | snoc _ hstep ih => rw [hstep.created_eq, ih, creations_concat, Nat.add_assoc]

/-! ## One step -/

/-- After a switch to another task it still waits. -/
lemma Waits.switchTo (h : q.Waits i) {c : Core} {n started : ℕ} {waiting : List ℕ}
    (hc : q.Candidate n waiting started) (hne : n ≠ i) : (q.switchTo c hc).Waits i where
  created := h.created
  notRunning := by
    intro c' hrun
    rcases q.switchTo_running hc hrun with ⟨_, rfl⟩ | ⟨_, hrun'⟩
    · exact hne rfl
    · exact h.notRunning c' hrun'

/-- What goes behind the others leaves their places as they are. -/
lemma idxOf_switchTo {c : Core} {n started : ℕ} {waiting : List ℕ}
    (hc : q.Candidate n waiting started) (hmem : i ∈ waiting) :
    (q.switchTo c hc).queue.idxOf i = waiting.idxOf i :=
  List.idxOf_append_of_mem hmem

/-- **One step** brings the task one place nearer, if it is a turn of another task. -/
theorem Waits.step (h : q.Waits i) (hstep : Step q e q') (hother : ∀ c, e ≠ .dispatch c i) :
    q'.Waits i ∧ q'.ahead i + (if e.isTurn then 1 else 0) =
      q.ahead i + if e.isTurn then 0 else if i < q.started then 1 else 0 := by
  have hcreated := h.created
  have hle := q.started_le
  cases hstep with
  | create =>
      refine ⟨⟨Nat.lt_succ_of_lt h.created, h.notRunning⟩, ?_⟩
      show q.create.ahead i = q.ahead i + if i < q.started then 1 else 0
      by_cases hi : i < q.started
      · rw [ahead, if_pos (show i < q.create.started from hi), ahead, if_pos hi, if_pos hi]
        show q.created + 1 - q.started + q.queue.idxOf i = _
        omega
      · rw [ahead, if_neg (show ¬i < q.create.started from hi), ahead, if_neg hi, if_neg hi]
        rfl
  | @start c hlt =>
      have hne : q.started ≠ i := fun heq => hother c (heq ▸ rfl)
      refine ⟨h.switchTo _ hne, ?_⟩
      simp only [Event.isTurn, if_true]
      by_cases hi : i < q.started
      · have hidx := q.idxOf_switchTo (c := c) (q.candidate_start hlt) (h.mem_queue hi)
        have hi' : i < (q.start c hlt).started := Nat.lt_succ_of_lt hi
        rw [ahead, if_pos hi', ahead, if_pos hi, show (q.start c hlt).queue.idxOf i = _ from hidx]
        show q.created - (q.started + 1) + _ + 1 = _
        omega
      · have hi' : ¬i < (q.start c hlt).started := fun hlt' => by
          rcases Nat.lt_succ_iff_lt_or_eq.mp hlt' with hlt'' | heq
          · exact hi hlt''
          · exact hne heq.symm
        rw [ahead, if_neg hi', ahead, if_neg hi]
        show i - (q.started + 1) + 1 = _
        omega
  | @resume c n rest hall hq =>
      have hne : n ≠ i := fun heq => hother c (heq ▸ rfl)
      refine ⟨h.switchTo _ hne, ?_⟩
      have hi : i < q.started := hall ▸ h.created
      have hmem := h.mem_queue hi
      rw [hq, List.mem_cons] at hmem
      have hidx := q.idxOf_switchTo (c := c) (q.candidate_resume hq) (hmem.resolve_left hne.symm)
      simp only [Event.isTurn, if_true]
      have hi' : i < (q.resume c hq).started := hi
      rw [ahead, if_pos hi', ahead, if_pos hi, show (q.resume c hq).queue.idxOf i = _ from hidx,
        hq, List.idxOf_cons_ne _ hne]
      show q.created - q.started + _ + 1 = _
      omega
  | idle hall hq =>
      have hmem := h.mem_queue (hall ▸ h.created)
      rw [hq] at hmem
      exact absurd hmem List.not_mem_nil

/-! ## Runs -/

/-- As long as the task is not switched to, every turn brings it nearer. -/
lemma Waits.run (h : q.Waits i) (hrun : Run Step q es q') (hother : ∀ c, .dispatch c i ∉ es) :
    q'.Waits i ∧ q'.ahead i + turns es ≤ q.ahead i + creations es := by
  induction hrun with
  | nil => exact ⟨h, le_refl _⟩
  | @snoc es e _ _ _ hstep ih =>
      obtain ⟨hwaits, hahead⟩ := ih fun c hmem => hother c (List.mem_append_left _ hmem)
      have hne : ∀ c, e ≠ .dispatch c i := fun c heq =>
        hother c (List.mem_append_right _ (heq ▸ List.mem_singleton_self _))
      obtain ⟨hwaits', hahead'⟩ := hwaits.step hstep hne
      refine ⟨hwaits', ?_⟩
      rw [turns_concat, creations_concat]
      split_ifs at hahead' ⊢ <;> omega

/-- **Waiting is bounded.**  A task that waits is switched to within as many turns as there are
tasks in the end. -/
theorem Waits.dispatched (h : q.Waits i) (hrun : Run Step q es q')
    (hturns : q'.created ≤ turns es) : ∃ c, .dispatch c i ∈ es := by
  by_contra hnone
  obtain ⟨hwaits, hahead⟩ := h.run hrun fun c hmem => hnone ⟨c, hmem⟩
  have hlt := h.ahead_lt
  have hcreated := Run.created_eq hrun
  omega

end RunQueue
