import Seaweed.Library.BoundedWaiting
import Seaweed.Sched.TaskRuns

/-!
# No task starves

A task that no core runs is dispatched within as many timer interrupts as there are tasks, on
whatever cores they arrive, and also when more tasks are created meanwhile.

* `ticks` — the calls of `schedulerMain` in a run.
* **`task_dispatched`** — the bound.
-/

namespace Seaweed

open Transition

variable {s₀ s s' : SchedState} {q : RunQueue UInt64} {es es' : List SchedEvent} {i : ℕ}

/-- The calls of `schedulerMain`, also those that switch to nothing. -/
def ticks (es : List SchedEvent) : ℕ :=
  es.countP fun e => match e with
    | .create .. => false
    | .tick .. => true

/-- A call has switched to the task. -/
def DispatchedIn (es : List SchedEvent) (i : ℕ) : Prop :=
  ∃ regs d, SchedEvent.tick regs (some d) ∈ es ∧ d.nextTask = i

lemma turns_abstract (es : List SchedEvent) :
    RunQueue.turns (es.map SchedEvent.abstract) = ticks es := by
  rw [RunQueue.turns, List.countP_map, ticks]
  refine List.countP_congr fun e _ => ?_
  rcases e with _ | ⟨_, _ | _⟩ <;> exact Iff.rfl

/-- A task that is waiting, or has never been started, waits in the queue. -/
lemma Represents.waits (h : Represents s q) (hi : i < s.sched.numberOfTasks.toNat)
    (hstatus : (s.sched.tasks i).status ≠ RUNNING) : q.Waits i where
  created := h.created ▸ hi
  notRunning := fun c hrun => hstatus (h.running c i hrun)

/-- What is switched to has a number. -/
lemma SchedStep.nextTask_nonneg (h : Represents s q) {regs : Regs} {d : Dispatch}
    (hstep : SchedStep s (.tick regs (some d)) s') : 0 ≤ d.nextTask := by
  obtain ⟨sched', hcall, _⟩ := schedStep_tick hstep
  rcases h.schedulerMain_queue regs with ⟨_, hmain⟩ | ⟨_, n, _, _, hmain⟩ | ⟨_, _, hmain⟩ <;>
    obtain ⟨_, hd⟩ := Prod.mk.inj (hmain.symm.trans hcall)
  · exact (Option.some.inj hd) ▸ Int.natCast_nonneg _
  · exact (Option.some.inj hd) ▸ Int.natCast_nonneg _
  · exact nomatch hd

/-- So the events of a run name their tasks. -/
lemma nextTask_nonneg (h : Represents s q) (hrun : Run SchedStep s es s') {regs : Regs}
    {d : Dispatch} (hmem : .tick regs (some d) ∈ es) : 0 ≤ d.nextTask := by
  induction hrun with
  | nil => exact absurd hmem List.not_mem_nil
  | @snoc es e s₁ s₂ hrun hstep ih =>
      rcases List.mem_append.mp hmem with hmem | hmem
      · exact ih hmem
      · obtain rfl := List.mem_singleton.mp hmem
        obtain ⟨q₁, _, h₁⟩ :=
          hrun.simulate (fun _ _ _ _ h hstep => taskTable_simulates h hstep) h
        exact hstep.nextTask_nonneg h₁

/-- **No task starves.**  From any state that can be reached, a task that no core runs is switched
to within as many calls of `schedulerMain` as there are tasks when the last of them is over. -/
theorem task_dispatched (h0 : s₀.Initial) (hreach : Run SchedStep s₀ es s)
    (hrun : Run SchedStep s es' s') (hi : i < s.sched.numberOfTasks.toNat)
    (hstatus : (s.sched.tasks i).status ≠ RUNNING)
    (hticks : s'.sched.numberOfTasks.toNat ≤ ticks es') : DispatchedIn es' i := by
  obtain ⟨q, _, h⟩ := taskTable_run h0 hreach
  obtain ⟨q', habstract, h'⟩ :=
    hrun.simulate (fun _ _ _ _ h hstep => taskTable_simulates h hstep) h
  rw [h'.created, ← turns_abstract] at hticks
  obtain ⟨c, hmem⟩ := (h.waits hi hstatus).dispatched habstract hticks
  obtain ⟨e, he, habs⟩ := List.mem_map.mp hmem
  rcases e with _ | ⟨regs, _ | d⟩
  · exact nomatch habs
  · exact nomatch habs
  · refine ⟨regs, d, he, ?_⟩
    have hnonneg := nextTask_nonneg h hrun he
    have hnat : d.nextTask.toNat = i := (RunQueue.Event.dispatch.inj habs).2
    omega

/-- Task 0 waits when task 1 runs, and the next two calls switch to it. -/
theorem task_dispatched_plain :
    ∃ es s', Run SchedStep plainSched.createPlain.createPlain.tickPlain.tickPlain es s' ∧
      DispatchedIn es 0 := by
  have hone := Run.single (.create (by decide +kernel) (by decide) :
    SchedStep plainSched _ plainSched.createPlain)
  have htwo := hone.snoc (.create (by decide +kernel) (by decide) :
    SchedStep _ _ plainSched.createPlain.createPlain)
  have hreach := (htwo.snoc (step_tickPlain _)).snoc (step_tickPlain _)
  have hrun := (Run.single (step_tickPlain
    plainSched.createPlain.createPlain.tickPlain.tickPlain)).snoc (step_tickPlain _)
  exact ⟨_, _, hrun, task_dispatched plainSched_initial hreach hrun (by decide +kernel)
    (by decide +kernel) (by decide +kernel)⟩

end Seaweed
