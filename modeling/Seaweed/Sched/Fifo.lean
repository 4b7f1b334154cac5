import Seaweed.Sched.TaskRuns

/-!
# First in, first out

The scan for the highest idle time is a queue: a task that has never run goes first, and then the
one that has waited since the earliest step.

* `FifoScheduled` — what the scan picks, when it picks at all, and how high a counter gets.
* **`schedulerMain_fifo`** — every run is a run of the queue, and the scan picks its head.
-/

namespace Seaweed

open FirstFit Transition

variable {s : SchedState} {q : RunQueue UInt64}

/-- Task `n` has waited since an earlier step than any other task that waits. -/
def EarliestWaiting (s : SchedState) (n : ℕ) : Prop :=
  n < s.sched.numberOfTasks.toNat ∧ (s.sched.tasks n).status = WAITING ∧
    ∀ i : ℕ, i < s.sched.numberOfTasks.toNat → (s.sched.tasks i).status = WAITING → i ≠ n →
      s.waitingSince n < s.waitingSince i

/-- What the scan does, told by the log of the run. -/
structure FifoScheduled (s : SchedState) : Prop where
  picks : ∀ regs d, (schedulerMain s.sched regs).2 = some d → ∃ n : ℕ, d.nextTask = n ∧
    (FirstUnstarted s.sched.tasks s.sched.numberOfTasks.toNat n ∨
      (∀ i : ℕ, i < s.sched.numberOfTasks.toNat →
        (s.sched.tasks i).status ≠ WAITING_TO_START) ∧ EarliestWaiting s n)
  switches : ∀ regs, (schedulerMain s.sched regs).2.isSome ↔
    ∃ i : ℕ, i < s.sched.numberOfTasks.toNat ∧ (s.sched.tasks i).status ≠ RUNNING
  idleTime_le : ∀ i : ℕ, i < s.sched.numberOfTasks.toNat →
    (s.sched.tasks i).idleTime.toNat ≤ s.sched.numberOfTasks.toNat
  noWrap : ∀ i : ℕ, i < s.sched.numberOfTasks.toNat → (s.sched.tasks i).status = WAITING →
    (s.sched.tasks i).idleTime.toNat + 1 ≤ s.sched.numberOfTasks.toNat
  passedOver_le : ∀ i : ℕ, i < s.sched.numberOfTasks.toNat → (s.sched.tasks i).status = WAITING →
    s.passedOver i ≤ s.sched.numberOfTasks.toNat

lemma Represents.fifoScheduled (h : Represents s q) : FifoScheduled s where
  picks := by
    intro regs d hd
    rcases h.schedulerMain_queue regs with ⟨hlt, hmain⟩ | ⟨hall, n, rest, hq, hmain⟩ |
      ⟨_, _, hmain⟩ <;> rw [hmain] at hd
    · obtain rfl := Option.some.inj hd
      refine ⟨q.started, rfl, Or.inl ⟨h.created ▸ hlt, h.fresh _ (le_refl _) hlt, ?_⟩⟩
      intro j hj hfresh
      exact absurd ((h.unstarted_iff (lt_trans hj hlt)).mp hfresh) (Nat.not_le.mpr hj)
    · obtain rfl := Option.some.inj hd
      have hmem : n ∈ q.queue := hq ▸ List.mem_cons_self
      refine ⟨n, rfl, Or.inr ⟨fun i hi hfresh => ?_, h.created ▸ q.queue_lt_created hmem,
        h.waiting n hmem, fun i hi hwait hne => ?_⟩⟩
      · rw [h.created] at hi
        have := (h.unstarted_iff hi).mp hfresh
        omega
      · rw [h.created] at hi
        have hi := (h.waiting_iff hi).mp hwait
        rw [hq] at hi
        exact (List.pairwise_cons.mp (hq ▸ h.since)).1 i ((List.mem_cons.mp hi).resolve_left hne)
    · exact nomatch hd
  switches := by
    intro regs
    rw [h.created]
    rcases h.schedulerMain_queue regs with ⟨hlt, hmain⟩ | ⟨hall, n, rest, hq, hmain⟩ |
      ⟨hall, hq, hmain⟩ <;> rw [hmain]
    · refine ⟨fun _ => ⟨q.started, hlt, ?_⟩, fun _ => rfl⟩
      rw [h.fresh _ (le_refl _) hlt]
      decide
    · have hmem : n ∈ q.queue := hq ▸ List.mem_cons_self
      refine ⟨fun _ => ⟨n, q.queue_lt_created hmem, ?_⟩, fun _ => rfl⟩
      rw [h.waiting n hmem]
      decide
    · refine ⟨fun hsome => (nomatch hsome), fun ⟨i, hi, hnot⟩ => absurd ?_ hnot⟩
      rcases (q.mem_started i).mp (hall ▸ hi) with hwait | ⟨c, hc⟩
      · simp [hq] at hwait
      · exact h.running c i hc
  idleTime_le := by
    intro i hi
    rw [h.created] at hi ⊢
    exact h.idleTime_le hi
  noWrap := by
    intro i hi hwait
    rw [h.created] at hi ⊢
    exact le_trans (h.idleTime_lt hi hwait) q.started_le
  passedOver_le := by
    intro i hi hwait
    rw [h.created] at hi ⊢
    have hmem := (h.waiting_iff hi).mp hwait
    rw [h.passedOver i hmem]
    exact le_trans (q.age_lt_started hmem).le q.started_le

/-- **First in, first out.**  Every run is one of the run queue, whose state the table represents,
and the scan picks what the log of the run says it should. -/
theorem schedulerMain_fifo {s₀ : SchedState} {es : List SchedEvent} (h0 : s₀.Initial)
    (hrun : Run SchedStep s₀ es s) :
    (∃ q, Run RunQueue.Step (RunQueue.empty UInt64) (es.map SchedEvent.abstract) q ∧
      Represents s q) ∧ FifoScheduled s := by
  obtain ⟨q, habs, h⟩ := taskTable_run h0 hrun
  exact ⟨⟨q, habs, h⟩, h.fifoScheduled⟩

theorem schedulerMain_fifo_twoTasks :
    (twoTasks.waitingSince 1 = 5 ∧ twoTasks.passedOver 1 = 0) ∧ FifoScheduled twoTasks := by
  obtain ⟨es, hrun⟩ := run_twoTasks
  exact ⟨by decide +kernel, (schedulerMain_fifo plainSched_initial hrun).2⟩

end Seaweed
