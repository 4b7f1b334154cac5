import Seaweed.Sched.TaskRuns

/-!
# Mutual exclusion

What the run queue says about the table: no task is on two cores, and none is lost.

* `MutuallyExclusive` — statuses, the cores' current tasks and the starts agree.
* **`tasks_mutuallyExclusive`** — they do in every run.
-/

namespace Seaweed

open Transition

variable {s : SchedState} {q : RunQueue UInt64}

/-- Each task that runs is on one core, each core runs its own task, the tasks that have been
started are the first ones of the table, and `startTask` gets each of them once. -/
structure MutuallyExclusive (s : SchedState) : Prop where
  running_iff : ∀ i : ℕ, i < s.sched.numberOfTasks.toNat →
    ((s.sched.tasks i).status = RUNNING ↔ ∃! c, (s.sched.cpuInfo c).currentTask = i)
  distinct : ∀ c c', (s.sched.cpuInfo c).currentTask ≠ -1 →
    (s.sched.cpuInfo c).currentTask = (s.sched.cpuInfo c').currentTask → c = c'
  created : ∀ c, (s.sched.cpuInfo c).currentTask = -1 ∨
    ∃ i : ℕ, i < s.sched.numberOfTasks.toNat ∧ (s.sched.cpuInfo c).currentTask = i
  startedFirst : ∃ k, k ≤ s.sched.numberOfTasks.toNat ∧ ∀ i : ℕ, i < s.sched.numberOfTasks.toNat →
    (s.starts i ≠ 0 ↔ i < k) ∧ ((s.sched.tasks i).status = WAITING_TO_START ↔ k ≤ i)
  startedOnce : ∀ i, s.starts i ≤ 1
  handedOver : ∀ regs d, (schedulerMain s.sched regs).2 = some d →
    ∃ i : ℕ, i < s.sched.numberOfTasks.toNat ∧ d.nextTask = i ∧
      (d.resume.isStart = true ↔ s.starts i = 0)

lemma Represents.mutuallyExclusive (h : Represents s q) : MutuallyExclusive s where
  running_iff := by
    intro i hi
    rw [h.running_iff (h.created ▸ hi)]
    simp only [h.current_eq_iff]
    constructor
    · rintro ⟨c, hc⟩
      exact ⟨c, hc, fun c' hc' => q.running_inj c' c i hc' hc⟩
    · rintro ⟨c, hc, _⟩
      exact ⟨c, hc⟩
  distinct := by
    intro c c' hnone heq
    cases hc : q.running c with
    | none => exact absurd (h.current_eq_neg_iff.mpr hc) hnone
    | some i =>
        rw [h.current_eq_iff.mpr hc, eq_comm, h.current_eq_iff] at heq
        exact q.running_inj c c' i hc heq
  created := by
    intro c
    cases hc : q.running c with
    | none => exact Or.inl (h.current_eq_neg_iff.mpr hc)
    | some i =>
        refine Or.inr ⟨i, ?_, h.current_eq_iff.mpr hc⟩
        exact lt_of_lt_of_le (q.running_lt_started hc) (h.created ▸ q.started_le)
  startedFirst := by
    refine ⟨q.started, h.created ▸ q.started_le, fun i hi => ⟨?_, ?_⟩⟩
    · rw [h.starts i]
      simp
    · exact h.unstarted_iff (h.created ▸ hi)
  startedOnce := by
    intro i
    rw [h.starts i]
    split_ifs <;> simp
  handedOver := by
    intro regs d hd
    rcases h.schedulerMain_queue regs with ⟨hlt, hmain⟩ | ⟨_, n, rest, hq, hmain⟩ | ⟨_, _, hmain⟩
      <;> rw [hmain] at hd
    · obtain rfl := Option.some.inj hd
      refine ⟨q.started, h.created ▸ hlt, rfl, ?_⟩
      rw [h.starts, if_neg (lt_irrefl _)]
      exact ⟨fun _ => rfl, fun _ => rfl⟩
    · obtain rfl := Option.some.inj hd
      have hmem : n ∈ q.queue := hq ▸ List.mem_cons_self
      refine ⟨n, h.created ▸ q.queue_lt_created hmem, rfl, ?_⟩
      rw [h.starts, if_pos (q.queue_lt_started hmem)]
      exact ⟨fun hstart => (nomatch hstart), fun hzero => (nomatch hzero)⟩
    · exact nomatch hd

/-- **Mutual exclusion.**  For any number of tasks and of cores, in any order of creations and of
timer interrupts. -/
theorem tasks_mutuallyExclusive {s₀ : SchedState} {es : List SchedEvent} (h0 : s₀.Initial)
    (hrun : Run SchedStep s₀ es s) : MutuallyExclusive s := by
  obtain ⟨q, _, h⟩ := taskTable_run h0 hrun
  exact h.mutuallyExclusive

theorem tasks_mutuallyExclusive_twoTasks :
    (twoTasks.sched.tasks 0).status = RUNNING ∧ (twoTasks.sched.tasks 1).status = WAITING ∧
      MutuallyExclusive twoTasks := by
  obtain ⟨es, hrun⟩ := run_twoTasks
  exact ⟨by decide +kernel, by decide +kernel, tasks_mutuallyExclusive plainSched_initial hrun⟩

end Seaweed
