import Seaweed.Library.RunQueue
import Seaweed.Library.Runs
import Seaweed.Sched.Scheduler

/-!
# Runs of the scheduler

Any interleaving of `createNewTask` and `schedulerMain`, on any number of cores.  Each call is one
step: `schedulerMain` runs under its lock.  Next to the table a run keeps a log of its own, which
the code does not have: since when a task waits, how many switches have passed it over since, and
how often it was handed to `startTask`.

The table follows a `RunQueue` (`Represents`).  The idle times are the ages of the queue, so a
higher idle time is an earlier place in it.

* `Represents.switch` — what any switch does to the table and to the queue.
* `Represents.schedulerMain_queue` — what `schedulerMain` does, read off the queue.
* **`taskTable_simulates`** — every step is a step of the run queue.
-/

namespace Seaweed

open FirstFit Words Transition

/-! ## The steps -/

def Resume.isStart : Resume → Bool
  | .startTask .. => true
  | .switchTask .. => false

/-- Whether task `i` is handed to `startTask`. -/
def startsTask (d : Option Dispatch) (i : ℕ) : Bool :=
  d.any fun d => d.resume.isStart && d.nextTask == (i : ℤ)

lemma startsTask_start (s : Sched) (regs : Regs) (t : Task) (n i : ℕ) :
    startsTask (some (dispatchTo s regs n t.start)) i = decide (n = i) := by
  rw [Bool.eq_iff_iff]
  simp [startsTask, dispatchTo, Task.start, Resume.isStart]

lemma startsTask_switch (s : Sched) (regs : Regs) (t : Task) (n : ℤ) (i : ℕ) :
    startsTask (some (dispatchTo s regs n t.switch)) i = false := rfl

/-- The scheduler, and the log of the run. -/
structure SchedState where
  sched : Sched
  steps : ℕ
  waitingSince : ℕ → ℕ
  passedOver : ℕ → ℕ
  starts : ℕ → ℕ

/-- The step leaves the scheduler in `sched'` and hands over to `d`. -/
def SchedState.note (s : SchedState) (sched' : Sched) (d : Option Dispatch) : SchedState where
  sched := sched'
  steps := s.steps + 1
  waitingSince := fun i =>
    if (sched'.tasks i).status = WAITING ∧ (s.sched.tasks i).status ≠ WAITING then s.steps + 1
    else s.waitingSince i
  passedOver := fun i =>
    if (sched'.tasks i).status = WAITING ∧ (s.sched.tasks i).status = WAITING then
      if d.isSome then s.passedOver i + 1 else s.passedOver i
    else 0
  starts := fun i => if startsTask d i then s.starts i + 1 else s.starts i

inductive SchedEvent
  | create (ss : UInt16) (rsp : UInt64) (cs : UInt16) (entryPoint : UInt64) (r : TaskResources)
  | tick (regs : Regs) (d : Option Dispatch)

/-- One call.  A task is created while the table has a free entry, on a machine whose physical
memory fits into the higher half. -/
inductive SchedStep : SchedState → SchedEvent → SchedState → Prop
  | create {s : SchedState} {ss : UInt16} {rsp : UInt64} {cs : UInt16} {entryPoint : UInt64}
      {r : TaskResources} (hfree : findFreeIndex s.sched ≠ -1)
      (hmem : r.pmm.totalDetectedMemory.toNat < 2 ^ 47) :
      SchedStep s (.create ss rsp cs entryPoint r)
        (s.note (createNewTask s.sched ss rsp cs entryPoint r) none)
  | tick {s : SchedState} {regs : Regs} {sched' : Sched} {d : Option Dispatch}
      (hcall : schedulerMain s.sched regs = (sched', d)) :
      SchedStep s (.tick regs d) (s.note sched' d)

lemma schedStep_tick {s s' : SchedState} {regs : Regs} {d : Option Dispatch}
    (h : SchedStep s (.tick regs d) s') :
    ∃ sched', schedulerMain s.sched regs = (sched', d) ∧ s' = s.note sched' d := by
  cases h with
  | tick hcall => exact ⟨_, hcall, rfl⟩

/-- No task yet, every entry of the table is free, and no core runs a task. -/
structure SchedState.Initial (s : SchedState) : Prop where
  noTasks : s.sched.numberOfTasks = 0
  free : ∀ i : ℕ, i < s.sched.maxNumberOfTasks.toNat → (s.sched.tasks i).kernelStack = 0
  idle : ∀ c, (s.sched.cpuInfo c).currentTask = -1
  notStarted : ∀ i, s.starts i = 0

/-! ## The run queue a table stands for -/

/-- `currentTask`, for the task a core is running. -/
def currentIndex : Option ℕ → ℤ
  | some i => i
  | none => -1

structure Represents (s : SchedState) (q : RunQueue UInt64) : Prop where
  created : s.sched.numberOfTasks.toNat = q.created
  room : q.created ≤ s.sched.maxNumberOfTasks.toNat
  current : ∀ c, (s.sched.cpuInfo c).currentTask = currentIndex (q.running c)
  waiting : ∀ i ∈ q.queue, (s.sched.tasks i).status = WAITING
  idleTime : ∀ i ∈ q.queue, (s.sched.tasks i).idleTime.toNat = q.age i
  passedOver : ∀ i ∈ q.queue, s.passedOver i = q.age i
  since : q.queue.Pairwise fun i j => s.waitingSince i < s.waitingSince j
  since_le : ∀ i ∈ q.queue, s.waitingSince i ≤ s.steps
  running : ∀ c i, q.running c = some i → (s.sched.tasks i).status = RUNNING
  runningIdle : ∀ c i, q.running c = some i → (s.sched.tasks i).idleTime = 0
  fresh : ∀ i, q.started ≤ i → i < q.created → (s.sched.tasks i).status = WAITING_TO_START
  freshIdle : ∀ i, q.started ≤ i → i < q.created → (s.sched.tasks i).idleTime = 0
  taken : ∀ i : ℕ, i < q.created → (s.sched.tasks i).kernelStack ≠ 0
  free : ∀ i : ℕ, q.created ≤ i → i < s.sched.maxNumberOfTasks.toNat →
    (s.sched.tasks i).kernelStack = 0
  starts : ∀ i, s.starts i = if i < q.started then 1 else 0

variable {s s' : SchedState} {q : RunQueue UInt64} {regs : Regs} {i n k started : ℕ}
  {waiting : List ℕ} {c : UInt64}

lemma represents_initial (h : s.Initial) : Represents s (RunQueue.empty UInt64) where
  created := by rw [h.noTasks]; rfl
  room := Nat.zero_le _
  current := h.idle
  waiting := fun i hi => nomatch hi
  idleTime := fun i hi => nomatch hi
  passedOver := fun i hi => nomatch hi
  since := List.Pairwise.nil
  since_le := fun i hi => nomatch hi
  running := fun c i hi => nomatch hi
  runningIdle := fun c i hi => nomatch hi
  fresh := fun i _ hi => absurd hi (Nat.not_lt_zero i)
  freshIdle := fun i _ hi => absurd hi (Nat.not_lt_zero i)
  taken := fun i hi => absurd hi (Nat.not_lt_zero i)
  free := fun i _ hi => h.free i hi
  starts := fun i => (h.notStarted i).trans (if_neg (Nat.not_lt_zero i)).symm

/-! ## The log -/

variable {sched' : Sched} {d : Option Dispatch}

/-- A task that goes on waiting. -/
lemma note_stays (hold : (s.sched.tasks i).status = WAITING)
    (hnew : (sched'.tasks i).status = WAITING) :
    (s.note sched' d).waitingSince i = s.waitingSince i ∧
      (s.note sched' d).passedOver i = if d.isSome then s.passedOver i + 1 else s.passedOver i :=
  ⟨if_neg fun h => h.2 hold, if_pos ⟨hnew, hold⟩⟩

/-- A task that begins to wait. -/
lemma note_joins (hold : (s.sched.tasks i).status ≠ WAITING)
    (hnew : (sched'.tasks i).status = WAITING) :
    (s.note sched' d).waitingSince i = s.steps + 1 ∧ (s.note sched' d).passedOver i = 0 :=
  ⟨if_pos ⟨hnew, hold⟩, if_neg fun h => hold h.2⟩

namespace Represents

/-! ## Reading the table -/

/-- A created task waits, runs, or has never run. -/
lemma task_cases (h : Represents s q) (hi : i < q.created) :
    (i ∈ q.queue ∧ (s.sched.tasks i).status = WAITING) ∨
    ((∃ c, q.running c = some i) ∧ (s.sched.tasks i).status = RUNNING) ∨
    (q.started ≤ i ∧ (s.sched.tasks i).status = WAITING_TO_START) := by
  rcases Nat.lt_or_ge i q.started with hlt | hge
  · rcases (q.mem_started i).mp hlt with hwait | ⟨c, hrun⟩
    · exact Or.inl ⟨hwait, h.waiting i hwait⟩
    · exact Or.inr (Or.inl ⟨⟨c, hrun⟩, h.running c i hrun⟩)
  · exact Or.inr (Or.inr ⟨hge, h.fresh i hge hi⟩)

lemma waiting_iff (h : Represents s q) (hi : i < q.created) :
    (s.sched.tasks i).status = WAITING ↔ i ∈ q.queue := by
  refine ⟨fun hwait => ?_, h.waiting i⟩
  rcases h.task_cases hi with ⟨hmem, _⟩ | ⟨_, hrun⟩ | ⟨_, hfresh⟩
  · exact hmem
  · exact absurd (hwait.symm.trans hrun) (by decide)
  · exact absurd (hwait.symm.trans hfresh) (by decide)

lemma running_iff (h : Represents s q) (hi : i < q.created) :
    (s.sched.tasks i).status = RUNNING ↔ ∃ c, q.running c = some i := by
  refine ⟨fun hrun => ?_, fun ⟨c, hc⟩ => h.running c i hc⟩
  rcases h.task_cases hi with ⟨_, hwait⟩ | ⟨hcore, _⟩ | ⟨_, hfresh⟩
  · exact absurd (hrun.symm.trans hwait) (by decide)
  · exact hcore
  · exact absurd (hrun.symm.trans hfresh) (by decide)

lemma unstarted_iff (h : Represents s q) (hi : i < q.created) :
    (s.sched.tasks i).status = WAITING_TO_START ↔ q.started ≤ i := by
  refine ⟨fun hfresh => ?_, fun hge => h.fresh i hge hi⟩
  rcases h.task_cases hi with ⟨_, hwait⟩ | ⟨_, hrun⟩ | ⟨hge, _⟩
  · exact absurd (hfresh.symm.trans hwait) (by decide)
  · exact absurd (hfresh.symm.trans hrun) (by decide)
  · exact hge

lemma current_eq_iff (h : Represents s q) :
    (s.sched.cpuInfo c).currentTask = i ↔ q.running c = some i := by
  rw [h.current c]
  cases q.running c with
  | none => simp [currentIndex]
  | some j => simp [currentIndex]

lemma current_eq_neg_iff (h : Represents s q) :
    (s.sched.cpuInfo c).currentTask = -1 ↔ q.running c = none := by
  rw [h.current c]
  cases q.running c with
  | none => simp [currentIndex]
  | some j => simp [currentIndex]

/-- What `schedulerMain_cases` asks of a table. -/
lemma currentRuns (h : Represents s q) (c : UInt64) : CurrentRuns s.sched c := by
  cases hc : q.running c with
  | none => exact Or.inl (h.current_eq_neg_iff.mpr hc)
  | some i => exact Or.inr (by rw [h.current_eq_iff.mpr hc]; exact h.running c i hc)

lemma idleTime_lt (h : Represents s q) (hi : i < q.created)
    (hwait : (s.sched.tasks i).status = WAITING) :
    (s.sched.tasks i).idleTime.toNat < q.started := by
  have hmem := (h.waiting_iff hi).mp hwait
  rw [h.idleTime i hmem]
  exact q.age_lt_started hmem

/-- No idle time is higher than the number of tasks. -/
lemma idleTime_le (h : Represents s q) (hi : i < q.created) :
    (s.sched.tasks i).idleTime.toNat ≤ q.created := by
  have hle := q.started_le
  rcases h.task_cases hi with ⟨_, hwait⟩ | ⟨⟨c, hc⟩, _⟩ | ⟨hge, _⟩
  · have := h.idleTime_lt hi hwait
    omega
  · rw [h.runningIdle c i hc, UInt64.toNat_zero]
    exact Nat.zero_le _
  · rw [h.freshIdle i hge hi, UInt64.toNat_zero]
    exact Nat.zero_le _

lemma idle_room (h : Represents s q) :
    ∀ j : ℕ, j < s.sched.numberOfTasks.toNat → (s.sched.tasks j).status = WAITING →
      (s.sched.tasks j).idleTime.toNat + 1 < 2 ^ 64 := by
  intro j hj hwait
  rw [h.created] at hj
  have hlt := h.idleTime_lt hj hwait
  have hle := q.started_le
  have hroom := h.room
  have hmax := s.sched.maxNumberOfTasks.toNat_lt
  omega

/-! ## A switch -/

/-- A task that is not running on the core, and not switched to, has at most been passed over. -/
lemma switched_apart (h : Represents s q) (hn : i ≠ n) (hrun : q.running regs.core ≠ some i)
    (tasks : ℤ → Task) : (switched s.sched regs tasks n).tasks i = tasks i :=
  switched_other (by exact_mod_cast hn) fun heq => hrun (h.current_eq_iff.mp heq.symm)

/-- The task that the core was running waits, with its registers saved. -/
lemma switched_preempted (h : Represents s q) (hrun : q.running regs.core = some i) (hn : i ≠ n) :
    (switched s.sched regs (passOver s.sched.tasks k) n).tasks i =
      { s.sched.tasks i with regs := regs, status := WAITING } := by
  have hcur := h.current_eq_iff.mpr hrun
  have hnot : (s.sched.tasks i).status ≠ WAITING := by
    rw [h.running regs.core i hrun]
    decide
  rw [← hcur, switched_last (by omega) (by omega), hcur, passOver_of_ne hnot]

/-- A task that stays in the queue has been passed over. -/
lemma switched_passed (h : Represents s q) (hc : q.Candidate n waiting started)
    (hsub : waiting.Sublist q.queue) (hpass : ∀ i ∈ waiting, i < k) (hi : i ∈ waiting) :
    (switched s.sched regs (passOver s.sched.tasks k) n).tasks i =
      { s.sched.tasks i with idleTime := (s.sched.tasks i).idleTime + 1 } := by
  have hne : i ≠ n := by
    rintro rfl
    exact (List.nodup_cons.mp hc.nodup).1 hi
  rw [h.switched_apart hne (hc.apart i (List.mem_cons_of_mem n hi) _),
    passOver_of_waiting (hpass i hi) (h.waiting i (hsub.subset hi))]

/-- What other cores are running is as it was. -/
lemma switched_elsewhere (h : Represents s q) (hc : q.Candidate n waiting started)
    (hne : c ≠ regs.core) (hrun : q.running c = some i) :
    (switched s.sched regs (passOver s.sched.tasks k) n).tasks i = s.sched.tasks i := by
  have hnot : q.running regs.core ≠ some i := fun hcore =>
    hne (q.running_inj c regs.core i hrun hcore)
  rw [h.switched_apart (hc.ne_of_running hrun) hnot, passOver_of_ne]
  rw [h.running c i hrun]
  decide

/-- So are the tasks that have not been started. -/
lemma switched_unstarted (h : Represents s q) (hc : q.Candidate n waiting started)
    (hle : q.started ≤ started) (hge : started ≤ i) (hi : i < q.created) :
    (switched s.sched regs (passOver s.sched.tasks k) n).tasks i = s.sched.tasks i := by
  have hout := mt (hc.mem_started i).mpr (Nat.not_lt.mpr hge)
  rw [not_or] at hout
  have hne : i ≠ n := by
    rintro rfl
    exact hout.1 List.mem_cons_self
  rw [h.switched_apart hne fun hrun => hout.2 ⟨_, hrun⟩, passOver_of_ne]
  rw [h.fresh i (le_trans hle hge) hi]
  decide

/-- A task that stays in the queue has been passed over once more. -/
lemma switch_stays (h : Represents s q) (hc : q.Candidate n waiting started)
    (hsub : waiting.Sublist q.queue) (hpass : ∀ i ∈ waiting, i < k) (hi : i ∈ waiting)
    (d : Dispatch) :
    ((switched s.sched regs (passOver s.sched.tasks k) n).tasks i).status = WAITING ∧
      ((switched s.sched regs (passOver s.sched.tasks k) n).tasks i).idleTime.toNat
        = q.age i + 1 ∧
      (s.note (switched s.sched regs (passOver s.sched.tasks k) n) (some d)).waitingSince i
        = s.waitingSince i ∧
      (s.note (switched s.sched regs (passOver s.sched.tasks k) n) (some d)).passedOver i
        = q.age i + 1 := by
  have hmem := hsub.subset hi
  have hold := h.waiting i hmem
  have htask : (switched s.sched regs (passOver s.sched.tasks k) n).tasks i =
      { s.sched.tasks i with idleTime := (s.sched.tasks i).idleTime + 1 } :=
    h.switched_passed hc hsub hpass hi
  have hnew := (congrArg Task.status htask).trans hold
  obtain ⟨hsince, hover⟩ := note_stays (d := some d) hold hnew
  refine ⟨hnew, ?_, hsince, ?_⟩
  · have hlt := h.idle_room i (by rw [h.created]; exact q.queue_lt_created hmem) hold
    rw [htask, ← h.idleTime i hmem, toNat_add_one hlt]
  · rw [hover, h.passedOver i hmem]
    rfl

/-- The task that was running begins to wait. -/
lemma switch_joins (h : Represents s q) (hc : q.Candidate n waiting started)
    (hrun : q.running regs.core = some i) (d : Dispatch) :
    ((switched s.sched regs (passOver s.sched.tasks k) n).tasks i).status = WAITING ∧
      ((switched s.sched regs (passOver s.sched.tasks k) n).tasks i).idleTime.toNat = 0 ∧
      (s.note (switched s.sched regs (passOver s.sched.tasks k) n) (some d)).waitingSince i
        = s.steps + 1 ∧
      (s.note (switched s.sched regs (passOver s.sched.tasks k) n) (some d)).passedOver i = 0 := by
  have hold : (s.sched.tasks i).status ≠ WAITING := by
    rw [h.running regs.core i hrun]
    decide
  have htask := h.switched_preempted (k := k) hrun (hc.ne_of_running hrun)
  have hnew : ((switched s.sched regs (passOver s.sched.tasks k) n).tasks i).status = WAITING :=
    congrArg Task.status htask
  obtain ⟨hsince, hover⟩ := note_joins (d := some d) hold hnew
  refine ⟨hnew, ?_, hsince, hover⟩
  rw [htask, h.runningIdle _ i hrun, UInt64.toNat_zero]

/-- **A switch.**  The core switches to a task that may be switched to, and the search has passed
over all those that stay in the queue. -/
theorem switch (h : Represents s q) (hc : q.Candidate n waiting started)
    (hsub : waiting.Sublist q.queue) (hpass : ∀ i ∈ waiting, i < k) (hle : q.started ≤ started)
    {d : Dispatch} (hstarts : ∀ i, (if i < started then 1 else 0) =
      if startsTask (some d) i then (if i < q.started then 1 else 0) + 1
      else if i < q.started then 1 else 0) :
    Represents (s.note (switched s.sched regs (passOver s.sched.tasks k) n) (some d))
      (q.switchTo regs.core hc) where
  created := h.created
  room := h.room
  current := by
    intro c
    show (Function.update s.sched.cpuInfo regs.core _ c).currentTask
      = currentIndex (Function.update q.running regs.core (some n) c)
    rcases eq_or_ne c regs.core with rfl | hne
    · rw [Function.update_self, Function.update_self]
      rfl
    · rw [Function.update_of_ne hne, Function.update_of_ne hne, h.current c]
  waiting := by
    intro i hi
    rcases List.mem_append.mp hi with hi | hi
    · exact (h.switch_stays hc hsub hpass hi d).1
    · exact (h.switch_joins hc (Option.mem_toList.mp hi) d).1
  idleTime := by
    intro i hi
    show _ = if i ∈ waiting then q.age i + 1 else 0
    rcases List.mem_append.mp hi with hi | hi
    · rw [if_pos hi]
      exact (h.switch_stays hc hsub hpass hi d).2.1
    · have hrun := Option.mem_toList.mp hi
      rw [if_neg (hc.not_mem_of_running hrun)]
      exact (h.switch_joins hc hrun d).2.1
  passedOver := by
    intro i hi
    show _ = if i ∈ waiting then q.age i + 1 else 0
    rcases List.mem_append.mp hi with hi | hi
    · rw [if_pos hi, (h.switch_stays hc hsub hpass hi d).2.2.2]
    · have hrun := Option.mem_toList.mp hi
      rw [if_neg (hc.not_mem_of_running hrun), (h.switch_joins hc hrun d).2.2.2]
  since := by
    have hstayed : ∀ i ∈ waiting,
        (s.note (switched s.sched regs (passOver s.sched.tasks k) n) (some d)).waitingSince i
          = s.waitingSince i :=
      fun i hi => (h.switch_stays hc hsub hpass hi d).2.2.1
    refine List.pairwise_append.mpr ⟨?_, by cases q.running regs.core <;> simp, ?_⟩
    · refine (h.since.sublist hsub).imp_of_mem fun {i j} hi hj hlt => ?_
      rwa [hstayed i hi, hstayed j hj]
    · intro i hi j hj
      rw [hstayed i hi, (h.switch_joins hc (Option.mem_toList.mp hj) d).2.2.1]
      exact Nat.lt_succ_of_le (h.since_le i (hsub.subset hi))
  since_le := by
    intro i hi
    show _ ≤ s.steps + 1
    rcases List.mem_append.mp hi with hi | hi
    · rw [(h.switch_stays hc hsub hpass hi d).2.2.1]
      exact Nat.le_succ_of_le (h.since_le i (hsub.subset hi))
    · rw [(h.switch_joins hc (Option.mem_toList.mp hi) d).2.2.1]
  running := by
    intro c i hi
    rcases q.switchTo_running hc hi with ⟨_, rfl⟩ | ⟨hne, hrun⟩
    · exact congrArg Task.status (switched_next ..)
    · exact (congrArg Task.status (h.switched_elsewhere hc hne hrun)).trans (h.running c i hrun)
  runningIdle := by
    intro c i hi
    rcases q.switchTo_running hc hi with ⟨_, rfl⟩ | ⟨hne, hrun⟩
    · exact congrArg Task.idleTime (switched_next ..)
    · exact (congrArg Task.idleTime (h.switched_elsewhere hc hne hrun)).trans
        (h.runningIdle c i hrun)
  fresh := by
    intro i hge hi
    exact (congrArg Task.status (h.switched_unstarted hc hle hge hi)).trans
      (h.fresh i (le_trans hle hge) hi)
  freshIdle := by
    intro i hge hi
    exact (congrArg Task.idleTime (h.switched_unstarted hc hle hge hi)).trans
      (h.freshIdle i (le_trans hle hge) hi)
  taken := by
    intro i hi
    exact ne_of_eq_of_ne ((kernelStack_switched ..).trans (kernelStack_passOver ..)) (h.taken i hi)
  free := by
    intro i hge hi
    exact ((kernelStack_switched ..).trans (kernelStack_passOver ..)).trans (h.free i hge hi)
  starts := by
    intro i
    show (if startsTask (some d) i then s.starts i + 1 else s.starts i)
      = if i < started then 1 else 0
    rw [h.starts i]
    exact (hstarts i).symm

/-! ## The steps of the run queue -/

/-- The first free entry is the one after the last task. -/
lemma findFreeIndex_eq (h : Represents s q) (hfree : findFreeIndex s.sched ≠ -1) :
    findFreeIndex s.sched = q.created ∧ q.created < s.sched.maxNumberOfTasks.toNat := by
  rcases firstIndex_cases (fun i => (s.sched.tasks i).kernelStack == 0)
    s.sched.maxNumberOfTasks.toNat with ⟨i, hindex, hlt, hzero, hmin⟩ | ⟨hnone, _⟩
  · have hge : q.created ≤ i := by
      by_contra hlt'
      exact h.taken i (by omega) (eq_of_beq hzero)
    have hle : i ≤ q.created := by
      by_contra hgt
      have hbusy := hmin q.created (by omega)
      rw [h.free q.created (le_refl _) (by omega)] at hbusy
      exact Bool.noConfusion hbusy
    obtain rfl : i = q.created := by omega
    exact ⟨hindex, hlt⟩
  · exact absurd hnone hfree

/-- A new task comes after the others. -/
theorem create (h : Represents s q) (hfree : findFreeIndex s.sched ≠ -1) {r : TaskResources}
    (hmem : r.pmm.totalDetectedMemory.toNat < 2 ^ 47) (ss : UInt16) (rsp : UInt64) (cs : UInt16)
    (entryPoint : UInt64) :
    Represents (s.note (createNewTask s.sched ss rsp cs entryPoint r) none) q.create := by
  obtain ⟨hindex, hlt⟩ := h.findFreeIndex_eq hfree
  obtain ⟨t, hstatus, hidle, hstack, hcall⟩ := createNewTask_tasks (r := r) hindex ss rsp cs
    entryPoint
  rw [hcall]
  have hnew : Function.update s.sched.tasks q.created t q.created = t := Function.update_self ..
  have hother : ∀ i : ℕ, i ≠ q.created → Function.update s.sched.tasks q.created t i
      = s.sched.tasks i := fun i hi => Function.update_of_ne (by exact_mod_cast hi) _ _
  have hstarted : ∀ i, i < q.started → i ≠ q.created := fun i hi => by
    have := q.started_le
    omega
  have hwaits : ∀ i ∈ q.queue, Function.update s.sched.tasks q.created t i = s.sched.tasks i :=
    fun i hi => hother i (hstarted i (q.queue_lt_started hi))
  have hruns : ∀ c i, q.running c = some i →
      Function.update s.sched.tasks q.created t i = s.sched.tasks i :=
    fun c i hi => hother i (hstarted i (q.running_lt_started hi))
  have hstayed : ∀ i ∈ q.queue, _ := fun i hi => note_stays (d := none) (h.waiting i hi)
    (show (Sched.tasks { s.sched with
        tasks := Function.update s.sched.tasks q.created t
        numberOfTasks := s.sched.numberOfTasks + 1 } i).status = WAITING from
      (congrArg Task.status (hwaits i hi)).trans (h.waiting i hi))
  exact
  { created := by
      show (s.sched.numberOfTasks + 1).toNat = q.created + 1
      have hmax := s.sched.maxNumberOfTasks.toNat_lt
      rw [toNat_add_one (by rw [h.created]; omega), h.created]
    room := hlt
    current := h.current
    waiting := fun i hi => (congrArg Task.status (hwaits i hi)).trans (h.waiting i hi)
    idleTime := fun i hi =>
      (congrArg (fun t => t.idleTime.toNat) (hwaits i hi)).trans (h.idleTime i hi)
    passedOver := fun i hi => (hstayed i hi).2.trans (h.passedOver i hi)
    since := h.since.imp_of_mem fun {i j} hi hj hlt => by rwa [(hstayed i hi).1, (hstayed j hj).1]
    since_le := fun i hi => by
      rw [(hstayed i hi).1]
      exact Nat.le_succ_of_le (h.since_le i hi)
    running := fun c i hi => (congrArg Task.status (hruns c i hi)).trans (h.running c i hi)
    runningIdle := fun c i hi =>
      (congrArg Task.idleTime (hruns c i hi)).trans (h.runningIdle c i hi)
    fresh := by
      intro i hge hi
      rcases Nat.lt_succ_iff_lt_or_eq.mp hi with hi | rfl
      · exact (congrArg Task.status (hother i hi.ne)).trans (h.fresh i hge hi)
      · exact (congrArg Task.status hnew).trans hstatus
    freshIdle := by
      intro i hge hi
      rcases Nat.lt_succ_iff_lt_or_eq.mp hi with hi | rfl
      · exact (congrArg Task.idleTime (hother i hi.ne)).trans (h.freshIdle i hge hi)
      · exact (congrArg Task.idleTime hnew).trans hidle
    taken := by
      intro i hi
      rcases Nat.lt_succ_iff_lt_or_eq.mp hi with hi | rfl
      · exact ne_of_eq_of_ne (congrArg Task.kernelStack (hother i hi.ne)) (h.taken i hi)
      · exact ne_of_eq_of_ne ((congrArg Task.kernelStack hnew).trans hstack)
          (kernelStack_ne_zero hmem)
    free := by
      intro i hge hi
      have hne : i ≠ q.created := Nat.ne_of_gt hge
      exact (congrArg Task.kernelStack (hother i hne)).trans (h.free i (Nat.le_of_succ_le hge) hi)
    starts := h.starts }

/-- **What `schedulerMain` does, read off the run queue.** -/
theorem schedulerMain_queue (h : Represents s q) (regs : Regs) :
    (q.started < q.created ∧ schedulerMain s.sched regs =
      (switched s.sched regs (passOver s.sched.tasks q.started) q.started,
        some (dispatchTo s.sched regs q.started (s.sched.tasks q.started).start))) ∨
    (q.started = q.created ∧ ∃ n rest, q.queue = n :: rest ∧ schedulerMain s.sched regs =
      (switched s.sched regs (passOver s.sched.tasks q.created) n,
        some (dispatchTo s.sched regs n (s.sched.tasks n).switch))) ∨
    (q.started = q.created ∧ q.queue = [] ∧
      schedulerMain s.sched regs = ({ s.sched with lock := false }, none)) := by
  have hall : (∀ j : ℕ, j < q.created → (s.sched.tasks j).status ≠ WAITING_TO_START) →
      q.started = q.created := by
    intro hnone
    by_contra hne
    have hlt := lt_of_le_of_ne q.started_le hne
    exact hnone q.started hlt (h.fresh q.started (le_refl _) hlt)
  have hcases := schedulerMain_cases (h.currentRuns regs.core) h.idle_room
  rw [h.created] at hcases
  rcases hcases with ⟨u, ⟨hu, hfresh, hfirst⟩, hcall⟩ | ⟨hnone, m, ⟨hm, hwait, hlong⟩, hcall⟩ |
    ⟨hnobody, hcall⟩
  · -- the first unstarted task is the first of the fresh ones
    have hge := (h.unstarted_iff hu).mp hfresh
    have hle : u ≤ q.started := by
      by_contra hlt
      exact hfirst q.started (by omega) (h.fresh q.started (le_refl _) (by omega))
    obtain rfl : u = q.started := by omega
    exact Or.inl ⟨hu, hcall⟩
  · -- a task that has waited longest is the head of the queue
    refine Or.inr (Or.inl ⟨hall hnone, ?_⟩)
    have hmem := (h.waiting_iff hm).mp hwait
    obtain ⟨n, rest, hq⟩ := List.exists_cons_of_ne_nil (List.ne_nil_of_mem hmem)
    have hhead : n ∈ q.queue := hq ▸ List.mem_cons_self
    rcases q.oldest hq hmem with rfl | hage
    · exact ⟨m, rest, hq, hcall⟩
    · have hle := hlong n (q.queue_lt_created hhead) (h.waiting n hhead)
      rw [h.idleTime m hmem, h.idleTime n hhead] at hle
      omega
  · refine Or.inr (Or.inr ⟨hall fun j hj => (hnobody j hj).1, ?_, hcall⟩)
    refine List.eq_nil_iff_forall_not_mem.mpr fun i hi => ?_
    exact (hnobody i (q.queue_lt_created hi)).2 (h.waiting i hi)

/-- The first task that has never run is started. -/
lemma start (h : Represents s q) (hlt : q.started < q.created) :
    Represents
      (s.note (switched s.sched regs (passOver s.sched.tasks q.started) q.started)
        (some (dispatchTo s.sched regs q.started (s.sched.tasks q.started).start)))
      (q.start regs.core hlt) := by
  refine h.switch _ (List.Sublist.refl _) (fun i hi => q.queue_lt_started hi) (Nat.le_succ _)
    fun i => ?_
  rw [startsTask_start]
  grind

/-- The head of the queue is resumed. -/
lemma resume (h : Represents s q) {rest : List ℕ} (hq : q.queue = n :: rest) :
    Represents
      (s.note (switched s.sched regs (passOver s.sched.tasks q.created) n)
        (some (dispatchTo s.sched regs n (s.sched.tasks n).switch)))
      (q.resume regs.core hq) := by
  refine h.switch _ (hq ▸ List.sublist_cons_self n rest)
    (fun i hi => q.queue_lt_created (hq ▸ List.mem_cons_of_mem n hi)) (le_refl _) fun i => ?_
  rw [startsTask_switch, if_neg Bool.false_ne_true]

/-- Without a switch nothing changes. -/
lemma idle (h : Represents s q) (hq : q.queue = []) :
    Represents (s.note { s.sched with lock := false } none) q where
  created := h.created
  room := h.room
  current := h.current
  waiting := h.waiting
  idleTime := h.idleTime
  passedOver := fun i hi => by simp [hq] at hi
  since := by simp [hq]
  since_le := fun i hi => by simp [hq] at hi
  running := h.running
  runningIdle := h.runningIdle
  fresh := h.fresh
  freshIdle := h.freshIdle
  taken := h.taken
  free := h.free
  starts := h.starts

end Represents

/-! ## The refinement -/

/-- What the run queue sees of an event. -/
def SchedEvent.abstract : SchedEvent → RunQueue.Event UInt64
  | .create .. => .create
  | .tick regs (some d) => .dispatch regs.core d.nextTask.toNat
  | .tick regs none => .idle regs.core

variable {e : SchedEvent}

/-- **Every step is a step of the run queue.** -/
theorem taskTable_simulates (h : Represents s q) (hstep : SchedStep s e s') :
    ∃ q', RunQueue.Step q e.abstract q' ∧ Represents s' q' := by
  cases hstep with
  | create hfree hmem => exact ⟨q.create, RunQueue.Step.create, h.create hfree hmem ..⟩
  | @tick regs sched' d hcall =>
      rcases h.schedulerMain_queue regs with ⟨hlt, hmain⟩ | ⟨hall, n, rest, hq, hmain⟩ |
        ⟨hall, hq, hmain⟩ <;> obtain ⟨rfl, rfl⟩ := Prod.mk.inj (hmain.symm.trans hcall)
      · exact ⟨q.start regs.core hlt, RunQueue.Step.start hlt, h.start hlt⟩
      · exact ⟨q.resume regs.core hq, RunQueue.Step.resume hall hq, h.resume hq⟩
      · exact ⟨q, RunQueue.Step.idle hall hq, h.idle hq⟩

/-- Every run is a run of the run queue. -/
theorem taskTable_run {s₀ : SchedState} {es : List SchedEvent} (h0 : s₀.Initial)
    (hrun : Run SchedStep s₀ es s) :
    ∃ q, Run RunQueue.Step (RunQueue.empty UInt64) (es.map SchedEvent.abstract) q ∧
      Represents s q :=
  hrun.simulate (fun _ _ _ _ h hstep => taskTable_simulates h hstep) (represents_initial h0)

/-! ## A short run -/

/-- A table of ten empty entries. -/
def plainSched : SchedState where
  sched :=
    { tasks := fun _ => default
      cpuInfo := fun c => ⟨c, -1⟩
      numberOfTasks := 0
      maxNumberOfTasks := 10
      lock := false }
  steps := 0
  waitingSince := fun _ => 0
  passedOver := fun _ => 0
  starts := fun _ => 0

lemma plainSched_initial : plainSched.Initial where
  noTasks := rfl
  free := fun _ _ => rfl
  idle := fun _ => rfl
  notStarted := fun _ => rfl

/-- A task on a machine with 32 MiB. -/
def SchedState.createPlain (s : SchedState) : SchedState :=
  s.note (createNewTask s.sched 0x23 0x10000 0x1b 0x8000
    ⟨1, 0, ⟨fun _ => 0, 0x2000000, false⟩, default, fun _ => default⟩) none

/-- A timer interrupt on core 0. -/
def SchedState.tickPlain (s : SchedState) : SchedState :=
  s.note (schedulerMain s.sched default).1 (schedulerMain s.sched default).2

lemma step_tickPlain (s : SchedState) :
    SchedStep s (.tick default (schedulerMain s.sched default).2) s.tickPlain := .tick rfl

/-- Two tasks on one core: both are started, and the first is resumed. -/
def twoTasks : SchedState :=
  plainSched.createPlain.createPlain.tickPlain.tickPlain.tickPlain

lemma run_twoTasks : ∃ es, Run SchedStep plainSched es twoTasks := by
  have hone := Run.single (.create (by decide +kernel) (by decide) :
    SchedStep plainSched _ plainSched.createPlain)
  have htwo := hone.snoc (.create (by decide +kernel) (by decide) :
    SchedStep _ _ plainSched.createPlain.createPlain)
  exact ⟨_, ((htwo.snoc (step_tickPlain _)).snoc (step_tickPlain _)).snoc (step_tickPlain _)⟩

end Seaweed
