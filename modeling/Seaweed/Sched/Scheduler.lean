import Seaweed.Library.FirstFit
import Seaweed.Libk.AsmUtils
import Seaweed.Mm.PhysicalPageManager
import Seaweed.Mm.KHeap

/-!
# The scheduler (`kernel/sched/scheduler.c`)

A table of tasks and, for each core, the index of the task it runs.  `schedulerMain` is called from
the timer interrupt: it looks for the next task, saves the registers of the last one and hands over
to `startTask` or `switchTask`, which do not return.

* `scanTasks` — the search for the next task; it counts idle time on the way.
* `schedulerMain`, `createNewTask` — the two entry points.
* `scanTasks_spec`, **`schedulerMain_cases`** — everything the search and the scheduler can do.
-/

namespace Seaweed

open FirstFit Words

/-! ## The data -/

def WAITING_TO_START : UInt8 := 1
def RUNNING : UInt8 := 2
def WAITING : UInt8 := 3

/-- `task_t`, without the threads that `threads` points to. -/
structure Task where
  status : UInt8
  pml4Index : UInt64
  regs : Regs
  threads : UInt64
  kernelStack : UInt64
  entryPoint : UInt64
  idleTime : UInt64
  numberOfThreads : UInt64
  maxNumberOfThreads : UInt64
  deriving Inhabited

/-- `cpuInfo_t`, less the field nothing uses. -/
structure CpuInfo where
  coreID : UInt64
  currentTask : ℤ

/-- The globals of the scheduler, with the lock of `schedulerMain`.  An index of the table, or `-1`,
is what an `int64_t` holds. -/
structure Sched where
  tasks : ℤ → Task
  cpuInfo : UInt64 → CpuInfo
  numberOfTasks : UInt64
  maxNumberOfTasks : UInt64
  lock : Bool

/-- What `schedulerMain` hands over to; neither function returns. -/
inductive Resume
  | startTask (ss rsp cs entryPoint : UInt64)
  | switchTask (regs : Regs) (dataSegment : UInt64)

/-- A switch: the core, the task it was running or `-1`, the task it switches to, the address space
and the kernel stack that are set for it, and how it is resumed. -/
structure Dispatch where
  core : UInt64
  lastTask : ℤ
  nextTask : ℤ
  pml4Index : UInt64
  kernelStack : UInt64
  resume : Resume

/-! ## The code -/

/-- The search loop: `turns` iterations remain and `i` is the task looked at. -/
def scanTasks (tasks : ℤ → Task) :
    (turns i : ℕ) → (cnt : UInt64) → (nextTask : ℤ) → (ℤ → Task) × ℤ
  | 0, _, _, nextTask => (tasks, nextTask)
  | turns + 1, i, cnt, nextTask =>
      if (tasks i).status = WAITING then
        let idleTime := (tasks i).idleTime + 1
        let tasks := Function.update tasks i { tasks i with idleTime := idleTime }
        if cnt < idleTime then scanTasks tasks turns (i + 1) idleTime i
        else scanTasks tasks turns (i + 1) cnt nextTask
      else if (tasks i).status = WAITING_TO_START then (tasks, i)
      else scanTasks tasks turns (i + 1) cnt nextTask

/-- `if(lastTask != -1)`: the task that was running is saved and waits. -/
def saveLast (tasks : ℤ → Task) (lastTask : ℤ) (regs : Regs) : ℤ → Task :=
  if lastTask ≠ -1 then
    Function.update tasks lastTask { tasks lastTask with regs := regs, status := WAITING }
  else tasks

/-- `none` is a return to the interrupted code. -/
def schedulerMain (s : Sched) (regs : Regs) : Sched × Option Dispatch :=
  let s : Sched := { s with lock := true }
  if s.numberOfTasks = 0 then ({ s with lock := false }, none)
  else
    let lastTask := (s.cpuInfo regs.core).currentTask
    let (tasks, nextTask) := scanTasks s.tasks s.numberOfTasks.toNat 0 0 (-1)
    if nextTask = -1 then ({ s with tasks := tasks, lock := false }, none)
    else
      let tasks := saveLast tasks lastTask regs
      let cpuInfo := Function.update s.cpuInfo regs.core
        { s.cpuInfo regs.core with currentTask := nextTask }
      let tasks := Function.update tasks nextTask { tasks nextTask with idleTime := 0 }
      let next := tasks nextTask
      let running := Function.update tasks nextTask { next with status := RUNNING }
      let dispatch := Dispatch.mk regs.core lastTask nextTask next.pml4Index next.kernelStack
      if next.status = WAITING_TO_START then
        ({ s with tasks := running, cpuInfo := cpuInfo, lock := false },
          some (dispatch (.startTask next.regs.ss next.regs.rsp next.regs.cs next.entryPoint)))
      else if next.status = WAITING then
        ({ s with tasks := running, cpuInfo := cpuInfo, lock := false },
          some (dispatch (.switchTask next.regs next.regs.ss)))
      else ({ s with tasks := tasks, cpuInfo := cpuInfo, lock := false }, none)

def findFreeIndex (s : Sched) : ℤ :=
  firstIndex (fun i => (s.tasks i).kernelStack == 0) s.maxNumberOfTasks.toNat

/-- What `createNewTask` gets from the other subsystems: the index of the new address space, the
memory for the threads, the page manager when it asks for the kernel stack, the registers as they
happen to be on its stack, and the table as `krealloc` would return it. -/
structure TaskResources where
  pml4Index : UInt64
  threads : UInt64
  pmm : Pmm
  regs : Regs
  grown : ℤ → Task

def createNewTask (s : Sched) (ss : UInt16) (rsp : UInt64) (cs : UInt16) (entryPoint : UInt64)
    (r : TaskResources) : Sched :=
  let index := findFreeIndex s
  let s : Sched := if index = -1 then
    { s with tasks := r.grown, maxNumberOfTasks := s.maxNumberOfTasks + 10 } else s
  let newTask : Task :=
    { status := WAITING_TO_START
      pml4Index := r.pml4Index
      regs := { r.regs with rsp := rsp, ss := ss.toUInt64, cs := cs.toUInt64 }
      threads := r.threads
      kernelStack := (physicalPageAlloc r.pmm 2).1 + 0x2000 + HIGH_VMA
      entryPoint := entryPoint
      idleTime := 0
      numberOfThreads := 0
      maxNumberOfThreads := 10 }
  { s with
    tasks := Function.update s.tasks index newTask
    numberOfTasks := s.numberOfTasks + 1 }

/-! ## What the search can do -/

/-- The table after the tasks below `k` that wait have been passed over once. -/
def passOver (tasks : ℤ → Task) (k : ℕ) : ℤ → Task := fun j =>
  if 0 ≤ j ∧ j < k ∧ (tasks j).status = WAITING then
    { tasks j with idleTime := (tasks j).idleTime + 1 }
  else tasks j

variable {tasks : ℤ → Task} {i n k : ℕ} {j : ℤ} {cnt : UInt64} {nextTask : ℤ}

@[simp] lemma status_passOver (tasks : ℤ → Task) (k : ℕ) (j : ℤ) :
    (passOver tasks k j).status = (tasks j).status := by
  rw [passOver]
  split_ifs <;> rfl

@[simp] lemma passOver_zero (tasks : ℤ → Task) : passOver tasks 0 = tasks := by
  funext j
  rw [passOver, if_neg (by omega)]

/-- Where task `k` waits, passing it over changes its idle time and nothing else. -/
lemma passOver_succ_waiting (h : (tasks k).status = WAITING) :
    passOver tasks (k + 1) = Function.update (passOver tasks k) k
      { tasks k with idleTime := (tasks k).idleTime + 1 } := by
  funext j
  rcases eq_or_ne j k with rfl | hne
  · rw [Function.update_self, passOver, if_pos ⟨by omega, by push_cast; omega, h⟩]
  · rw [Function.update_of_ne hne, passOver, passOver]
    congr 1
    simp only [eq_iff_iff]
    push_cast
    constructor
    · rintro ⟨h0, hlt, hw⟩
      exact ⟨h0, by omega, hw⟩
    · rintro ⟨h0, hlt, hw⟩
      exact ⟨h0, by omega, hw⟩

lemma passOver_succ_of_ne (h : (tasks k).status ≠ WAITING) :
    passOver tasks (k + 1) = passOver tasks k := by
  funext j
  rw [passOver, passOver]
  congr 1
  simp only [eq_iff_iff]
  push_cast
  constructor
  · rintro ⟨h0, hlt, hw⟩
    have hne : j ≠ k := fun heq => h (heq ▸ hw)
    exact ⟨h0, by omega, hw⟩
  · rintro ⟨h0, hlt, hw⟩
    exact ⟨h0, by omega, hw⟩

/-- Task `u` is the first that has never been started. -/
def FirstUnstarted (tasks : ℤ → Task) (n u : ℕ) : Prop :=
  u < n ∧ (tasks u).status = WAITING_TO_START ∧
    ∀ j : ℕ, j < u → (tasks j).status ≠ WAITING_TO_START

/-- Task `m` waits, and none of those below `k` has waited longer. -/
def LongestWaiting (tasks : ℤ → Task) (k m : ℕ) : Prop :=
  m < k ∧ (tasks m).status = WAITING ∧ ∀ j : ℕ, j < k → (tasks j).status = WAITING →
    (tasks j).idleTime.toNat ≤ (tasks m).idleTime.toNat

/-- What `cnt` and `nextTask` are once the tasks below `k` have been looked at and none of them was
unstarted. -/
inductive Searched (tasks : ℤ → Task) (k : ℕ) : (cnt : UInt64) → (nextTask : ℤ) → Prop
  | nobody (h : ∀ j : ℕ, j < k → (tasks j).status ≠ WAITING) : Searched tasks k 0 (-1)
  | found {m : ℕ} {cnt : UInt64} (h : LongestWaiting tasks k m)
      (hcnt : cnt.toNat = (tasks m).idleTime.toNat + 1) : Searched tasks k cnt m

/-- A task that waits takes the lead if its count is the highest so far, and otherwise leaves it. -/
lemma Searched.waiting (h : Searched tasks k cnt nextTask) (hw : (tasks k).status = WAITING)
    (hidle : (tasks k).idleTime.toNat + 1 < 2 ^ 64) :
    if cnt < (tasks k).idleTime + 1 then Searched tasks (k + 1) ((tasks k).idleTime + 1) k
    else Searched tasks (k + 1) cnt nextTask := by
  have hone : ((tasks k).idleTime + 1).toNat = (tasks k).idleTime.toNat + 1 := toNat_add_one hidle
  split_ifs with hlt <;> rw [UInt64.lt_iff_toNat_lt, hone] at hlt
  · refine Searched.found ⟨Nat.lt_succ_self k, hw, fun j hj hjw => ?_⟩ hone
    rcases Nat.lt_succ_iff_lt_or_eq.mp hj with hj | rfl
    · cases h with
      | nobody h => exact absurd hjw (h j hj)
      | @found m _ h hcnt =>
          have := h.2.2 j hj hjw
          omega
    · exact le_refl _
  · cases h with
    | nobody h =>
        rw [UInt64.toNat_zero] at hlt
        omega
    | @found m _ h hcnt =>
        refine Searched.found ⟨Nat.lt_succ_of_lt h.1, h.2.1, fun j hj hjw => ?_⟩ hcnt
        rcases Nat.lt_succ_iff_lt_or_eq.mp hj with hj | rfl
        · exact h.2.2 j hj hjw
        · omega

/-- A task that does not wait changes nothing. -/
lemma Searched.skip (h : Searched tasks k cnt nextTask) (hw : (tasks k).status ≠ WAITING) :
    Searched tasks (k + 1) cnt nextTask := by
  have hcases : ∀ j : ℕ, j < k + 1 → (tasks j).status = WAITING → j < k := by
    intro j hj hjw
    rcases Nat.lt_succ_iff_lt_or_eq.mp hj with hj | rfl
    · exact hj
    · exact absurd hjw hw
  cases h with
  | nobody h => exact Searched.nobody fun j hj hjw => h j (hcases j hj hjw) hjw
  | found h hcnt =>
      exact Searched.found ⟨Nat.lt_succ_of_lt h.1, h.2.1,
        fun j hj hjw => h.2.2 j (hcases j hj hjw) hjw⟩ hcnt

/-- **The search.**  It stops at the first unstarted task and has then passed over those before it;
without one it passes over everybody, and finds a task that has waited longest. -/
theorem scanTasks_spec (hidle : ∀ j : ℕ, j < n → (tasks j).status = WAITING →
    (tasks j).idleTime.toNat + 1 < 2 ^ 64) (turns : ℕ) (hturns : i + turns = n)
    (hsearch : Searched tasks i cnt nextTask)
    (hnone : ∀ j : ℕ, j < i → (tasks j).status ≠ WAITING_TO_START) :
    (∃ u, FirstUnstarted tasks n u ∧
      scanTasks (passOver tasks i) turns i cnt nextTask = (passOver tasks u, (u : ℤ))) ∨
    ((∀ j : ℕ, j < n → (tasks j).status ≠ WAITING_TO_START) ∧
      ∃ cnt' next', Searched tasks n cnt' next' ∧
        scanTasks (passOver tasks i) turns i cnt nextTask = (passOver tasks n, next')) := by
  induction turns generalizing i cnt nextTask with
  | zero =>
      obtain rfl : i = n := by omega
      exact Or.inr ⟨hnone, cnt, nextTask, hsearch, rfl⟩
  | succ turns ih =>
      have hself : passOver tasks i i = tasks i := by rw [passOver, if_neg (by omega)]
      have hnext : (tasks i).status ≠ WAITING_TO_START →
          ∀ j : ℕ, j < i + 1 → (tasks j).status ≠ WAITING_TO_START := by
        intro hi j hj
        rcases Nat.lt_succ_iff_lt_or_eq.mp hj with hj | rfl
        · exact hnone j hj
        · exact hi
      rw [scanTasks, status_passOver]
      by_cases hw : (tasks i).status = WAITING
      · have hstep := hsearch.waiting hw (hidle i (by omega) hw)
        have hne : (tasks i).status ≠ WAITING_TO_START := by rw [hw]; decide
        simp only [if_pos hw, hself]
        rw [← passOver_succ_waiting hw]
        split_ifs with hlt
        · rw [if_pos hlt] at hstep
          exact ih (by omega) hstep (hnext hne)
        · rw [if_neg hlt] at hstep
          exact ih (by omega) hstep (hnext hne)
      · rw [if_neg hw]
        by_cases hstart : (tasks i).status = WAITING_TO_START
        · rw [if_pos hstart]
          exact Or.inl ⟨i, ⟨by omega, hstart, hnone⟩, rfl⟩
        · rw [if_neg hstart, ← passOver_succ_of_ne hw]
          exact ih (by omega) (hsearch.skip hw) (hnext hstart)

/-! ## What the scheduler can do -/

/-- The state once the core of `regs` has switched to `nextTask`, from the table that the search
leaves. -/
def switched (s : Sched) (regs : Regs) (tasks : ℤ → Task) (nextTask : ℤ) : Sched :=
  { s with
    tasks := Function.update (saveLast tasks (s.cpuInfo regs.core).currentTask regs) nextTask
      { tasks nextTask with idleTime := 0, status := RUNNING }
    cpuInfo := Function.update s.cpuInfo regs.core
      { s.cpuInfo regs.core with currentTask := nextTask }
    lock := false }

/-- A switch of the core of `regs` to `nextTask`. -/
def dispatchTo (s : Sched) (regs : Regs) (nextTask : ℤ) (resume : Resume) : Dispatch :=
  { core := regs.core
    lastTask := (s.cpuInfo regs.core).currentTask
    nextTask := nextTask
    pml4Index := (s.tasks nextTask).pml4Index
    kernelStack := (s.tasks nextTask).kernelStack
    resume := resume }

/-- `startTask(ss, rsp, cs, entryPoint)`. -/
def Task.start (t : Task) : Resume := .startTask t.regs.ss t.regs.rsp t.regs.cs t.entryPoint

/-- `switchTask(&regs, regs.ss)`. -/
def Task.switch (t : Task) : Resume := .switchTask t.regs t.regs.ss

lemma passOver_of_ne (h : (tasks j).status ≠ WAITING) : passOver tasks k j = tasks j := by
  rw [passOver, if_neg fun hj => h hj.2.2]

lemma passOver_of_waiting (hi : i < k) (h : (tasks i).status = WAITING) :
    passOver tasks k i = { tasks i with idleTime := (tasks i).idleTime + 1 } := by
  rw [passOver, if_pos ⟨by omega, by exact_mod_cast hi, h⟩]

lemma passOver_of_none (h : ∀ j : ℕ, j < k → (tasks j).status ≠ WAITING) :
    passOver tasks k = tasks := by
  funext j
  rw [passOver, if_neg]
  rintro ⟨h0, hlt, hw⟩
  exact h j.toNat (by omega) (by rwa [Int.toNat_of_nonneg h0])

lemma saveLast_of_ne {lastTask : ℤ} {regs : Regs} (h : j ≠ lastTask) :
    saveLast tasks lastTask regs j = tasks j := by
  rw [saveLast]
  split_ifs
  · exact Function.update_of_ne h _ _
  · rfl

lemma saveLast_self {lastTask : ℤ} {regs : Regs} (h : lastTask ≠ -1) :
    saveLast tasks lastTask regs lastTask
      = { tasks lastTask with regs := regs, status := WAITING } := by
  rw [saveLast, if_pos h, Function.update_self]

/-- The task the core is running, if there is one, is marked as such. -/
def CurrentRuns (s : Sched) (core : UInt64) : Prop :=
  (s.cpuInfo core).currentTask = -1 ∨
    (s.tasks (s.cpuInfo core).currentTask).status = RUNNING

lemma schedulerMain_core {s : Sched} {regs : Regs} {d : Dispatch}
    (h : (schedulerMain s regs).2 = some d) : d.core = regs.core := by
  simp only [schedulerMain] at h
  split_ifs at h
  all_goals
    obtain rfl := Option.some.inj h
    rfl

/-- What follows the search when it has found a task. -/
lemma schedulerMain_found {s : Sched} {regs : Regs} (hn : s.numberOfTasks ≠ 0) {m : ℕ}
    (hscan : scanTasks s.tasks s.numberOfTasks.toNat 0 0 (-1) = (tasks, (m : ℤ)))
    (hne : (m : ℤ) ≠ (s.cpuInfo regs.core).currentTask) :
    ((tasks m).status = WAITING_TO_START → schedulerMain s regs = (switched s regs tasks m,
      some { core := regs.core, lastTask := (s.cpuInfo regs.core).currentTask, nextTask := m,
             pml4Index := (tasks m).pml4Index, kernelStack := (tasks m).kernelStack,
             resume := (tasks m).start })) ∧
    ((tasks m).status = WAITING → schedulerMain s regs = (switched s regs tasks m,
      some { core := regs.core, lastTask := (s.cpuInfo regs.core).currentTask, nextTask := m,
             pml4Index := (tasks m).pml4Index, kernelStack := (tasks m).kernelStack,
             resume := (tasks m).switch })) := by
  have hm : (m : ℤ) ≠ -1 := by omega
  simp only [schedulerMain, if_neg hn, hscan, if_neg hm, saveLast_of_ne hne, Function.update_self,
    Function.update_idem]
  constructor
  · intro hstatus
    rw [if_pos hstatus]
    rfl
  · intro hstatus
    rw [if_neg (by rw [hstatus]; decide), if_pos hstatus]
    rfl

/-- **Everything `schedulerMain` can do**, on a core whose task is marked as running: start the
first task that has never been started, or without one resume a task that has waited longest, or
without a waiting task return. -/
theorem schedulerMain_cases {s : Sched} {regs : Regs} (hrun : CurrentRuns s regs.core)
    (hidle : ∀ j : ℕ, j < s.numberOfTasks.toNat → (s.tasks j).status = WAITING →
      (s.tasks j).idleTime.toNat + 1 < 2 ^ 64) :
    (∃ u, FirstUnstarted s.tasks s.numberOfTasks.toNat u ∧
      schedulerMain s regs = (switched s regs (passOver s.tasks u) u,
        some (dispatchTo s regs u (s.tasks u).start))) ∨
    ((∀ j : ℕ, j < s.numberOfTasks.toNat → (s.tasks j).status ≠ WAITING_TO_START) ∧
      ∃ m, LongestWaiting s.tasks s.numberOfTasks.toNat m ∧
        schedulerMain s regs = (switched s regs (passOver s.tasks s.numberOfTasks.toNat) m,
          some (dispatchTo s regs m (s.tasks m).switch))) ∨
    ((∀ j : ℕ, j < s.numberOfTasks.toNat → (s.tasks j).status ≠ WAITING_TO_START ∧
        (s.tasks j).status ≠ WAITING) ∧
      schedulerMain s regs = ({ s with lock := false }, none)) := by
  have hlast : ∀ m : ℕ, (s.tasks m).status ≠ RUNNING →
      (m : ℤ) ≠ (s.cpuInfo regs.core).currentTask := by
    rintro m hm heq
    rcases hrun with hnone | hrunning
    · omega
    · exact hm (heq ▸ hrunning)
  by_cases hn : s.numberOfTasks = 0
  · refine Or.inr (Or.inr ⟨fun j hj => ?_, ?_⟩)
    · rw [hn, UInt64.toNat_zero] at hj
      omega
    · rw [schedulerMain, if_pos hn]
  · have hscan := scanTasks_spec hidle s.numberOfTasks.toNat (Nat.zero_add _)
      (Searched.nobody fun j hj => by omega) fun j hj => by omega
    rw [passOver_zero] at hscan
    rcases hscan with ⟨u, hfirst, hscan⟩ | ⟨hall, cnt', next', hsearch, hscan⟩
    · have hself : passOver s.tasks u u = s.tasks u := by rw [passOver, if_neg (by omega)]
      have hne := hlast u (by rw [hfirst.2.1]; decide)
      have hcall := (schedulerMain_found hn hscan hne).1 (by rw [hself, hfirst.2.1])
      rw [hself] at hcall
      exact Or.inl ⟨u, hfirst, hcall⟩
    · cases hsearch with
      | nobody hnobody =>
          refine Or.inr (Or.inr ⟨fun j hj => ⟨hall j hj, hnobody j hj⟩, ?_⟩)
          simp only [schedulerMain, if_neg hn, hscan, if_pos, passOver_of_none hnobody]
      | @found m _ hlongest _ =>
          have hwait := hlongest.2.1
          have hself : passOver s.tasks s.numberOfTasks.toNat m
              = { s.tasks m with idleTime := (s.tasks m).idleTime + 1 } :=
            passOver_of_waiting hlongest.1 hwait
          have hne := hlast m (by rw [hwait]; decide)
          have hcall := (schedulerMain_found hn hscan hne).2 (by rw [status_passOver, hwait])
          simp only [hself] at hcall
          exact Or.inr (Or.inl ⟨hall, m, hlongest, hcall⟩)

/-! ## What a switch and a creation change -/

@[simp] lemma tasks_switched (s : Sched) (regs : Regs) (tasks : ℤ → Task) (m : ℤ) :
    (switched s regs tasks m).tasks =
      Function.update (saveLast tasks (s.cpuInfo regs.core).currentTask regs) m
        { tasks m with idleTime := 0, status := RUNNING } := rfl

lemma switched_next (s : Sched) (regs : Regs) (tasks : ℤ → Task) (m : ℤ) :
    (switched s regs tasks m).tasks m = { tasks m with idleTime := 0, status := RUNNING } := by
  rw [tasks_switched, Function.update_self]

lemma switched_last {s : Sched} {regs : Regs} {m : ℤ}
    (hnone : (s.cpuInfo regs.core).currentTask ≠ -1)
    (hne : (s.cpuInfo regs.core).currentTask ≠ m) :
    (switched s regs tasks m).tasks (s.cpuInfo regs.core).currentTask =
      { tasks (s.cpuInfo regs.core).currentTask with regs := regs, status := WAITING } := by
  rw [tasks_switched, Function.update_of_ne hne, saveLast_self hnone]

lemma switched_other {s : Sched} {regs : Regs} {m : ℤ} (hm : j ≠ m)
    (hlast : j ≠ (s.cpuInfo regs.core).currentTask) :
    (switched s regs tasks m).tasks j = tasks j := by
  rw [tasks_switched, Function.update_of_ne hm, saveLast_of_ne hlast]

lemma kernelStack_passOver (tasks : ℤ → Task) (k : ℕ) (j : ℤ) :
    (passOver tasks k j).kernelStack = (tasks j).kernelStack := by
  rw [passOver]
  split_ifs <;> rfl

/-- A switch does not touch the kernel stacks. -/
lemma kernelStack_switched (s : Sched) (regs : Regs) (tasks : ℤ → Task) (m j : ℤ) :
    ((switched s regs tasks m).tasks j).kernelStack = (tasks j).kernelStack := by
  rcases eq_or_ne j m with rfl | hm
  · rw [switched_next]
  · rw [tasks_switched, Function.update_of_ne hm, saveLast]
    split_ifs
    · rcases eq_or_ne j (s.cpuInfo regs.core).currentTask with rfl | hlast
      · rw [Function.update_self]
      · rw [Function.update_of_ne hlast]
    · rfl

/-- The kernel stack of a new task lies in the higher half, if physical memory is no larger than
what is mapped there. -/
theorem kernelStack_ne_zero {pmm : Pmm} (hmem : pmm.totalDetectedMemory.toNat < 2 ^ 47) :
    (physicalPageAlloc pmm 2).1 + 0x2000 + HIGH_VMA ≠ 0 := by
  have hbase : (physicalPageAlloc pmm 2).1.toNat + 0x2000 < 2 ^ 47 := by
    have hlim := pageLimit_le pmm
    have htwo : (2 : UInt64).toNat = 2 := rfl
    rcases physicalPageAlloc_cases pmm 2 with ⟨b, _, hfirst, hcall⟩ | ⟨_, hcall⟩
    · have hroom := hfirst.1.1
      rw [hcall, pageAddress_toNat (by omega)]
      omega
    · rw [hcall, UInt64.toNat_zero]
      omega
  have hhigh : HIGH_VMA.toNat = 2 ^ 64 - 2 ^ 47 := rfl
  have hpages : (0x2000 : UInt64).toNat = 0x2000 := rfl
  intro hzero
  have hsum := congrArg UInt64.toNat hzero
  rw [UInt64.toNat_add, UInt64.toNat_add, hhigh, hpages, UInt64.toNat_zero] at hsum
  omega

/-- A new task goes to the first entry whose kernel stack is 0. -/
lemma createNewTask_tasks {s : Sched} {r : TaskResources} (h : findFreeIndex s = n) (ss : UInt16)
    (rsp : UInt64) (cs : UInt16) (entryPoint : UInt64) :
    ∃ t : Task, t.status = WAITING_TO_START ∧ t.idleTime = 0 ∧
      t.kernelStack = (physicalPageAlloc r.pmm 2).1 + 0x2000 + HIGH_VMA ∧
      createNewTask s ss rsp cs entryPoint r = { s with
        tasks := Function.update s.tasks n t
        numberOfTasks := s.numberOfTasks + 1 } := by
  have hne : ¬ ((n : ℤ) = -1) := by omega
  rw [createNewTask, h]
  simp only [if_neg hne]
  refine ⟨_, ?_, ?_, ?_, rfl⟩ <;> rfl

end Seaweed
