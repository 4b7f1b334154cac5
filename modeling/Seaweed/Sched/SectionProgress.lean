import Seaweed.Sched.LockedSteps

/-!
# How far a call of `schedulerMain` has come

What the tables are like at each place of `schedulerMain`, against the indivisible calls of
`TaskRuns`: a call of `schedulerMain` takes effect when its search ends, and a call of
`createNewTask` when the task is counted.

* `Switching` — what a call that has taken effect still has to store.
* `Progress` — what the tables are like at each place.
* `Gone` — what is left of a call after `spinRelease`.
-/

namespace Seaweed

open FirstFit Words SpinLock Transition

variable {s s' : Sched} {a a' : SchedState} {q : RunQueue UInt64} {regs : Regs} {v : Found}
  {p : Place} {m : Leaving} {c c' : UInt64} {i k n : ℕ} {j l : ℤ} {cnt : UInt64} {t : Task}
  {lastTask nextTask : ℤ} {es : List SchedEvent} {x : CreateCall}

/-! ## Entries that are not touched -/

@[simp] lemma tasks_setTask (s : Sched) (j : ℤ) (t : Task) :
    (s.setTask j t).tasks = Function.update s.tasks j t := rfl

/-- The table with one entry stored, and the tasks counted again. -/
def Sched.put (s : Sched) (j : ℤ) (t : Task) (number : UInt64) : Sched :=
  { s.setTask j t with numberOfTasks := number }

/-- The place does not access the entry. -/
def Place.Avoids (j : ℤ) : Place → Prop
  | .waiting _ _ i _ _ => (i : ℤ) ≠ j
  | .waitingToStart _ _ i _ _ => (i : ℤ) ≠ j
  | .saveRegs v => v.lastTask ≠ j
  | .saveStatus v => v.lastTask ≠ j
  | .resetIdle v => v.nextTask ≠ j
  | .initSpace v => v.nextTask ≠ j
  | .setStack v _ => v.nextTask ≠ j
  | .start v _ _ => v.nextTask ≠ j
  | .switch v _ _ => v.nextTask ≠ j
  | _ => True

/-- The place does not read the number of tasks. -/
def Place.Counted : Place → Prop
  | .countTasks _ => False
  | .test .. => False
  | _ => True

/-- **An access commutes with the stores of `createNewTask`.** -/
lemma work_put (havoid : p.Avoids j) {number : UInt64}
    (hnumber : p.Counted ∨ number = s.numberOfTasks) (t : Task) :
    work p (s.put j t number) = ((work p s).1, (work p s).2.put j t number) := by
  cases p with
  | countTasks regs =>
      obtain rfl := hnumber.resolve_left id
      by_cases hzero : s.numberOfTasks = 0 <;> simp [work, Sched.put, hzero, Sched.setTask]
  | test regs last i cnt next =>
      obtain rfl := hnumber.resolve_left id
      by_cases hlt : i < s.numberOfTasks.toNat <;> simp [work, Sched.put, hlt, Sched.setTask]
  | currentTask | setCurrent | release => rfl
  | waiting regs last i cnt next =>
      simp only [Place.Avoids] at havoid
      have hsame := Function.update_of_ne havoid t s.tasks
      by_cases hwait : (s.tasks i).status = WAITING
      · by_cases hlt : cnt < (s.tasks i).idleTime + 1 <;>
          simp [work, Sched.put, Sched.setTask, hsame, hwait, hlt, Function.update_comm havoid]
      · simp [work, Sched.put, Sched.setTask, hsame, hwait]
  | waitingToStart regs last i cnt next =>
      simp only [Place.Avoids] at havoid
      have hsame := Function.update_of_ne havoid t s.tasks
      by_cases hfresh : (s.tasks i).status = WAITING_TO_START <;>
        simp [work, Sched.put, Sched.setTask, hsame, hfresh]
  | saveRegs v | saveStatus v =>
      simp only [Place.Avoids] at havoid
      have hsame := Function.update_of_ne havoid t s.tasks
      by_cases hlast : v.lastTask = -1 <;>
        simp [work, Sched.put, Sched.setTask, hsame, hlast, Function.update_comm havoid]
  | resetIdle v | initSpace v | setStack v =>
      simp only [Place.Avoids] at havoid
      have hsame := Function.update_of_ne havoid t s.tasks
      simp [work, Sched.put, Sched.setTask, hsame, Function.update_comm havoid]
  | start v =>
      simp only [Place.Avoids] at havoid
      have hsame := Function.update_of_ne havoid t s.tasks
      by_cases hfresh : (s.tasks v.nextTask).status = WAITING_TO_START <;>
        simp [work, Sched.put, Sched.setTask, hsame, hfresh, Function.update_comm havoid]
  | switch v =>
      simp only [Place.Avoids] at havoid
      have hsame := Function.update_of_ne havoid t s.tasks
      by_cases hwait : (s.tasks v.nextTask).status = WAITING <;>
        simp [work, Sched.put, Sched.setTask, hsame, hwait, Function.update_comm havoid]

/-- What no access changes. -/
structure KeepsTables (s s' : Sched) : Prop where
  number : s'.numberOfTasks = s.numberOfTasks
  max : s'.maxNumberOfTasks = s.maxNumberOfTasks
  kernelStack : ∀ j, (s'.tasks j).kernelStack = (s.tasks j).kernelStack

lemma keepsTables_refl (s : Sched) : KeepsTables s s := ⟨rfl, rfl, fun _ => rfl⟩

lemma KeepsTables.trans {s'' : Sched} (h : KeepsTables s s') (h' : KeepsTables s' s'') :
    KeepsTables s s'' :=
  ⟨h'.number.trans h.number, h'.max.trans h.max,
    fun j => (h'.kernelStack j).trans (h.kernelStack j)⟩

lemma keepsTables_setTask (h : t.kernelStack = (s.tasks j).kernelStack) :
    KeepsTables s (s.setTask j t) := by
  refine ⟨rfl, rfl, fun l => ?_⟩
  rcases eq_or_ne l j with rfl | hne
  · rw [tasks_setTask, Function.update_self, h]
  · rw [tasks_setTask, Function.update_of_ne hne]

lemma keepsTables_work (p : Place) (s : Sched) : KeepsTables s (work p s).2 := by
  cases p <;> simp only [work] <;> try split_ifs
  all_goals first | exact keepsTables_refl s | exact keepsTables_setTask rfl |
    exact ⟨rfl, rfl, fun _ => rfl⟩

/-- The search for a free entry reads only this. -/
lemma KeepsTables.findFreeIndex_eq (h : KeepsTables s s') : findFreeIndex s' = findFreeIndex s := by
  simp only [findFreeIndex, h.max, h.kernelStack]

/-! ## The calls that a run consists of -/

/-- What a call of `schedulerMain` on core `c` has returned. -/
def SchedEvent.tickOf (c : UInt64) : SchedEvent → Option (Option Dispatch)
  | .tick regs d => if regs.core = c then some d else none
  | .create .. => none

/-- The last call on core `c`. -/
def lastTick (c : UInt64) (es : List SchedEvent) : Option (Option Dispatch) :=
  (es.filterMap (SchedEvent.tickOf c)).getLast?

lemma lastTick_tick (es : List SchedEvent) (regs : Regs) (d : Option Dispatch) :
    lastTick regs.core (es ++ [.tick regs d]) = some d := by
  simp [lastTick, SchedEvent.tickOf]

lemma lastTick_other (es : List SchedEvent) {regs : Regs} (h : regs.core ≠ c)
    (d : Option Dispatch) : lastTick c (es ++ [.tick regs d]) = lastTick c es := by
  simp [lastTick, SchedEvent.tickOf, h]

lemma lastTick_create (es : List SchedEvent) (c : UInt64) (x : CreateCall) :
    lastTick c (es ++ [.create x.ss x.rsp x.cs x.entryPoint x.r]) = lastTick c es := by
  simp [lastTick, SchedEvent.tickOf]

/-- The registers that a call of `schedulerMain` is given. -/
def SchedEvent.calledWith : SchedEvent → Option Regs
  | .tick regs _ => some regs
  | .create .. => none

def SchedEvent.createdWith : SchedEvent → Option CreateCall
  | .create ss rsp cs entryPoint r => some ⟨ss, rsp, cs, entryPoint, r⟩
  | .tick .. => none

/-- The call that has come to the lock, and not taken effect. -/
def Place.pending : Place → List Regs
  | .currentTask regs => [regs]
  | .test regs .. => [regs]
  | .waiting regs .. => [regs]
  | .waitingToStart regs .. => [regs]
  | _ => []

@[simp] lemma pending_afterSearch (regs : Regs) (lastTask nextTask : ℤ) :
    (afterSearch regs lastTask nextTask).pending = [] := by
  rw [afterSearch]
  split_ifs <;> rfl

lemma pending_waiting (s : Sched) :
    (work (.waiting regs lastTask i cnt nextTask) s).1.pending = [regs] := by
  simp only [work]
  split_ifs <;> rfl

/-- The indivisible calls, with the list of those made so far. -/
inductive LoggedStep :
    SchedState × List SchedEvent → SchedEvent → SchedState × List SchedEvent → Prop
  | mk {a a' : SchedState} {e : SchedEvent} {es : List SchedEvent} (h : SchedStep a e a') :
      LoggedStep (a, es) e (a', es ++ [e])

/-! ## The end of a call -/

/-- The state while the first `k` tasks have been passed over. -/
def SchedState.scanned (a : SchedState) (k : ℕ) : Sched :=
  { a.sched with tasks := passOver a.sched.tasks k }

lemma scanned_zero (a : SchedState) : a.scanned 0 = a.sched := by
  rw [SchedState.scanned, passOver_zero]

/-- The places between the search and the release. -/
inductive Place.Of (v : Found) : Place → Prop
  | saveRegs : Of v (.saveRegs v)
  | saveStatus : Of v (.saveStatus v)
  | setCurrent : Of v (.setCurrent v)
  | resetIdle : Of v (.resetIdle v)
  | initSpace : Of v (.initSpace v)
  | setStack (pml4Index : UInt64) : Of v (.setStack v pml4Index)
  | start (pml4Index kernelStack : UInt64) : Of v (.start v pml4Index kernelStack)
  | switch (pml4Index kernelStack : UInt64) : Of v (.switch v pml4Index kernelStack)

/-- The next place is one of them, or the release. -/
lemma Place.Of.next (h : p.Of v) (s : Sched) :
    (work p s).1.Of v ∨ ∃ m, (work p s).1 = .release m := by
  cases h
  case start | switch =>
    simp only [work]
    split_ifs
    all_goals first | exact Or.inr ⟨_, rfl⟩ | exact Or.inl (.switch _ _)
  all_goals exact Or.inl (by constructor)

/-- The call has taken effect. -/
lemma Place.Of.pending_work (h : p.Of v) (s : Sched) :
    (work p s).1.pending = p.pending ++ p.entering := by
  cases h
  case start | switch =>
    simp only [work]
    split_ifs <;> rfl
  all_goals rfl

lemma Place.Of.avoids (h : p.Of v) (hlast : v.lastTask ≠ j) (hnext : v.nextTask ≠ j) :
    p.Avoids j := by
  cases h <;> first | exact hlast | exact hnext | trivial

lemma Place.Of.counted (h : p.Of v) : p.Counted := by
  cases h <;> trivial

/-- Only the two tasks that the core leaves and enters, and its own entry of `cpuInfo`, change. -/
lemma Place.Of.frame (h : p.Of v) (s : Sched) :
    (∀ j, j ≠ v.lastTask → j ≠ v.nextTask → (work p s).2.tasks j = s.tasks j) ∧
      (∀ c, c ≠ v.regs.core → (work p s).2.cpuInfo c = s.cpuInfo c) ∧
      (((work p s).2.cpuInfo v.regs.core).currentTask = (s.cpuInfo v.regs.core).currentTask ∨
        ((work p s).2.cpuInfo v.regs.core).currentTask = v.nextTask) := by
  refine ⟨fun j hlast hnext => ?_, fun c hc => ?_, ?_⟩
  · cases h <;> simp only [work] <;> (try split_ifs) <;> simp [hlast, hnext]
  · cases h <;> simp only [work] <;> (try split_ifs) <;> simp [Sched.setTask, hc]
  · cases h <;> simp only [work] <;> (try split_ifs) <;> simp [Sched.setTask]

/-- Places and tables, one access after another. -/
def works (k : ℕ) (x : Place × Sched) : Place × Sched := (fun x => work x.1 x.2)^[k] x

lemma works_release (k : ℕ) (m : Leaving) (s : Sched) :
    works k (.release m, s) = (.release m, s) := Function.iterate_fixed rfl k

lemma works_succ (k : ℕ) (p : Place) (s : Sched) : works (k + 1) (p, s) = works k (work p s) :=
  Function.iterate_succ_apply ..

/-- The task that was running is saved. -/
lemma works_save (k : ℕ) (v : Found) (s : Sched) : works (k + 2) (.saveRegs v, s) =
    works k (.setCurrent v, { s with tasks := saveLast s.tasks v.lastTask v.regs }) := by
  rw [works_succ, works_succ]
  by_cases hnone : v.lastTask = -1
  · simp [work, hnone, saveLast]
  · simp [work, hnone, saveLast, Sched.setTask]

/-- The core is given the task that has been found. -/
lemma works_setCurrent (k : ℕ) (v : Found) (s : Sched) : works (k + 4) (.setCurrent v, s) =
    works k (.start v (s.tasks v.nextTask).pml4Index (s.tasks v.nextTask).kernelStack,
      { s with
        tasks := Function.update s.tasks v.nextTask { s.tasks v.nextTask with idleTime := 0 }
        cpuInfo := Function.update s.cpuInfo v.regs.core
          { s.cpuInfo v.regs.core with currentTask := v.nextTask } }) := by
  rw [works_succ, works_succ, works_succ, works_succ]
  simp [work, Sched.setTask]

/-- It is marked as running. -/
lemma works_start {pml4Index kernelStack : UInt64}
    (hstatus : (s.tasks v.nextTask).status = WAITING_TO_START ∨
      (s.tasks v.nextTask).status = WAITING) :
    works 2 (.start v pml4Index kernelStack, s) =
      (.release (if (s.tasks v.nextTask).status = WAITING_TO_START then
          .startTask v pml4Index kernelStack else .switchTask v pml4Index kernelStack),
        s.setTask v.nextTask { s.tasks v.nextTask with status := RUNNING }) := by
  rw [works_succ]
  rcases hstatus with hfresh | hwait
  · simp only [work, hfresh, if_true]
    exact works_release ..
  · have hnot : ¬ (WAITING = WAITING_TO_START) := by decide
    simp only [work, hwait, if_neg hnot]
    rw [works_succ]
    simp only [work, hwait, if_true]
    exact works_release ..

/-- **From the search to the release.**  A task that has been found is switched to. -/
lemma works_saveRegs (hne : v.nextTask ≠ v.lastTask) (hunlocked : s.lock = false)
    (hlast : v.lastTask = (s.cpuInfo v.regs.core).currentTask)
    (hstatus : (s.tasks v.nextTask).status = WAITING_TO_START ∨
      (s.tasks v.nextTask).status = WAITING) :
    works 8 (.saveRegs v, s) =
      (.release (if (s.tasks v.nextTask).status = WAITING_TO_START then
          .startTask v (s.tasks v.nextTask).pml4Index (s.tasks v.nextTask).kernelStack
        else .switchTask v (s.tasks v.nextTask).pml4Index (s.tasks v.nextTask).kernelStack),
        switched s v.regs s.tasks v.nextTask) := by
  have hsame : saveLast s.tasks v.lastTask v.regs v.nextTask = s.tasks v.nextTask :=
    saveLast_of_ne hne
  rw [works_save, works_setCurrent, works_start]
  · simp only [Function.update_self, hsame, Sched.setTask, Function.update_idem, switched,
      hunlocked]
    rw [hlast]
  · simpa only [Function.update_self, hsame] using hstatus

/-! ## What the tables are like at each place -/

def Leaving.found : Leaving → Option Found
  | .return => none
  | .startTask v _ _ => some v
  | .switchTask v _ _ => some v

/-- What a core that has given the lock back has still to do is what its last call has returned. -/
structure Gone (c : UInt64) (a : SchedState) (es : List SchedEvent) (m : Leaving) : Prop where
  tick : lastTick c es = some (m.dispatch a.sched)
  current : ∀ v, m.found = some v → ∃ n : ℕ, v.nextTask = n ∧ n < a.sched.numberOfTasks.toNat ∧
    (a.sched.cpuInfo c).currentTask = n

/-- A core has left the task: it waits.  Or there was none. -/
def SchedState.Left (a : SchedState) (lastTask : ℤ) : Prop :=
  lastTask = -1 ∨ ∃ n : ℕ, lastTask = n ∧ n < a.sched.numberOfTasks.toNat ∧
    (a.sched.tasks n).status = WAITING

/-- The core has tested the first `i` tasks for a start, and passed over the first `k`. -/
structure Scan (c : UInt64) (a : SchedState) (regs : Regs) (lastTask : ℤ) (i k : ℕ) (cnt : UInt64)
    (nextTask : ℤ) : Prop where
  core : regs.core = c
  last : lastTask = (a.sched.cpuInfo c).currentTask
  le : k ≤ a.sched.numberOfTasks.toNat
  searched : Searched a.sched.tasks k cnt nextTask
  started : ∀ j : ℕ, j < i → (a.sched.tasks j).status ≠ WAITING_TO_START

/-- The call has taken effect in `a`, and the accesses that are left make the tables so. -/
structure Switching (c : UInt64) (a : SchedState) (es : List SchedEvent) (v : Found) (p : Place)
    (s : Sched) : Prop where
  place : p.Of v
  core : v.regs.core = c
  next : ∃ n : ℕ, v.nextTask = n ∧ n < a.sched.numberOfTasks.toNat ∧
    (a.sched.cpuInfo c).currentTask = n
  last : a.Left v.lastTask
  tasks : ∀ j, j ≠ v.lastTask → j ≠ v.nextTask → s.tasks j = a.sched.tasks j
  cpuInfo : ∀ c', c' ≠ c → s.cpuInfo c' = a.sched.cpuInfo c'
  own : (s.cpuInfo c).currentTask = v.lastTask ∨ (s.cpuInfo c).currentTask = v.nextTask
  finishes : ∃ k m, works k (p, s) = (.release m, a.sched) ∧ Gone c a es m ∧ m.found = some v

/-- The call of core `c` takes effect at the end of the search. -/
inductive Progress (c : UInt64) (a : SchedState) (es : List SchedEvent) : Place → Sched → Prop
  | countTasks {regs : Regs} (hcore : regs.core = c) : Progress c a es (.countTasks regs) a.sched
  | currentTask {regs : Regs} (hcore : regs.core = c) :
      Progress c a es (.currentTask regs) a.sched
  | test {regs : Regs} {lastTask : ℤ} {i : ℕ} {cnt : UInt64} {nextTask : ℤ}
      (h : Scan c a regs lastTask i i cnt nextTask) :
      Progress c a es (.test regs lastTask i cnt nextTask) (a.scanned i)
  | waiting {regs : Regs} {lastTask : ℤ} {i : ℕ} {cnt : UInt64} {nextTask : ℤ}
      (h : Scan c a regs lastTask i i cnt nextTask) (hi : i < a.sched.numberOfTasks.toNat) :
      Progress c a es (.waiting regs lastTask i cnt nextTask) (a.scanned i)
  | waitingToStart {regs : Regs} {lastTask : ℤ} {i : ℕ} {cnt : UInt64} {nextTask : ℤ}
      (h : Scan c a regs lastTask i (i + 1) cnt nextTask) :
      Progress c a es (.waitingToStart regs lastTask i cnt nextTask) (a.scanned (i + 1))
  | switching {v : Found} {p : Place} {s : Sched} (h : Switching c a es v p s) :
      Progress c a es p s
  | gone {m : Leaving} (h : Gone c a es m) (hlast : ∀ v, m.found = some v → a.Left v.lastTask) :
      Progress c a es (.release m) a.sched

/-! ## A call takes effect -/

/-- A task that has waited longest is the head of the queue. -/
lemma Represents.eq_of_longest (h : Represents a q) {m n : ℕ}
    (hm : LongestWaiting a.sched.tasks a.sched.numberOfTasks.toNat m)
    (hn : LongestWaiting a.sched.tasks a.sched.numberOfTasks.toNat n) : m = n := by
  have hmem := (h.waiting_iff (h.created ▸ hm.1)).mp hm.2.1
  have hmem' := (h.waiting_iff (h.created ▸ hn.1)).mp hn.2.1
  obtain ⟨k, rest, hq⟩ := List.exists_cons_of_ne_nil (List.ne_nil_of_mem hmem)
  have hhead : k ∈ q.queue := hq ▸ List.mem_cons_self
  have hk : k < a.sched.numberOfTasks.toNat := by
    rw [h.created]
    exact q.queue_lt_created hhead
  have heq : ∀ i ∈ q.queue, LongestWaiting a.sched.tasks a.sched.numberOfTasks.toNat i → i = k := by
    intro i hi hlong
    rcases q.oldest hq hi with heq | hlt
    · exact heq
    · have hle := hlong.2.2 k hk (h.waiting k hhead)
      rw [h.idleTime k hhead, h.idleTime i hi] at hle
      omega
  rw [heq m hmem hm, heq n hmem' hn]

/-- The call starts the first task that has never been started. -/
lemma Represents.tick_start (h : Represents a q)
    (hfirst : FirstUnstarted a.sched.tasks a.sched.numberOfTasks.toNat i) (regs : Regs) :
    schedulerMain a.sched regs = (switched a.sched regs (passOver a.sched.tasks i) i,
      some (dispatchTo a.sched regs i (a.sched.tasks i).start)) := by
  rcases schedulerMain_cases (h.currentRuns regs.core) h.idle_room with ⟨u, hu, hcall⟩ |
    ⟨hnone, _⟩ | ⟨hnone, _⟩
  · have heq : u = i := by
      rcases lt_trichotomy u i with hlt | heq | hlt
      · exact absurd hu.2.1 (hfirst.2.2 u hlt)
      · exact heq
      · exact absurd hfirst.2.1 (hu.2.2 i hlt)
    rwa [heq] at hcall
  · exact absurd hfirst.2.1 (hnone i hfirst.1)
  · exact absurd hfirst.2.1 (hnone i hfirst.1).1

/-- Without one it resumes the task that has waited longest. -/
lemma Represents.tick_resume (h : Represents a q)
    (hstarted : ∀ j : ℕ, j < a.sched.numberOfTasks.toNat →
      (a.sched.tasks j).status ≠ WAITING_TO_START)
    (hlong : LongestWaiting a.sched.tasks a.sched.numberOfTasks.toNat i) (regs : Regs) :
    schedulerMain a.sched regs =
      (switched a.sched regs (passOver a.sched.tasks a.sched.numberOfTasks.toNat) i,
        some (dispatchTo a.sched regs i (a.sched.tasks i).switch)) := by
  rcases schedulerMain_cases (h.currentRuns regs.core) h.idle_room with ⟨u, hu, _⟩ |
    ⟨_, m, hm, hcall⟩ | ⟨hnone, _⟩
  · exact absurd hu.2.1 (hstarted u hu.1)
  · rwa [h.eq_of_longest hm hlong] at hcall
  · exact absurd hlong.2.1 (hnone i hlong.1).2

/-- Without a task that waits it returns. -/
lemma Represents.tick_return (h : Represents a q)
    (hnone : ∀ j : ℕ, j < a.sched.numberOfTasks.toNat →
      (a.sched.tasks j).status ≠ WAITING_TO_START ∧ (a.sched.tasks j).status ≠ WAITING)
    (hunlocked : a.sched.lock = false) (regs : Regs) :
    schedulerMain a.sched regs = (a.sched, none) := by
  have hsame : { a.sched with lock := false } = a.sched := by rw [← hunlocked]
  rcases schedulerMain_cases (h.currentRuns regs.core) h.idle_room with ⟨u, hu, _⟩ |
    ⟨_, m, hm, _⟩ | ⟨_, hcall⟩
  · exact absurd hu.2.1 (hnone u hu.1).1
  · exact absurd hm.2.1 (hnone m hm.1).2
  · rwa [hsame] at hcall

/-- A core that finds no task is gone. -/
lemma progress_return (es : List SchedEvent) (hcore : regs.core = c) :
    Progress c (a.note a.sched none) (es ++ [.tick regs none]) (.release .return) a.sched :=
  .gone ⟨hcore ▸ lastTick_tick es regs none, nofun⟩ nofun

/-- Being passed over changes the idle time and nothing else. -/
lemma passOver_eq (tasks : ℤ → Task) (k : ℕ) (j : ℤ) :
    passOver tasks k j = { tasks j with idleTime := (passOver tasks k j).idleTime } := by
  rw [passOver]
  split_ifs <;> rfl

/-- What the core hands over once it has given the lock back. -/
lemma dispatch_switched (hcore : regs.core = c) (a : SchedState) (k n : ℕ) :
    (if (passOver a.sched.tasks k n).status = WAITING_TO_START then
        Leaving.startTask ⟨regs, (a.sched.cpuInfo c).currentTask, n⟩
          (passOver a.sched.tasks k n).pml4Index (passOver a.sched.tasks k n).kernelStack
      else .switchTask ⟨regs, (a.sched.cpuInfo c).currentTask, n⟩
        (passOver a.sched.tasks k n).pml4Index (passOver a.sched.tasks k n).kernelStack).dispatch
        (switched a.sched regs (passOver a.sched.tasks k) n) =
      some (dispatchTo a.sched regs n (if (a.sched.tasks n).status = WAITING_TO_START then
        (a.sched.tasks n).start else (a.sched.tasks n).switch)) := by
  subst hcore
  rw [passOver_eq a.sched.tasks k n]
  have hnext := switched_next a.sched regs (passOver a.sched.tasks k) n
  rw [passOver_eq a.sched.tasks k n] at hnext
  split_ifs <;> simp only [Leaving.dispatch, hnext, dispatchTo, Task.start, Task.switch]

/-- A core that finds one goes on to switch. -/
lemma progress_found (h : Represents a q) (hunlocked : a.sched.lock = false)
    (hcore : regs.core = c) (hn : n < a.sched.numberOfTasks.toNat)
    (hstatus : (a.sched.tasks n).status = WAITING_TO_START ∨ (a.sched.tasks n).status = WAITING)
    (es : List SchedEvent) (k : ℕ) {r : Resume}
    (hr : r = if (a.sched.tasks n).status = WAITING_TO_START then (a.sched.tasks n).start
      else (a.sched.tasks n).switch) :
    Progress c
      (a.note (switched a.sched regs (passOver a.sched.tasks k) n)
        (some (dispatchTo a.sched regs n r)))
      (es ++ [.tick regs (some (dispatchTo a.sched regs n r))])
      (afterSearch regs (a.sched.cpuInfo c).currentTask n) (a.scanned k) := by
  have hfound : afterSearch regs (a.sched.cpuInfo c).currentTask n
      = .saveRegs ⟨regs, (a.sched.cpuInfo c).currentTask, n⟩ := if_neg (by omega)
  have hne : (n : ℤ) ≠ (a.sched.cpuInfo c).currentTask := by
    intro heq
    rcases h.currentRuns c with hnone | hrun
    · omega
    · rw [← heq] at hrun
      rcases hstatus with hstatus | hstatus <;> exact absurd (hrun.symm.trans hstatus) (by decide)
  have hcurrent : ((switched a.sched regs (passOver a.sched.tasks k) n).cpuInfo c).currentTask
      = n := by
    subst hcore
    change (Function.update a.sched.cpuInfo regs.core _ regs.core).currentTask = n
    rw [Function.update_self]
  rw [hfound]
  refine .switching
    { place := .saveRegs
      core := hcore
      next := ⟨n, rfl, hn, hcurrent⟩
      last := ?_
      tasks := fun j hlast hnext => (switched_other hnext (hcore ▸ hlast)).symm
      cpuInfo := fun c' hc' => (Function.update_of_ne (hcore ▸ hc') _ _).symm
      own := Or.inl rfl
      finishes := ⟨8, _, works_saveRegs hne hunlocked (by rw [← hcore]; rfl) ?_, ⟨?_, ?_⟩, ?_⟩ }
  · -- the task that was running waits now
    cases hrun : q.running c with
    | none => exact Or.inl (h.current_eq_neg_iff.mpr hrun)
    | some l =>
        have hlast := h.current_eq_iff.mpr hrun
        refine Or.inr ⟨l, hlast, ?_, ?_⟩
        · show l < a.sched.numberOfTasks.toNat
          rw [h.created]
          exact lt_of_lt_of_le (q.running_lt_started hrun) q.started_le
        · subst hcore
          have hsaved :=
            @switched_last (passOver a.sched.tasks k) a.sched regs n (by omega) hne.symm
          rw [hlast] at hsaved
          exact congrArg Task.status hsaved
  · show (passOver a.sched.tasks k n).status = _ ∨ (passOver a.sched.tasks k n).status = _
    rwa [status_passOver]
  · subst hcore hr
    rw [lastTick_tick]
    exact congrArg some (dispatch_switched rfl a k n).symm
  · intro v hv
    refine ⟨n, ?_, hn, hcurrent⟩
    split_ifs at hv <;> obtain rfl := Option.some.inj hv <;> rfl
  · split_ifs <;> rfl

/-- The end of the search. -/
lemma Scan.test_ends (h : Represents a q) (hunlocked : a.sched.lock = false)
    (hscan : Scan c a regs lastTask i i cnt nextTask) (hge : a.sched.numberOfTasks.toNat ≤ i)
    (es : List SchedEvent) : ∃ sched' d, schedulerMain a.sched regs = (sched', d) ∧
      Progress c (a.note sched' d) (es ++ [.tick regs d]) (afterSearch regs lastTask nextTask)
        (a.scanned i) := by
  obtain rfl : i = a.sched.numberOfTasks.toNat := le_antisymm hscan.le hge
  obtain ⟨hcore, rfl, _, hsearched, hstarted⟩ := hscan
  cases hsearched with
  | nobody hnone =>
      refine ⟨a.sched, none, h.tick_return (fun j hj => ⟨hstarted j hj, hnone j hj⟩) hunlocked regs,
        ?_⟩
      have hsame : a.scanned a.sched.numberOfTasks.toNat = a.sched := by
        rw [SchedState.scanned, passOver_of_none hnone]
      rw [hsame]
      exact progress_return es hcore
  | @found m cnt hlong _ =>
      have hnot : ¬ (a.sched.tasks m).status = WAITING_TO_START := hstarted m hlong.1
      exact ⟨_, _, h.tick_resume hstarted hlong regs, progress_found h hunlocked hcore hlong.1
        (Or.inr hlong.2.1) es _ (if_neg hnot).symm⟩

/-- A task that waits is passed over, and the longest one remembered. -/
lemma Scan.pass (h : Represents a q) (hscan : Scan c a regs lastTask i i cnt nextTask)
    (hi : i < a.sched.numberOfTasks.toNat) (es : List SchedEvent) :
    Progress c a es (work (.waiting regs lastTask i cnt nextTask) (a.scanned i)).1
      (work (.waiting regs lastTask i cnt nextTask) (a.scanned i)).2 := by
  have hself : (a.scanned i).tasks i = a.sched.tasks i := by
    change passOver a.sched.tasks i i = _
    rw [passOver, if_neg (by omega)]
  by_cases hwait : (a.sched.tasks i).status = WAITING
  · have hnext := hscan.searched.waiting hwait (h.idle_room i hi hwait)
    have htable : (a.scanned i).setTask i
        { a.sched.tasks i with idleTime := (a.sched.tasks i).idleTime + 1 } =
          a.scanned (i + 1) := by
      rw [SchedState.scanned, SchedState.scanned, passOver_succ_waiting hwait]
      rfl
    have hstep : work (.waiting regs lastTask i cnt nextTask) (a.scanned i) =
        if cnt < (a.sched.tasks i).idleTime + 1 then
          (.waitingToStart regs lastTask i ((a.sched.tasks i).idleTime + 1) i, a.scanned (i + 1))
        else (.waitingToStart regs lastTask i cnt nextTask, a.scanned (i + 1)) := by
      simp only [work, hself, if_pos hwait, htable]
    rw [hstep]
    split_ifs at hnext ⊢
    · exact .waitingToStart { hscan with le := hi, searched := hnext }
    · exact .waitingToStart { hscan with le := hi, searched := hnext }
  · have htable : a.scanned i = a.scanned (i + 1) := by
      rw [SchedState.scanned, SchedState.scanned, passOver_succ_of_ne hwait]
    have hstep : work (.waiting regs lastTask i cnt nextTask) (a.scanned i) =
        (.waitingToStart regs lastTask i cnt nextTask, a.scanned (i + 1)) := by
      simp only [work, hself, if_neg hwait, ← htable]
    rw [hstep]
    exact .waitingToStart { hscan with le := hi, searched := hscan.searched.skip hwait }

/-- A step towards the release. -/
lemma Switching.step (h : Switching c a es v p s) :
    Progress c a es (work p s).1 (work p s).2 := by
  obtain ⟨k, m, hfinishes, hgone, hfound⟩ := h.finishes
  cases k with
  | zero =>
      -- a place before the release is not the release
      have hplace := h.place
      obtain ⟨rfl, -⟩ := Prod.mk.inj hfinishes
      exact nomatch hplace
  | succ k =>
      rw [works_succ] at hfinishes
      obtain ⟨htasks, hcpu, hown⟩ := h.place.frame s
      rcases h.place.next s with hplace | ⟨m', hrelease⟩
      · refine .switching { h with
          place := hplace
          tasks := ?_
          cpuInfo := ?_
          own := ?_
          finishes := ⟨k, m, hfinishes, hgone, hfound⟩ }
        · intro j hlast hnext
          rw [htasks j hlast hnext, h.tasks j hlast hnext]
        · intro c' hc'
          rw [hcpu c' (h.core ▸ hc'), h.cpuInfo c' hc']
        · rw [h.core] at hown
          rcases hown with hown | hown
          · rw [hown]
            exact h.own
          · exact Or.inr hown
      · have hrest : work p s = (.release m', (work p s).2) :=
          Prod.ext hrelease rfl
        rw [hrest, works_release] at hfinishes
        obtain ⟨hm, htable⟩ := Prod.mk.inj hfinishes
        obtain ⟨rfl⟩ := hm
        rw [hrelease, htable]
        refine .gone hgone fun v' hv' => ?_
        obtain rfl := Option.some.inj (hfound.symm.trans hv')
        exact h.last

/-- **An access** leaves the call where it was, or the call takes effect. -/
theorem Progress.step (h : Represents a q) (hunlocked : a.sched.lock = false)
    (hp : Progress c a es p s) (hends : ∀ m, p ≠ .release m) :
    (work p s).1.pending = p.pending ++ p.entering ∧ Progress c a es (work p s).1 (work p s).2 ∨
      ∃ regs sched' d, regs.core = c ∧ p.pending ++ p.entering = [regs] ∧
        (work p s).1.pending = [] ∧ schedulerMain a.sched regs = (sched', d) ∧
        Progress c (a.note sched' d) (es ++ [.tick regs d]) (work p s).1 (work p s).2 := by
  cases hp with
  | @countTasks regs hcore =>
      by_cases hzero : a.sched.numberOfTasks = 0
      · have hcall := h.tick_return (fun j hj => by simp [hzero] at hj) hunlocked regs
        have hstep : work (.countTasks regs) a.sched = (.release .return, a.sched) :=
          if_pos hzero
        rw [hstep]
        exact Or.inr ⟨regs, _, _, hcore, rfl, rfl, hcall, progress_return es hcore⟩
      · have hstep : work (.countTasks regs) a.sched = (.currentTask regs, a.sched) :=
          if_neg hzero
        rw [hstep]
        exact Or.inl ⟨rfl, .currentTask hcore⟩
  | @currentTask regs hcore =>
      have hscan : Scan c a regs (a.sched.cpuInfo regs.core).currentTask 0 0 0 (-1) :=
        ⟨hcore, by rw [hcore], Nat.zero_le _, .nobody fun j hj => by omega, fun j hj => by omega⟩
      have htest : Progress c a es _ (a.scanned 0) := .test hscan
      rw [scanned_zero] at htest
      exact Or.inl ⟨rfl, htest⟩
  | @test regs last i cnt next hscan =>
      by_cases hlt : i < a.sched.numberOfTasks.toNat
      · have hstep : work (.test regs last i cnt next) (a.scanned i) =
          (.waiting regs last i cnt next, a.scanned i) := if_pos hlt
        rw [hstep]
        exact Or.inl ⟨rfl, .waiting hscan hlt⟩
      · have hstep : work (.test regs last i cnt next) (a.scanned i) =
          (afterSearch regs last next, a.scanned i) := if_neg hlt
        rw [hstep]
        obtain ⟨sched', d, hcall, hafter⟩ := hscan.test_ends h hunlocked (Nat.le_of_not_lt hlt) es
        exact Or.inr ⟨regs, sched', d, hscan.core, rfl, pending_afterSearch .., hcall, hafter⟩
  | waiting hscan hi => exact Or.inl ⟨pending_waiting _, hscan.pass h hi es⟩
  | @waitingToStart regs last i cnt next hscan =>
      have hstatus : ((a.scanned (i + 1)).tasks i).status = (a.sched.tasks i).status :=
        status_passOver ..
      by_cases hfresh : (a.sched.tasks i).status = WAITING_TO_START
      · have hfirst : FirstUnstarted a.sched.tasks a.sched.numberOfTasks.toNat i :=
          ⟨hscan.le, hfresh, hscan.started⟩
        have hnot : (a.sched.tasks i).status ≠ WAITING := by
          rw [hfresh]
          decide
        have htable : a.scanned (i + 1) = a.scanned i := by
          rw [SchedState.scanned, SchedState.scanned, passOver_succ_of_ne hnot]
        have hstep : work (.waitingToStart regs last i cnt next) (a.scanned (i + 1)) =
            (afterSearch regs last i, a.scanned (i + 1)) := if_pos (hstatus.trans hfresh)
        rw [hstep, htable, hscan.last]
        have hpending := pending_afterSearch regs (a.sched.cpuInfo c).currentTask i
        exact Or.inr ⟨regs, _, _, hscan.core, rfl, hpending, h.tick_start hfirst regs,
          progress_found h hunlocked hscan.core hscan.le (Or.inl hfresh) es i (if_pos hfresh).symm⟩
      · have hstep : work (.waitingToStart regs last i cnt next) (a.scanned (i + 1)) =
            (.test regs last (i + 1) cnt next, a.scanned (i + 1)) :=
          if_neg fun heq => hfresh (hstatus.symm.trans heq)
        rw [hstep]
        refine Or.inl ⟨rfl, .test { hscan with started := fun j hj => ?_ }⟩
        rcases Nat.lt_succ_iff_lt_or_eq.mp hj with hj | rfl
        · exact hscan.started j hj
        · exact hfresh
  | switching hswitch => exact Or.inl ⟨hswitch.place.pending_work s, hswitch.step⟩
  | @gone m => exact absurd rfl (hends m)

/-! ## What a call does not disturb -/

lemma KeepsTables.symm (h : KeepsTables s s') : KeepsTables s' s :=
  ⟨h.number.symm, h.max.symm, fun j => (h.kernelStack j).symm⟩

/-- What `schedulerMain` leaves as it was. -/
lemma Represents.keeps_tick (h : Represents a q) {d : Option Dispatch}
    (hcall : schedulerMain a.sched regs = (s', d)) : KeepsTables a.sched s' ∧ s'.lock = false := by
  have hswitched : ∀ (k : ℕ) (j : ℤ),
      KeepsTables a.sched (switched a.sched regs (passOver a.sched.tasks k) j) := fun k j =>
    ⟨rfl, rfl, fun l => (kernelStack_switched ..).trans (kernelStack_passOver ..)⟩
  rcases h.schedulerMain_queue regs with ⟨_, hmain⟩ | ⟨_, n, _, _, hmain⟩ | ⟨_, _, hmain⟩ <;>
    obtain ⟨rfl, rfl⟩ := Prod.mk.inj (hmain.symm.trans hcall)
  · exact ⟨hswitched _ _, rfl⟩
  · exact ⟨hswitched _ _, rfl⟩
  · exact ⟨⟨rfl, rfl, fun _ => rfl⟩, rfl⟩

/-- Nor does it touch a task that another core runs. -/
lemma Represents.running_tick (h : Represents a q) {d : Option Dispatch}
    (hcall : schedulerMain a.sched regs = (s', d)) (hne : c ≠ regs.core)
    (hrun : (a.sched.cpuInfo c).currentTask = n) :
    s'.tasks n = a.sched.tasks n ∧ (s'.cpuInfo c).currentTask = n := by
  have hrunning := h.current_eq_iff.mp hrun
  rcases h.schedulerMain_queue regs with ⟨hlt, hmain⟩ | ⟨_, k, _, hq, hmain⟩ | ⟨_, _, hmain⟩ <;>
    obtain ⟨rfl, rfl⟩ := Prod.mk.inj (hmain.symm.trans hcall)
  · refine ⟨h.switched_elsewhere (q.candidate_start hlt) hne hrunning, ?_⟩
    exact (congrArg CpuInfo.currentTask (Function.update_of_ne hne _ _)).trans hrun
  · refine ⟨h.switched_elsewhere (q.candidate_resume hq) hne hrunning, ?_⟩
    exact (congrArg CpuInfo.currentTask (Function.update_of_ne hne _ _)).trans hrun
  · exact ⟨rfl, hrun⟩

lemma dispatch_congr (h : ∀ v, m.found = some v → s'.tasks v.nextTask = s.tasks v.nextTask) :
    m.dispatch s' = m.dispatch s := by
  cases m <;> simp only [Leaving.dispatch]
  all_goals rw [h _ rfl]

/-- A core that is gone does not notice the calls of the others. -/
lemma Gone.tick_other (hgone : Gone c a es m) (h : Represents a q) {d : Option Dispatch}
    (hcall : schedulerMain a.sched regs = (s', d)) (hne : c ≠ regs.core) :
    Gone c (a.note s' d) (es ++ [.tick regs d]) m where
  tick := by
    rw [lastTick_other es hne.symm, hgone.tick]
    refine congrArg some (dispatch_congr fun v hv => ?_).symm
    obtain ⟨n, hn, _, hrun⟩ := hgone.current v hv
    rw [hn]
    exact (h.running_tick hcall hne hrun).1
  current := by
    intro v hv
    obtain ⟨n, hn, hlt, hrun⟩ := hgone.current v hv
    refine ⟨n, hn, ?_, (h.running_tick hcall hne hrun).2⟩
    show n < s'.numberOfTasks.toNat
    rwa [(h.keeps_tick hcall).1.number]

/-! ## A task is created -/

/-- The call is the store of a new task in the first entry that is free, and the count. -/
lemma Represents.create_eq (h : Represents a q) (hfree : findFreeIndex a.sched ≠ -1)
    (x : CreateCall) :
    createNewTask a.sched x.ss x.rsp x.cs x.entryPoint x.r =
      a.sched.put a.sched.numberOfTasks.toNat x.newTask (a.sched.numberOfTasks + 1) := by
  rw [createNewTask_eq hfree, (h.findFreeIndex_eq hfree).1, h.created]
  rfl

lemma Represents.number_create (h : Represents a q) (hfree : findFreeIndex a.sched ≠ -1) :
    (a.sched.numberOfTasks + 1).toNat = a.sched.numberOfTasks.toNat + 1 := by
  have hlt := (h.findFreeIndex_eq hfree).2
  have hmax := a.sched.maxNumberOfTasks.toNat_lt
  rw [toNat_add_one]
  rw [h.created]
  omega

/-- An entry behind those that have been passed over. -/
lemma passOver_update {tasks : ℤ → Task} (hk : k ≤ n) (t : Task) :
    passOver (Function.update tasks n t) k = Function.update (passOver tasks k) n t := by
  funext l
  rcases eq_or_ne l n with rfl | hne
  · rw [Function.update_self, passOver, if_neg (by omega), Function.update_self]
  · rw [Function.update_of_ne hne, passOver, passOver, Function.update_of_ne hne]

/-- Only the tasks that have been looked at matter. -/
lemma Searched.congr {tasks tasks' : ℤ → Task} (h : Searched tasks k cnt nextTask)
    (hsame : ∀ j : ℕ, j < k → tasks' j = tasks j) : Searched tasks' k cnt nextTask := by
  cases h with
  | nobody h => exact .nobody fun j hj => by rw [hsame j hj]; exact h j hj
  | @found m cnt h hcnt =>
      have hm := hsame m h.1
      refine .found ⟨h.1, hm ▸ h.2.1, fun j hj => ?_⟩ (by rw [hcnt, hm])
      rw [hsame j hj, hm]
      exact h.2.2 j hj

/-- The accesses that are left commute with it too. -/
lemma works_put (h : p.Of v) (hlast : v.lastTask ≠ j) (hnext : v.nextTask ≠ j) (t : Task)
    (number : UInt64) (k : ℕ) : works k (p, s.put j t number) =
      ((works k (p, s)).1, (works k (p, s)).2.put j t number) := by
  induction k generalizing p s with
  | zero => rfl
  | succ k ih =>
      rw [works_succ, works_succ, work_put (h.avoids hlast hnext) (Or.inl h.counted)]
      rcases h.next s with hplace | ⟨m, hrelease⟩
      · exact ih hplace
      · have hrest : work p s = (.release m, (work p s).2) := Prod.ext hrelease rfl
        rw [hrest, works_release, works_release]

/-- The run after one more `createNewTask`. -/
def SchedState.created (a : SchedState) (x : CreateCall) : SchedState :=
  a.note (a.sched.put a.sched.numberOfTasks.toNat x.newTask (a.sched.numberOfTasks + 1)) none

/-- The other tasks are as they were. -/
lemma tasks_created (a : SchedState) (x : CreateCall) (hn : n < a.sched.numberOfTasks.toNat) :
    (a.created x).sched.tasks n = a.sched.tasks n :=
  Function.update_of_ne (by omega) _ _

lemma Gone.created (hgone : Gone c a es m)
    (hnumber : (a.sched.numberOfTasks + 1).toNat = a.sched.numberOfTasks.toNat + 1)
    (x : CreateCall) :
    Gone c (a.created x) (es ++ [.create x.ss x.rsp x.cs x.entryPoint x.r]) m where
  tick := by
    rw [lastTick_create, hgone.tick]
    refine congrArg some (dispatch_congr fun v hv => ?_).symm
    obtain ⟨n, hn, hlt, _⟩ := hgone.current v hv
    rw [hn]
    exact tasks_created a x hlt
  current := by
    intro v hv
    obtain ⟨n, hn, hlt, hrun⟩ := hgone.current v hv
    refine ⟨n, hn, ?_, hrun⟩
    show n < (a.sched.numberOfTasks + 1).toNat
    omega

lemma SchedState.Left.created (hleft : a.Left lastTask)
    (hnumber : (a.sched.numberOfTasks + 1).toNat = a.sched.numberOfTasks.toNat + 1)
    (x : CreateCall) : (a.created x).Left lastTask := by
  rcases hleft with hnone | ⟨n, hn, hlt, hwait⟩
  · exact Or.inl hnone
  · refine Or.inr ⟨n, hn, ?_, ?_⟩
    · show n < (a.sched.numberOfTasks + 1).toNat
      omega
    · rw [tasks_created a x hlt]
      exact hwait

lemma Scan.created (h : Scan c a regs lastTask i k cnt nextTask) (hik : i ≤ k)
    (hnumber : (a.sched.numberOfTasks + 1).toNat = a.sched.numberOfTasks.toNat + 1)
    (x : CreateCall) : Scan c (a.created x) regs lastTask i k cnt nextTask where
  core := h.core
  last := h.last
  le := by
    have hle := h.le
    show k ≤ (a.sched.numberOfTasks + 1).toNat
    omega
  searched := h.searched.congr fun j hj => tasks_created a x (lt_of_lt_of_le hj h.le)
  started := by
    intro j hj
    rw [tasks_created a x (lt_of_lt_of_le hj (le_trans hik h.le))]
    exact h.started j hj

lemma scanned_created (hk : k ≤ a.sched.numberOfTasks.toNat) (x : CreateCall) :
    (a.created x).scanned k = (a.scanned k).put a.sched.numberOfTasks.toNat x.newTask
      (a.sched.numberOfTasks + 1) := by
  have htasks : passOver (Function.update a.sched.tasks _ _) k = _ := passOver_update hk x.newTask
  simp only [SchedState.scanned, SchedState.created, SchedState.note, Sched.put, Sched.setTask,
    htasks]

lemma Switching.created (h : Switching c a es v p s)
    (hnumber : (a.sched.numberOfTasks + 1).toNat = a.sched.numberOfTasks.toNat + 1)
    (x : CreateCall) :
    Switching c (a.created x) (es ++ [.create x.ss x.rsp x.cs x.entryPoint x.r]) v p
      (s.put a.sched.numberOfTasks.toNat x.newTask (a.sched.numberOfTasks + 1)) := by
  obtain ⟨k, m, hfinishes, hgone, hfound⟩ := h.finishes
  obtain ⟨n, hn, hlt, hrun⟩ := h.next
  have hnext : v.nextTask ≠ a.sched.numberOfTasks.toNat := by omega
  have hlast : v.lastTask ≠ a.sched.numberOfTasks.toNat := by
    rcases h.last with hnone | ⟨l, hl, hlt', _⟩ <;> omega
  refine { h with
    next := ⟨n, hn, ?_, hrun⟩
    last := h.last.created hnumber x
    tasks := fun j hj hj' => ?_
    finishes := ⟨k, m, ?_, hgone.created hnumber x, hfound⟩ }
  · show n < (a.sched.numberOfTasks + 1).toNat
    omega
  · change Function.update s.tasks _ _ j = Function.update a.sched.tasks _ _ j
    rcases eq_or_ne j a.sched.numberOfTasks.toNat with rfl | hne
    · rw [Function.update_self, Function.update_self]
    · rw [Function.update_of_ne hne, Function.update_of_ne hne, h.tasks j hj hj']
  · rw [works_put h.place hlast hnext, hfinishes]
    rfl

/-- **A call is not disturbed by the count of a new task**, wherever it is. -/
theorem Progress.created (h : Represents a q) (hfree : findFreeIndex a.sched ≠ -1)
    (hp : Progress c a es p s) (x : CreateCall) :
    Progress c (a.created x) (es ++ [.create x.ss x.rsp x.cs x.entryPoint x.r]) p
      (s.put a.sched.numberOfTasks.toNat x.newTask (a.sched.numberOfTasks + 1)) := by
  have hnumber := h.number_create hfree
  cases hp with
  | countTasks hcore => exact .countTasks hcore
  | currentTask hcore => exact .currentTask hcore
  | test hscan =>
      rw [← scanned_created hscan.le x]
      exact .test (hscan.created (le_refl _) hnumber x)
  | waiting hscan hi =>
      rw [← scanned_created hscan.le x]
      refine .waiting (hscan.created (le_refl _) hnumber x) ?_
      show _ < (a.sched.numberOfTasks + 1).toNat
      omega
  | waitingToStart hscan =>
      rw [← scanned_created hscan.le x]
      exact .waitingToStart (hscan.created (Nat.le_succ _) hnumber x)
  | switching hswitch => exact .switching (hswitch.created hnumber x)
  | gone hgone hlast =>
      exact .gone (hgone.created hnumber x) fun v hv => (hlast v hv).created hnumber x

/-- No access is to the entry that is being filled. -/
lemma Progress.avoids (hp : Progress c a es p s) (hends : ∀ m, p ≠ .release m) :
    p.Avoids a.sched.numberOfTasks.toNat := by
  cases hp with
  | countTasks | currentTask | test | gone => trivial
  | waiting hscan hi =>
      simp only [Place.Avoids]
      omega
  | waitingToStart hscan =>
      have hle := hscan.le
      simp only [Place.Avoids]
      omega
  | switching hswitch =>
      obtain ⟨n, hn, hlt, _⟩ := hswitch.next
      refine hswitch.place.avoids ?_ (by omega)
      rcases hswitch.last with hnone | ⟨l, hl, hlt', _⟩ <;> omega

end Seaweed
