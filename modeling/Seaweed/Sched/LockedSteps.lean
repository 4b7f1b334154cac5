import Seaweed.Library.SpinLock
import Seaweed.Sched.TaskRuns

/-!
# The scheduler, step by step (`kernel/sched/scheduler.c`)

`schedulerMain` on several cores, and `createNewTask` on one of them.  Only `schedulerMain` takes
the lock, and it gives it back before it calls `startTask` or `switchTask`, whose arguments it reads
from the table without the lock.

A step is what one statement does to one entry.  Most are single accesses; these are not: the test
of a status with the count of `idleTime` or the store of the status that follows it, the copy of the
registers, the search for a free entry and the copy of the new task.

* `Place`, `work` — what a core does next between `spinLock` and `spinRelease`.
* `Leaving` — what is left to do after `spinRelease`.
* `CreateStep` — `createNewTask`: the search for a free entry, the store, and the count.  Without a
  free entry, or with memory from `2 ^ 47` on, there is no step.
* `FineStep` — all of them, in any order; `DEADLOCK_COUNT` failures of `spinLock` end in an
  exception that does not return.
-/

namespace Seaweed

open SpinLock Transition

/-! ## `schedulerMain` -/

/-- The local variables once a task has been found. -/
structure Found where
  regs : Regs
  lastTask : ℤ
  nextTask : ℤ

/-- What follows `spinRelease`. -/
inductive Leaving
  | return
  | startTask (v : Found) (pml4Index kernelStack : UInt64)
  | switchTask (v : Found) (pml4Index kernelStack : UInt64)

/-- The next step of a core that holds the lock. -/
inductive Place
  | countTasks (regs : Regs)
  | currentTask (regs : Regs)
  | test (regs : Regs) (lastTask : ℤ) (i : ℕ) (cnt : UInt64) (nextTask : ℤ)
  | waiting (regs : Regs) (lastTask : ℤ) (i : ℕ) (cnt : UInt64) (nextTask : ℤ)
  | waitingToStart (regs : Regs) (lastTask : ℤ) (i : ℕ) (cnt : UInt64) (nextTask : ℤ)
  | saveRegs (v : Found)
  | saveStatus (v : Found)
  | setCurrent (v : Found)
  | resetIdle (v : Found)
  | initSpace (v : Found)
  | setStack (v : Found) (pml4Index : UInt64)
  | start (v : Found) (pml4Index kernelStack : UInt64)
  | switch (v : Found) (pml4Index kernelStack : UInt64)
  | release (m : Leaving)

/-- `if(nextTask == -1) goto end;` -/
def afterSearch (regs : Regs) (lastTask nextTask : ℤ) : Place :=
  if nextTask = -1 then .release .return else .saveRegs ⟨regs, lastTask, nextTask⟩

/-- The table with another task in an entry. -/
def Sched.setTask (s : Sched) (j : ℤ) (t : Task) : Sched :=
  { s with tasks := Function.update s.tasks j t }

/-- One step.  `initAddressSpace` and `setKernelStack` use what they are given of the table. -/
def work : Place → Sched → Place × Sched
  | .countTasks regs, s =>
      if s.numberOfTasks = 0 then (.release .return, s) else (.currentTask regs, s)
  | .currentTask regs, s => (.test regs (s.cpuInfo regs.core).currentTask 0 0 (-1), s)
  | .test regs lastTask i cnt nextTask, s =>
      if i < s.numberOfTasks.toNat then (.waiting regs lastTask i cnt nextTask, s)
      else (afterSearch regs lastTask nextTask, s)
  | .waiting regs lastTask i cnt nextTask, s =>
      if (s.tasks i).status = WAITING then
        let idleTime := (s.tasks i).idleTime + 1
        let s := s.setTask i { s.tasks i with idleTime := idleTime }
        if cnt < idleTime then (.waitingToStart regs lastTask i idleTime i, s)
        else (.waitingToStart regs lastTask i cnt nextTask, s)
      else (.waitingToStart regs lastTask i cnt nextTask, s)
  | .waitingToStart regs lastTask i cnt nextTask, s =>
      if (s.tasks i).status = WAITING_TO_START then (afterSearch regs lastTask i, s)
      else (.test regs lastTask (i + 1) cnt nextTask, s)
  | .saveRegs v, s =>
      (.saveStatus v, if v.lastTask ≠ -1 then
        s.setTask v.lastTask { s.tasks v.lastTask with regs := v.regs } else s)
  | .saveStatus v, s =>
      (.setCurrent v, if v.lastTask ≠ -1 then
        s.setTask v.lastTask { s.tasks v.lastTask with status := WAITING } else s)
  | .setCurrent v, s =>
      (.resetIdle v,
        { s with
          cpuInfo := Function.update s.cpuInfo v.regs.core
            { s.cpuInfo v.regs.core with currentTask := v.nextTask } })
  | .resetIdle v, s =>
      (.initSpace v, s.setTask v.nextTask { s.tasks v.nextTask with idleTime := 0 })
  | .initSpace v, s => (.setStack v (s.tasks v.nextTask).pml4Index, s)
  | .setStack v pml4Index, s => (.start v pml4Index (s.tasks v.nextTask).kernelStack, s)
  | .start v pml4Index kernelStack, s =>
      if (s.tasks v.nextTask).status = WAITING_TO_START then
        (.release (.startTask v pml4Index kernelStack),
          s.setTask v.nextTask { s.tasks v.nextTask with status := RUNNING })
      else (.switch v pml4Index kernelStack, s)
  | .switch v pml4Index kernelStack, s =>
      if (s.tasks v.nextTask).status = WAITING then
        (.release (.switchTask v pml4Index kernelStack),
          s.setTask v.nextTask { s.tasks v.nextTask with status := RUNNING })
      else (.release .return, s)
  | .release m, s => (.release m, s)

/-- What is handed over after `spinRelease`, with the arguments read from the table as it is
then. -/
def Leaving.dispatch (m : Leaving) (s : Sched) : Option Dispatch :=
  match m with
  | .return => none
  | .startTask v pml4Index kernelStack => some
      { core := v.regs.core, lastTask := v.lastTask, nextTask := v.nextTask
        pml4Index := pml4Index, kernelStack := kernelStack, resume := (s.tasks v.nextTask).start }
  | .switchTask v pml4Index kernelStack => some
      { core := v.regs.core, lastTask := v.lastTask, nextTask := v.nextTask
        pml4Index := pml4Index, kernelStack := kernelStack, resume := (s.tasks v.nextTask).switch }

/-! ## `createNewTask` -/

/-- A call of `createNewTask`. -/
structure CreateCall where
  ss : UInt16
  rsp : UInt64
  cs : UInt16
  entryPoint : UInt64
  r : TaskResources

/-- The task that the call stores. -/
def CreateCall.newTask (x : CreateCall) : Task where
  status := WAITING_TO_START
  pml4Index := x.r.pml4Index
  regs := { x.r.regs with rsp := x.rsp, ss := x.ss.toUInt64, cs := x.cs.toUInt64 }
  threads := x.r.threads
  kernelStack := (physicalPageAlloc x.r.pmm 2).1 + 0x2000 + HIGH_VMA
  entryPoint := x.entryPoint
  idleTime := 0
  numberOfThreads := 0
  maxNumberOfThreads := 10

/-- How far `bootMain` has come with a call. -/
inductive Creation
  | idle
  | found (x : CreateCall) (index : ℤ)
  | stored (x : CreateCall) (index : ℤ)

/-- The tables, the call of `createNewTask` that is under way, and what has been called:
`schedulerMain` as far as the lock, and `createNewTask` to its end. -/
structure Tables where
  sched : Sched
  creator : Creation
  entered : List Regs
  created : List CreateCall

inductive CreateEvent
  | find (x : CreateCall)
  | store
  | count

/-- While the table has a free entry, on a machine whose physical memory fits into the higher
half. -/
inductive CreateStep : Tables → CreateEvent → Tables → Prop
  | find {t : Tables} {x : CreateCall} (hidle : t.creator = .idle)
      (hfree : findFreeIndex t.sched ≠ -1) (hmem : x.r.pmm.totalDetectedMemory.toNat < 2 ^ 47) :
      CreateStep t (.find x) { t with creator := .found x (findFreeIndex t.sched) }
  | store {t : Tables} {x : CreateCall} {index : ℤ} (hfound : t.creator = .found x index) :
      CreateStep t .store
        { t with sched := t.sched.setTask index x.newTask, creator := .stored x index }
  | count {t : Tables} {x : CreateCall} {index : ℤ} (hstored : t.creator = .stored x index) :
      CreateStep t .count
        { t with
          sched := { t.sched with numberOfTasks := t.sched.numberOfTasks + 1 }
          creator := .idle
          created := t.created ++ [x] }

/-! ## All of them -/

/-- The first step with the lock. -/
def Place.entering : Place → List Regs
  | .countTasks regs => [regs]
  | _ => []

def schedulerSection : Program UInt64 Regs Place Leaving Tables where
  caller := Regs.core
  start := .countTasks
  work := fun p t => ((work p t.sched).1,
    { t with sched := (work p t.sched).2, entered := t.entered ++ p.entering })
  ends := fun p => match p with
    | .release m => some m
    | _ => none

/-- As many failures of `spinLock` raise the exception `int $0x15`, whose handler does not
return. -/
def DEADLOCK_COUNT : ℕ := 100000000

abbrev FineState := SpinLock.State UInt64 Regs Place Leaving Tables

abbrev FineEvent := SpinLock.Event UInt64 Regs CreateEvent

abbrev FineStep : FineState → FineEvent → FineState → Prop :=
  SpinLock.Step schedulerSection DEADLOCK_COUNT CreateStep

/-- A call of `createNewTask` does what its three steps do one after another. -/
lemma createNewTask_eq {s : Sched} (hfree : findFreeIndex s ≠ -1) (x : CreateCall) :
    createNewTask s x.ss x.rsp x.cs x.entryPoint x.r =
      { s.setTask (findFreeIndex s) x.newTask with numberOfTasks := s.numberOfTasks + 1 } := by
  rw [createNewTask]
  simp only [if_neg hfree]
  rfl

/-! ## Computed runs -/

def CreateEvent.enabled (t : Tables) : CreateEvent → Bool
  | .find x => match t.creator with
    | .idle => findFreeIndex t.sched ≠ -1 && x.r.pmm.totalDetectedMemory.toNat < 2 ^ 47
    | _ => false
  | .store => match t.creator with
    | .found .. => true
    | _ => false
  | .count => match t.creator with
    | .stored .. => true
    | _ => false

def CreateEvent.next (t : Tables) : CreateEvent → Tables
  | .find x => { t with creator := .found x (findFreeIndex t.sched) }
  | .store => match t.creator with
    | .found x index =>
        { t with sched := t.sched.setTask index x.newTask, creator := .stored x index }
    | _ => t
  | .count => match t.creator with
    | .stored x _ =>
        { t with
          sched := { t.sched with numberOfTasks := t.sched.numberOfTasks + 1 }
          creator := .idle
          created := t.created ++ [x] }
    | _ => t

lemma CreateEvent.step_next (t : Tables) (e : CreateEvent) (he : CreateEvent.enabled t e = true) :
    CreateStep t e (CreateEvent.next t e) := by
  cases e with
  | find x =>
      cases hidle : t.creator <;> simp [CreateEvent.enabled, hidle] at he
      exact .find hidle he.1 he.2
  | store =>
      cases hfound : t.creator <;> simp [CreateEvent.enabled, hfound] at he
      simp only [CreateEvent.next, hfound]
      exact .store hfound
  | count =>
      cases hstored : t.creator <;> simp [CreateEvent.enabled, hstored] at he
      simp only [CreateEvent.next, hstored]
      exact .count hstored

def FineState.next (f : FineState) (e : FineEvent) : FineState :=
  SpinLock.State.next schedulerSection DEADLOCK_COUNT CreateEvent.next f e

def FineState.enabled (f : FineState) (e : FineEvent) : Bool :=
  SpinLock.State.enabled schedulerSection CreateEvent.enabled f e

/-- Computing events that are enabled is a run. -/
lemma fine_replay (f : FineState) (fes : List FineEvent)
    (h : Replays (fun f e => f.enabled e = true) FineState.next f fes) :
    Run FineStep f fes (fes.foldl FineState.next f) := by
  have hrun :=
    @Run.replay _ _ FineStep _ id _ _ (SpinLock.State.step_next schedulerSection DEADLOCK_COUNT
    CreateEvent.step_next) fes f h
  rwa [List.map_id] at hrun

end Seaweed
