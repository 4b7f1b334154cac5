import Seaweed.Library.Records
import Seaweed.Mm.BootMemory
import Seaweed.Mm.Krealloc
import Seaweed.Sched.Scheduler

/-!
# The task table in memory

`schedulerInit` allocates room for ten tasks, and `createNewTask` is to make room for ten more when
they are taken.  By then it has already looked for a free slot, and the index it goes on with is
the `-1` of a search that failed.

* `loadTask`, `Task.words` — a `task_t` in memory.
* `growTable`, `createTask` — `createNewTask`, with the table in memory and the heap.
* `createTask_refines` — it does to the table what the scheduler's own `createNewTask` does.
* `TaskAdded`, `TasksUndisturbed` — what one call should do, and a sequence of calls.
* **`tasksUndisturbed_iff`** — ten calls do it, and no more.
-/

namespace Seaweed

open FirstFit Words Memory X86 Records

/-! ## Tasks in memory -/

/-- `sizeof(task_t)`. -/
def sizeofTask : ℕ := 248

/-- `sizeof(thread_t)`. -/
def sizeofThread : ℕ := 216

/-- The words of a `task_t`; seven bytes of padding follow the status. -/
def Task.words (t : Task) : List UInt64 :=
  [t.status.toUInt64, t.pml4Index] ++ t.regs.words ++
    [t.threads, t.kernelStack, t.entryPoint, t.idleTime, t.numberOfThreads, t.maxNumberOfThreads]

/-- `*(task_t*)a`. -/
def loadTask (mem : Mem) (a : UInt64) : Task where
  status := (load64 mem a).toUInt8
  pml4Index := load64 mem (a + 8)
  regs := loadRegs mem (a + 16)
  threads := load64 mem (a + 200)
  kernelStack := load64 mem (a + 208)
  entryPoint := load64 mem (a + 216)
  idleTime := load64 mem (a + 224)
  numberOfThreads := load64 mem (a + 232)
  maxNumberOfThreads := load64 mem (a + 240)

lemma length_words (t : Task) : 8 * t.words.length = sizeofTask := rfl

/-- What is read is what the words say. -/
lemma loadTask_of_holds {mem : Mem} {a : UInt64} {t : Task} (h : Holds mem a t.words) :
    loadTask mem a = t := by
  rw [Task.words, List.append_assoc, holds_append, holds_append] at h
  obtain ⟨hfirst, hregs, hlast⟩ := h
  have hregs' : loadRegs mem (a + 16) = t.regs := loadRegs_of_holds hregs
  rw [show UInt64.ofNat (8 * t.regs.words.length) = 184 from rfl] at hlast
  rw [show UInt64.ofNat (8 * [t.status.toUInt64, t.pml4Index].length) = 16 from rfl] at hlast
  simp only [Holds, UInt64.add_assoc, UInt64.reduceAdd, and_true] at hfirst hlast
  simp only [loadTask, hregs', hfirst, hlast, UInt8.toUInt8_toUInt64]

/-- The bytes of a task decide what is read. -/
lemma loadTask_congr {mem mem' : Mem} {a : UInt64}
    (h : ∀ k, k < sizeofTask → mem' (a + UInt64.ofNat k) = mem (a + UInt64.ofNat k)) :
    loadTask mem' a = loadTask mem a := by
  have hword := load64_congr h
  have hfirst : load64 mem' a = load64 mem a := by simpa using hword 0 (by decide)
  simp (disch := decide) only [loadTask, loadRegs, UInt64.add_assoc, UInt64.reduceAdd, hword,
    hfirst]

/-! ## The code -/

/-- The table in memory, the heap, and what the scheduler counts.  `tableBytes` is the argument of
the `kmalloc` that returned `tasks`. -/
structure TaskTable where
  mem : Mem
  heap : Heap
  tasks : UInt64
  tableBytes : UInt64
  numberOfTasks : UInt64
  maxNumberOfTasks : UInt64

/-- `tasks[i]`. -/
def TaskTable.task (t : TaskTable) (i : ℤ) : Task := loadTask t.mem (element t.tasks sizeofTask i)

/-- The table as the scheduler sees it. -/
def TaskTable.sched (t : TaskTable) : Sched where
  tasks := t.task
  cpuInfo := fun _ => ⟨0, -1⟩
  numberOfTasks := t.numberOfTasks
  maxNumberOfTasks := t.maxNumberOfTasks
  lock := false

@[simp] lemma tasks_sched (t : TaskTable) : t.sched.tasks = t.task := rfl

/-- A call of `createNewTask`: its arguments, the index of the new address space, the page manager
when it asks for the kernel stack, and the registers as they happen to be on its stack. -/
structure TaskCall where
  ss : UInt16
  rsp : UInt64
  cs : UInt16
  entryPoint : UInt64
  pml4Index : UInt64
  pmm : Pmm
  regs : Regs

/-- `krealloc(tasks, sizeof(task_t) * 10)`. -/
def growTable (t : TaskTable) : TaskTable :=
  let bytes := UInt64.ofNat (sizeofTask * 10)
  let (tasks, heap, mem) := krealloc t.heap t.mem t.tasks bytes
  { t with
    mem := mem
    heap := heap
    tasks := tasks.getD 0
    tableBytes := (kfree t.heap t.tasks).1 + bytes
    maxNumberOfTasks := t.maxNumberOfTasks + 10 }

/-- The table when the new task is put together. -/
def withRoom (t : TaskTable) : TaskTable :=
  if findFreeIndex t.sched = -1 then growTable t else t

/-- The heap returns the memory for the threads. -/
def newTask (t : TaskTable) (c : TaskCall) : Task where
  status := WAITING_TO_START
  pml4Index := c.pml4Index
  regs := { c.regs with rsp := c.rsp, ss := c.ss.toUInt64, cs := c.cs.toUInt64 }
  threads := (kmalloc (withRoom t).heap (UInt64.ofNat (sizeofThread * 10))).1.getD 0
  kernelStack := (physicalPageAlloc c.pmm 2).1 + 0x2000 + HIGH_VMA
  entryPoint := c.entryPoint
  idleTime := 0
  numberOfThreads := 0
  maxNumberOfThreads := 10

/-- The index is the one of the search, whether or not the table has grown since. -/
def createTask (t : TaskTable) (c : TaskCall) : TaskTable :=
  let index := findFreeIndex t.sched
  let task := newTask t c
  let t := withRoom t
  { t with
    heap := (kmalloc t.heap (UInt64.ofNat (sizeofThread * 10))).2
    mem := storeWords t.mem (element t.tasks sizeofTask index) task.words
    numberOfTasks := t.numberOfTasks + 1 }

/-! ## The table in memory and the scheduler's own -/

variable {t : TaskTable} {c : TaskCall} {cs : List TaskCall}

/-- **The new task is where the index says, and the others are where they were.** -/
lemma task_createTask (t : TaskTable) (c : TaskCall) {i : ℤ} {n : ℕ} (hi : |i| ≤ n)
    (hindex : |findFreeIndex t.sched| ≤ n) (hn : n < 2 ^ 53) :
    (createTask t c).task i
      = Function.update (withRoom t).task (findFreeIndex t.sched) (newTask t c) i := by
  have hlen : 8 * (newTask t c).words.length = sizeofTask := length_words _
  have hsize : sizeofTask = 248 := rfl
  rw [TaskTable.task]
  simp only [createTask]
  by_cases heq : i = findFreeIndex t.sched
  · rw [heq, Function.update_self]
    exact loadTask_of_holds (holds_storeWords (by omega))
  · rw [Function.update_of_ne heq, TaskTable.task]
    refine loadTask_congr fun k hk => storeWords_outside ?_
    rw [hlen]
    exact element_apart (Ne.symm heq) hindex hi (by rw [hsize]; omega) hk

/-- **In memory a call does what the scheduler's own `createNewTask` does**, with the table that
`krealloc` returns. -/
theorem createTask_refines (t : TaskTable) (c : TaskCall) {i : ℤ} {n : ℕ} (hi : |i| ≤ n)
    (hindex : |findFreeIndex t.sched| ≤ n) (hn : n < 2 ^ 53) :
    (createTask t c).task i = (createNewTask t.sched c.ss c.rsp c.cs c.entryPoint
      { pml4Index := c.pml4Index
        threads := (newTask t c).threads
        pmm := c.pmm
        regs := c.regs
        grown := (growTable t).task }).tasks i := by
  rw [task_createTask t c hi hindex hn, createNewTask, withRoom]
  split_ifs <;> rfl

/-! ## What calls should do -/

/-- One call: the new task is in a slot of the table that held no task, the others are as they
were, the tasks are in the first slots, and the table has room for all slots. -/
structure TaskAdded (t : TaskTable) (c : TaskCall) : Prop where
  inside : 0 ≤ findFreeIndex t.sched ∧
    findFreeIndex t.sched < (createTask t c).maxNumberOfTasks.toNat
  fresh : findFreeIndex t.sched < t.maxNumberOfTasks.toNat →
    (t.task (findFreeIndex t.sched)).kernelStack = 0
  stored : (createTask t c).task (findFreeIndex t.sched) = newTask t c
  kept : ∀ i : ℕ, i < t.numberOfTasks.toNat → (createTask t c).task i = t.task i
  occupied : ∀ i : ℕ, i < (createTask t c).maxNumberOfTasks.toNat →
    (((createTask t c).task i).kernelStack ≠ 0 ↔ i < (createTask t c).numberOfTasks.toNat)
  room : sizeofTask * (createTask t c).maxNumberOfTasks.toNat
    ≤ 32 * (ROUNDUP (createTask t c).tableBytes 32).toNat

/-- Every call of the sequence does so. -/
def TasksUndisturbed (t : TaskTable) : List TaskCall → Prop
  | [] => True
  | c :: cs => TaskAdded t c ∧ TasksUndisturbed (createTask t c) cs

/-- `schedulerInit` has just run, and the memory it has got is zero. -/
structure ZeroedTable (t : TaskTable) : Prop where
  zero : ∀ k, k < sizeofTask * 10 → t.mem (t.tasks + UInt64.ofNat k) = 0
  bytes : t.tableBytes = UInt64.ofNat (sizeofTask * 10)
  tasks : t.numberOfTasks = 0
  slots : t.maxNumberOfTasks = 10

/-- `k` of the ten slots are taken, the first ones. -/
structure Filled (t : TaskTable) (k : ℕ) : Prop where
  bytes : t.tableBytes = UInt64.ofNat (sizeofTask * 10)
  tasks : t.numberOfTasks.toNat = k
  slots : t.maxNumberOfTasks = 10
  taken : ∀ i : ℕ, i < 10 → ((t.task i).kernelStack ≠ 0 ↔ i < k)

lemma ZeroedTable.filled (h : ZeroedTable t) : Filled t 0 := by
  refine ⟨h.bytes, by rw [h.tasks]; rfl, h.slots, fun i hi => ?_⟩
  have hzero : (t.task i).kernelStack = 0 := by
    refine load64_zero fun j hj => ?_
    have haddr : element t.tasks sizeofTask i + 208 + UInt64.ofNat j
        = t.tasks + UInt64.ofNat (sizeofTask * i + 208 + j) := by
      rw [element_natCast, UInt64.ofNat_add, UInt64.ofNat_add, ← UInt64.add_assoc,
        ← UInt64.add_assoc]
      rfl
    rw [haddr]
    refine h.zero _ ?_
    rw [sizeofTask]
    omega
  simp [hzero]

variable {k : ℕ}

/-- The search finds the first slot that is not taken. -/
lemma Filled.findFreeIndex_eq (h : Filled t k) (hk : k < 10) : findFreeIndex t.sched = k := by
  have hslots : t.sched.maxNumberOfTasks.toNat = 10 := congrArg UInt64.toNat h.slots
  rw [findFreeIndex, hslots]
  rcases firstIndex_cases (fun i => (t.sched.tasks i).kernelStack == 0) 10 with
    ⟨i, hi, hlt, hp, hmin⟩ | ⟨_, hnone⟩
  · have hfree : ¬i < k := fun hik => (h.taken i hlt).mpr hik (by simpa using hp)
    have hge : ¬k < i := fun hki => by
      have hfull := hmin k hki
      exact absurd ((h.taken k hk).mp (by simpa using hfull)) (lt_irrefl k)
    rw [hi, show i = k by omega]
  · have hfull := hnone k hk
    exact absurd ((h.taken k hk).mp (by simpa using hfull)) (lt_irrefl k)

/-- With all slots taken it fails. -/
lemma Filled.findFreeIndex_full (h : Filled t 10) : findFreeIndex t.sched = -1 := by
  have hslots : t.sched.maxNumberOfTasks.toNat = 10 := congrArg UInt64.toNat h.slots
  rw [findFreeIndex, hslots]
  rcases firstIndex_cases (fun i => (t.sched.tasks i).kernelStack == 0) 10 with
    ⟨i, _, hlt, hp, _⟩ | ⟨hi, _⟩
  · exact absurd (by simpa using hp) ((h.taken i hlt).mpr hlt)
  · exact hi

/-- **A call into a table with a free slot.** -/
lemma Filled.step (h : Filled t k) (hk : k < 10) (c : TaskCall) :
    (TaskAdded t c ↔ (newTask t c).kernelStack ≠ 0) ∧
      ((newTask t c).kernelStack ≠ 0 → Filled (createTask t c) (k + 1)) := by
  have hindex := h.findFreeIndex_eq hk
  have hroom : withRoom t = t := by rw [withRoom, hindex, if_neg (by omega)]
  have htask : ∀ i : ℕ, i < 10 →
      (createTask t c).task i = if i = k then newTask t c else t.task i := by
    intro i hi
    rw [task_createTask t c (n := 10) (by rw [abs_le]; omega) (by rw [hindex, abs_le]; omega)
      (by decide), hroom, hindex]
    split_ifs with hik
    · rw [hik, Function.update_self]
    · exact Function.update_of_ne (by omega) _ _
  have hslots : (createTask t c).maxNumberOfTasks = 10 := by
    rw [← h.slots, createTask, hroom]
  have htasks : (createTask t c).numberOfTasks.toNat = k + 1 := by
    have hsucc : (createTask t c).numberOfTasks = t.numberOfTasks + 1 := by
      rw [createTask, hroom]
    rw [hsucc, UInt64.toNat_add, h.tasks, UInt64.toNat_one]
    omega
  have hbytes : (createTask t c).tableBytes = UInt64.ofNat (sizeofTask * 10) := by
    rw [← h.bytes, createTask, hroom]
  have hten : (10 : UInt64).toNat = 10 := rfl
  have htaken : (newTask t c).kernelStack ≠ 0 → ∀ i : ℕ, i < 10 →
      (((createTask t c).task i).kernelStack ≠ 0 ↔ i < k + 1) := by
    intro hstack i hi
    rw [htask i hi]
    split_ifs with hik
    · exact ⟨fun _ => by omega, fun _ => hstack⟩
    · rw [h.taken i hi]
      omega
  refine ⟨⟨fun hadded => ?_, fun hstack => ?_⟩,
    fun hstack => ⟨hbytes, htasks, hslots, htaken hstack⟩⟩
  · have hocc := (hadded.occupied k (by rw [hslots, hten]; exact hk)).mpr (by rw [htasks]; omega)
    rwa [htask k hk, if_pos rfl] at hocc
  · constructor
    case inside => rw [hindex, hslots, hten]; omega
    case fresh =>
      intro _
      rw [hindex]
      by_contra hne
      exact absurd ((h.taken k hk).mp hne) (lt_irrefl k)
    case stored => rw [hindex, htask k hk, if_pos rfl]
    case kept =>
      intro i hi
      rw [h.tasks] at hi
      rw [htask i (by omega), if_neg (by omega)]
    case occupied =>
      intro i hi
      rw [hslots, hten] at hi
      rw [htasks]
      exact htaken hstack i hi
    case room =>
      rw [hslots, hbytes]
      decide

/-- The kernel stack of a call does not depend on the table. -/
def TaskCall.kernelStack (c : TaskCall) : UInt64 :=
  (physicalPageAlloc c.pmm 2).1 + 0x2000 + HIGH_VMA

/-- **The next task after ten is stored before the table.** -/
lemma Filled.not_taskAdded (h : Filled t 10) (c : TaskCall) : ¬TaskAdded t c := by
  intro hadded
  have hinside := hadded.inside.1
  rw [h.findFreeIndex_full] at hinside
  omega

/-- The sequence goes on as long as there are slots. -/
lemma Filled.undisturbed_iff (h : Filled t k) (hk : k ≤ 10) :
    TasksUndisturbed t cs ↔ k + cs.length ≤ 10 ∧ ∀ c ∈ cs, c.kernelStack ≠ 0 := by
  induction cs generalizing t k with
  | nil => simp [TasksUndisturbed, hk]
  | cons c cs ih =>
      rw [TasksUndisturbed, List.length_cons, List.forall_mem_cons]
      rcases Nat.lt_or_ge k 10 with hlt | hge
      · obtain ⟨hadded, hfilled⟩ := h.step hlt c
        rw [hadded]
        constructor
        · rintro ⟨hstack, hrest⟩
          obtain ⟨hlen, hall⟩ := (ih (hfilled hstack) (by omega)).mp hrest
          exact ⟨by omega, hstack, hall⟩
        · rintro ⟨hlen, hstack, hall⟩
          exact ⟨hstack, (ih (hfilled hstack) (by omega)).mpr ⟨by omega, hall⟩⟩
      · obtain rfl : k = 10 := by omega
        constructor
        · rintro ⟨hadded, _⟩
          exact absurd hadded (h.not_taskAdded c)
        · rintro ⟨hlen, _⟩
          omega

/-- **Tasks are created without disturbing each other, exactly up to the tenth.**  A kernel stack
whose address is 0 would be taken for a free slot. -/
theorem tasksUndisturbed_iff (t : TaskTable) (h : ZeroedTable t) (cs : List TaskCall) :
    TasksUndisturbed t cs ↔ cs.length ≤ 10 ∧ ∀ c ∈ cs, c.kernelStack ≠ 0 := by
  rw [h.filled.undisturbed_iff (by omega), Nat.zero_add]

/-- A call on a machine with 32 MiB, whose kernel stack is the two pages from `0x238000` on. -/
def plainCall : TaskCall :=
  { ss := 0x23, rsp := 0, cs := 0x1b, entryPoint := 0x8000, pml4Index := 0
    pmm := ⟨fun i => if i < 71 then 0xff else 0, 0x2000000, false⟩
    regs := default }

/-- What `schedulerInit` gets from the heap of that machine. -/
def plainTasks : Option UInt64 × Heap :=
  kmalloc (kHeapInit plainPmm (fun _ => 0) (fun _ => ⟨0, 0⟩)).1 (UInt64.ofNat (sizeofTask * 10))

/-- The table before the first task, in memory that is all zero. -/
def emptyTable : TaskTable :=
  { mem := fun _ => 0
    heap := plainTasks.2
    tasks := plainTasks.1.getD 0
    tableBytes := UInt64.ofNat (sizeofTask * 10)
    numberOfTasks := 0
    maxNumberOfTasks := 10 }

lemma zeroedTable_emptyTable : ZeroedTable emptyTable where
  zero _ _ := rfl
  bytes := rfl
  tasks := rfl
  slots := rfl

/-- Six tasks, as `bootMain` creates them. -/
theorem tasksUndisturbed_sixTasks : TasksUndisturbed emptyTable (List.replicate 6 plainCall) :=
  (tasksUndisturbed_iff emptyTable zeroedTable_emptyTable _).mpr ⟨by decide, fun c hc => by
    rw [List.eq_of_mem_replicate hc]
    decide +kernel⟩

/-- Eleven tasks. -/
theorem tasksUndisturbed_elevenTasks :
    ¬TasksUndisturbed emptyTable (List.replicate 11 plainCall) := by
  rw [zeroedTable_emptyTable.filled.undisturbed_iff (by omega)]
  rintro ⟨hlen, _⟩
  exact absurd hlen (by decide)

end Seaweed
