import Seaweed.Library.Agreement
import Seaweed.Library.SearchReads
import Seaweed.Sched.Threads

/-!
# Tables in memory that was used before

`kmalloc` does not clear what it returns, and neither do `schedulerInit` and `createNewTask`.  The
search for a slot of the task table reads `kernelStack`, the one for a slot of a task's threads
reads `entryPoint`, and what they find there depends on who had the memory before.

The tasks and their threads are in one memory here, and the bytes that the calls have written are
kept track of.

* `createThreadAt` — `createThread`, with the task in memory as well.
* `FreshCall`, `FreshState` — the calls, and the slots they choose.
* `CleanCall` — what a call reads is written, or 0.
* **`freshTables_agree`** — as long as all calls are clean, the old contents do not matter.
* `cleanRun_blank` — if the memory was cleared, all calls are clean.
-/

namespace Seaweed

open FirstFit Words Memory X86 Records Agreement

/-! ## The code -/

/-- The address of `tasks[task]`. -/
def TaskTable.entry (t : TaskTable) (task : ℤ) : UInt64 := element t.tasks sizeofTask task

/-- The table as the search for a thread slot sees it. -/
def TaskTable.threadState (t : TaskTable) (pmm : Pmm) : ThreadState :=
  { sched := t.sched, mem := t.mem, heap := t.heap, pmm := pmm, arrayBytes := fun _ => 0 }

/-- `++tasks[taskIndex].numberOfThreads`. -/
def countThreadAt (t : TaskTable) (task : ℤ) : TaskTable :=
  { t with mem := store64 t.mem (t.entry task + 232) ((t.task task).numberOfThreads + 1) }

/-- `tasks[taskIndex].threads = krealloc(tasks[taskIndex].threads, ...)`. -/
def growThreadsAt (t : TaskTable) (task : ℤ) : TaskTable :=
  let (threads, heap, mem) :=
    krealloc t.heap t.mem (t.task task).threads ((t.task task).numberOfThreads + 10)
  { t with heap := heap, mem := store64 mem (t.entry task + 200) (threads.getD 0) }

/-- The array of the task has to grow. -/
def ThreadsGrow (t : TaskTable) (task : ℤ) : Prop := (t.task task).numberOfThreads % 10 = 0

instance (t : TaskTable) (task : ℤ) : Decidable (ThreadsGrow t task) :=
  inferInstanceAs (Decidable (_ = _))

/-- The task and its array when the search begins. -/
def threadRoomAt (t : TaskTable) (task : ℤ) : TaskTable :=
  let t := countThreadAt t task
  if ThreadsGrow t task then growThreadsAt t task else t

/-- The address of `tasks[taskIndex].threads[i]`. -/
def threadEntry (t : TaskTable) (task : ℤ) (i : ℕ) : UInt64 :=
  element (t.task task).threads sizeofThread i

/-- Where the search stops: at the first slot with an entry point. -/
def threadStopAt (t : TaskTable) (task : ℤ) : ℕ :=
  stopIndex (fun i => (loadThread t.mem (threadEntry t task i)).entryPoint != 0)
    (t.task task).maxNumberOfThreads.toNat

def threadIndexAt (t : TaskTable) (task : ℤ) : ℕ :=
  if threadStopAt t task < (t.task task).maxNumberOfThreads.toNat then threadStopAt t task else 0

def createThreadAt (t : TaskTable) (pmm : Pmm) (taskIndex : UInt64) (c : ThreadCall) : TaskTable :=
  if t.numberOfTasks ≤ taskIndex then t
  else
    let task : ℤ := taskIndex.toNat
    let t := threadRoomAt t task
    let thread := newThread (t.threadState pmm) task c
    { t with mem := storeWords t.mem (threadEntry t task (threadIndexAt t task)) thread.words }

/-! ## What the calls read and write -/

/-- The bytes that `krealloc` copies. -/
def copiedBytes (heap : Heap) (addr : UInt64) : ℕ := 8 * (kfree heap addr).1.toNat

/-- The fields that the search for a task slot looks at. -/
def kernelStackReads (t : TaskTable) : List UInt64 :=
  (stopReads (fun i => (t.task i).kernelStack == 0) t.maxNumberOfTasks.toNat).flatMap
    fun i : ℕ => bytesAt (t.entry i + 208) 8

def taskReads (t : TaskTable) : List UInt64 :=
  kernelStackReads t ++
    if findFreeIndex t.sched = -1 then bytesAt t.tasks (copiedBytes t.heap t.tasks) else []

/-- Where `krealloc` copies them to. -/
def tableWrites (t : TaskTable) : List UInt64 :=
  if findFreeIndex t.sched = -1 then bytesAt (growTable t).tasks (copiedBytes t.heap t.tasks)
    else []

def taskWrites (t : TaskTable) : List UInt64 :=
  tableWrites t ++ bytesAt ((withRoom t).entry (findFreeIndex t.sched)) sizeofTask

/-- What is read and written when the array of a task grows. -/
def growReads (t : TaskTable) (task : ℤ) : List UInt64 :=
  if ThreadsGrow t task then
    bytesAt (t.task task).threads (copiedBytes t.heap (t.task task).threads)
  else []

def growWrites (t : TaskTable) (task : ℤ) : List UInt64 :=
  if ThreadsGrow t task then
    bytesAt ((krealloc t.heap t.mem (t.task task).threads
      ((t.task task).numberOfThreads + 10)).1.getD 0) (copiedBytes t.heap (t.task task).threads) ++
      bytesAt (t.entry task + 200) 8
  else []

/-- The fields that the search for a thread slot looks at. -/
def entryPointReads (t : TaskTable) (task : ℤ) : List UInt64 :=
  (stopReads (fun i => (loadThread t.mem (threadEntry t task i)).entryPoint != 0)
    (t.task task).maxNumberOfThreads.toNat).flatMap
      fun i : ℕ => bytesAt (threadEntry t task i + 200) 8

/-- What has been written when the search for a thread slot begins. -/
def roomWrites (t : TaskTable) (task : ℤ) : List UInt64 :=
  bytesAt (t.entry task + 232) 8 ++ growWrites (countThreadAt t task) task

/-! ## Sequences of calls -/

inductive FreshCall
  | task (c : TaskCall)
  | thread (taskIndex : UInt64) (pmm : Pmm) (c : ThreadCall)

/-- A slot that has been chosen, and where its entry is. -/
structure TableSlot where
  index : ℤ
  entry : UInt64
  deriving DecidableEq

/-- The table, the bytes that calls have written, and the slots they have chosen. -/
structure FreshState where
  table : TaskTable
  written : List UInt64
  taskSlots : List TableSlot
  threadSlots : List TableSlot

def FreshCall.next (s : FreshState) : FreshCall → FreshState
  | .task c =>
      let index := findFreeIndex s.table.sched
      { table := createTask s.table c
        written := s.written ++ taskWrites s.table
        taskSlots := s.taskSlots ++ [⟨index, (withRoom s.table).entry index⟩]
        threadSlots := s.threadSlots }
  | .thread taskIndex pmm c =>
      if s.table.numberOfTasks ≤ taskIndex then s
      else
        let task : ℤ := taskIndex.toNat
        let t := threadRoomAt s.table task
        let index := threadIndexAt t task
        { table := createThreadAt s.table pmm taskIndex c
          written := s.written ++ roomWrites s.table task ++
            bytesAt (threadEntry t task index) sizeofThread
          taskSlots := s.taskSlots
          threadSlots := s.threadSlots ++ [⟨index, threadEntry t task index⟩] }

/-- Whatever a call reads has been written by a call, or is 0. -/
def CleanCall (s : FreshState) : FreshCall → Prop
  | .task _ => Settled s.written s.table.mem (taskReads s.table)
  | .thread taskIndex _ _ => taskIndex < s.table.numberOfTasks →
      let task : ℤ := taskIndex.toNat
      let t := countThreadAt s.table task
      Settled s.written s.table.mem (bytesAt (s.table.entry task) sizeofTask) ∧
      Settled (s.written ++ bytesAt (s.table.entry task + 232) 8) t.mem (growReads t task) ∧
      Settled (s.written ++ roomWrites s.table task) (threadRoomAt s.table task).mem
        (entryPointReads (threadRoomAt s.table task) task)

/-- The state after a sequence of calls. -/
def freshRun (s : FreshState) (calls : List FreshCall) : FreshState := calls.foldl FreshCall.next s

/-- All calls of a sequence are clean. -/
def CleanRun : FreshState → List FreshCall → Prop
  | _, [] => True
  | s, call :: calls => CleanCall s call ∧ CleanRun (call.next s) calls

/-- Both runs have chosen the same slots, have the same number of tasks, and the same in the
slots. -/
structure SameOutcome (s s' : FreshState) : Prop where
  taskSlots : s.taskSlots = s'.taskSlots
  threadSlots : s.threadSlots = s'.threadSlots
  numberOfTasks : s.table.numberOfTasks = s'.table.numberOfTasks
  tasks : ∀ slot ∈ s.taskSlots,
    loadTask s.table.mem slot.entry = loadTask s'.table.mem slot.entry
  threads : ∀ slot ∈ s.threadSlots,
    loadThread s.table.mem slot.entry = loadThread s'.table.mem slot.entry

/-! ## Tables that are alike -/

/-- The tables differ at most in their memory, and not in the bytes `known`. -/
def Alike (known : List UInt64) (t t' : TaskTable) : Prop :=
  (∃ mem', t' = { t with mem := mem' }) ∧ Agree known t.mem t'.mem

variable {known : List UInt64} {t t' : TaskTable} {task i : ℤ} {a dest src : UInt64} {m m' : Mem}
  {n : ℕ} {s s' : FreshState} {pmm : Pmm}

lemma Alike.entry_eq (h : Alike known t t') : t'.entry task = t.entry task := by
  obtain ⟨⟨mem', rfl⟩, _⟩ := h
  rfl

/-- A task whose bytes are known. -/
lemma Alike.task_eq (h : Alike known t t')
    (hentry : ∀ x ∈ bytesAt (t.entry task) sizeofTask, x ∈ known) :
    t'.task task = t.task task := by
  obtain ⟨⟨mem', rfl⟩, hagree⟩ := h
  exact loadTask_congr fun k hk => (hagree _ (hentry _ (add_mem_bytesAt hk))).symm

/-- **What is copied from known bytes is known.** -/
lemma agree_memcpy64 (h : Agree known m m') (hsrc : ∀ x ∈ bytesAt src (8 * n), x ∈ known) :
    Agree (known ++ bytesAt dest (8 * n)) (memcpy64 m dest src n) (memcpy64 m' dest src n) := by
  have hturns : ∀ k, k ≤ n →
      Agree (known ++ bytesAt dest (8 * k)) (memcpy64 m dest src k) (memcpy64 m' dest src k) := by
    intro k hk
    induction k with
    | zero => simpa [memcpy64, bytesAt] using h
    | succ k ih =>
        have hword : load64 (memcpy64 m dest src k) (src + UInt64.ofNat (8 * k))
            = load64 (memcpy64 m' dest src k) (src + UInt64.ofNat (8 * k)) := by
          refine Agree.load64 ((ih (by omega)).mono fun x hx => List.mem_append_left _ (hsrc x ?_))
          obtain ⟨i, hi, rfl⟩ := mem_bytesAt.mp hx
          rw [UInt64.add_assoc, ← UInt64.ofNat_add]
          exact add_mem_bytesAt (by omega)
        rw [memcpy64, memcpy64, hword]
        exact ((ih (by omega)).store64 _ _).mono fun x hx => mem_append_bytesAt_succ.mp hx
  exact hturns n le_rfl

/-! ## One call -/

/-- Two searches of the task table. -/
lemma Alike.findFreeIndex_eq (h : Alike known t t')
    (hs : Settled known t.mem (kernelStackReads t))
    (hs' : Settled known t'.mem (kernelStackReads t')) :
    findFreeIndex t'.sched = findFreeIndex t.sched := by
  obtain ⟨⟨mem', rfl⟩, hagree⟩ := h
  refine firstIndex_eq (stopIndex_eq fun i hi' hi => ?_)
  have hfield : (TaskTable.task { t with mem := mem' } i).kernelStack = (t.task i).kernelStack := by
    refine (Agree.load64 fun x hx => ?_).symm
    exact hagree.of_settled hs hs' (List.mem_flatMap.mpr ⟨i, hi, hx⟩)
      (List.mem_flatMap.mpr ⟨i, hi', hx⟩)
  rw [tasks_sched, tasks_sched, hfield]

/-- Room for the new task. -/
lemma Alike.room (h : Alike known t t') (hs : Settled known t.mem (taskReads t))
    (hs' : Settled known t'.mem (taskReads t')) :
    findFreeIndex t'.sched = findFreeIndex t.sched ∧ tableWrites t' = tableWrites t ∧
      Alike (known ++ tableWrites t) (withRoom t) (withRoom t') := by
  have hindex := h.findFreeIndex_eq (fun x hx => hs x (List.mem_append_left _ hx))
    (fun x hx => hs' x (List.mem_append_left _ hx))
  refine ⟨hindex, ?_⟩
  obtain ⟨⟨mem', rfl⟩, hagree⟩ := h
  rw [withRoom, withRoom, tableWrites, tableWrites, hindex]
  by_cases hfull : findFreeIndex t.sched = -1
  · have hread : Settled known t.mem (bytesAt t.tasks (copiedBytes t.heap t.tasks)) := fun x hx =>
      hs x (List.mem_append_right _ (by rwa [if_pos hfull]))
    have hread' : Settled known mem' (bytesAt t.tasks (copiedBytes t.heap t.tasks)) := fun x hx =>
      hs' x (List.mem_append_right _ (by rwa [if_pos (hindex.trans hfull)]))
    have hcopy : Agree _ (growTable t).mem (growTable { t with mem := mem' }).mem :=
      agree_memcpy64 (hagree.extend hread hread') fun x hx => List.mem_append_right _ hx
    rw [if_pos hfull, if_pos hfull, if_pos hfull, if_pos hfull]
    exact ⟨rfl, ⟨_, rfl⟩, hcopy.mono fun x hx => mem_append_insert hx⟩
  · rw [if_neg hfull, if_neg hfull, if_neg hfull, if_neg hfull, List.append_nil]
    exact ⟨rfl, ⟨_, rfl⟩, hagree⟩

/-- **A new task.** -/
lemma Alike.taskMade (h : Alike known t t') (hs : Settled known t.mem (taskReads t))
    (hs' : Settled known t'.mem (taskReads t')) (c : TaskCall) :
    findFreeIndex t'.sched = findFreeIndex t.sched ∧
      (withRoom t').entry (findFreeIndex t.sched)
        = (withRoom t).entry (findFreeIndex t.sched) ∧
      taskWrites t' = taskWrites t ∧
      Alike (known ++ taskWrites t) (createTask t c) (createTask t' c) := by
  obtain ⟨hindex, hwrites, hroom⟩ := h.room hs hs'
  have hlen : 8 * (newTask t c).words.length = sizeofTask := length_words _
  have hentry : (withRoom t').entry (findFreeIndex t.sched)
      = (withRoom t).entry (findFreeIndex t.sched) := hroom.entry_eq
  obtain ⟨⟨mem', heq⟩, hagree⟩ := hroom
  have hnew : newTask t' c = newTask t c := by rw [newTask, newTask, heq]
  have hstore := hagree.storeWords ((withRoom t).entry (findFreeIndex t.sched))
    (newTask t c).words
  rw [hlen, List.append_assoc] at hstore
  refine ⟨hindex, hentry, by rw [taskWrites, taskWrites, hindex, hentry, hwrites],
    ⟨(createTask t' c).mem, ?_⟩, ?_⟩
  · simp only [createTask, heq]
  · simp only [createTask, hindex, hnew]
    rw [← TaskTable.entry, ← TaskTable.entry, hentry]
    exact hstore

lemma Alike.mono {known' : List UInt64} (h : Alike known t t') (hsub : ∀ x ∈ known', x ∈ known) :
    Alike known' t t' := ⟨h.1, h.2.mono hsub⟩

/-- A thread is counted. -/
lemma Alike.counted (h : Alike known t t')
    (hentry : ∀ x ∈ bytesAt (t.entry task) sizeofTask, x ∈ known) :
    Alike (known ++ bytesAt (t.entry task + 232) 8) (countThreadAt t task)
      (countThreadAt t' task) := by
  have htask := h.task_eq hentry
  have haddr : t'.entry task = t.entry task := h.entry_eq
  obtain ⟨⟨mem', rfl⟩, hagree⟩ := h
  refine ⟨⟨_, rfl⟩, ?_⟩
  simp only [countThreadAt, htask, haddr]
  exact hagree.store64 _ _

/-- The array grows in both or in none. -/
lemma Alike.grown (h : Alike known t t')
    (hentry : ∀ x ∈ bytesAt (t.entry task) sizeofTask, x ∈ known)
    (hs : Settled known t.mem (growReads t task)) (hs' : Settled known t'.mem (growReads t' task)) :
    growWrites t' task = growWrites t task ∧
      Alike (known ++ growWrites t task) (if ThreadsGrow t task then growThreadsAt t task else t)
        (if ThreadsGrow t' task then growThreadsAt t' task else t') := by
  have htask := h.task_eq hentry
  have haddr : t'.entry task = t.entry task := h.entry_eq
  obtain ⟨⟨mem', rfl⟩, hagree⟩ := h
  have hsame : ThreadsGrow { t with mem := mem' } task ↔ ThreadsGrow t task := by
    rw [ThreadsGrow, ThreadsGrow, htask]
  rw [growReads] at hs hs'
  rw [growWrites, growWrites]
  by_cases hgrow : ThreadsGrow t task
  · have hgrow' := hsame.mpr hgrow
    rw [if_pos hgrow] at hs
    rw [if_pos hgrow', htask] at hs'
    rw [if_pos hgrow, if_pos hgrow, if_pos hgrow', if_pos hgrow', htask, haddr]
    have hcopy : Agree _ (krealloc t.heap t.mem (t.task task).threads
        ((t.task task).numberOfThreads + 10)).2.2 (krealloc t.heap mem' (t.task task).threads
        ((t.task task).numberOfThreads + 10)).2.2 :=
      agree_memcpy64 (hagree.extend hs hs') fun x hx => List.mem_append_right _ hx
    refine ⟨rfl, ⟨(growThreadsAt { t with mem := mem' } task).mem, ?_⟩, ?_⟩
    · simp only [growThreadsAt, htask]
      rfl
    · simp only [growThreadsAt, htask, haddr]
      refine (hcopy.store64 _ _).mono fun x hx => ?_
      rw [List.append_assoc]
      exact mem_append_insert hx
  · have hgrow' := mt hsame.mp hgrow
    rw [if_neg hgrow, if_neg hgrow, if_neg hgrow', if_neg hgrow', List.append_nil]
    exact ⟨rfl, ⟨_, rfl⟩, hagree⟩

/-- Room for the new thread. -/
lemma Alike.threadRoom (h : Alike known t t')
    (hfields : Settled known t.mem (bytesAt (t.entry task) sizeofTask))
    (hfields' : Settled known t'.mem (bytesAt (t.entry task) sizeofTask))
    (hs : Settled (known ++ bytesAt (t.entry task + 232) 8) (countThreadAt t task).mem
      (growReads (countThreadAt t task) task))
    (hs' : Settled (known ++ bytesAt (t.entry task + 232) 8) (countThreadAt t' task).mem
      (growReads (countThreadAt t' task) task)) :
    roomWrites t' task = roomWrites t task ∧
      Alike (known ++ bytesAt (t.entry task) sizeofTask ++ roomWrites t task)
        (threadRoomAt t task) (threadRoomAt t' task) := by
  have haddr : t'.entry task = t.entry task := h.entry_eq
  have hextended : Alike (known ++ bytesAt (t.entry task) sizeofTask) t t' :=
    ⟨h.1, h.2.extend hfields hfields'⟩
  have hentry : ∀ x ∈ bytesAt (t.entry task) sizeofTask,
      x ∈ known ++ bytesAt (t.entry task) sizeofTask := fun x hx => List.mem_append_right _ hx
  have hcount : ∀ x ∈ known ++ bytesAt (t.entry task + 232) 8,
      x ∈ known ++ bytesAt (t.entry task) sizeofTask ++ bytesAt (t.entry task + 232) 8 :=
    fun x hx => mem_append_insert hx
  obtain ⟨hwrites, hgrown⟩ := (hextended.counted hentry).grown
    (fun x hx => List.mem_append_left _ (hentry x hx)) (hs.mono hcount) (hs'.mono hcount)
  rw [roomWrites, roomWrites, hwrites, haddr, ← List.append_assoc]
  exact ⟨rfl, hgrown⟩

lemma entry_threadRoomAt (t : TaskTable) (task : ℤ) :
    (threadRoomAt t task).entry task = t.entry task := by
  rw [threadRoomAt]
  split_ifs <;> rfl

/-- Two searches for a thread slot. -/
lemma Alike.threadIndexAt_eq (h : Alike known t t')
    (hentry : ∀ x ∈ bytesAt (t.entry task) sizeofTask, x ∈ known)
    (hs : Settled known t.mem (entryPointReads t task))
    (hs' : Settled known t'.mem (entryPointReads t' task)) :
    threadIndexAt t' task = threadIndexAt t task := by
  have htask := h.task_eq hentry
  have hslot : ∀ i, threadEntry t' task i = threadEntry t task i := fun i => by
    rw [threadEntry, threadEntry, htask]
  have hstop : threadStopAt t' task = threadStopAt t task := by
    rw [threadStopAt, threadStopAt, htask]
    refine stopIndex_eq fun i hi' hi => ?_
    have hread : ∀ x ∈ bytesAt (threadEntry t task i + 200) 8, x ∈ entryPointReads t task :=
      fun x hx => by
        rw [entryPointReads]
        exact List.mem_flatMap.mpr ⟨i, hi, hx⟩
    have hread' : ∀ x ∈ bytesAt (threadEntry t task i + 200) 8, x ∈ entryPointReads t' task :=
      fun x hx => by
        rw [entryPointReads, htask]
        exact List.mem_flatMap.mpr ⟨i, hi', by rwa [hslot]⟩
    have hfield : load64 t'.mem (threadEntry t task i + 200)
        = load64 t.mem (threadEntry t task i + 200) :=
      (Agree.load64 fun x hx => h.2.of_settled hs hs' (hread x hx) (hread' x hx)).symm
    simp only [loadThread, hslot, hfield]
  rw [threadIndexAt, threadIndexAt, hstop, htask]

/-- **A new thread.** -/
lemma Alike.threadStored (h : Alike known t t') (a : UInt64) (thread : Thread) :
    Alike (known ++ bytesAt a sizeofThread) { t with mem := storeWords t.mem a thread.words }
      { t' with mem := storeWords t'.mem a thread.words } := by
  have hlen : 8 * thread.words.length = sizeofThread := length_threadWords _
  obtain ⟨⟨mem', rfl⟩, hagree⟩ := h
  have hstore := hagree.storeWords a thread.words
  rw [hlen] at hstore
  exact ⟨⟨_, rfl⟩, hstore⟩

/-! ## Runs -/

/-- Two runs that have not come apart so far. -/
structure Together (s s' : FreshState) : Prop where
  table : Alike s.written s.table s'.table
  written : s'.written = s.written
  taskSlots : s'.taskSlots = s.taskSlots
  threadSlots : s'.threadSlots = s.threadSlots
  tasks : ∀ slot ∈ s.taskSlots, ∀ x ∈ bytesAt slot.entry sizeofTask, x ∈ s.written
  threads : ∀ slot ∈ s.threadSlots, ∀ x ∈ bytesAt slot.entry sizeofThread, x ∈ s.written

lemma Together.sameOutcome (h : Together s s') : SameOutcome s s' := by
  obtain ⟨⟨mem', hmem⟩, hagree⟩ := h.table
  refine ⟨h.taskSlots.symm, h.threadSlots.symm, by rw [hmem], fun slot hslot => ?_,
    fun slot hslot => ?_⟩
  · exact loadTask_congr fun k hk => hagree _ (h.tasks slot hslot _ (add_mem_bytesAt hk))
  · exact loadThread_congr fun k hk => hagree _ (h.threads slot hslot _ (add_mem_bytesAt hk))

lemma Together.taskCall (h : Together s s') {c : TaskCall} (hs : CleanCall s (.task c))
    (hs' : CleanCall s' (.task c)) :
    Together (FreshCall.next s (.task c)) (FreshCall.next s' (.task c)) := by
  rw [CleanCall, h.written] at hs'
  obtain ⟨hindex, hentry, hwrites, htable⟩ := h.table.taskMade hs hs' c
  refine ⟨htable, ?_, ?_, h.threadSlots, ?_, ?_⟩
  · simp only [FreshCall.next, h.written, hwrites]
  · simp only [FreshCall.next, h.taskSlots, hindex, hentry]
  · refine List.forall_mem_append.mpr ⟨fun slot hslot x hx =>
      List.mem_append_left _ (h.tasks slot hslot x hx), List.forall_mem_singleton.mpr fun x hx =>
      List.mem_append_right _ (List.mem_append_right _ hx)⟩
  · exact fun slot hslot x hx => List.mem_append_left _ (h.threads slot hslot x hx)

lemma Together.threadCall (h : Together s s') {taskIndex : UInt64} {pmm : Pmm} {c : ThreadCall}
    (hs : CleanCall s (.thread taskIndex pmm c)) (hs' : CleanCall s' (.thread taskIndex pmm c)) :
    Together (FreshCall.next s (.thread taskIndex pmm c))
      (FreshCall.next s' (.thread taskIndex pmm c)) := by
  have hnum : s'.table.numberOfTasks = s.table.numberOfTasks := by
    obtain ⟨mem', hmem⟩ := h.table.1
    rw [hmem]
  by_cases hsmall : s.table.numberOfTasks ≤ taskIndex
  · have hsmall' : s'.table.numberOfTasks ≤ taskIndex := hnum ▸ hsmall
    simp only [FreshCall.next, if_pos hsmall, if_pos hsmall']
    exact h
  have hsmall' : ¬s'.table.numberOfTasks ≤ taskIndex := hnum ▸ hsmall
  obtain ⟨hfields, hgrow, hsearch⟩ := hs (UInt64.not_le.mp hsmall)
  obtain ⟨hfields', hgrow', hsearch'⟩ := hs' (UInt64.not_le.mp hsmall')
  generalize htaskIndex : (taskIndex.toNat : ℤ) = task at *
  have haddr : s'.table.entry task = s.table.entry task := h.table.entry_eq
  rw [h.written, haddr] at hfields' hgrow'
  obtain ⟨hwrites, hroom⟩ := h.table.threadRoom hfields hfields' hgrow hgrow'
  rw [h.written, hwrites] at hsearch'
  -- The task is known from here on, so both runs search the same array.
  have hknown : ∀ x ∈ s.written ++ roomWrites s.table task,
      x ∈ s.written ++ bytesAt (s.table.entry task) sizeofTask ++ roomWrites s.table task :=
    fun x hx => mem_append_insert hx
  have hentry : ∀ x ∈ bytesAt ((threadRoomAt s.table task).entry task) sizeofTask,
      x ∈ s.written ++ bytesAt (s.table.entry task) sizeofTask ++ roomWrites s.table task := by
    intro x hx
    rw [entry_threadRoomAt] at hx
    exact List.mem_append_left _ (List.mem_append_right _ hx)
  have hindex := hroom.threadIndexAt_eq hentry (hsearch.mono hknown) (hsearch'.mono hknown)
  have htask := hroom.task_eq hentry
  have hslot : threadEntry (threadRoomAt s'.table task) task
      (threadIndexAt (threadRoomAt s.table task) task) =
        threadEntry (threadRoomAt s.table task) task
      (threadIndexAt (threadRoomAt s.table task) task) := by
    rw [threadEntry, threadEntry, htask]
  have hthread : newThread ((threadRoomAt s'.table task).threadState pmm) task c
      = newThread ((threadRoomAt s.table task).threadState pmm) task c := by
    have hregs : (((threadRoomAt s'.table task).threadState pmm).sched.tasks task).regs
        = (((threadRoomAt s.table task).threadState pmm).sched.tasks task).regs :=
      congrArg Task.regs htask
    rw [newThread, newThread, hregs]
    rfl
  have hstored := (hroom.mono hknown).threadStored
    (threadEntry (threadRoomAt s.table task) task (threadIndexAt (threadRoomAt s.table task) task))
    (newThread ((threadRoomAt s.table task).threadState pmm) task c)
  simp only [FreshCall.next, if_neg hsmall, if_neg hsmall', createThreadAt, htaskIndex, hindex,
    hslot, hthread, hwrites, h.written]
  refine ⟨hstored, rfl, h.taskSlots, by rw [h.threadSlots], ?_, ?_⟩
  · exact fun slot hslot x hx =>
      List.mem_append_left _ (List.mem_append_left _ (h.tasks slot hslot x hx))
  · refine List.forall_mem_append.mpr ⟨fun slot hslot x hx =>
      List.mem_append_left _ (List.mem_append_left _ (h.threads slot hslot x hx)),
      List.forall_mem_singleton.mpr fun x hx => List.mem_append_right _ hx⟩

/-- **One call.** -/
lemma Together.step (h : Together s s') {call : FreshCall} (hs : CleanCall s call)
    (hs' : CleanCall s' call) : Together (call.next s) (call.next s') := by
  cases call with
  | task c => exact h.taskCall hs hs'
  | thread taskIndex pmm c => exact h.threadCall hs hs'

lemma Together.run (h : Together s s') {calls : List FreshCall} (hs : CleanRun s calls)
    (hs' : CleanRun s' calls) : Together (freshRun s calls) (freshRun s' calls) := by
  induction calls generalizing s s' with
  | nil => exact h
  | cons call calls ih => exact ih (h.step hs.1 hs'.1) hs.2 hs'.2

/-- The table before the first call, in a memory with any contents. -/
def freshTable (t : TaskTable) (mem : Mem) : FreshState := ⟨{ t with mem := mem }, [], [], []⟩

/-- **As long as all calls are clean, the old contents do not matter.** -/
theorem freshTables_agree (t : TaskTable) (mem mem' : Mem) (calls : List FreshCall)
    (h : CleanRun (freshTable t mem) calls) (h' : CleanRun (freshTable t mem') calls) :
    SameOutcome (freshRun (freshTable t mem) calls) (freshRun (freshTable t mem') calls) := by
  have hstart : Together (freshTable t mem) (freshTable t mem') :=
    ⟨⟨⟨mem', rfl⟩, fun _ hx => absurd hx List.not_mem_nil⟩, rfl, rfl, rfl,
      fun _ hslot => absurd hslot List.not_mem_nil, fun _ hslot => absurd hslot List.not_mem_nil⟩
  exact (hstart.run h h').sameOutcome

/-! ## Memory that was cleared -/

lemma blank_memcpy64 (h : Blank known m) :
    Blank (known ++ bytesAt dest (8 * n)) (memcpy64 m dest src n) := by
  induction n with
  | zero => simpa [memcpy64, bytesAt] using h
  | succ n ih =>
      rw [memcpy64]
      exact (ih.store64 _ _).mono fun x hx => mem_append_bytesAt_succ.mpr hx

lemma blank_createTask (h : Blank known t.mem) (c : TaskCall) :
    Blank (known ++ taskWrites t) (createTask t c).mem := by
  have hlen : 8 * (newTask t c).words.length = sizeofTask := length_words _
  have hroom : Blank (known ++ tableWrites t) (withRoom t).mem := by
    rw [withRoom, tableWrites]
    split_ifs
    · exact blank_memcpy64 h
    · rwa [List.append_nil]
  have hstore := hroom.storeWords ((withRoom t).entry (findFreeIndex t.sched)) (newTask t c).words
  rwa [hlen, List.append_assoc] at hstore

lemma blank_countThreadAt (h : Blank known t.mem) (task : ℤ) :
    Blank (known ++ bytesAt (t.entry task + 232) 8) (countThreadAt t task).mem := h.store64 _ _

lemma blank_threadRoomAt (h : Blank known t.mem) (task : ℤ) :
    Blank (known ++ roomWrites t task) (threadRoomAt t task).mem := by
  have hcount := blank_countThreadAt h task
  rw [threadRoomAt, roomWrites, growWrites, ← List.append_assoc]
  split_ifs
  · refine Blank.mono (Blank.store64 (blank_memcpy64 hcount) _ _) fun x hx => ?_
    rwa [List.append_assoc] at hx
  · rwa [List.append_nil]

lemma blank_next (h : Blank s.written s.table.mem) (call : FreshCall) :
    Blank (call.next s).written (call.next s).table.mem := by
  cases call with
  | task c => exact blank_createTask h c
  | thread taskIndex pmm c =>
      by_cases hsmall : s.table.numberOfTasks ≤ taskIndex
      · simp only [FreshCall.next, if_pos hsmall]
        exact h
      · simp only [FreshCall.next, if_neg hsmall, createThreadAt]
        generalize hthread : newThread _ _ c = thread
        have hstore := (blank_threadRoomAt h taskIndex.toNat).storeWords
          (threadEntry (threadRoomAt s.table taskIndex.toNat) taskIndex.toNat
            (threadIndexAt (threadRoomAt s.table taskIndex.toNat) taskIndex.toNat)) thread.words
        rwa [length_threadWords] at hstore

/-- **In memory that was cleared all calls are clean**, whatever they are. -/
theorem cleanRun_blank (h : Blank s.written s.table.mem) (calls : List FreshCall) :
    CleanRun s calls := by
  induction calls generalizing s with
  | nil => trivial
  | cons call calls ih =>
      refine ⟨?_, ih (blank_next h call)⟩
      cases call with
      | task c => exact h.settled
      | thread taskIndex pmm c =>
          exact fun _ => ⟨h.settled, (blank_countThreadAt h _).settled,
            (blank_threadRoomAt h _).settled⟩

/-! ## Memory that was used -/

/-- The table that `schedulerInit` gets from an empty heap: the first 78 blocks are its own. -/
def firstTable : TaskTable :=
  { emptyTable with
    heap :=
      { kHeapBegin := 0x124000
        kbitmapPtr := HIGH_VMA + 0x224000
        kbitmap := fun i => if i < 9 then 0xff else if i = 9 then 0x3f else 0
        allocationBitmapPtr := HIGH_VMA + 0x225000
        allocationBitmap := fun i => if i = 0 then ⟨0, 78⟩ else ⟨0, 0⟩ }
    tasks := HIGH_VMA + 0x124000 }

/-- A task and a thread of it. -/
def taskThenThread : List FreshCall := [.task plainCall, .thread 0 plainPmm ⟨0x9000, default⟩]

/-- Something is left in the last slot of the table. -/
def usedMemory : Mem := fun a => if a = firstTable.entry 9 + 208 then 1 else 0

lemma cleanRun_usedMemory : CleanRun (freshTable firstTable usedMemory) taskThenThread := by
  have htask : CleanCall (freshTable firstTable usedMemory) (.task plainCall) := by
    change Settled _ _ _
    decide +kernel
  have hindex : findFreeIndex (freshTable firstTable usedMemory).table.sched
      = (0 : UInt64).toNat := by decide +kernel
  have hsearch : Settled [] (threadRoomAt (FreshCall.next (freshTable firstTable usedMemory)
      (.task plainCall)).table 0).mem (entryPointReads (threadRoomAt (FreshCall.next
        (freshTable firstTable usedMemory) (.task plainCall)).table 0) 0) := by decide +kernel
  refine ⟨htask, fun _ => ⟨fun x hx => Or.inl ?_, ?_, hsearch.mono (List.nil_subset _)⟩, trivial⟩
  · refine List.mem_append_right _ (List.mem_append_right _ ?_)
    rw [hindex]
    exact hx
  · decide +kernel

/-- The old contents of the last slot. -/
theorem freshTables_agree_lastSlot :
    SameOutcome (freshRun (freshTable firstTable fun _ => 0) taskThenThread)
      (freshRun (freshTable firstTable usedMemory) taskThenThread) :=
  freshTables_agree firstTable _ _ taskThenThread (cleanRun_blank (fun _ => Or.inr rfl) _)
    cleanRun_usedMemory

/-- With something left in all slots the first task has no slot at all. -/
theorem freshTables_fullOfOnes :
    ¬SameOutcome (freshRun (freshTable firstTable fun _ => 0) [.task plainCall])
      (freshRun (freshTable firstTable fun _ => 0xff) [.task plainCall]) := by
  intro h
  have hslots := congrArg (List.map TableSlot.index) h.taskSlots
  exact absurd hslots (by decide +kernel)

end Seaweed
