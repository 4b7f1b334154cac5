import Seaweed.Sched.TaskTable

/-!
# The threads of a task (`createThread` in `kernel/sched/scheduler.c`)

A task has an array of threads; a slot is free if its entry point is 0.  The search of
`createThread` stops at the first slot that is taken, and falls back on slot 0 when there is none,
so it ends at slot 0 from the first call on.

* `loadThread`, `Thread.words` — a `thread_t` in memory.
* `createThread` — the code.
* `ThreadsHeld`, `ThreadsKept` — every call has a slot of its own, after each call of a sequence.
* **`threadsKept_iff`** — this is so for one call, and no more.
-/

namespace Seaweed

open FirstFit Words Memory X86 Records

/-! ## Threads in memory -/

/-- `thread_t`. -/
structure Thread where
  status : UInt8
  regs : Regs
  kernelStack : UInt64
  entryPoint : UInt64
  idleTime : UInt64
  deriving DecidableEq

/-- The words of a `thread_t`.  `regs_t` is packed and stands right behind the status; the seven
bytes behind it are padding. -/
def Thread.words (t : Thread) : List UInt64 :=
  packed t.status t.regs.words ++ [t.kernelStack, t.entryPoint, t.idleTime]

/-- `*(thread_t*)a`. -/
def loadThread (mem : Mem) (a : UInt64) : Thread where
  status := mem a
  regs := loadRegs mem (a + 1)
  kernelStack := load64 mem (a + 192)
  entryPoint := load64 mem (a + 200)
  idleTime := load64 mem (a + 208)

lemma length_threadWords (t : Thread) : 8 * t.words.length = sizeofThread := by
  rw [Thread.words, List.length_append, length_packed]
  rfl

lemma loadThread_of_holds {mem : Mem} {a : UInt64} {t : Thread} (h : Holds mem a t.words) :
    loadThread mem a = t := by
  rw [Thread.words, holds_append, length_packed] at h
  obtain ⟨hpacked, hlast⟩ := h
  obtain ⟨hstatus, hregs⟩ := holds_packed hpacked
  have hregs' : loadRegs mem (a + 1) = t.regs := loadRegs_of_holds hregs
  rw [show UInt64.ofNat (8 * (t.regs.words.length + 1)) = 192 from rfl] at hlast
  simp only [Holds, UInt64.add_assoc, UInt64.reduceAdd, and_true] at hlast
  simp only [loadThread, hregs', hstatus, hlast]

lemma loadThread_congr {mem mem' : Mem} {a : UInt64}
    (h : ∀ k, k < sizeofThread → mem' (a + UInt64.ofNat k) = mem (a + UInt64.ofNat k)) :
    loadThread mem' a = loadThread mem a := by
  have hword := load64_congr h
  have hstatus : mem' a = mem a := by simpa using h 0 (by decide)
  simp (disch := decide) only [loadThread, loadRegs, UInt64.add_assoc, UInt64.reduceAdd, hword,
    hstatus]

/-! ## The code -/

/-- The task table as the scheduler sees it, the memory with the arrays of threads, and what the
arrays and the stacks are allocated from.  `arrayBytes` has, for each task, the argument of the
`kmalloc` that returned its array. -/
structure ThreadState where
  sched : Sched
  mem : Mem
  heap : Heap
  pmm : Pmm
  arrayBytes : ℤ → UInt64

/-- `tasks[taskIndex].threads[i]`. -/
def ThreadState.thread (s : ThreadState) (task : ℤ) (i : ℕ) : Thread :=
  loadThread s.mem (element (s.sched.tasks task).threads sizeofThread i)

/-- A call of `createThread`: its argument, and the registers as they happen to be on its stack. -/
structure ThreadCall where
  entryPoint : UInt64
  regs : Regs

/-- `++tasks[taskIndex].numberOfThreads`. -/
def countThread (s : ThreadState) (task : ℤ) : ThreadState :=
  { s with sched := { s.sched with
      tasks := Function.update s.sched.tasks task { s.sched.tasks task with
        numberOfThreads := (s.sched.tasks task).numberOfThreads + 1 } } }

/-- `krealloc(tasks[taskIndex].threads, tasks[taskIndex].numberOfThreads + 10)`. -/
def growThreads (s : ThreadState) (task : ℤ) : ThreadState :=
  let t := s.sched.tasks task
  let bytes := t.numberOfThreads + 10
  let (threads, heap, mem) := krealloc s.heap s.mem t.threads bytes
  { s with
    sched := { s.sched with
      tasks := Function.update s.sched.tasks task { t with threads := threads.getD 0 } }
    mem := mem
    heap := heap
    arrayBytes := Function.update s.arrayBytes task ((kfree s.heap t.threads).1 + bytes) }

/-- The array when the search begins. -/
def threadRoom (s : ThreadState) (task : ℤ) : ThreadState :=
  let s := countThread s task
  if (s.sched.tasks task).numberOfThreads % 10 = 0 then growThreads s task else s

/-- Where the search stops: at the first slot with an entry point. -/
def threadStop (s : ThreadState) (task : ℤ) : ℕ :=
  stopIndex (fun i => (s.thread task i).entryPoint != 0)
    (s.sched.tasks task).maxNumberOfThreads.toNat

def threadIndex (s : ThreadState) (task : ℤ) : ℕ :=
  if threadStop s task < (s.sched.tasks task).maxNumberOfThreads.toNat then threadStop s task else 0

def newThread (s : ThreadState) (task : ℤ) (c : ThreadCall) : Thread :=
  let (stack, pmm) := physicalPageAlloc s.pmm 2
  { status := WAITING_TO_START
    regs := { c.regs with
      rsp := stack + 0x2000
      ss := (s.sched.tasks task).regs.ss
      cs := (s.sched.tasks task).regs.cs }
    kernelStack := (physicalPageAlloc pmm 2).1 + 0x2000 + HIGH_VMA
    entryPoint := c.entryPoint
    idleTime := 0 }

@[simp] lemma entryPoint_newThread (s : ThreadState) (task : ℤ) (c : ThreadCall) :
    (newThread s task c).entryPoint = c.entryPoint := rfl

def createThread (s : ThreadState) (taskIndex : UInt64) (c : ThreadCall) : ThreadState :=
  if s.sched.numberOfTasks ≤ taskIndex then s
  else
    let task : ℤ := taskIndex.toNat
    let thread := newThread s task c
    let s := threadRoom s task
    { s with
      mem := storeWords s.mem
        (element (s.sched.tasks task).threads sizeofThread (threadIndex s task)) thread.words
      pmm := (physicalPageAlloc (physicalPageAlloc s.pmm 2).2 2).2 }

/-! ## What calls should do -/

/-- Slot `i` is inside the array as it is allocated. -/
def SlotInside (s : ThreadState) (task : ℤ) (i : ℕ) : Prop :=
  sizeofThread * (i + 1) ≤ 32 * (ROUNDUP (s.arrayBytes task) 32).toNat

/-- Each of the threads `made` has a slot of its own in the array. -/
def ThreadsHeld (s : ThreadState) (task : ℤ) (made : List Thread) : Prop :=
  ∃ slots : List ℕ, slots.Nodup ∧
    List.Forall₂ (fun i thread => SlotInside s task i ∧ s.thread task i = thread) slots made

/-- The slots that the search looks at are in the array. -/
def ReadsInside (s : ThreadState) (task : ℤ) : Prop :=
  ∀ i, i ≤ threadStop (threadRoom s task) task →
    i < ((threadRoom s task).sched.tasks task).maxNumberOfThreads.toNat →
    SlotInside (threadRoom s task) task i

/-- The threads that have been made are there before and after each call of the sequence, and no
call looks outside the array. -/
def ThreadsKept (taskIndex : UInt64) : ThreadState → List Thread → List ThreadCall → Prop
  | s, made, [] => ThreadsHeld s taskIndex.toNat made
  | s, made, c :: cs => ThreadsHeld s taskIndex.toNat made ∧ ReadsInside s taskIndex.toNat ∧
      ThreadsKept taskIndex (createThread s taskIndex c)
        (made ++ [newThread s taskIndex.toNat c]) cs

/-- `createNewTask` has just run, and the memory it has got for the threads is zero. -/
structure ZeroedThreads (s : ThreadState) (task : ℤ) : Prop where
  zero : ∀ k, k < sizeofThread * 10 → s.mem ((s.sched.tasks task).threads + UInt64.ofNat k) = 0
  bytes : s.arrayBytes task = UInt64.ofNat (sizeofThread * 10)
  count : (s.sched.tasks task).numberOfThreads = 0
  slots : (s.sched.tasks task).maxNumberOfThreads = 10

/-- At most slot 0 of the ten slots is taken, and fewer than nine calls have been made. -/
structure OnlyFirst (s : ThreadState) (task : ℤ) (n : ℕ) : Prop where
  bytes : s.arrayBytes task = UInt64.ofNat (sizeofThread * 10)
  count : (s.sched.tasks task).numberOfThreads.toNat = n
  slots : (s.sched.tasks task).maxNumberOfThreads = 10
  free : ∀ i : ℕ, 0 < i → i < 10 → (s.thread task i).entryPoint = 0

variable {s : ThreadState} {task : ℤ} {taskIndex : UInt64} {c : ThreadCall} {n i : ℕ}
  {made : List Thread}

/-- A slot of zeroed memory is free. -/
lemma ZeroedThreads.entryPoint_eq (h : ZeroedThreads s task) (hi : i < 10) :
    (s.thread task i).entryPoint = 0 := by
  refine load64_zero fun j hj => ?_
  have haddr : element (s.sched.tasks task).threads sizeofThread i + 200 + UInt64.ofNat j
      = (s.sched.tasks task).threads + UInt64.ofNat (sizeofThread * i + 200 + j) := by
    rw [element_natCast, UInt64.ofNat_add, UInt64.ofNat_add, ← UInt64.add_assoc,
      ← UInt64.add_assoc]
    rfl
  rw [haddr]
  refine h.zero _ ?_
  rw [sizeofThread]
  omega

lemma ZeroedThreads.onlyFirst (h : ZeroedThreads s task) : OnlyFirst s task 0 :=
  ⟨h.bytes, by rw [h.count]; rfl, h.slots, fun _ _ hi => h.entryPoint_eq hi⟩

/-- Counting a thread changes nothing else. -/
@[simp] lemma thread_countThread (s : ThreadState) (task : ℤ) (i : ℕ) :
    (countThread s task).thread task i = s.thread task i := by
  simp [ThreadState.thread, countThread]

lemma OnlyFirst.threadRoom_eq (h : OnlyFirst s task n) (hn : n + 1 < 10) :
    threadRoom s task = countThread s task := by
  have hcount : ((countThread s task).sched.tasks task).numberOfThreads % 10 ≠ 0 := by
    have hten : (10 : UInt64).toNat = 10 := rfl
    have hsucc : ((countThread s task).sched.tasks task).numberOfThreads.toNat = n + 1 := by
      simp only [countThread, Function.update_self]
      rw [UInt64.toNat_add, h.count, UInt64.toNat_one]
      omega
    intro hzero
    have hmod := congrArg UInt64.toNat hzero
    rw [UInt64.toNat_mod, hsucc, hten, UInt64.toNat_zero] at hmod
    omega
  rw [threadRoom, if_neg hcount]

/-- **The search ends at slot 0**, whether it is taken or not. -/
lemma OnlyFirst.threadIndex_eq (h : OnlyFirst s task n) :
    threadIndex (countThread s task) task = 0 := by
  rw [threadIndex]
  split_ifs with hlt
  · rw [threadStop] at hlt ⊢
    rcases stopIndex_cases (fun i => ((countThread s task).thread task i).entryPoint != 0)
      ((countThread s task).sched.tasks task).maxNumberOfThreads.toNat with ⟨_, hp, _⟩ | ⟨heq, _⟩
    · by_contra hpos
      have hslots : ((countThread s task).sched.tasks task).maxNumberOfThreads.toNat = 10 := by
        simp only [countThread, Function.update_self, h.slots]
        rfl
      rw [thread_countThread, h.free _ (by omega) (by omega)] at hp
      exact absurd hp (by decide)
    · omega
  · rfl

/-- What a call comes to. -/
lemma OnlyFirst.createThread_eq (h : OnlyFirst s taskIndex.toNat n) (hn : n + 1 < 10)
    (hvalid : taskIndex < s.sched.numberOfTasks) (c : ThreadCall) :
    createThread s taskIndex c = { countThread s taskIndex.toNat with
      mem := storeWords s.mem
        (element (s.sched.tasks taskIndex.toNat).threads sizeofThread (0 : ℕ))
        (newThread s taskIndex.toNat c).words
      pmm := (physicalPageAlloc (physicalPageAlloc s.pmm 2).2 2).2 } := by
  have hthreads : ((countThread s taskIndex.toNat).sched.tasks taskIndex.toNat).threads
      = (s.sched.tasks taskIndex.toNat).threads := by
    simp only [countThread, Function.update_self]
  rw [createThread, if_neg (UInt64.not_le.mpr hvalid)]
  simp only [h.threadRoom_eq hn, h.threadIndex_eq, hthreads]
  rfl

/-- **A call puts its thread into slot 0.** -/
lemma OnlyFirst.step (h : OnlyFirst s taskIndex.toNat n) (hn : n + 1 < 10)
    (hvalid : taskIndex < s.sched.numberOfTasks) (c : ThreadCall) :
    OnlyFirst (createThread s taskIndex c) taskIndex.toNat (n + 1) ∧
      (createThread s taskIndex c).thread taskIndex.toNat 0 = newThread s taskIndex.toNat c := by
  have hlen : 8 * (newThread s taskIndex.toNat c).words.length = sizeofThread :=
    length_threadWords _
  have hsize : sizeofThread = 216 := rfl
  rw [h.createThread_eq hn hvalid c]
  constructor
  · refine ⟨h.bytes, ?_, ?_, fun i hpos hi => ?_⟩
    · simp only [countThread, Function.update_self]
      rw [UInt64.toNat_add, h.count, UInt64.toNat_one]
      omega
    · simp only [countThread, Function.update_self]
      exact h.slots
    · rw [← h.free i hpos hi]
      simp only [ThreadState.thread, countThread, Function.update_self]
      refine congrArg Thread.entryPoint (loadThread_congr fun k hk => storeWords_outside ?_)
      rw [hlen]
      exact element_apart (n := 10) (by omega) (by simp) (by rw [abs_le]; omega)
        (by rw [hsize]; omega) hk
  · simp only [ThreadState.thread, countThread, Function.update_self]
    exact loadThread_of_holds (holds_storeWords (by omega))

/-! ## Sequences of calls -/

lemma threadsHeld_nil (s : ThreadState) (task : ℤ) : ThreadsHeld s task [] :=
  ⟨[], List.nodup_nil, List.Forall₂.nil⟩

/-- The ten slots are in the array, and no other slot is. -/
lemma OnlyFirst.slotInside_iff (h : OnlyFirst s task n) : SlotInside s task i ↔ i < 10 := by
  have hroom : 32 * (ROUNDUP (UInt64.ofNat (sizeofThread * 10)) 32).toNat = 2176 := by decide
  rw [SlotInside, h.bytes, hroom, sizeofThread]
  omega

/-- One thread can be in slot 0. -/
lemma OnlyFirst.threadsHeld_one (h : OnlyFirst s task n) :
    ThreadsHeld s task [s.thread task 0] :=
  ⟨[0], List.nodup_singleton 0,
    List.Forall₂.cons ⟨h.slotInside_iff.mpr (by omega), rfl⟩ List.Forall₂.nil⟩

/-- Two cannot. -/
lemma OnlyFirst.not_threadsHeld_two (h : OnlyFirst s task n) {a b : Thread}
    (ha : a.entryPoint ≠ 0) (hb : b.entryPoint ≠ 0) : ¬ThreadsHeld s task [a, b] := by
  rintro ⟨slots, hnodup, hheld⟩
  have hzero : ∀ {i : ℕ} {thread : Thread}, thread.entryPoint ≠ 0 →
      SlotInside s task i ∧ s.thread task i = thread → i = 0 := by
    rintro i _ hentry ⟨hinside, rfl⟩
    by_contra hpos
    exact hentry (h.free i (by omega) (h.slotInside_iff.mp hinside))
  cases hheld with
  | cons hfirst hrest =>
      cases hrest with
      | cons hsecond hnil =>
          rw [hzero ha hfirst, hzero hb hsecond] at hnodup
          simp at hnodup

/-- The search looks at the ten slots at most. -/
lemma OnlyFirst.readsInside (h : OnlyFirst s task n) (hn : n + 1 < 10) : ReadsInside s task := by
  intro i _ hi
  rw [h.threadRoom_eq hn] at hi ⊢
  have hslots : ((countThread s task).sched.tasks task).maxNumberOfThreads.toNat = 10 := by
    simp only [countThread, Function.update_self, h.slots]
    rfl
  exact h.slotInside_iff.mpr (by omega)

lemma threadsKept_held {cs : List ThreadCall} (h : ThreadsKept taskIndex s made cs) :
    ThreadsHeld s taskIndex.toNat made := by
  cases cs with
  | nil => exact h
  | cons c cs => exact h.1

/-- **Threads are kept exactly as long as there is only one.** -/
theorem threadsKept_iff (s : ThreadState) (taskIndex : UInt64)
    (hvalid : taskIndex < s.sched.numberOfTasks) (h : ZeroedThreads s taskIndex.toNat)
    (cs : List ThreadCall) (hentry : ∀ c ∈ cs, c.entryPoint ≠ 0) :
    ThreadsKept taskIndex s [] cs ↔ cs.length ≤ 1 := by
  have hfirst := h.onlyFirst
  have hheld := threadsHeld_nil s taskIndex.toNat
  rcases cs with _ | ⟨c, cs⟩
  · exact ⟨fun _ => by simp, fun _ => hheld⟩
  obtain ⟨hnext, hslot⟩ := hfirst.step (by omega) hvalid c
  have hone := hnext.threadsHeld_one
  rw [hslot] at hone
  rcases cs with _ | ⟨c', cs⟩
  · exact ⟨fun _ => by simp, fun _ => ⟨hheld, hfirst.readsInside (by omega), hone⟩⟩
  · have hvalid' : taskIndex < (createThread s taskIndex c).sched.numberOfTasks := by
      rw [hfirst.createThread_eq (by omega) hvalid c]
      exact hvalid
    obtain ⟨hlast, _⟩ := hnext.step (by omega) hvalid' c'
    refine ⟨fun hkept => ?_, fun hlen => ?_⟩
    · exact absurd (threadsKept_held hkept.2.2.2.2)
        (hlast.not_threadsHeld_two (hentry c (by simp)) (hentry c' (by simp)))
    · simp at hlen

/-- What `createNewTask` gets from the heap for the threads of the first task. -/
def plainThreads : Option UInt64 × Heap :=
  kmalloc plainTasks.2 (UInt64.ofNat (sizeofThread * 10))

/-- One task, without threads so far, in memory that is all zero. -/
def oneTask : ThreadState :=
  { sched :=
      { tasks := fun _ => { (default : Task) with
          status := WAITING_TO_START, threads := plainThreads.1.getD 0, maxNumberOfThreads := 10 }
        cpuInfo := fun _ => ⟨0, -1⟩
        numberOfTasks := 1
        maxNumberOfTasks := 10
        lock := false }
    mem := fun _ => 0
    heap := plainThreads.2
    pmm := plainCall.pmm
    arrayBytes := fun _ => UInt64.ofNat (sizeofThread * 10) }

lemma zeroedThreads_oneTask : ZeroedThreads oneTask (0 : UInt64).toNat where
  zero _ _ := rfl
  bytes := rfl
  count := rfl
  slots := rfl

/-- The first thread. -/
theorem threadsKept_oneThread : ThreadsKept 0 oneTask [] [⟨0x8000, default⟩] :=
  (threadsKept_iff oneTask 0 (by decide) zeroedThreads_oneTask _ (by simp)).mpr (by simp)

/-- The second thread takes the place of the first. -/
theorem threadsKept_twoThreads :
    ¬ThreadsKept 0 oneTask [] [⟨0x8000, default⟩, ⟨0x9000, default⟩] := by
  have hfirst := zeroedThreads_oneTask.onlyFirst
  obtain ⟨hnext, _⟩ := hfirst.step (by omega) (by decide) ⟨0x8000, default⟩
  have hvalid : (0 : UInt64) < (createThread oneTask 0 ⟨0x8000, default⟩).sched.numberOfTasks := by
    rw [hfirst.createThread_eq (by omega) (by decide)]
    decide
  obtain ⟨hlast, _⟩ := hnext.step (by omega) hvalid ⟨0x9000, default⟩
  intro hkept
  refine hlast.not_threadsHeld_two ?_ ?_ (threadsKept_held hkept.2.2.2.2) <;>
    rw [entryPoint_newThread] <;> decide

end Seaweed
