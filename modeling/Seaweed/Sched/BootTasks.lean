import Seaweed.Sched.TaskRuns

/-!
# Timer interrupts while tasks are being created (`bootMain` in `kernel/kernelMain.c`)

`bootMain` enables interrupts, starts the timer and then creates its tasks, one call after the
other.  A core that runs no task has nobody whose registers `schedulerMain` could save, so what it
was doing is gone when it is switched to a task.  For the other cores that is a loop without end;
for core 0 it may be `bootMain`, with calls left to make.

* `BootState`, `BootStep` — the calls and the timer interrupts, with what each core is doing and
  whose registers each task holds.
* `Placed` — where every context is, as long as `bootMain` is not interrupted at the wrong time.
* **`contexts_kept`** — then no context with work to do is lost, and a timer interrupt keeps the
  context it interrupts exactly if it does not find `bootMain` with calls left and a task to run.
-/

namespace Seaweed

open FirstFit Words Transition

/-! ## Steps -/

/-- What a core is doing: `bootMain`, the loop of another core, or a task. -/
inductive Context
  | boot
  | idle
  | task (i : ℕ)
  deriving DecidableEq

/-- A call of `createNewTask`. -/
structure BootCall where
  ss : UInt16
  rsp : UInt64
  cs : UInt16
  entryPoint : UInt64
  r : TaskResources

/-- The scheduler, the calls that `bootMain` has left, what each core is doing, and whose registers
are in `tasks[i].regs`. -/
structure BootState where
  log : SchedState
  calls : List BootCall
  running : UInt64 → Context
  saved : ℤ → Option Context

inductive BootEvent
  | create
  | tick (regs : Regs)

/-- What is stored where, when `schedulerMain` hands over to `d`. -/
def BootState.saveContext (s : BootState) (d : Dispatch) : ℤ → Option Context :=
  if d.lastTask = -1 then s.saved
  else Function.update s.saved d.lastTask (some (s.running d.core))

/-- `startTask` begins the task, and `switchTask` continues what is stored with it. -/
def BootState.resumed (s : BootState) (d : Dispatch) : Context :=
  match d.resume with
  | .startTask .. => .task d.nextTask.toNat
  | .switchTask .. => (s.saveContext d d.nextTask).getD .idle

/-- After an interrupt that leaves the scheduler in `sched'`. -/
def BootState.interrupted (s : BootState) (sched' : Sched) (d : Option Dispatch) : BootState :=
  match d with
  | none => { s with log := s.log.note sched' none }
  | some d =>
      { log := s.log.note sched' (some d)
        calls := s.calls
        running := Function.update s.running d.core (s.resumed d)
        saved := s.saveContext d }

/-- `bootMain` makes its next call, or a core has a timer interrupt. -/
inductive BootStep : BootState → BootEvent → BootState → Prop
  | create {s : BootState} {call : BootCall} {rest : List BootCall} (hboot : s.running 0 = .boot)
      (hcalls : s.calls = call :: rest) :
      BootStep s .create { s with
        log := s.log.note
          (createNewTask s.log.sched call.ss call.rsp call.cs call.entryPoint call.r) none
        calls := rest }
  | tick {s : BootState} {regs : Regs} {sched' : Sched} {d : Option Dispatch}
      (hcall : schedulerMain s.log.sched regs = (sched', d)) :
      BootStep s (.tick regs) (s.interrupted sched' d)

/-- No call has been made: core 0 runs `bootMain`, and the other cores loop. -/
structure BootState.Initial (s : BootState) : Prop where
  log : s.log.Initial
  running : ∀ c, s.running c = if c = 0 then .boot else .idle
  saved : ∀ i, s.saved i = none

/-! ## What should be kept -/

/-- `bootMain` has work as long as there are calls to make; a task always has. -/
def BootState.HasWork (s : BootState) : Context → Prop
  | .boot => s.calls ≠ []
  | .idle => False
  | .task _ => True

/-- A core is in the context, or it is stored with a task that waits. -/
def BootState.Available (s : BootState) (context : Context) : Prop :=
  (∃ c, s.running c = context) ∨ ∃ i : ℕ, i < s.log.sched.numberOfTasks.toNat ∧
    s.saved i = some context ∧ (s.log.sched.tasks i).status = WAITING

/-- `bootMain` and the tasks can go on. -/
structure ContextsAvailable (s : BootState) : Prop where
  boot : s.calls ≠ [] → s.Available .boot
  tasks : ∀ i : ℕ, i < s.log.sched.numberOfTasks.toNat →
    (s.log.sched.tasks i).status = WAITING_TO_START ∨ s.Available (.task i)

/-- An interrupt that switches the core away from work stores its registers with a task that then
waits. -/
def KeepsContext (s : BootState) (regs : Regs) : Prop :=
  ∀ sched' d, schedulerMain s.log.sched regs = (sched', some d) → s.HasWork (s.running regs.core) →
    ∃ i : ℕ, (s.interrupted sched' (some d)).saved i = some (s.running regs.core) ∧
      (sched'.tasks i).regs = regs ∧ (sched'.tasks i).status = WAITING

/-- No task waits, or waits to be started. -/
def NobodyWaits (s : Sched) : Prop :=
  ∀ j : ℕ, j < s.numberOfTasks.toNat →
    (s.tasks j).status ≠ WAITING_TO_START ∧ (s.tasks j).status ≠ WAITING

/-- If the core is in `bootMain`, and there are calls to make, nobody waits. -/
def TickOk (s : BootState) (core : UInt64) : Prop :=
  s.running core = .boot → s.calls ≠ [] → NobodyWaits s.log.sched

/-- A step with which nothing is lost: an interrupt as above, or a call that finds a free slot, on a
machine whose physical memory fits into the higher half. -/
def BootEvent.Ok (s : BootState) : BootEvent → Prop
  | .create => findFreeIndex s.log.sched ≠ -1 ∧
      ∀ call ∈ s.calls.head?, call.r.pmm.totalDetectedMemory.toNat < 2 ^ 47
  | .tick regs => TickOk s regs.core

def UndisturbedStep (s : BootState) (e : BootEvent) (s' : BootState) : Prop :=
  BootStep s e s' ∧ e.Ok s

/-! ## Where the contexts are -/

/-- A core that runs a task is in its context, the others do what they have always done, and a task
that waits holds its own registers. -/
structure Placed (s : BootState) (q : RunQueue UInt64) : Prop where
  represents : Represents s.log q
  onTask : ∀ c i, q.running c = some i → s.running c = .task i
  offTask : ∀ c, q.running c = none → s.running c = if c = 0 then .boot else .idle
  waits : ∀ i ∈ q.queue, s.saved i = some (.task i)
  onlyTasks : ∀ j, s.saved j ≠ some .boot
  booting : s.calls ≠ [] → q.running 0 = none

variable {s s' : BootState} {q : RunQueue UInt64} {regs : Regs} {i k n started : ℕ}
  {waiting : List ℕ} {es : List BootEvent}

lemma placed_initial (h : s.Initial) : Placed s (RunQueue.empty UInt64) where
  represents := represents_initial h.log
  onTask := fun c i hi => nomatch hi
  offTask := fun c _ => h.running c
  waits := fun i hi => nomatch hi
  onlyTasks := fun j => by simp [h.saved j]
  booting := fun _ => rfl

/-- A core is in `bootMain` only if it is core 0 and runs no task. -/
lemma Placed.boot_iff (h : Placed s q) {c : UInt64} :
    s.running c = .boot ↔ c = 0 ∧ q.running c = none := by
  cases hc : q.running c with
  | some i => simp [h.onTask c i hc]
  | none =>
      rw [h.offTask c hc]
      split_ifs with h0 <;> simp [h0]

/-- The scheduler finds a task exactly if somebody waits. -/
lemma Placed.nobodyWaits_iff (h : Placed s q) (regs : Regs) :
    NobodyWaits s.log.sched ↔ (schedulerMain s.log.sched regs).2 = none := by
  have hrep := h.represents
  rcases hrep.schedulerMain_queue regs with ⟨hlt, hmain⟩ | ⟨_, n, rest, hq, hmain⟩ |
    ⟨hall, hq, hmain⟩
  · rw [hmain]
    refine ⟨fun hnobody => absurd (hrep.fresh q.started (le_refl _) hlt)
      (hnobody q.started (by rw [hrep.created]; exact hlt)).1, fun hnone => nomatch hnone⟩
  · have hmem : n ∈ q.queue := hq ▸ List.mem_cons_self
    rw [hmain]
    refine ⟨fun hnobody => absurd (hrep.waiting n hmem)
      (hnobody n (by rw [hrep.created]; exact q.queue_lt_created hmem)).2,
      fun hnone => nomatch hnone⟩
  · rw [hmain]
    refine ⟨fun _ => rfl, fun _ j hj => ?_⟩
    rw [hrep.created] at hj
    rw [Ne, Ne, hrep.unstarted_iff hj, hrep.waiting_iff hj, hq]
    exact ⟨by omega, by simp⟩

/-- What is stored by a switch: the context of the task that the core was running, if there was
one. -/
lemma Placed.saveContext_eq (h : Placed s q) (next : ℤ) (resume : Resume) (j : ℤ) :
    s.saveContext (dispatchTo s.log.sched regs next resume) j =
      match q.running regs.core with
      | none => s.saved j
      | some i => Function.update s.saved i (some (.task i)) j := by
  have hlast : (dispatchTo s.log.sched regs next resume).lastTask
      = currentIndex (q.running regs.core) := h.represents.current regs.core
  have hcore : (dispatchTo s.log.sched regs next resume).core = regs.core := rfl
  rw [BootState.saveContext, hlast, hcore]
  cases hrun : q.running regs.core with
  | none => rw [currentIndex, if_pos rfl]
  | some i =>
      have hi : (i : ℤ) ≠ -1 := by omega
      rw [currentIndex, if_neg hi, h.onTask _ i hrun]

/-- What waits keeps its context. -/
lemma Placed.saveContext_queue (h : Placed s q) (hi : i ∈ q.queue) (next : ℤ) (resume : Resume) :
    s.saveContext (dispatchTo s.log.sched regs next resume) i = some (.task i) := by
  have hold := h.waits i hi
  rw [h.saveContext_eq]
  cases hrun : q.running regs.core with
  | none => exact hold
  | some j =>
      have hne : (i : ℤ) ≠ j := by
        intro heq
        obtain rfl : i = j := by exact_mod_cast heq
        exact q.apart i hi _ hrun
      simp only [Function.update_of_ne hne, hold]

/-- The task that was running gets one. -/
lemma Placed.saveContext_running (h : Placed s q) (hrun : q.running regs.core = some i) (next : ℤ)
    (resume : Resume) :
    s.saveContext (dispatchTo s.log.sched regs next resume) i = some (.task i) := by
  rw [h.saveContext_eq]
  simp only [hrun, Function.update_self]

/-- **A switch that does not interrupt `bootMain` at work.** -/
lemma Placed.switch (h : Placed s q) (hc : q.Candidate n waiting started)
    (hsub : waiting.Sublist q.queue) {sched' : Sched} {resume : Resume}
    (hrep : Represents (s.log.note sched' (some (dispatchTo s.log.sched regs n resume)))
      (q.switchTo regs.core hc))
    (hresumed : s.resumed (dispatchTo s.log.sched regs n resume) = .task n)
    (hboot : s.calls ≠ [] → s.running regs.core ≠ .boot) :
    Placed (s.interrupted sched' (some (dispatchTo s.log.sched regs n resume)))
      (q.switchTo regs.core hc) where
  represents := hrep
  onTask := by
    intro c i hi
    show Function.update s.running regs.core _ c = .task i
    rcases q.switchTo_running hc hi with ⟨rfl, rfl⟩ | ⟨hne, hrun⟩
    · rw [Function.update_self, hresumed]
    · rw [Function.update_of_ne hne, h.onTask c i hrun]
  offTask := by
    intro c hnone
    change Function.update q.running regs.core (some n) c = none at hnone
    show Function.update s.running regs.core _ c = _
    rcases eq_or_ne c regs.core with rfl | hne
    · rw [Function.update_self] at hnone
      cases hnone
    · rw [Function.update_of_ne hne] at hnone ⊢
      exact h.offTask c hnone
  waits := by
    intro i hi
    rcases List.mem_append.mp hi with hi | hi
    · exact h.saveContext_queue (hsub.subset hi) n resume
    · exact h.saveContext_running (Option.mem_toList.mp hi) n resume
  onlyTasks := by
    intro j
    show s.saveContext _ j ≠ _
    rw [h.saveContext_eq]
    cases hrun : q.running regs.core with
    | none => exact h.onlyTasks j
    | some i =>
        rcases eq_or_ne j i with rfl | hne
        · simp only [Function.update_self, ne_eq, Option.some_inj, reduceCtorEq, not_false_eq_true]
        · simp only [Function.update_of_ne hne]
          exact h.onlyTasks j
  booting := by
    intro hcalls
    have hzero := h.booting hcalls
    have hne : (0 : UInt64) ≠ regs.core := by
      rintro heq
      exact hboot hcalls (h.boot_iff.mpr ⟨heq.symm, heq ▸ hzero⟩)
    show Function.update q.running regs.core (some n) 0 = none
    rw [Function.update_of_ne hne, hzero]

/-- A call of `bootMain`. -/
lemma Placed.create (h : Placed s q) {call : BootCall} {rest : List BootCall}
    (hboot : s.running 0 = .boot) (hfree : findFreeIndex s.log.sched ≠ -1)
    (hmem : call.r.pmm.totalDetectedMemory.toNat < 2 ^ 47) :
    Placed { s with
      log := s.log.note
        (createNewTask s.log.sched call.ss call.rsp call.cs call.entryPoint call.r) none
      calls := rest } q.create where
  represents := h.represents.create hfree hmem _ _ _ _
  onTask := h.onTask
  offTask := h.offTask
  waits := h.waits
  onlyTasks := h.onlyTasks
  booting := fun _ => (h.boot_iff.mp hboot).2

/-- **A step.** -/
theorem placed_step {e : BootEvent} (h : Placed s q) (hstep : UndisturbedStep s e s') :
    ∃ q', Placed s' q' := by
  obtain ⟨hstep, hok⟩ := hstep
  cases hstep with
  | create hboot hcalls =>
      obtain ⟨hfree, hmem⟩ := hok
      rw [hcalls] at hmem
      exact ⟨q.create, h.create hboot hfree (hmem _ rfl)⟩
  | @tick regs sched' d hcall =>
      have hrep := h.represents
      have hboot : ∀ d', d = some d' → s.calls ≠ [] → s.running regs.core ≠ .boot := by
        rintro d' rfl hcalls hboot
        have hnone := (h.nobodyWaits_iff regs).mp (hok hboot hcalls)
        rw [hcall] at hnone
        cases hnone
      rcases hrep.schedulerMain_queue regs with ⟨hlt, hmain⟩ | ⟨_, n, rest, hq, hmain⟩ |
        ⟨_, hq, hmain⟩ <;> obtain ⟨rfl, rfl⟩ := Prod.mk.inj (hmain.symm.trans hcall)
      · exact ⟨_, h.switch (q.candidate_start hlt) (List.Sublist.refl _) (hrep.start hlt) rfl
          (hboot _ rfl)⟩
      · have hmem : n ∈ q.queue := hq ▸ List.mem_cons_self
        have hresumed : s.resumed (dispatchTo s.log.sched regs n (s.log.sched.tasks n).switch)
            = .task n := by
          rw [BootState.resumed, Task.switch]
          exact congrArg (Option.getD · .idle) (h.saveContext_queue hmem n _)
        exact ⟨_, h.switch (q.candidate_resume hq) (hq ▸ List.sublist_cons_self n rest)
          (hrep.resume hq) hresumed (hboot _ rfl)⟩
      · exact ⟨q, hrep.idle hq, h.onTask, h.offTask, h.waits, h.onlyTasks, h.booting⟩

/-- Every run without such an interrupt keeps the contexts placed. -/
lemma placed_run {s₀ : BootState} (h0 : s₀.Initial) (hrun : Run UndisturbedStep s₀ es s) :
    ∃ q, Placed s q :=
  hrun.invariant (I := fun s => ∃ q, Placed s q) (fun _ _ _ ⟨_, h⟩ hstep => placed_step h hstep)
    ⟨_, placed_initial h0⟩

/-! ## Contexts are kept -/

/-- Every context with work is somewhere. -/
lemma Placed.available (h : Placed s q) : ContextsAvailable s where
  boot := fun hcalls => Or.inl ⟨0, h.boot_iff.mpr ⟨rfl, h.booting hcalls⟩⟩
  tasks := by
    intro i hi
    have hrep := h.represents
    rw [hrep.created] at hi
    rcases hrep.task_cases hi with ⟨hmem, hwait⟩ | ⟨⟨c, hrun⟩, _⟩ | ⟨_, hfresh⟩
    · exact Or.inr (Or.inr ⟨i, by rw [hrep.created]; exact hi, h.waits i hmem, hwait⟩)
    · exact Or.inr (Or.inl ⟨c, h.onTask c i hrun⟩)
    · exact Or.inl hfresh

/-- A task that is switched away from waits with its registers. -/
lemma Placed.switch_keeps (h : Placed s q) (hc : q.Candidate n waiting started)
    (hrun : q.running regs.core = some i) (k : ℕ) (resume : Resume) :
    s.saveContext (dispatchTo s.log.sched regs n resume) i = some (s.running regs.core) ∧
      ((switched s.log.sched regs (passOver s.log.sched.tasks k) n).tasks i).regs = regs ∧
      ((switched s.log.sched regs (passOver s.log.sched.tasks k) n).tasks i).status = WAITING := by
  have htask := h.represents.switched_preempted (k := k) hrun (hc.ne_of_running hrun)
  refine ⟨?_, by rw [htask], by rw [htask]⟩
  rw [h.saveContext_running hrun, h.onTask _ i hrun]

/-- The other way round, nothing is stored when `bootMain` is interrupted. -/
lemma Placed.saveContext_boot (h : Placed s q) (hboot : s.running regs.core = .boot) {d : Dispatch}
    (hd : (schedulerMain s.log.sched regs).2 = some d) : s.saveContext d = s.saved := by
  have hrep := h.represents
  have hlast : d.lastTask = -1 := by
    have hnone := hrep.current_eq_neg_iff.mpr (h.boot_iff.mp hboot).2
    rcases hrep.schedulerMain_queue regs with ⟨_, hmain⟩ | ⟨_, n, rest, _, hmain⟩ |
      ⟨_, _, hmain⟩ <;> rw [hmain] at hd
    · obtain rfl := Option.some.inj hd
      exact hnone
    · obtain rfl := Option.some.inj hd
      exact hnone
    · cases hd
  rw [BootState.saveContext, if_pos hlast]

/-- **An interrupt keeps the context it interrupts, unless it takes the core from `bootMain`.** -/
lemma Placed.keepsContext_iff (h : Placed s q) (regs : Regs) :
    KeepsContext s regs ↔ TickOk s regs.core := by
  have hrep := h.represents
  constructor
  · intro hkeeps hboot hcalls
    rw [h.nobodyWaits_iff regs]
    by_contra hsome
    obtain ⟨d, hd⟩ := Option.ne_none_iff_exists'.mp hsome
    have hwork : s.HasWork (s.running regs.core) := by rw [hboot]; exact hcalls
    obtain ⟨i, hi, _⟩ := hkeeps (schedulerMain s.log.sched regs).1 d (Prod.ext rfl hd) hwork
    rw [hboot, BootState.interrupted, h.saveContext_boot hboot hd] at hi
    exact h.onlyTasks i hi
  · intro hok sched' d hcall hwork
    have hnot : s.running regs.core ≠ .boot := by
      intro hboot
      have hnone := (h.nobodyWaits_iff regs).mp (hok hboot (by rw [hboot] at hwork; exact hwork))
      rw [hcall] at hnone
      cases hnone
    cases hrun : q.running regs.core with
    | none =>
        have hoff := h.offTask regs.core hrun
        split_ifs at hoff
        · exact absurd hoff hnot
        · rw [hoff] at hwork
          exact absurd hwork id
    | some i =>
        refine ⟨i, ?_⟩
        rcases hrep.schedulerMain_queue regs with ⟨hlt, hmain⟩ | ⟨_, n, rest, hq, hmain⟩ |
          ⟨_, _, hmain⟩ <;> obtain ⟨rfl, hd⟩ := Prod.mk.inj (hmain.symm.trans hcall)
        · obtain rfl := Option.some.inj hd
          exact h.switch_keeps (q.candidate_start hlt) hrun _ _
        · obtain rfl := Option.some.inj hd
          exact h.switch_keeps (q.candidate_resume hq) hrun _ _
        · cases hd

/-- **`bootMain` is lost** with an interrupt that takes the core from it. -/
lemma Placed.boot_lost (h : Placed s q) (hboot : s.running regs.core = .boot) {sched' : Sched}
    {d : Dispatch} (hcall : schedulerMain s.log.sched regs = (sched', some d)) :
    ¬(s.interrupted sched' (some d)).Available .boot := by
  have hd : (schedulerMain s.log.sched regs).2 = some d := by rw [hcall]
  have hsaved := h.saveContext_boot hboot hd
  rintro (⟨c, hc⟩ | ⟨i, _, hi, _⟩)
  · change Function.update s.running d.core (s.resumed d) c = .boot at hc
    rw [schedulerMain_core hd] at hc
    rcases eq_or_ne c regs.core with rfl | hne
    · rw [Function.update_self, BootState.resumed, hsaved] at hc
      split at hc
      · cases hc
      · cases hstored : s.saved d.nextTask with
        | none =>
            rw [hstored] at hc
            cases hc
        | some context =>
            rw [hstored, Option.getD_some] at hc
            exact h.onlyTasks _ (hstored.trans (congrArg some hc))
    · rw [Function.update_of_ne hne] at hc
      exact hne ((h.boot_iff.mp hc).1.trans (h.boot_iff.mp hboot).1.symm)
  · rw [BootState.interrupted, hsaved] at hi
    exact h.onlyTasks i hi

/-- **No context is lost** in a run in which no timer interrupt finds `bootMain` with calls left and
a task to run; and in every state it reaches, a timer interrupt keeps what it interrupts exactly if
it does not do that either. -/
theorem contexts_kept {s₀ : BootState} (h0 : s₀.Initial) (hrun : Run UndisturbedStep s₀ es s) :
    ContextsAvailable s ∧ ∀ regs, KeepsContext s regs ↔ TickOk s regs.core := by
  obtain ⟨q, h⟩ := placed_run h0 hrun
  exact ⟨h.available, h.keepsContext_iff⟩

/-! ## Two calls and an interrupt -/

/-- A call on a machine with 32 MiB. -/
def plainBootCall : BootCall where
  ss := 0x23
  rsp := 0x10000
  cs := 0x1b
  entryPoint := 0x8000
  r := ⟨1, 0, ⟨fun _ => 0, 0x2000000, false⟩, default, fun _ => default⟩

/-- `bootMain` with two calls to make. -/
def twoCalls : BootState where
  log := plainSched
  calls := [plainBootCall, plainBootCall]
  running := fun c => if c = 0 then .boot else .idle
  saved := fun _ => none

lemma twoCalls_initial : twoCalls.Initial := ⟨plainSched_initial, fun _ => rfl, fun _ => rfl⟩

/-- `bootMain` after its first call. -/
def afterFirstCall : BootState :=
  { twoCalls with log := plainSched.createPlain, calls := [plainBootCall] }

lemma step_firstCall : UndisturbedStep twoCalls .create afterFirstCall := by
  refine ⟨@BootStep.create twoCalls plainBootCall [plainBootCall] rfl rfl, by decide +kernel, ?_⟩
  intro call hcall
  obtain rfl := Option.some.inj hcall
  decide

/-- The registers of a timer interrupt on core 1. -/
def coreOneRegs : Regs := { (default : Regs) with core := 1 }

/-- After a timer interrupt on core 1 that switches to the first task. -/
def coreOneSwitched : BootState :=
  afterFirstCall.interrupted (schedulerMain afterFirstCall.log.sched coreOneRegs).1
    (schedulerMain afterFirstCall.log.sched coreOneRegs).2

/-- The first task is taken by core 1, and the second call can be made. -/
theorem contexts_kept_coreOne : ContextsAvailable coreOneSwitched ∧
    ∀ regs, KeepsContext coreOneSwitched regs ↔ TickOk coreOneSwitched regs.core :=
  contexts_kept twoCalls_initial
    ((Run.single step_firstCall).snoc ⟨.tick rfl, fun hboot => absurd hboot (by decide)⟩)

/-- After a timer interrupt on core 0 that switches to the first task. -/
def coreZeroSwitched : BootState :=
  afterFirstCall.interrupted (schedulerMain afterFirstCall.log.sched default).1
    (schedulerMain afterFirstCall.log.sched default).2

/-- **After one call, a timer interrupt on core 0 takes the second call away.** -/
theorem contexts_kept_coreZero : (∃ es, Run BootStep twoCalls es coreZeroSwitched) ∧
    coreZeroSwitched.calls ≠ [] ∧ ¬coreZeroSwitched.Available .boot := by
  refine ⟨⟨_, (Run.single step_firstCall.1).snoc (.tick rfl)⟩, by decide +kernel, ?_⟩
  obtain ⟨q, h⟩ := placed_run twoCalls_initial (Run.single step_firstCall)
  have hsome : (schedulerMain afterFirstCall.log.sched default).2.isSome = true := by
    decide +kernel
  obtain ⟨d, hd⟩ := Option.isSome_iff_exists.mp hsome
  rw [coreZeroSwitched, hd]
  exact h.boot_lost rfl (Prod.ext rfl hd)

end Seaweed
