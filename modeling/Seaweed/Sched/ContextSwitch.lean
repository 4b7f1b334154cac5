import Seaweed.Int.Isr
import Seaweed.Sched.TaskRuns

/-!
# Context switches (`sched/scheduler.asm`)

What a timer interrupt pushes, what `schedulerMain` copies into the table of tasks, and what
`switchTask` pops again are one frame.  A run of timer interrupts keeps, next to the scheduler, the
processor state that each task had when it was last preempted.

* `startTask`, `switchTask` — the code; `startTask_enters`, `switchTask_restores` — what it loads.
* `SavedContexts` — what is in the table of a task that waits is the frame of that state.
* **`context_kept`** — so a task is resumed where it was, and so is interrupted code.
-/

namespace Seaweed

open FirstFit Words Transition Memory X86

/-! ## The code -/

def startTask : List Instr :=
  [.movSeg .ds .rdi, .movSeg .es .rdi, .movSeg .gs .rdi, .sti, .push .rdi, .push .rsi, .pushfq,
    .push .rdx, .push .rcx, .iretq]

def switchTask : List Instr :=
  [.movSeg .ds .rsi, .movSeg .es .rsi, .movSeg .gs .rsi, .sti, .movToRsp .rdi] ++
    (popall ++ [.addRsp 24, .iretq])

variable {m m' : Machine} {c : Cpu} {n e : UInt64}

/-- **`switchTask`** restores the processor whose frame `rdi` points to. -/
theorem switchTask_restores (h : Holds m.mem (m.cpu.gpr .rdi) (frame c n e).words) :
    (run m switchTask).cpu.Same c := by
  have hstack : (exec (exec (exec (exec (exec m (.movSeg .ds .rsi)) (.movSeg .es .rsi))
      (.movSeg .gs .rsi)) .sti) (.movToRsp .rdi)).Stack (frame c n e).words := by
    rw [Machine.Stack, rsp_movToRsp, mem_movToRsp, mem_sti, gpr_sti]
    simpa only [mem_movSeg, gpr_movSeg] using h
  obtain ⟨hiret, hgpr⟩ := stack_popall_skip hstack
  simp only [switchTask, run_append, run_cons, run_nil]
  exact iretq_restores hiret hgpr

/-- **`startTask`** enters the task that its arguments describe, with the flags of the caller and
interrupts enabled. -/
theorem startTask_enters (m : Machine) :
    (run m startTask).cpu.ss = (m.cpu.gpr .rdi).toUInt16 ∧
      (run m startTask).cpu.rsp = m.cpu.gpr .rsi ∧
      (run m startTask).cpu.rflags = m.cpu.rflags ||| IF ∧
      (run m startTask).cpu.cs = (m.cpu.gpr .rdx).toUInt16 ∧
      (run m startTask).cpu.rip = m.cpu.gpr .rcx := by
  let m₀ := run m [.movSeg .ds .rdi, .movSeg .es .rdi, .movSeg .gs .rdi, .sti]
  have hss := stack_push (show m₀.Stack [] from trivial) (by simp) (m.cpu.gpr .rdi)
  have hrsp := stack_push hss (by simp) (m.cpu.gpr .rsi)
  have hrflags := stack_push hrsp (by simp) (m.cpu.rflags ||| IF)
  have hcs := stack_push hrflags (by simp) (m.cpu.gpr .rdx)
  have hrip := stack_push hcs (by simp) (m.cpu.gpr .rcx)
  have hcpu := congrArg Machine.cpu (exec_iretq hrip)
  exact ⟨congrArg Cpu.ss hcpu, congrArg Cpu.rsp hcpu, congrArg Cpu.rflags hcpu,
    congrArg Cpu.cs hcpu, congrArg Cpu.rip hcpu⟩

/-! ## Runs of timer interrupts -/

/-- The vector of the timer. -/
def TIMER_VECTOR : UInt64 := 32

/-- `*regs` when `schedulerMain` is called, after the machine `m` has been interrupted. -/
def timerRegs (m : Machine) (g : Gate) : Regs :=
  loadRegs (interrupted m g TIMER_VECTOR none).mem
    ((interrupted m g TIMER_VECTOR none).cpu.gpr .rdi)

lemma timerRegs_eq (m : Machine) (g : Gate) : timerRegs m g = frame m.cpu TIMER_VECTOR 0 :=
  loadRegs_interrupted m g TIMER_VECTOR none

/-- The scheduler, and the processor as it was when a task was last preempted. -/
structure CpuState where
  log : SchedState
  preempted : ℕ → Option Cpu

inductive CpuEvent
  | create (ss : UInt16) (rsp : UInt64) (cs : UInt16) (entryPoint : UInt64) (r : TaskResources)
  | timer (m : Machine) (g : Gate) (d : Option Dispatch)

/-- One call of `createNewTask`, or a timer interrupt of the machine `m`, which is whatever the
core has come to.  When the scheduler switches, the task that the core was running is preempted. -/
inductive CpuStep : CpuState → CpuEvent → CpuState → Prop
  | create {s : CpuState} {ss : UInt16} {rsp : UInt64} {cs : UInt16} {entryPoint : UInt64}
      {r : TaskResources} {log' : SchedState}
      (hstep : SchedStep s.log (.create ss rsp cs entryPoint r) log') :
      CpuStep s (.create ss rsp cs entryPoint r) { s with log := log' }
  | timer {s : CpuState} {m : Machine} {g : Gate} {d : Option Dispatch} {log' : SchedState}
      (hstep : SchedStep s.log (.tick (timerRegs m g) d) log') :
      CpuStep s (.timer m g d)
        { log := log'
          preempted := fun i =>
            if d.any fun d => d.lastTask == (i : ℤ) then some m.cpu else s.preempted i }

/-! ## What the table holds -/

/-- The table holds the frame of every task that waits. -/
def SavedContexts (s : CpuState) (q : RunQueue UInt64) : Prop :=
  ∀ i ∈ q.queue, ∃ c, s.preempted i = some c ∧
    (s.log.sched.tasks i).regs = frame c TIMER_VECTOR 0

variable {s s' : CpuState} {q : RunQueue UInt64} {g : Gate} {i k started : ℕ} {waiting : List ℕ}
  {d : Option Dispatch} {log' : SchedState} {es : List CpuEvent}

/-- A switch of the core that was interrupted saves the frame of the task it was running, and does
not touch those that are there. -/
lemma SavedContexts.switch (hsaved : SavedContexts s q) (h : Represents s.log q) {next : ℕ}
    {resume : Resume} (hc : q.Candidate next waiting started) (hsub : waiting.Sublist q.queue)
    (hpass : ∀ i ∈ waiting, i < k) :
    SavedContexts
      { log := s.log.note (switched s.log.sched (timerRegs m g) (passOver s.log.sched.tasks k) next)
          (some (dispatchTo s.log.sched (timerRegs m g) next resume))
        preempted := fun i =>
          if (s.log.sched.cpuInfo (timerRegs m g).core).currentTask == (i : ℤ) then some m.cpu
          else s.preempted i }
      (q.switchTo (timerRegs m g).core hc) := by
  intro i hi
  rcases List.mem_append.mp hi with hi | hi
  · -- it was waiting already
    obtain ⟨c, hpre, hregs⟩ := hsaved i (hsub.subset hi)
    refine ⟨c, ?_, (congrArg Task.regs (h.switched_passed hc hsub hpass hi)).trans hregs⟩
    have hnot : (s.log.sched.cpuInfo (timerRegs m g).core).currentTask ≠ i := fun heq =>
      hc.not_mem_of_running (h.current_eq_iff.mp heq) hi
    exact (if_neg (by simpa using hnot)).trans hpre
  · -- it is preempted now
    have hrun := Option.mem_toList.mp hi
    refine ⟨m.cpu, if_pos (by simpa using h.current_eq_iff.mpr hrun), ?_⟩
    exact (congrArg Task.regs (h.switched_preempted hrun (hc.ne_of_running hrun))).trans
      (timerRegs_eq m g)

/-- A new task does not touch them either. -/
lemma SavedContexts.create (hsaved : SavedContexts s q) (h : Represents s.log q)
    (hfree : findFreeIndex s.log.sched ≠ -1) (ss : UInt16) (rsp : UInt64) (cs : UInt16)
    (entryPoint : UInt64) (r : TaskResources) :
    SavedContexts
      { s with log := s.log.note (createNewTask s.log.sched ss rsp cs entryPoint r) none }
      q.create := by
  intro i hi
  obtain ⟨c, hpre, hregs⟩ := hsaved i hi
  obtain ⟨hindex, _⟩ := h.findFreeIndex_eq hfree
  obtain ⟨t, _, _, _, hcall⟩ := createNewTask_tasks (r := r) hindex ss rsp cs entryPoint
  have hne : (i : ℤ) ≠ q.created := by
    have := q.queue_lt_created hi
    omega
  refine ⟨c, hpre, Eq.trans ?_ hregs⟩
  rw [hcall]
  exact congrArg Task.regs (Function.update_of_ne hne _ _)

/-- **A step.** -/
theorem savedContexts_step {e : CpuEvent} (h : Represents s.log q) (hsaved : SavedContexts s q)
    (hstep : CpuStep s e s') : ∃ q', Represents s'.log q' ∧ SavedContexts s' q' := by
  cases hstep with
  | create hstep =>
      cases hstep with
      | create hfree hmem =>
          exact ⟨q.create, h.create hfree hmem .., hsaved.create h hfree _ _ _ _ _⟩
  | @timer m g d log' hstep =>
      obtain ⟨sched', hcall, rfl⟩ := schedStep_tick hstep
      rcases h.schedulerMain_queue (timerRegs m g) with ⟨hlt, hmain⟩ | ⟨_, n, rest, hq, hmain⟩ |
        ⟨_, hq, hmain⟩ <;> obtain ⟨rfl, rfl⟩ := Prod.mk.inj (hmain.symm.trans hcall)
      · exact ⟨_, h.start hlt, hsaved.switch h _ (List.Sublist.refl _)
          fun i hi => q.queue_lt_started hi⟩
      · exact ⟨_, h.resume hq, hsaved.switch h _ (hq ▸ List.sublist_cons_self n rest)
          fun i hi => q.queue_lt_created (hq ▸ List.mem_cons_of_mem n hi)⟩
      · exact ⟨q, h.idle hq, hsaved⟩

lemma savedContexts_run {s₀ : CpuState} (h0 : s₀.log.Initial) (hrun : Run CpuStep s₀ es s) :
    ∃ q, Represents s.log q ∧ SavedContexts s q :=
  hrun.invariant (I := fun s => ∃ q, Represents s.log q ∧ SavedContexts s q)
    (fun _ _ _ ⟨_, h, hsaved⟩ hstep => savedContexts_step h hsaved hstep)
    ⟨_, represents_initial h0, fun _ hi => nomatch hi⟩

/-! ## Contexts are kept -/

/-- What an interrupt of the machine `m` does to contexts: a task that `schedulerMain` hands to
`switchTask` continues as it was when it was last preempted, and after an interrupt that returns,
of whatever vector and with or without an error code, `m` continues as it was. -/
structure ContextKept (s : CpuState) (m : Machine) (g : Gate) : Prop where
  resumed : ∀ d regs dataSegment, (schedulerMain s.log.sched (timerRegs m g)).2 = some d →
    d.resume = .switchTask regs dataSegment → ∃ (i : ℕ) (c : Cpu), d.nextTask = i ∧
      s.preempted i = some c ∧ ∀ m' : Machine, Holds m'.mem (m'.cpu.gpr .rdi) regs.words →
        (run m' switchTask).cpu.Same c
  returned : ∀ n errorCode m', Returned (interrupted m g n errorCode) m' →
    (run m' isrHandlerExit).cpu.Same m.cpu

/-- **Contexts are kept**, in every run of timer interrupts on any cores and with any registers. -/
theorem context_kept {s₀ : CpuState} (h0 : s₀.log.Initial) (hrun : Run CpuStep s₀ es s)
    (m : Machine) (g : Gate) : ContextKept s m g where
  resumed := by
    obtain ⟨q, h, hsaved⟩ := savedContexts_run h0 hrun
    intro d regs dataSegment hd hswitch
    rcases h.schedulerMain_queue (timerRegs m g) with ⟨_, hmain⟩ | ⟨_, n, rest, hq, hmain⟩ |
      ⟨_, _, hmain⟩ <;> rw [hmain] at hd
    · obtain rfl := Option.some.inj hd
      exact nomatch hswitch
    · obtain rfl := Option.some.inj hd
      obtain ⟨c, hpre, hregs⟩ := hsaved n (hq ▸ List.mem_cons_self)
      obtain ⟨rfl, -⟩ := Resume.switchTask.inj hswitch
      refine ⟨n, c, rfl, hpre, fun m' hm' => ?_⟩
      exact switchTask_restores (hregs ▸ hm')
    · exact nomatch hd
  returned := fun _ _ _ hreturned => isrHandler_restores hreturned

/-- A core that has come to address `0x8000` of a task. -/
def plainMachine : Machine where
  cpu :=
    { gpr := fun _ => 7, seg := fun _ => 0, rip := 0x8000, cs := 0x1b, rflags := 0x202,
      rsp := 0x10000, ss := 0x23 }
  mem := fun _ => 0

def plainGate : Gate := ⟨0x20000, 0x1000, 8, 2, 0⟩

/-- The registers that a timer interrupt of that core saves. -/
def plainRegs : Regs := frame plainMachine.cpu TIMER_VECTOR 0

/-- A timer interrupt of that core. -/
def CpuState.timerPlain (s : CpuState) : CpuState where
  log := s.log.note (schedulerMain s.log.sched plainRegs).1 (schedulerMain s.log.sched plainRegs).2
  preempted := fun i =>
    if (schedulerMain s.log.sched plainRegs).2.any fun d => d.lastTask == (i : ℤ) then
      some plainMachine.cpu
    else s.preempted i

lemma step_timerPlain (s : CpuState) :
    CpuStep s (.timer plainMachine plainGate (schedulerMain s.log.sched plainRegs).2)
      s.timerPlain :=
  .timer (by rw [timerRegs_eq]; exact .tick rfl)

/-- The core runs the first of two tasks. -/
def startedTask : CpuState :=
  CpuState.timerPlain ⟨plainSched.createPlain.createPlain, fun _ => none⟩

theorem context_kept_startedTask :
    startedTask.timerPlain.preempted 0 = some plainMachine.cpu ∧
      ∀ m g, ContextKept startedTask.timerPlain m g := by
  have hcreate : Run CpuStep ⟨plainSched, fun _ => none⟩ _
      ⟨plainSched.createPlain.createPlain, fun _ => none⟩ :=
    (Run.single (.create (.create (by decide +kernel) (by decide)))).snoc
      (.create (.create (by decide +kernel) (by decide)))
  have hrun : Run CpuStep ⟨plainSched, fun _ => none⟩ _ startedTask.timerPlain :=
    (hcreate.snoc (step_timerPlain _)).snoc (step_timerPlain _)
  have hlast : (schedulerMain startedTask.log.sched plainRegs).2.any
      (fun d => d.lastTask == ((0 : ℕ) : ℤ)) = true := by decide +kernel
  refine ⟨?_, context_kept plainSched_initial hrun⟩
  simp only [CpuState.timerPlain, hlast, if_true]

end Seaweed
