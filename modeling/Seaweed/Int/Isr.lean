import Seaweed.Libk.AsmUtils

/-!
# Interrupt service routines (`int/isr.asm`)

The stubs and the handler they share.  Between its two halves the handler calls the C function
`isrHandlerMain`, which reads the frame through the pointer in `rdi`.

* `isr`, `errorIsr` — the two kinds of stub, for vectors without and with an error code.
* `interrupted_stack` — the frame when the C code is called.
* **`isrHandler_restores`** — when it returns, every register is as it was.
-/

namespace Seaweed

open Memory X86

/-! ## The code -/

def isr (n : UInt64) : List Instr := [.pushImm 0, .pushImm n, .pushSeg .fs]

def errorIsr (n : UInt64) : List Instr := [.pushImm n, .pushSeg .fs]

/-- `isrHandler` up to the call. -/
def isrHandlerEntry : List Instr := [.cli] ++ pushall ++ [.movFromRsp .rdi]

/-- `isrHandler` after the call. -/
def isrHandlerExit : List Instr := popall ++ [.addRsp 24, .sti, .iretq]

/-- The stub of a vector, by whether the processor pushes an error code. -/
def stub (n : UInt64) : (errorCode : Option UInt64) → List Instr
  | none => isr n
  | some _ => errorIsr n

/-- The machine `m` is interrupted, and has come to the call of `isrHandlerMain`. -/
def interrupted (m : Machine) (g : Gate) (n : UInt64) (errorCode : Option UInt64) : Machine :=
  run (m.interrupt g errorCode) (stub n errorCode ++ isrHandlerEntry)

/-- The C code has returned.  The stack pointer is back and the frame, which the C code only reads,
is as it was; the other registers and the rest of memory can be anything. -/
structure Returned (m m' : Machine) : Prop where
  rsp : m'.cpu.rsp = m.cpu.rsp
  frame : ∀ k, k < 184 →
    m'.mem (m.cpu.rsp + UInt64.ofNat k) = m.mem (m.cpu.rsp + UInt64.ofNat k)

/-! ## The frame -/

variable {m m' : Machine} {g : Gate} {n e : UInt64} {errorCode : Option UInt64} {c : Cpu}

/-- A stub completes the frame of the processor by the error code, if there was none, the vector
and the core. -/
lemma stack_stub (m : Machine) (g : Gate) (n : UInt64) (errorCode : Option UInt64) :
    (run (m.interrupt g errorCode) (stub n errorCode)).Stack
      ([(m.cpu.seg .fs).toUInt64, n, errorCode.getD 0] ++
        [m.cpu.rip, m.cpu.cs.toUInt64, m.cpu.rflags, m.cpu.rsp, m.cpu.ss.toUInt64]) ∧
    (run (m.interrupt g errorCode) (stub n errorCode)).cpu.gpr = m.cpu.gpr := by
  have hframe := stack_interrupt m g errorCode
  cases errorCode with
  | none =>
      have hnumber := stack_push (stack_push hframe (by simp) 0) (by simp) n
      refine ⟨?_, gpr_interrupt m g none⟩
      rw [← seg_interrupt m g none]
      exact stack_push hnumber (by simp) _
  | some e =>
      refine ⟨?_, gpr_interrupt m g (some e)⟩
      rw [← seg_interrupt m g (some e)]
      exact stack_push (stack_push hframe (by simp) n) (by simp) _

/-- The C code gets a pointer to the whole frame. -/
theorem interrupted_stack (m : Machine) (g : Gate) (n : UInt64) (errorCode : Option UInt64) :
    (interrupted m g n errorCode).Stack (frame m.cpu n (errorCode.getD 0)).words ∧
      (interrupted m g n errorCode).cpu.gpr .rdi = (interrupted m g n errorCode).cpu.rsp := by
  obtain ⟨hstub, hgpr⟩ := stack_stub m g n errorCode
  have hpush := (stack_pushall ((stack_cli ..).mpr hstub) (by simp)).1
  rw [gpr_cli, hgpr] at hpush
  rw [interrupted, run_append, isrHandlerEntry, run_append, run_append, run_cons, run_nil, run_cons,
    run_nil, stack_movFromRsp, gpr_movFromRsp, rsp_movFromRsp]
  exact ⟨hpush, rfl⟩

/-- Without an error code the frame has 23 words, and memory changes nowhere else. -/
theorem pushes_interrupted (m : Machine) (g : Gate) (n : UInt64) :
    Pushes (m.setRsp g.stack) (interrupted m g n none) 23 := by
  have hprocessor : Pushes (m.setRsp g.stack) (m.interrupt g none) 5 := by
    have hpush := ((((pushes_push (m.setRsp g.stack) m.cpu.ss.toUInt64).trans
      (pushes_push _ m.cpu.rsp)).trans (pushes_push _ m.cpu.rflags)).trans
      (pushes_push _ m.cpu.cs.toUInt64)).trans (pushes_push _ m.cpu.rip)
    exact ⟨hpush.rsp, hpush.mem⟩
  have hvalues : (isr n).map (m.interrupt g none).cpu.pushed =
      [0, n, (m.cpu.seg .fs).toUInt64].map some := by
    rw [← seg_interrupt m g none]
    rfl
  have hstub : Pushes (m.interrupt g none) (run (m.interrupt g none) (isr n)) 3 :=
    (stack_run_pushes hvalues (show Machine.Stack _ [] from trivial) (by simp)).2.2
  have hcli := hprocessor.trans hstub
  have hpushall := (stack_pushall (show
    (exec (run (m.interrupt g none) (isr n)) .cli).Stack [] from trivial) (by simp)).2.2
  have hall := (show Pushes _ (exec (run (m.interrupt g none) (isr n)) .cli) 8 from
    ⟨hcli.rsp, hcli.mem⟩).trans hpushall
  exact ⟨hall.rsp, hall.mem⟩

/-- So it reads the registers of the interrupted processor. -/
lemma loadRegs_interrupted (m : Machine) (g : Gate) (n : UInt64) (errorCode : Option UInt64) :
    loadRegs (interrupted m g n errorCode).mem ((interrupted m g n errorCode).cpu.gpr .rdi) =
      frame m.cpu n (errorCode.getD 0) := by
  obtain ⟨hstack, hrdi⟩ := interrupted_stack m g n errorCode
  rw [hrdi]
  exact loadRegs_of_holds hstack

/-- **The return.**  Whatever the C code did to the registers, they are as they were. -/
theorem isrHandler_restores (h : Returned (interrupted m g n errorCode) m') :
    (run m' isrHandlerExit).cpu.Same m.cpu := by
  have hframe : m'.Stack (frame m.cpu n (errorCode.getD 0)).words := by
    rw [Machine.Stack, h.rsp]
    exact holds_congr (fun k hk => (h.frame k hk).symm) (interrupted_stack m g n errorCode).1
  obtain ⟨hstack, hgpr⟩ := stack_popall_skip hframe
  simp only [isrHandlerExit, run_append, run_cons, run_nil]
  exact iretq_restores ((stack_sti ..).mpr hstack) ((gpr_sti _).trans hgpr)

end Seaweed
