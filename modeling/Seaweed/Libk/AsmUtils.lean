import Seaweed.Library.X86

/-!
# Saved registers (`libk/asmUtils.h`, `libk/asmMacros.inc`)

* `Regs` — `regs_t`, the frame that an interrupt leaves on the stack, lowest address first;
  `loadRegs` reads one from memory.
* `pushall`, `popall` — the macros.
* `frame` — the frame of a processor.
* **`stack_popall`**, **`iretq_restores`** — popping it gives the registers back.
-/

namespace Seaweed

open Memory X86

structure Regs where
  r15 : UInt64
  r14 : UInt64
  r13 : UInt64
  r12 : UInt64
  r11 : UInt64
  r10 : UInt64
  r9 : UInt64
  r8 : UInt64
  rsi : UInt64
  rdi : UInt64
  rbp : UInt64
  rdx : UInt64
  rcx : UInt64
  rbx : UInt64
  rax : UInt64
  core : UInt64
  isrNumber : UInt64
  errorCode : UInt64
  rip : UInt64
  cs : UInt64
  rflags : UInt64
  rsp : UInt64
  ss : UInt64
  deriving DecidableEq, Inhabited

/-- The words of a `regs_t`, which is packed. -/
def Regs.words (r : Regs) : List UInt64 :=
  [r.r15, r.r14, r.r13, r.r12, r.r11, r.r10, r.r9, r.r8, r.rsi, r.rdi, r.rbp, r.rdx, r.rcx, r.rbx,
    r.rax, r.core, r.isrNumber, r.errorCode, r.rip, r.cs, r.rflags, r.rsp, r.ss]

/-- `*(regs_t*)a`. -/
def loadRegs (mem : Mem) (a : UInt64) : Regs where
  r15 := load64 mem a
  r14 := load64 mem (a + 8)
  r13 := load64 mem (a + 16)
  r12 := load64 mem (a + 24)
  r11 := load64 mem (a + 32)
  r10 := load64 mem (a + 40)
  r9 := load64 mem (a + 48)
  r8 := load64 mem (a + 56)
  rsi := load64 mem (a + 64)
  rdi := load64 mem (a + 72)
  rbp := load64 mem (a + 80)
  rdx := load64 mem (a + 88)
  rcx := load64 mem (a + 96)
  rbx := load64 mem (a + 104)
  rax := load64 mem (a + 112)
  core := load64 mem (a + 120)
  isrNumber := load64 mem (a + 128)
  errorCode := load64 mem (a + 136)
  rip := load64 mem (a + 144)
  cs := load64 mem (a + 152)
  rflags := load64 mem (a + 160)
  rsp := load64 mem (a + 168)
  ss := load64 mem (a + 176)

/-- What is read is what the words say. -/
lemma loadRegs_of_holds {mem : Mem} {a : UInt64} {r : Regs} (h : Holds mem a r.words) :
    loadRegs mem a = r := by
  simp only [Regs.words, Holds, UInt64.add_assoc, UInt64.reduceAdd, and_true] at h
  simp only [loadRegs, h]

/-! ## The macros -/

def pushallOrder : List Gpr :=
  [.rax, .rbx, .rcx, .rdx, .rbp, .rdi, .rsi, .r8, .r9, .r10, .r11, .r12, .r13, .r14, .r15]

def popallOrder : List Gpr :=
  [.r15, .r14, .r13, .r12, .r11, .r10, .r9, .r8, .rsi, .rdi, .rbp, .rdx, .rcx, .rbx, .rax]

def pushall : List Instr := pushallOrder.map .push

def popall : List Instr := popallOrder.map .pop

lemma reverse_pushallOrder : pushallOrder.reverse = popallOrder := rfl

lemma popallOrder_nodup : popallOrder.Nodup := by decide

lemma mem_popallOrder (r : Gpr) : r ∈ popallOrder := by
  cases r <;> decide

/-! ## The frame -/

/-- The frame that an interrupt leaves of a processor; the core is in `fs`. -/
def frame (c : Cpu) (isrNumber errorCode : UInt64) : Regs where
  r15 := c.gpr .r15
  r14 := c.gpr .r14
  r13 := c.gpr .r13
  r12 := c.gpr .r12
  r11 := c.gpr .r11
  r10 := c.gpr .r10
  r9 := c.gpr .r9
  r8 := c.gpr .r8
  rsi := c.gpr .rsi
  rdi := c.gpr .rdi
  rbp := c.gpr .rbp
  rdx := c.gpr .rdx
  rcx := c.gpr .rcx
  rbx := c.gpr .rbx
  rax := c.gpr .rax
  core := (c.seg .fs).toUInt64
  isrNumber := isrNumber
  errorCode := errorCode
  rip := c.rip
  cs := c.cs.toUInt64
  rflags := c.rflags
  rsp := c.rsp
  ss := c.ss.toUInt64

/-- The general registers, what the stub pushes, and what the processor pushes. -/
lemma words_frame (c : Cpu) (n e : UInt64) :
    (frame c n e).words = popallOrder.map c.gpr ++ ([(c.seg .fs).toUInt64, n, e] ++
      [c.rip, c.cs.toUInt64, c.rflags, c.rsp, c.ss.toUInt64]) := rfl

variable {m : Machine} {c : Cpu} {n e : UInt64} {ws : List UInt64}

/-- `pushall` on top of what is on the stack. -/
lemma stack_pushall (h : m.Stack ws) (hroom : ws.length < 2 ^ 60) :
    (run m pushall).Stack (popallOrder.map m.cpu.gpr ++ ws) ∧
      (run m pushall).cpu = { m.cpu with rsp := (run m pushall).cpu.rsp } ∧
      Pushes m (run m pushall) 15 := by
  have hlen : pushallOrder.length = 15 := rfl
  have hpush := stack_run_push pushallOrder h (by omega)
  rwa [← List.map_reverse, reverse_pushallOrder] at hpush

/-- **`popall`** gives the general registers back. -/
theorem stack_popall (h : m.Stack (popallOrder.map c.gpr ++ ws)) :
    (run m popall).Stack ws ∧ (run m popall).cpu.gpr = c.gpr := by
  obtain ⟨hstack, hmap, _⟩ := run_pop popallOrder_nodup (by simp) h
  refine ⟨hstack, ?_⟩
  funext r
  exact List.map_inj_left.mp hmap r (mem_popallOrder r)

/-- What `iretq` finds on the stack. -/
def iretFrame (c : Cpu) : List UInt64 :=
  [c.rip, c.cs.toUInt64, c.rflags, c.rsp, c.ss.toUInt64]

/-- After `popall` the core, the vector and the error code are skipped. -/
lemma stack_popall_skip (h : m.Stack (frame c n e).words) :
    (exec (run m popall) (.addRsp 24)).Stack (iretFrame c) ∧
      (exec (run m popall) (.addRsp 24)).cpu.gpr = c.gpr := by
  rw [words_frame] at h
  obtain ⟨hstack, hgpr⟩ := stack_popall h
  rw [gpr_addRsp]
  exact ⟨stack_addRsp hstack rfl, hgpr⟩

/-- **`iretq`** loads the rest. -/
theorem iretq_restores (h : m.Stack (iretFrame c)) (hgpr : m.cpu.gpr = c.gpr) :
    (exec m .iretq).cpu.Same c := by
  rw [exec_iretq h]
  exact
  { gpr := hgpr
    rip := rfl
    cs := UInt16.toUInt16_toUInt64 c.cs
    rflags := rfl
    rsp := rfl
    ss := UInt16.toUInt16_toUInt64 c.ss }

end Seaweed
