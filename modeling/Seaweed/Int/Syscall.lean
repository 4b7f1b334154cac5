import Seaweed.Int.Idt
import Seaweed.Libk.Print
import Seaweed.Sched.Resume

/-!
# System calls (`kernel/int/syscall.c`, `libu/syscalls.asm`)

A program asks for a system call by `int 0x69`, with the arguments in registers that it has saved
before.  The way there and back is that of any interrupt, and `printf` takes it for every character.

* `syscallMain` — what the kernel does; `printSerial`, `pthread` — what the program does.
* `userExec` — an instruction of the program, with the whole way through the kernel for `int`.
* `userRun_systemCall` — a system call gives all registers and the stack back.
* **`printf_systemCalls`** — the calls of a `printf`.
* **`pthread_systemCall`** — the call of a `pthread`.
-/

namespace Seaweed

open Memory X86

/-! ## The code -/

/-- A function that `syscallMain` calls. -/
inductive KernelCall
  | serialWrite (data : UInt8)
  | createThread (taskIndex entryPoint : UInt64)
  deriving DecidableEq

/-- The two switches, between `spinLock` and `spinRelease`. -/
def syscallMain (regs : Regs) : Option KernelCall :=
  if regs.rax = 0 then
    if regs.rcx = 0 then some (.serialWrite regs.rdx.toUInt8) else none
  else if regs.rax = 2 then
    if regs.rcx = 0 then some (.createThread regs.rdx regs.rbx) else none
  else none

/-- An instruction that sets an argument; `clear` is the `xor` of a register with itself. -/
inductive ArgInstr
  | clear (r : Gpr)
  | mov (r r' : Gpr)
  | movImm (r : Gpr) (v : UInt64)
  deriving DecidableEq

inductive UserInstr
  | push (r : Gpr)
  | pop (r : Gpr)
  | arg (i : ArgInstr)
  | int (n : UInt8)
  | ret
  deriving DecidableEq

def printSerial : List UserInstr :=
  [.push .rax, .push .rcx, .push .rdx,
    .arg (.clear .rax), .arg (.clear .rcx), .arg (.mov .rdx .rdi), .int 0x69,
    .pop .rdx, .pop .rcx, .pop .rax, .ret]

def pthread : List UserInstr :=
  [.push .rax, .push .rcx, .push .rdx, .push .rbx,
    .arg (.movImm .rax 2), .arg (.clear .rcx), .arg (.mov .rdx .rdi), .arg (.mov .rbx .rsi),
    .int 0x69, .pop .rbx, .pop .rdx, .pop .rcx, .pop .rax, .ret]

/-! ## The machine -/

/-- The flags that an `xor` sets, and those of them that it sets for 0. -/
def statusFlags : UInt64 := 0x8d5
def zeroFlags : UInt64 := 0x44

def setArg (m : Machine) : ArgInstr → Machine
  | .clear r => (m.setGpr r 0).setRflags (m.cpu.rflags &&& ~~~statusFlags ||| zeroFlags)
  | .mov r r' => m.setGpr r (m.cpu.gpr r')
  | .movImm r v => m.setGpr r v

/-- A program, and the calls that the kernel has made for it. -/
structure UserProgram where
  machine : Machine
  calls : List KernelCall

/-- What the processor and the C code bring in: what `idtInit` makes the gates of, the stacks of the
task state segment, and the machine when `isrHandlerMain` returns. -/
structure Kernel where
  idt : UInt8 → IdtEntry
  address : IsrLabel → UInt64
  tss : TaskStacks
  cCode : Machine → Machine

/-- `int n`, up to the return of the handler.  There is no result if the processor raises an
exception, or if the interrupt is none that `syscallMain` handles. -/
def userInt (k : Kernel) (n : UInt8) (p : UserProgram) : Option UserProgram := do
  let g ← deliver (idtInit k.idt k.address) k.tss p.machine.cpu n true
  let regs := arrivedRegs p.machine g n none
  if (isrHandlerMain regs).handler = some .syscallMain ∧ (isrHandlerMain regs).returns then
    some
      { machine := run (k.cCode (arrived p.machine g n none)) isrHandlerExit
        calls := p.calls ++ (syscallMain regs).toList }
  else none

def userExec (k : Kernel) (p : UserProgram) : UserInstr → Option UserProgram
  | .push r => some { p with machine := exec p.machine (.push r) }
  | .pop r => some { p with machine := exec p.machine (.pop r) }
  | .arg i => some { p with machine := setArg p.machine i }
  | .int n => userInt k n p
  | .ret => some { p with machine :=
      { p.machine with cpu := { p.machine.cpu with
        rip := p.machine.top 0, rsp := p.machine.cpu.rsp + 8 } } }

def userRun (k : Kernel) (p : UserProgram) : List UserInstr → Option UserProgram
  | [] => some p
  | i :: code => (userExec k p i).bind fun p => userRun k p code

/-! ## One instruction after the other -/

variable {k : Kernel} {p : UserProgram} {m m' : Machine} {rs : List Gpr} {ws : List UInt64}

lemma userRun_append (k : Kernel) (p : UserProgram) (code code' : List UserInstr) :
    userRun k p (code ++ code') = (userRun k p code).bind fun p => userRun k p code' := by
  induction code generalizing p with
  | nil => rfl
  | cons i code ih =>
      rw [List.cons_append, userRun, userRun, Option.bind_assoc]
      exact congrArg _ (funext fun _ => ih _)

lemma userRun_push (k : Kernel) (p : UserProgram) (rs : List Gpr) :
    userRun k p (rs.map .push) = some { p with machine := run p.machine (rs.map .push) } := by
  induction rs generalizing p with
  | nil => rfl
  | cons r rs ih => exact ih _

lemma userRun_pop (k : Kernel) (p : UserProgram) (rs : List Gpr) :
    userRun k p (rs.map .pop) = some { p with machine := run p.machine (rs.map .pop) } := by
  induction rs generalizing p with
  | nil => rfl
  | cons r rs ih => exact ih _

lemma userRun_arg (k : Kernel) (p : UserProgram) (args : List ArgInstr) :
    userRun k p (args.map .arg) = some { p with machine := args.foldl setArg p.machine } := by
  induction args generalizing p with
  | nil => rfl
  | cons i args ih => exact ih _

/-- The register that an instruction sets. -/
def ArgInstr.dest : ArgInstr → Gpr
  | .clear r => r
  | .mov r _ => r
  | .movImm r _ => r

/-- The arguments change no other register. -/
lemma foldl_setArg (args : List ArgInstr) (m : Machine) :
    (args.foldl setArg m).mem = m.mem ∧ (args.foldl setArg m).cpu.rsp = m.cpu.rsp ∧
      (args.foldl setArg m).cpu.cs = m.cpu.cs ∧
      ∀ r, r ∉ args.map ArgInstr.dest → (args.foldl setArg m).cpu.gpr r = m.cpu.gpr r := by
  induction args generalizing m with
  | nil => exact ⟨rfl, rfl, rfl, fun _ _ => rfl⟩
  | cons i args ih =>
      obtain ⟨hmem, hrsp, hcs, hgpr⟩ := ih (setArg m i)
      refine ⟨hmem.trans ?_, hrsp.trans ?_, hcs.trans ?_, fun r hr => ?_⟩
      · cases i <;> rfl
      · cases i <;> rfl
      · cases i <;> rfl
      · rw [List.map_cons, List.mem_cons, not_or] at hr
        refine (hgpr r hr.2).trans ?_
        cases i <;> exact Function.update_of_ne hr.1 _ _

/-! ## The way through the kernel -/

/-- The C code leaves the frame alone, and the `n` bytes from `a` on. -/
structure Kernel.Spares (k : Kernel) (a : UInt64) (n : ℕ) : Prop where
  returned : ∀ m, Returned m (k.cCode m)
  stack : ∀ m i, i < n → (k.cCode m).mem (a + UInt64.ofNat i) = m.mem (a + UInt64.ofNat i)

/-- The frame is pushed below the `n` bytes from `a` on, or elsewhere: for a program in user
mode. -/
def Kernel.FrameApart (k : Kernel) (c : Cpu) (a : UInt64) (n : ℕ) : Prop :=
  privilege c = 0 ∨ ∀ i < n,
    184 ≤ (a + UInt64.ofNat i - (k.tss.rsp0 - k.tss.rsp0 % 16 - 184)).toNat

lemma toNat_above_frame (a : UInt64) {i : ℕ} (hi : i < 2 ^ 32) :
    184 ≤ (a + UInt64.ofNat i - (a - a % 16 - 184)).toNat := by
  have halign := toNat_sub_align16 a
  rw [align16] at halign
  have hdiff : a + UInt64.ofNat i - (a - a % 16 - 184) =
      UInt64.ofNat (i + 184) + (a - (a - a % 16)) := by
    rw [UInt64.ofNat_add]
    generalize a - a % 16 = b
    grind
  rw [hdiff, UInt64.toNat_add, Words.toNat_ofNat_of_lt (by omega), halign]
  omega

/-- The frame of an interrupt leaves the rest of memory as it was. -/
lemma mem_arrived {g : Gate} {n : UInt8} {x : UInt64}
    (hlabel : (none : Option UInt64).isSome = (labelOf n).isError)
    (hx : 184 ≤ (x - (g.stack - 184)).toNat) : (arrived m g n none).mem x = m.mem x := by
  rw [arrived_eq hlabel]
  have hpushes := pushes_interrupted m g n.toUInt64
  refine hpushes.mem x ?_
  rw [hpushes.rsp]
  exact hx

lemma mem_isrHandlerExit (m : Machine) : (run m isrHandlerExit).mem = m.mem := by
  rw [isrHandlerExit, run_append]
  exact (rsp_run_pop popallOrder m).2

/-- **A system call** is answered, and the program goes on with its registers and its stack. -/
theorem userInt_call {n : ℕ} (hspares : k.Spares p.machine.cpu.rsp n)
    (hframe : k.FrameApart p.machine.cpu p.machine.cpu.rsp n) (hstack : p.machine.Stack ws)
    (hlen : 8 * ws.length ≤ n) (hn : n < 2 ^ 32) :
    ∃ m', userInt k 0x69 p =
        some ⟨m', p.calls ++ (syscallMain (frame p.machine.cpu 0x69 0)).toList⟩ ∧
      m'.cpu.Same p.machine.cpu ∧ m'.Stack ws := by
  have hlabel : (none : Option UInt64).isSome = (labelOf 0x69).isError := by decide
  have hsome : (deliver (idtInit k.idt k.address) k.tss p.machine.cpu 0x69 true).isSome :=
    (isSome_deliver (by decide)).mpr fun _ => .inr rfl
  obtain ⟨g, hg⟩ := Option.isSome_iff_exists.mp hsome
  have hregs : arrivedRegs p.machine g 0x69 none = frame p.machine.cpu 0x69 0 :=
    arrivedRegs_eq hlabel
  have hhandled : (isrHandlerMain (frame p.machine.cpu 0x69 0)).handler = some .syscallMain ∧
      (isrHandlerMain (frame p.machine.cpu 0x69 0)).returns := ⟨rfl, rfl⟩
  have hsame : (run (k.cCode (arrived p.machine g 0x69 none)) isrHandlerExit).cpu.Same
      p.machine.cpu := by
    rw [arrived_eq hlabel]
    exact isrHandler_restores (hspares.returned _)
  refine ⟨_, ?_, hsame, ?_⟩
  · rw [userInt, hg, Option.bind_eq_bind, Option.bind_some, hregs]
    exact if_pos hhandled
  · rw [Machine.Stack, hsame.rsp, mem_isrHandlerExit]
    refine holds_congr (fun i hi => ?_) hstack
    rw [hspares.stack _ i (by omega), mem_arrived hlabel]
    rw [deliver_eq (by decide) hg, interruptStack]
    rcases hframe with hkernel | huser
    · rw [if_pos hkernel]
      exact toNat_above_frame _ (by omega)
    · by_cases hkernel : privilege p.machine.cpu = 0
      · rw [if_pos hkernel]
        exact toNat_above_frame _ (by omega)
      · rw [if_neg hkernel]
        exact huser i (by omega)

/-! ## The program's side -/

/-- Registers are saved, the arguments are set, and the registers are taken back. -/
def systemCall (rs : List Gpr) (args : List ArgInstr) : List UserInstr :=
  rs.map .push ++ (args.map .arg ++ (.int 0x69 :: (rs.reverse.map .pop ++ [.ret])))

/-- The processor when the registers have been saved and the arguments set. -/
def argCpu (m : Machine) (rs : List Gpr) (args : List ArgInstr) : Cpu :=
  (args.foldl setArg (run m (rs.map .push))).cpu

/-- A subroutine has returned: all general registers are as they were, and the stack is what was
above the return address. -/
structure BackFrom (m m' : Machine) (ret : UInt64) (ws : List UInt64) : Prop where
  gpr : m'.cpu.gpr = m.cpu.gpr
  cs : m'.cpu.cs = m.cpu.cs
  rsp : m'.cpu.rsp = m.cpu.rsp + 8
  rip : m'.cpu.rip = ret
  stack : m'.Stack ws

lemma cs_run_pop (rs : List Gpr) (m : Machine) : (run m (rs.map .pop)).cpu.cs = m.cpu.cs := by
  induction rs generalizing m with
  | nil => rfl
  | cons r rs ih => exact ih _

/-- The registers are taken back, and the program returns. -/
lemma userRun_back {ret : UInt64} (hnodup : rs.Nodup)
    (hother : ∀ r, r ∉ rs → p.machine.cpu.gpr r = m.cpu.gpr r) (hcs : p.machine.cpu.cs = m.cpu.cs)
    (hrsp : p.machine.cpu.rsp = m.cpu.rsp - UInt64.ofNat (8 * rs.length))
    (hstack : p.machine.Stack ((rs.map m.cpu.gpr).reverse ++ ret :: ws)) :
    ∃ m', userRun k p (rs.reverse.map .pop ++ [.ret]) = some ⟨m', p.calls⟩ ∧
      BackFrom m m' ret ws := by
  rw [← List.map_reverse] at hstack
  obtain ⟨hrest, hmap, hkept⟩ := run_pop (List.nodup_reverse.mpr hnodup) (by simp) hstack
  obtain ⟨hsp, -⟩ := rsp_run_pop rs.reverse p.machine
  have hgpr : (run p.machine (rs.reverse.map .pop)).cpu.gpr = m.cpu.gpr := by
    funext r
    by_cases hr : r ∈ rs.reverse
    · exact List.map_inj_left.mp hmap r hr
    · rw [hkept r hr]
      exact hother r fun h => hr (List.mem_reverse.mpr h)
  have hlast : (run p.machine (rs.reverse.map .pop)).cpu.rsp = m.cpu.rsp := by
    rw [hsp, hrsp, List.length_reverse, UInt64.sub_add_cancel]
  rw [userRun_append, userRun_pop, Option.bind_some, userRun, userExec, Option.bind_some, userRun]
  refine ⟨_, rfl, ?_⟩
  exact
  { gpr := hgpr
    cs := (cs_run_pop rs.reverse p.machine).trans hcs
    rsp := congrArg (· + 8) hlast
    rip := (congrArg _ (UInt64.add_zero _)).trans hrest.1
    stack := hrest.2 }

/-- **A system call gives everything back.** -/
theorem userRun_systemCall {ret : UInt64} (rs : List Gpr) (args : List ArgInstr)
    (hnodup : rs.Nodup) (hdest : ∀ i ∈ args, i.dest ∈ rs) (hstack : p.machine.Stack (ret :: ws))
    {n : ℕ} (hn : n = 8 * (rs.length + (ws.length + 1))) (hroom : n < 2 ^ 32)
    (hspares : k.Spares (p.machine.cpu.rsp - UInt64.ofNat (8 * rs.length)) n)
    (hframe : k.FrameApart p.machine.cpu (p.machine.cpu.rsp - UInt64.ofNat (8 * rs.length)) n) :
    ∃ m', userRun k p (systemCall rs args) = some
        ⟨m', p.calls ++ (syscallMain (frame (argCpu p.machine rs args) 0x69 0)).toList⟩ ∧
      BackFrom p.machine m' ret ws := by
  obtain ⟨hpushed, hcpu, hpushes⟩ := stack_run_push rs hstack (by
    rw [List.length_cons]
    omega)
  obtain ⟨hmem, hrsp, hcs, hgpr⟩ := foldl_setArg args (run p.machine (rs.map .push))
  -- the machine before the interrupt
  generalize hm : args.foldl setArg (run p.machine (rs.map .push)) = m₂ at hmem hrsp hcs hgpr
  have hrsp₂ : m₂.cpu.rsp = p.machine.cpu.rsp - UInt64.ofNat (8 * rs.length) :=
    hrsp.trans hpushes.rsp
  have hcs₂ : m₂.cpu.cs = p.machine.cpu.cs := hcs.trans (by rw [hcpu])
  have hgpr₂ : ∀ r, r ∉ rs → m₂.cpu.gpr r = p.machine.cpu.gpr r := by
    intro r hr
    rw [hgpr r fun h => ?_, hcpu]
    obtain ⟨i, hi, rfl⟩ := List.mem_map.mp h
    exact hr (hdest i hi)
  have hstack₂ : m₂.Stack ((rs.map p.machine.cpu.gpr).reverse ++ ret :: ws) := by
    rw [Machine.Stack, hmem, hrsp]
    exact hpushed
  have hframe₂ : k.FrameApart m₂.cpu m₂.cpu.rsp n := by
    rw [hrsp₂, Kernel.FrameApart, privilege, hcs₂]
    exact hframe
  have hlen : 8 * ((rs.map p.machine.cpu.gpr).reverse ++ ret :: ws).length ≤ n := by
    simp only [List.length_append, List.length_reverse, List.length_map, List.length_cons]
    omega
  obtain ⟨m₃, hint, hsame, hstack₃⟩ :=
    userInt_call (p := ⟨m₂, p.calls⟩) (by rwa [← hrsp₂] at hspares)
    hframe₂ hstack₂ hlen hroom
  obtain ⟨m', hback, hend⟩ := userRun_back (k := k) hnodup (p := ⟨m₃, _⟩)
    (fun r hr => (congrFun hsame.gpr r).trans (hgpr₂ r hr)) (hsame.cs.trans hcs₂)
    (hsame.rsp.trans hrsp₂) hstack₃
  refine ⟨m', ?_, hend⟩
  rw [systemCall, userRun_append, userRun_push, Option.bind_some, userRun_append, userRun_arg,
    Option.bind_some, hm, userRun, userExec, hint, Option.bind_some, hback, argCpu, hm]

/-! ## `printf` -/

/-- A `char` as the argument of `printSerial`. -/
def charArg (c : UInt8) : UInt64 := c.toInt8.toInt64.toUInt64

lemma toUInt8_charArg (c : UInt8) : (charArg c).toUInt8 = c := by
  rw [charArg, ← UInt8.toBitVec_inj]
  ext i hi
  simp [BitVec.getLsbD_signExtend, hi]
  omega

/-- The call of `printSerial` for a character; `ret` are the return addresses of the calls. -/
def callPrintSerial (k : Kernel) (ret : ℕ → UInt64) (p : UserProgram) (c : UInt8) :
    Option UserProgram :=
  userRun k
    { p with machine := (p.machine.setGpr .rdi (charArg c)).push (ret p.calls.length) } printSerial

/-- `printf`, with all that happens in a call of `printSerial`; between the calls it only uses
`rdi`. -/
def printfCalls (k : Kernel) (ret : ℕ → UInt64) (str : CString) (args : List Arg)
    (p : UserProgram) :
    Option UserProgram := do
  let p ← formatLoop (fun p c => p.bind fun p => callPrintSerial k ret p c) str 0 args (some p)
  let p ← p
  callPrintSerial k ret p NEWLINE

lemma syscallMain_serialWrite {c : Cpu} (hrax : c.gpr .rax = 0) (hrcx : c.gpr .rcx = 0) :
    syscallMain (frame c 0x69 0) = some (.serialWrite (c.gpr .rdx).toUInt8) := by
  rw [syscallMain, frame, if_pos hrax, if_pos hrcx]

lemma syscallMain_createThread {c : Cpu} (hrax : c.gpr .rax = 2) (hrcx : c.gpr .rcx = 0) :
    syscallMain (frame c 0x69 0) = some (.createThread (c.gpr .rdx) (c.gpr .rbx)) := by
  have hne : ¬ (frame c 0x69 0).rax = 0 := fun h => absurd (hrax.symm.trans h) (by decide)
  rw [syscallMain, if_neg hne, if_pos (show (frame c 0x69 0).rax = 2 from hrax),
    if_pos (show (frame c 0x69 0).rcx = 0 from hrcx)]
  rfl

/-- What is around the calls: the stack of the program with `ws` on it, which the kernel spares. -/
structure CallReady (k : Kernel) (m : Machine) (ws : List UInt64) : Prop where
  stack : m.Stack ws
  room : 8 * (4 + ws.length) < 2 ^ 32
  spares : k.Spares (m.cpu.rsp - 32) (8 * (4 + ws.length))
  frameApart : k.FrameApart m.cpu (m.cpu.rsp - 32) (8 * (4 + ws.length))

/-- Nothing has changed but `rdi`. -/
structure AfterCall (m m' : Machine) (ws : List UInt64) : Prop where
  gpr : ∀ r, r ≠ .rdi → m'.cpu.gpr r = m.cpu.gpr r
  cs : m'.cpu.cs = m.cpu.cs
  rsp : m'.cpu.rsp = m.cpu.rsp
  stack : m'.Stack ws

lemma AfterCall.refl (h : m.Stack ws) : AfterCall m m ws := ⟨fun _ _ => rfl, rfl, rfl, h⟩

lemma AfterCall.trans {m'' : Machine} (h : AfterCall m m' ws) (h' : AfterCall m' m'' ws) :
    AfterCall m m'' ws where
  gpr r hr := (h'.gpr r hr).trans (h.gpr r hr)
  cs := h'.cs.trans h.cs
  rsp := h'.rsp.trans h.rsp
  stack := h'.stack

/-- The next call finds the same. -/
lemma AfterCall.ready (h : AfterCall m m' ws) (hready : CallReady k m ws) : CallReady k m' ws where
  stack := h.stack
  room := hready.room
  spares := by
    rw [h.rsp]
    exact hready.spares
  frameApart := by
    rw [h.rsp, Kernel.FrameApart, privilege, h.cs]
    exact hready.frameApart

lemma printSerial_eq : printSerial =
    systemCall [.rax, .rcx, .rdx] [.clear .rax, .clear .rcx, .mov .rdx .rdi] := rfl

lemma pthread_eq : pthread = systemCall [.rax, .rcx, .rdx, .rbx]
    [.movImm .rax 2, .clear .rcx, .mov .rdx .rdi, .mov .rbx .rsi] := rfl

variable {ret : ℕ → UInt64}

/-- In the subroutine the stack is as `userRun_systemCall` expects it, with the return address on
it. -/
lemma CallReady.called (h : CallReady k m ws) {ret : UInt64} {v : UInt64}
    (hm : (m.setGpr .rdi v).push ret = m') :
    m'.Stack (ret :: ws) ∧
      k.Spares (m'.cpu.rsp - UInt64.ofNat (8 * 3)) (8 * (3 + (ws.length + 1))) ∧
      k.FrameApart m'.cpu (m'.cpu.rsp - UInt64.ofNat (8 * 3)) (8 * (3 + (ws.length + 1))) := by
  have hroom := h.room
  have hrsp : m'.cpu.rsp = m.cpu.rsp - 8 := by
    rw [← hm]
    rfl
  have hcs : m'.cpu.cs = m.cpu.cs := by
    rw [← hm]
    rfl
  have haddr : m'.cpu.rsp - UInt64.ofNat (8 * 3) = m.cpu.rsp - 32 := by
    have hoffset : UInt64.ofNat (8 * 3) = 24 := rfl
    rw [hrsp, hoffset]
    grind
  have hbytes : 8 * (3 + (ws.length + 1)) = 8 * (4 + ws.length) := by omega
  rw [haddr, hbytes]
  refine ⟨?_, h.spares, ?_⟩
  · rw [← hm]
    exact stack_push (show (m.setGpr .rdi v).Stack ws from h.stack) (by omega) _
  · rw [Kernel.FrameApart, privilege, hcs]
    exact h.frameApart

/-- A call of `printSerial` writes its character. -/
lemma callPrintSerial_eq (h : CallReady k p.machine ws) (c : UInt8) :
    ∃ m', callPrintSerial k ret p c = some ⟨m', p.calls ++ [.serialWrite c]⟩ ∧
      AfterCall p.machine m' ws := by
  have hroom := h.room
  -- the machine in the subroutine
  generalize hm : (p.machine.setGpr .rdi (charArg c)).push (ret p.calls.length) = m
  have hcs : m.cpu.cs = p.machine.cpu.cs := by
    rw [← hm]
    rfl
  have hrsp : m.cpu.rsp = p.machine.cpu.rsp - 8 := by
    rw [← hm]
    rfl
  have hgpr : m.cpu.gpr = Function.update p.machine.cpu.gpr .rdi (charArg c) := by
    rw [← hm]
    rfl
  obtain ⟨hstack, hspares, hframe⟩ := h.called hm
  obtain ⟨m', hrun, hback⟩ := userRun_systemCall (p := ⟨m, p.calls⟩) [.rax, .rcx, .rdx]
    [.clear .rax, .clear .rcx, .mov .rdx .rdi] (by decide) (by decide) hstack rfl (by
      simp only [List.length_cons, List.length_nil]
      omega) hspares hframe
  have hrdx : (argCpu m [.rax, .rcx, .rdx] [.clear .rax, .clear .rcx, .mov .rdx .rdi]).gpr .rdx =
      charArg c := (show _ = m.cpu.gpr .rdi from rfl).trans (by rw [hgpr, Function.update_self])
  rw [syscallMain_serialWrite rfl rfl, hrdx, toUInt8_charArg] at hrun
  refine ⟨m', ?_, ?_⟩
  · rw [callPrintSerial, hm, printSerial_eq]
    exact hrun
  · exact
    { gpr := fun r hr => by rw [hback.gpr, hgpr, Function.update_of_ne hr]
      cs := hback.cs.trans hcs
      rsp := by rw [hback.rsp, hrsp, UInt64.sub_add_cancel]
      stack := hback.stack }

lemma foldl_bind_cons {σ : Type} (f : σ → UInt8 → Option σ) (p : σ) (c : UInt8) (cs : List UInt8) :
    (c :: cs).foldl (fun p c => p.bind fun p => f p c) (some p) =
      cs.foldl (fun p c => p.bind fun p => f p c) (f p c) := rfl

/-- The calls for one character after the other. -/
lemma foldl_callPrintSerial (h : CallReady k p.machine ws) (cs : List UInt8) :
    ∃ m', cs.foldl (fun p c => p.bind fun p => callPrintSerial k ret p c) (some p) =
        some ⟨m', p.calls ++ cs.map .serialWrite⟩ ∧ AfterCall p.machine m' ws := by
  induction cs generalizing p with
  | nil => exact ⟨p.machine, by rw [List.foldl_nil, List.map_nil, List.append_nil], .refl h.stack⟩
  | cons c cs ih =>
      obtain ⟨m₁, hcall, hafter⟩ := callPrintSerial_eq h c
      obtain ⟨m₂, hcalls, hafter'⟩ := ih (p := ⟨m₁, p.calls ++ [.serialWrite c]⟩) (hafter.ready h)
      refine ⟨m₂, ?_, hafter.trans hafter'⟩
      rw [foldl_bind_cons, hcall, hcalls]
      simp only [List.map_cons, List.append_assoc, List.cons_append, List.nil_append]

/-- The characters of a `printf`, and the newline. -/
lemma formatLoop_bind {σ : Type} (f : σ → UInt8 → Option σ) (pieces : List Piece) (p : σ) :
    ((formatLoop (fun p c => p.bind fun p => f p c) (format pieces) 0 (arguments pieces)
        (some p)).bind fun p => p.bind fun p => f p NEWLINE) =
      (pieces.flatMap Piece.emitted ++ [NEWLINE]).foldl (fun p c => p.bind fun p => f p c)
        (some p) := by
  rw [formatLoop_format, Option.bind_some, List.foldl_append]
  rfl

/-- **`printf` through the kernel.**  Every character that `printf` prints is one call of
`serialWrite`, in their order, and the program goes on with its registers and its stack. -/
theorem printf_systemCalls (pieces : List Piece) (h : CallReady k p.machine ws) :
    ∃ out m', printf (format pieces) (arguments pieces) [] = some out ∧
      printfCalls k ret (format pieces) (arguments pieces) p =
        some ⟨m', p.calls ++ out.map .serialWrite⟩ ∧
      AfterCall p.machine m' ws := by
  obtain ⟨m', hcalls, hafter⟩ := foldl_callPrintSerial h (pieces.flatMap Piece.emitted ++ [NEWLINE])
  exact ⟨_, m', printf_format pieces [], (formatLoop_bind _ pieces p).trans hcalls, hafter⟩

/-- The C code changes nothing, and interrupts of user code have their stack at `0x9000`. -/
def plainKernel : Kernel where
  idt := fun _ => default
  address := fun _ => 0x10000
  tss := ⟨0x9000, fun _ => 0⟩
  cCode := id

lemma spares_plainKernel (a : UInt64) (n : ℕ) : plainKernel.Spares a n where
  returned := fun _ => ⟨rfl, fun _ _ => rfl⟩
  stack := fun _ _ _ => rfl

lemma frameApart_plainKernel {c : Cpu} {n : ℕ} (hn : n ≤ 40) :
    plainKernel.FrameApart c (0x8000 - 32) n := by
  have hbytes : ∀ i < 40,
      184 ≤ ((0x8000 - 32 : UInt64) + UInt64.ofNat i - (0x9000 - 0x9000 % 16 - 184)).toNat := by
    decide
  exact .inr fun i hi => hbytes i (by omega)

lemma callReady_plainKernel : CallReady plainKernel userMachine [] where
  stack := trivial
  room := by decide
  spares := spares_plainKernel _ _
  frameApart := frameApart_plainKernel (by decide)

/-- A character and the newline. -/
theorem printf_systemCalls_character :
    ∃ m', printfCalls plainKernel (fun _ => 0x400000) (format [.c 65]) (arguments [.c 65])
        ⟨userMachine, []⟩ = some ⟨m', [.serialWrite 65, .serialWrite 10]⟩ ∧
      m'.cpu.rsp = 0x8000 := by
  obtain ⟨out, m', hout, hcalls, hafter⟩ :=
    printf_systemCalls (p := ⟨userMachine, []⟩) [.c 65] callReady_plainKernel
  have hchars : [65, 10] = out := Option.some.inj ((printf_format [.c 65] []).symm.trans hout)
  subst hchars
  exact ⟨m', hcalls, hafter.rsp⟩

/-- **`pthread` through the kernel.** -/
theorem pthread_systemCall {ret : UInt64} (ws : List UInt64) (hstack : p.machine.Stack (ret :: ws))
    (hroom : 8 * (5 + ws.length) < 2 ^ 32)
    (hspares : k.Spares (p.machine.cpu.rsp - 32) (8 * (5 + ws.length)))
    (hframe : k.FrameApart p.machine.cpu (p.machine.cpu.rsp - 32) (8 * (5 + ws.length))) :
    ∃ m', userRun k p pthread = some
        ⟨m', p.calls ++ [.createThread (p.machine.cpu.gpr .rdi) (p.machine.cpu.gpr .rsi)]⟩ ∧
      BackFrom p.machine m' ret ws := by
  have hbytes : 8 * (5 + ws.length) = 8 * (4 + (ws.length + 1)) := by omega
  rw [hbytes] at hspares hframe hroom
  obtain ⟨m', hrun, hback⟩ := userRun_systemCall [.rax, .rcx, .rdx, .rbx]
    [.movImm .rax 2, .clear .rcx, .mov .rdx .rdi, .mov .rbx .rsi] (by decide) (by decide) hstack rfl
    hroom hspares hframe
  rw [syscallMain_createThread rfl rfl] at hrun
  refine ⟨m', ?_, hback⟩
  rw [pthread_eq]
  exact hrun

/-- A thread of task 0. -/
theorem pthread_systemCall_thread :
    ∃ m', userRun plainKernel ⟨userMachine.setGpr .rsi 0x500000, []⟩ pthread =
        some ⟨m', [.createThread 0 0x500000]⟩ ∧
      m'.cpu.gpr .rsi = 0x500000 := by
  obtain ⟨m', hrun, hback⟩ := pthread_systemCall (k := plainKernel)
    (p := ⟨userMachine.setGpr .rsi 0x500000, []⟩) [] ⟨rfl, trivial⟩ (by decide)
    (spares_plainKernel _ _) (frameApart_plainKernel (by decide))
  exact ⟨m', hrun, congrFun hback.gpr .rsi⟩

end Seaweed
