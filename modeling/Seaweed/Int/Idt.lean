import Seaweed.Int.Isr

/-!
# The interrupt descriptor table (`int/idt.c`)

`idtInit` makes a gate for every vector but the last, and each gate leads to a stub of `isr.asm`.
The stubs of six exceptions expect an error code from the processor.  `isrHandlerMain` looks for a
handler of the vector, and does not return from an exception.

* `setIDTentry`, `idtInit`, `isrHandlerMain` — the code.
* `deliver` — what the processor does with a gate, `arrived` the machine at the call of the C code.
* `offset_gate` — the pieces of a gate make up the address of its stub again.
* `isSome_deliver` — user code gets in through one gate only.
* **`interrupts_dispatched`** — the way of an interrupt to its handler and back.
* **`exceptionFrames_iff`** — four exceptions have the wrong stub.
-/

namespace Seaweed

open Memory X86

/-! ## The code -/

structure IdtEntry where
  offsetLow : UInt16
  selector : UInt16
  zero8 : UInt8
  attributes : UInt8
  offsetMid : UInt16
  offsetHigh : UInt32
  zero32 : UInt32
  deriving DecidableEq, Inhabited

def setIDTentry (idt : UInt8 → IdtEntry) (codeSelector index typesAndAttributes : UInt8)
    (offset : UInt64) : UInt8 → IdtEntry :=
  Function.update idt index
    { offsetLow := offset.toUInt16
      selector := codeSelector.toUInt16
      zero8 := 0
      attributes := typesAndAttributes
      offsetMid := (offset >>> 16).toUInt16
      offsetHigh := (offset >>> 32).toUInt32
      zero32 := 0 }

/-- The labels of `isr.asm`. -/
inductive IsrLabel
  | isr (n : UInt8)
  | errorIsr (n : UInt8)
  deriving DecidableEq

def IsrLabel.code : IsrLabel → List Instr
  | .isr n => Seaweed.isr n.toUInt64
  | .errorIsr n => Seaweed.errorIsr n.toUInt64

def IsrLabel.isError : IsrLabel → Bool
  | .isr _ => false
  | .errorIsr _ => true

/-- The label that `idtInit` gives to a vector. -/
def labelOf (n : UInt8) : IsrLabel :=
  if n = 8 ∨ 10 ≤ n ∧ n ≤ 14 then .errorIsr n else .isr n

/-- The 255 calls of `setIDTentry`, one for each vector below 255 in ascending order; only the gate
for system calls is open to user code. -/
def idtInit (idt : UInt8 → IdtEntry) (address : IsrLabel → UInt64) : UInt8 → IdtEntry :=
  (List.range 255).foldl (fun idt n =>
    let n := UInt8.ofNat n
    setIDTentry idt 8 n (if n = 0x69 then 0xef else 0x8f) (address (labelOf n))) idt

inductive EventHandler
  | schedulerMain
  | syscallMain
  deriving DecidableEq

/-- `eventHandlers`, after `idtInit` has entered `syscallMain`. -/
def eventHandlers (isrNumber : UInt64) : Option EventHandler :=
  if isrNumber = 32 then some .schedulerMain
  else if isrNumber = 0x69 then some .syscallMain
  else none

def exceptionMessages : List String :=
  ["Divide by zero", "Debug", "NMI", "Breakpoint", "Overflow", "Bound Range Exceeded",
    "Invaild Opcode", "Device Not Available", "Double fault", "Co-processor Segment Overrun",
    "Invaild TSS", "Segment not present", "Stack-Segment Fault", "GPF", "Page Fault", "Reserved",
    "x87 Floating Point Exception", "allignement check", "Machine check",
    "SIMD floating-point exception", "Virtualization Excpetion", "Deadlock", "Reserved", "Reserved",
    "Reserved", "Reserved", "Reserved", "Reserved", "Reserved", "Reserved", "Reserved",
    "Security Exception", "Reserved", "Triple Fault", "FPU error"]

/-- What `isrHandlerMain` does: the end of the interrupt is signalled, a handler is called, and a
report is printed, after which it does not return. -/
structure IsrRun where
  eoi : ℕ
  handler : Option EventHandler
  report : Option (Option String)
  deriving DecidableEq

def IsrRun.returns (r : IsrRun) : Bool := r.report.isNone

def isrHandlerMain (stack : Regs) : IsrRun where
  eoi := 1
  handler := eventHandlers stack.isrNumber
  report := if stack.isrNumber < 32 then some exceptionMessages[stack.isrNumber.toNat]? else none

/-! ## The processor -/

/-- The address in a gate. -/
def IdtEntry.offset (e : IdtEntry) : UInt64 :=
  e.offsetLow.toUInt64 + e.offsetMid.toUInt64 <<< 16 + e.offsetHigh.toUInt64 <<< 32

def IdtEntry.present (e : IdtEntry) : Bool := e.attributes &&& 0x80 != 0

def IdtEntry.dpl (e : IdtEntry) : UInt8 := e.attributes >>> 5 &&& 3

/-- 14 for an interrupt gate, 15 for a trap gate. -/
def IdtEntry.type (e : IdtEntry) : UInt8 := e.attributes &&& 0xf

def IdtEntry.ist (e : IdtEntry) : UInt8 := e.zero8 &&& 7

/-- The stack pointers of a task state segment. -/
structure TaskStacks where
  rsp0 : UInt64
  ist : UInt8 → UInt64

def privilege (c : Cpu) : UInt8 := c.cs.toUInt8 &&& 3

/-- The stack of a handler that has no stack of its own. -/
def interruptStack (tss : TaskStacks) (c : Cpu) : UInt64 :=
  if privilege c = 0 then c.rsp else tss.rsp0

/-- The flags `TF`, `NT`, `RF` and `VM`. -/
def gateFlags : UInt64 := 0x34100

/-- What the processor finds in the gate of a vector: `none` is another exception instead.
`software` is for the instruction `int`.  The handler has privilege level 0, since the segment of
the kernel does. -/
def deliver (idt : UInt8 → IdtEntry) (tss : TaskStacks) (c : Cpu) (n : UInt8) (software : Bool) :
    Option Gate :=
  let e := idt n
  if e.present ∧ (e.type = 14 ∨ e.type = 15) ∧ (software → privilege c ≤ e.dpl) then
    let stack := if e.ist ≠ 0 then tss.ist e.ist else interruptStack tss c
    some
      { stack := stack - stack % 16
        rip := e.offset
        cs := e.selector
        rflags := (if e.type = 15 then c.rflags else c.rflags &&& ~~~IF) &&& ~~~gateFlags
        ss := if privilege c = 0 then c.ss else 0 }
  else none

/-- The machine at the call of `isrHandlerMain`. -/
def arrived (m : Machine) (g : Gate) (n : UInt8) (errorCode : Option UInt64) : Machine :=
  run (m.interrupt g errorCode) ((labelOf n).code ++ isrHandlerEntry)

/-- Its argument. -/
def arrivedRegs (m : Machine) (g : Gate) (n : UInt8) (errorCode : Option UInt64) : Regs :=
  loadRegs (arrived m g n errorCode).mem ((arrived m g n errorCode).cpu.gpr .rdi)

/-! ## The gates -/

variable {idt : UInt8 → IdtEntry} {address : IsrLabel → UInt64} {tss : TaskStacks} {m : Machine}
  {c : Cpu} {g : Gate} {n : UInt8} {software : Bool} {errorCode : Option UInt64}

/-- The gate of a vector. -/
def gate (address : IsrLabel → UInt64) (n : UInt8) : IdtEntry :=
  setIDTentry default 8 n (if n = 0x69 then 0xef else 0x8f) (address (labelOf n)) n

/-- Gates are made for the vectors below `k`. -/
lemma loadGates {k : ℕ} (hk : k ≤ 256) : (List.range k).foldl (fun idt n =>
      let n := UInt8.ofNat n
      setIDTentry idt 8 n (if n = 0x69 then 0xef else 0x8f) (address (labelOf n))) idt n =
    if n.toNat < k then gate address n else idt n := by
  induction k with
  | zero => simp
  | succ k ih =>
      have hplace : (UInt8.ofNat k).toNat = k := by rw [UInt8.toNat_ofNat']; omega
      rw [List.range_succ, List.foldl_append, List.foldl_cons, List.foldl_nil]
      by_cases heq : n = UInt8.ofNat k
      · have hlt : n.toNat < k + 1 := by rw [heq, hplace]; omega
        rw [if_pos hlt, gate, ← heq]
        simp only [setIDTentry, Function.update_self]
      · have hne : n.toNat ≠ k := fun h => heq (by rw [← h, UInt8.ofNat_toNat])
        rw [setIDTentry, Function.update_of_ne heq, ih (by omega)]
        exact if_congr (by omega) rfl rfl

/-- Every vector but the last has its gate. -/
lemma idtInit_eq : idtInit idt address n = if n = 255 then idt n else gate address n := by
  have hn := n.toNat_lt
  have hlast : n = 255 ↔ ¬ n.toNat < 255 := by
    rw [← UInt8.toNat_inj]
    show n.toNat = 255 ↔ _
    omega
  rw [idtInit, loadGates (by omega)]
  by_cases h : n.toNat < 255
  · rw [if_pos h, if_neg (by rwa [hlast, not_not])]
  · rw [if_neg h, if_pos (hlast.mpr h)]

/-- **The gate holds the address of the stub.** -/
theorem offset_gate : (gate address n).offset = address (labelOf n) := by
  have haddr := (address (labelOf n)).toNat_lt
  rw [gate, setIDTentry, Function.update_self, ← UInt64.toNat_inj]
  simp only [IdtEntry.offset, UInt64.toUInt64_toUInt16, UInt64.toUInt64_toUInt32,
    UInt64.toNat_add, UInt64.toNat_mod, UInt64.toNat_shiftLeft, UInt64.toNat_shiftRight,
    UInt64.reduceToNat, Nat.reduceMod, Nat.reducePow, Nat.shiftRight_eq_div_pow, Nat.shiftLeft_eq]
  omega

lemma gate_trap (address : IsrLabel → UInt64) (n : UInt8) :
    (gate address n).present = true ∧ (gate address n).type = 15 ∧ (gate address n).ist = 0 ∧
      (gate address n).selector = 8 ∧ (gate address n).dpl = if n = 0x69 then 3 else 0 := by
  simp only [gate, setIDTentry, Function.update_self, IdtEntry.present, IdtEntry.type, IdtEntry.ist,
    IdtEntry.dpl]
  by_cases h : n = 0x69
  · simp only [if_pos h]
    decide
  · simp only [if_neg h]
    decide

lemma privilege_le (c : Cpu) : privilege c ≤ 3 := UInt8.and_le_right

/-- **What gets in.**  User code can only ask for system calls. -/
theorem isSome_deliver (hn : n ≠ 255) :
    (deliver (idtInit idt address) tss c n software).isSome ↔
      (software → privilege c = 0 ∨ n = 0x69) := by
  obtain ⟨hpresent, htype, -, -, hdpl⟩ := gate_trap address n
  have hle := privilege_le c
  rw [deliver, idtInit_eq, if_neg hn]
  simp only [hpresent, htype, hdpl]
  by_cases hcall : n = 0x69
  · simp [hcall, hle]
  · simp [hcall]

/-- The last vector has the gate that it had before, which is none when the processor starts. -/
theorem deliver_last (hidt : (idt 255).present = false) :
    deliver (idtInit idt address) tss c 255 software = none := by
  rw [deliver, idtInit_eq, if_pos rfl]
  simp [hidt]

/-- A gate that has been found. -/
lemma deliver_eq (hn : n ≠ 255) (h : deliver (idtInit idt address) tss c n software = some g) :
    g = { stack := interruptStack tss c - interruptStack tss c % 16
          rip := address (labelOf n)
          cs := 8
          rflags := c.rflags &&& ~~~gateFlags
          ss := if privilege c = 0 then c.ss else 0 } := by
  obtain ⟨-, htype, hist, hselector, -⟩ := gate_trap address n
  rw [deliver, idtInit_eq, if_neg hn] at h
  simp only [hist, htype, hselector, offset_gate] at h
  split at h
  · simpa using h.symm
  · exact absurd h (by simp)

/-! ## The frame -/

/-- What a stub pushes, the last word first. -/
def IsrLabel.pushed (c : Cpu) : IsrLabel → List UInt64
  | .isr n => [(c.seg .fs).toUInt64, n.toUInt64, 0]
  | .errorIsr n => [(c.seg .fs).toUInt64, n.toUInt64]

/-- The registers, then what the stub and the processor push. -/
lemma stack_arrived (m : Machine) (g : Gate) (n : UInt8) (errorCode : Option UInt64) :
    (arrived m g n errorCode).Stack (popallOrder.map m.cpu.gpr ++ ((labelOf n).pushed m.cpu ++
        (errorCode.toList ++ iretFrame m.cpu))) ∧
      (arrived m g n errorCode).cpu.gpr .rdi = (arrived m g n errorCode).cpu.rsp := by
  have hlen : ((labelOf n).pushed m.cpu).length ≤ 3 := by
    cases labelOf n <;> simp [IsrLabel.pushed]
  have hcode : errorCode.toList.length ≤ 1 := by
    cases errorCode <;> simp
  have hvalues : (labelOf n).code.map (m.interrupt g errorCode).cpu.pushed =
      ((labelOf n).pushed m.cpu).reverse.map some := by
    rw [IsrLabel.pushed.eq_def, ← seg_interrupt m g errorCode]
    cases labelOf n <;> rfl
  obtain ⟨hstub, hcpu, -⟩ := stack_run_pushes hvalues (stack_interrupt m g errorCode) (by
    simp only [List.length_append, List.length_cons, List.length_nil, List.length_reverse]
    omega)
  rw [List.reverse_reverse] at hstub
  have hpush := (stack_pushall ((stack_cli ..).mpr hstub) (by
    simp only [List.length_append, List.length_cons, List.length_nil]
    omega)).1
  have hgpr := congrArg Cpu.gpr hcpu
  rw [gpr_cli, hgpr, gpr_interrupt] at hpush
  rw [arrived, run_append, isrHandlerEntry, run_append, run_append, run_cons, run_nil, run_cons,
    run_nil, stack_movFromRsp, gpr_movFromRsp, rsp_movFromRsp]
  exact ⟨hpush, rfl⟩

/-- With the right stub the frame is that of the interrupted processor. -/
lemma arrived_eq (h : errorCode.isSome = (labelOf n).isError) :
    arrived m g n errorCode = interrupted m g n.toUInt64 errorCode := by
  have hlabel : (labelOf n).code = stub n.toUInt64 errorCode := by
    rw [labelOf] at h ⊢
    cases errorCode <;> split_ifs at h ⊢ <;> first | rfl | cases h
  rw [arrived, hlabel, interrupted]

lemma arrivedRegs_eq (h : errorCode.isSome = (labelOf n).isError) :
    arrivedRegs m g n errorCode = frame m.cpu n.toUInt64 (errorCode.getD 0) := by
  rw [arrivedRegs, arrived_eq h]
  exact loadRegs_interrupted m g n.toUInt64 errorCode

/-- With a stub that expects no error code, when there is one, all that the processor has pushed is
taken for the word before it. -/
theorem arrivedRegs_shifted {e : UInt64} (h : (labelOf n).isError = false) :
    arrivedRegs m g n (some e) =
      { frame m.cpu n.toUInt64 0 with
        rip := e, cs := m.cpu.rip, rflags := m.cpu.cs.toUInt64, rsp := m.cpu.rflags
        ss := m.cpu.rsp } := by
  obtain ⟨hstack, hrdi⟩ := stack_arrived m g n (some e)
  have hlabel : labelOf n = .isr n := by
    rw [labelOf] at h ⊢
    split_ifs at h ⊢
    · cases h
    · rfl
  rw [hlabel] at hstack
  rw [arrivedRegs, hrdi]
  let r : Regs :=
    { frame m.cpu n.toUInt64 0 with
      rip := e, cs := m.cpu.rip, rflags := m.cpu.cs.toUInt64, rsp := m.cpu.rflags, ss := m.cpu.rsp }
  have hwords : Holds (arrived m g n (some e)).mem (arrived m g n (some e)).cpu.rsp
      (r.words ++ [m.cpu.ss.toUInt64]) := hstack
  exact loadRegs_of_holds ((holds_append r.words _).mp hwords).1

/-! ## Interrupts -/

/-- The vectors that have a handler. -/
lemma eventHandlers_vector (n : UInt8) : eventHandlers n.toUInt64 =
    if n = 32 then some .schedulerMain else if n = 0x69 then some .syscallMain else none := by
  have hvector : ∀ k : UInt8, n.toUInt64 = k.toUInt64 ↔ n = k := fun _ => UInt8.toUInt64_inj
  exact if_congr (hvector 32) rfl (if_congr (hvector 0x69) rfl rfl)

lemma returns_isrHandlerMain {stack : Regs} :
    (isrHandlerMain stack).returns = true ↔ 32 ≤ stack.isrNumber := by
  rw [← UInt64.not_lt, IsrRun.returns, isrHandlerMain]
  split_ifs with h <;> simp [h]

/-- **The way of an interrupt.**  The gate leads to the stub of the vector, which hands the frame of
the interrupted processor to the C code; the handler is called for the two vectors that have one,
and only an exception does not return.  After a return all registers are as they were.  The
processor has pushed an error code exactly if the stub expects one. -/
theorem interrupts_dispatched (idt : UInt8 → IdtEntry) (address : IsrLabel → UInt64)
    (tss : TaskStacks) (m : Machine) (hn : n ≠ 255)
    (hsoftware : software → privilege m.cpu = 0 ∨ n = 0x69)
    (hcode : errorCode.isSome = (labelOf n).isError) :
    ∃ g, deliver (idtInit idt address) tss m.cpu n software = some g ∧
      g.rip = address (labelOf n) ∧
      arrivedRegs m g n errorCode = frame m.cpu n.toUInt64 (errorCode.getD 0) ∧
      (isrHandlerMain (arrivedRegs m g n errorCode)).eoi = 1 ∧
      (isrHandlerMain (arrivedRegs m g n errorCode)).handler =
        (if n = 32 then some .schedulerMain else if n = 0x69 then some .syscallMain else none) ∧
      ((isrHandlerMain (arrivedRegs m g n errorCode)).returns ↔ 32 ≤ n) ∧
      ∀ m', Returned (arrived m g n errorCode) m' → (run m' isrHandlerExit).cpu.Same m.cpu := by
  have hsome : (deliver (idtInit idt address) tss m.cpu n software).isSome :=
    (isSome_deliver hn).mpr hsoftware
  obtain ⟨g, hg⟩ := Option.isSome_iff_exists.mp hsome
  refine ⟨g, hg, by rw [deliver_eq hn hg], arrivedRegs_eq hcode, rfl, ?_, ?_,
    fun m' hreturned => ?_⟩
  · rw [arrivedRegs_eq hcode]
    exact eventHandlers_vector n
  · rw [returns_isrHandlerMain, arrivedRegs_eq hcode]
    exact Iff.rfl
  · rw [arrived_eq hcode] at hreturned
    exact isrHandler_restores hreturned

/-- User code with its stack at `0x8000`. -/
def userMachine : Machine where
  cpu :=
    { gpr := fun _ => 0
      seg := fun _ => 0
      rip := 0x400000
      cs := 0x1b
      rflags := 0x202
      rsp := 0x8000
      ss := 0x23 }
  mem := fun _ => 0

/-- It asks for a system call. -/
theorem interrupts_dispatched_systemCall :
    ∃ g, deliver (idtInit (fun _ => default) fun _ => 0x10000) ⟨0x9000, fun _ => 0⟩
        userMachine.cpu 0x69 true = some g ∧
      (isrHandlerMain (arrivedRegs userMachine g 0x69 none)).handler = some .syscallMain ∧
      (isrHandlerMain (arrivedRegs userMachine g 0x69 none)).returns := by
  obtain ⟨g, hg, -, -, -, hhandler, hreturns, -⟩ :=
    interrupts_dispatched (fun _ => default) (fun _ => 0x10000) ⟨0x9000, fun _ => 0⟩ userMachine
      (show (0x69 : UInt8) ≠ 255 by decide)
      (fun _ : (true : Bool) => .inr rfl)
      (show (none : Option UInt64).isSome = (labelOf 0x69).isError by decide)
  exact ⟨g, hg, hhandler, hreturns.mpr (by decide)⟩

/-- The exceptions for which the processor pushes an error code. -/
def pushesErrorCode (n : UInt8) : Bool := n ∈ [8, 10, 11, 12, 13, 14, 17, 21, 29, 30]

lemma isError_labelOf (n : UInt8) : (labelOf n).isError = decide (n = 8 ∨ 10 ≤ n ∧ n ≤ 14) := by
  rw [labelOf]
  split_ifs with h
  · exact (decide_eq_true h).symm
  · exact (decide_eq_false h).symm

lemma pushesErrorCode_eq (n : UInt8) :
    pushesErrorCode n = ((labelOf n).isError || n ∈ ([17, 21, 29, 30] : List UInt8)) := by
  have hn : ∀ k : UInt8, n = k ↔ n.toNat = k.toNat := fun _ => UInt8.toNat_inj.symm
  rw [isError_labelOf, pushesErrorCode, ← Bool.decide_or, decide_eq_decide]
  simp only [List.mem_cons, List.not_mem_nil, or_false, hn, UInt8.le_iff_toNat_le,
    UInt8.reduceToNat]
  omega

/-- **The exceptions that are reported right.**  When the processor raises an exception, the report
is the frame of the interrupted program for all vectors but four: alignment checks, control
protection, and the two of virtual machines.  For these every word of it is shifted by the error
code. -/
theorem exceptionFrames_iff (n : UInt8) :
    ((∀ (m : Machine) (g : Gate) (errorCode : Option UInt64),
        errorCode.isSome = pushesErrorCode n →
          arrivedRegs m g n errorCode = frame m.cpu n.toUInt64 (errorCode.getD 0)) ↔
      n ∉ ([17, 21, 29, 30] : List UInt8)) ∧
    (n ∈ ([17, 21, 29, 30] : List UInt8) → pushesErrorCode n = true ∧
      ∀ (m : Machine) (g : Gate) (e : UInt64), arrivedRegs m g n (some e) =
        { frame m.cpu n.toUInt64 0 with
          rip := e, cs := m.cpu.rip, rflags := m.cpu.cs.toUInt64, rsp := m.cpu.rflags
          ss := m.cpu.rsp }) := by
  have hcode := pushesErrorCode_eq n
  have hstub : n ∈ ([17, 21, 29, 30] : List UInt8) → (labelOf n).isError = false := by
    intro hmem
    rw [isError_labelOf]
    fin_cases hmem <;> decide
  refine ⟨⟨fun h hmem => ?_, fun hmem m g errorCode h => ?_⟩, fun hmem => ⟨?_, fun m g e => ?_⟩⟩
  · -- the error code of an interrupted program at 0 is taken for its instruction pointer
    let m : Machine := ⟨⟨fun _ => 0, fun _ => 0, 0, 0, 0, 0, 0⟩, fun _ => 0⟩
    have hframe := h m ⟨0, 0, 0, 0, 0⟩ (some 1) (by simp [hcode, hmem])
    rw [arrivedRegs_shifted (hstub hmem)] at hframe
    have hrip : (1 : UInt64) = 0 := congrArg Regs.rip hframe
    exact absurd hrip (by decide)
  · exact arrivedRegs_eq (h.trans (by simp [hcode, hmem]))
  · simp [hcode, hmem]
  · exact arrivedRegs_shifted (hstub hmem)

end Seaweed
