import Seaweed.Sched.ContextSwitch
import Seaweed.Sched.TaskTable

/-!
# Interrupts while a task is resumed (`sched/scheduler.asm`)

Both `startTask` and `switchTask` enable interrupts before they are done.  `startTask` is still on
the stack that it was called on, which is that of the task that has been preempted, and has pushed
some of the words that it loads at its end.  `switchTask` has its stack pointer in the task table,
at what is left of the registers that it pops, so the frame of an interrupt goes into the table as
well.

* `OpenBoundary` — where interrupts are enabled.
* `timerInterrupt` — the frame goes below the stack pointer, which is aligned, and what the C code
  needs below the frame.
* `LaterInterrupt` — what is left on a stack by an interrupt that comes before the task is resumed.
* `Tolerates` — the table is as it was, and what is loaded later is what was saved.
* `start_loads_iff` — what the rest of `startTask` needs of memory.
* **`resume_tolerates_iff`** — `switchTask` tolerates no interrupt, and `startTask` does if its
  stack is not in the table and no later interrupt uses what it has pushed.
-/

namespace Seaweed

open Words Memory X86 Records

/-! ## The calls -/

/-- `&tasks[i].regs`. -/
def taskRegs (tasks : UInt64) (i : ℕ) : UInt64 := element tasks sizeofTask i + 16

/-- The two functions that do not return. -/
inductive ResumeCall
  | start
  | switch

def ResumeCall.code : ResumeCall → List Instr
  | .start => startTask
  | .switch => switchTask

/-- The call that `schedulerMain` makes for task `i`, with its arguments in registers. -/
def ResumeCall.machine (call : ResumeCall) (c : Cpu) (tasks : UInt64) (i : ℕ) (mem : Mem) :
    Machine :=
  let t := loadTask mem (element tasks sizeofTask i)
  let m : Machine := ⟨c, mem⟩
  match call with
  | .start => (((m.setGpr .rdi t.regs.ss).setGpr .rsi t.regs.rsp).setGpr .rdx t.regs.cs).setGpr
      .rcx t.entryPoint
  | .switch => (m.setGpr .rdi (taskRegs tasks i)).setGpr .rsi t.regs.ss

/-- `p` instructions of the function have been executed. -/
def ResumeCall.atBoundary (call : ResumeCall) (c : Cpu) (tasks : UInt64) (i : ℕ) (mem : Mem)
    (p : ℕ) : Machine := run (call.machine c tasks i mem) (call.code.take p)

/-- Where what the rest of the function takes from the stack ends. -/
def ResumeCall.stackEnd (call : ResumeCall) (c : Cpu) (tasks : UInt64) (i : ℕ) : UInt64 :=
  match call with
  | .start => c.rsp
  | .switch => taskRegs tasks i + 184

/-- The processor has the registers that are saved in the task: those that `startTask` is for, or
all of them. -/
def ResumeCall.Loads (call : ResumeCall) (t : Task) (c : Cpu) : Prop :=
  match call with
  | .start => c.ss = t.regs.ss.toUInt16 ∧ c.rsp = t.regs.rsp ∧ c.cs = t.regs.cs.toUInt16 ∧
      c.rip = t.entryPoint
  | .switch => popallOrder.map c.gpr = t.regs.words.take 15 ∧ c.rip = t.regs.rip ∧
      c.cs = t.regs.cs.toUInt16 ∧ c.rflags = t.regs.rflags ∧ c.rsp = t.regs.rsp ∧
      c.ss = t.regs.ss.toUInt16

/-! ## Interrupts -/

/-- After `p` instructions `sti` has been executed, and another one since. -/
def OpenBoundary (code : List Instr) (p : ℕ) : Prop :=
  p < code.length ∧ Instr.sti ∈ code.take (p - 1)

instance (code : List Instr) (p : ℕ) : Decidable (OpenBoundary code p) :=
  inferInstanceAs (Decidable (_ ∧ _))

/-- Where the processor pushes the frame of an interrupt from the kernel itself. -/
def align16 (rsp : UInt64) : UInt64 := rsp - rsp % 16

/-- The byte is one of the `n` bytes below the top of a stack. -/
def Below (top : UInt64) (n : ℕ) (x : UInt64) : Prop := 1 ≤ (top - x).toNat ∧ (top - x).toNat ≤ n

instance (top : UInt64) (n : ℕ) (x : UInt64) : Decidable (Below top n x) :=
  inferInstanceAs (Decidable (_ ∧ _))

/-- What is left in the `depth` bytes below the top of a stack, whatever it is. -/
structure StackBytes where
  depth : UInt32
  bytes : UInt64 → UInt8

def StackBytes.under (s : StackBytes) (top : UInt64) (mem : Mem) : Mem := fun x =>
  if Below top s.depth.toNat x then s.bytes x else mem x

/-- A timer interrupt, up to the call of the C code. -/
def timerFrame (m : Machine) (g : Gate) : Machine :=
  interrupted m { g with stack := align16 m.cpu.rsp } TIMER_VECTOR none

/-- A timer interrupt.  Below the frame are the return address of `call isrHandlerMain` and the
frames of the C code. -/
def timerInterrupt (m : Machine) (g : Gate) (cCode : StackBytes) : Machine :=
  { timerFrame m g with mem := cCode.under (timerFrame m g).cpu.rsp (timerFrame m g).mem }

/-- An interrupt, of any core, that comes before the task is resumed: the top of its stack, and all
that it leaves there, its frame included. -/
structure LaterInterrupt where
  top : UInt64
  used : StackBytes

/-- Memory after all of them, as far as stacks are concerned. -/
def afterLater (later : List LaterInterrupt) (mem : Mem) : Mem :=
  later.foldl (fun mem u => u.used.under u.top mem) mem

/-- **A timer interrupt at the boundary** leaves the table as it is, but for what `schedulerMain`
itself assigns to it.  When the function continues, because the handler returns or because the task
is switched to again after the interrupts `later`, its stack is what these interrupts have made of
it, and it loads what was saved. -/
structure Tolerates (call : ResumeCall) (c : Cpu) (tasks : UInt64) (n i : ℕ) (mem : Mem) (p : ℕ)
    (g : Gate) (cCode : StackBytes) (later : List LaterInterrupt) : Prop where
  table : ∀ x, (x - tasks).toNat < sizeofTask * n →
    (timerInterrupt (call.atBoundary c tasks i mem p) g cCode).mem x =
      (call.atBoundary c tasks i mem p).mem x
  loads : ∀ m : Machine, m.cpu.Same (call.atBoundary c tasks i mem p).cpu →
    (∀ x, (x - m.cpu.rsp).toNat < (call.stackEnd c tasks i - m.cpu.rsp).toNat →
      m.mem x = afterLater later (timerInterrupt (call.atBoundary c tasks i mem p) g cCode).mem x) →
    call.Loads (loadTask mem (element tasks sizeofTask i)) (run m (call.code.drop p)).cpu

/-- At boundary `p` of `startTask` neither the frame of an interrupt nor what is below it touches
the table. -/
def FrameOutside (c : Cpu) (tasks : UInt64) (n p : ℕ) (depth : UInt32) : Prop :=
  ∀ x, (x - tasks).toNat < sizeofTask * n →
    ¬Below (align16 (c.rsp - UInt64.ofNat (8 * (p - 4)))) (184 + depth.toNat) x

/-- How many bytes count of the words that `startTask` pushes, in their order: selectors have two,
and the flags are not those of the task. -/
def startSize : ℕ → ℕ
  | 0 | 3 => 2
  | 2 => 0
  | _ => 8

/-- The byte is one that `startTask` has pushed before boundary `p`, and that counts. -/
def LoadedByte (c : Cpu) (p : ℕ) (x : UInt64) : Prop :=
  ∃ k < p - 4, ∃ b < startSize k, x = c.rsp - UInt64.ofNat (8 * (k + 1)) + UInt64.ofNat b

/-- No later interrupt uses the place of what `startTask` has pushed. -/
def WordsSpared (c : Cpu) (p : ℕ) (later : List LaterInterrupt) : Prop :=
  ∀ x, LoadedByte c p x → ∀ u ∈ later, ¬Below u.top u.used.depth.toNat x

variable {call : ResumeCall} {c : Cpu} {g : Gate} {m : Machine} {mem : Mem}
  {tasks x rsp top : UInt64} {n i j p k b : ℕ} {s : StackBytes} {later : List LaterInterrupt}

/-! ## Stacks -/

lemma below_iff (hn : n < 2 ^ 64) : Below top n x ↔ (x - (top - UInt64.ofNat n)).toNat < n := by
  have hlt := (top - x).toNat_lt
  have hdiff : x - (top - UInt64.ofNat n) = UInt64.ofNat n - (top - x) := by grind
  rw [Below, hdiff, UInt64.toNat_sub (UInt64.ofNat n), toNat_ofNat_of_lt hn]
  omega

/-- A byte is below the top of a larger stack, or in the part that is larger. -/
lemma Below.of_add {d : ℕ} (h : Below top (n + d) x) (hn : n < 2 ^ 64) :
    Below top n x ∨ Below (top - UInt64.ofNat n) d x := by
  have hlt := (top - x).toNat_lt
  have hdiff : top - UInt64.ofNat n - x = top - x - UInt64.ofNat n := by grind
  by_cases hle : (top - x).toNat ≤ n
  · exact .inl ⟨h.1, hle⟩
  · refine .inr ?_
    obtain ⟨-, hsum⟩ := h
    rw [Below, hdiff, UInt64.toNat_sub (top - x), toNat_ofNat_of_lt hn]
    omega

lemma Below.add {d : ℕ} (h : Below (top - UInt64.ofNat n) d x) (hn : n + d < 2 ^ 64) :
    Below top (n + d) x := by
  obtain ⟨hpos, hle⟩ := h
  have hdiff : top - x = top - UInt64.ofNat n - x + UInt64.ofNat n := by grind
  rw [Below, hdiff, UInt64.toNat_add, toNat_ofNat_of_lt (by omega)]
  omega

lemma Below.mono {d : ℕ} (h : Below top n x) (hle : n ≤ d) : Below top d x := ⟨h.1, h.2.trans hle⟩

/-- Other interrupts leave the byte alone. -/
lemma afterLater_spared (h : ∀ u ∈ later, ¬Below u.top u.used.depth.toNat x) (mem : Mem) :
    afterLater later mem x = mem x := by
  induction later generalizing mem with
  | nil => rfl
  | cons u later ih =>
      have hrest := ih (fun v hv => h v (List.mem_cons_of_mem u hv)) (u.used.under u.top mem)
      exact hrest.trans (if_neg (h u List.mem_cons_self))

/-- The last interrupt that uses the place of the byte decides what is there. -/
lemma exists_afterLater (h : ∃ u ∈ later, Below u.top u.used.depth.toNat x) :
    ∃ v, ∀ mem, afterLater later mem x = v := by
  induction later with
  | nil => simp at h
  | cons u later ih =>
      by_cases hrest : ∃ u ∈ later, Below u.top u.used.depth.toNat x
      · obtain ⟨v, hv⟩ := ih hrest
        exact ⟨v, fun mem => hv _⟩
      · have hu : Below u.top u.used.depth.toNat x := by
          obtain ⟨v, hmem, hbelow⟩ := h
          rcases List.mem_cons.mp hmem with rfl | hmem
          · exact hbelow
          · exact absurd ⟨v, hmem, hbelow⟩ hrest
        have hspared : ∀ v ∈ later, ¬Below v.top v.used.depth.toNat x :=
          fun v hv hbelow => hrest ⟨v, hv, hbelow⟩
        exact ⟨u.used.bytes x, fun mem => (afterLater_spared hspared _).trans (if_pos hu)⟩

/-- The stack pointer is lowered by less than 16 bytes. -/
lemma toNat_sub_align16 (rsp : UInt64) : (rsp - align16 rsp).toNat = rsp.toNat % 16 := by
  rw [align16, UInt64.sub_eq_add_neg, UInt64.neg_sub, UInt64.add_comm, UInt64.sub_add_cancel,
    UInt64.toNat_mod]
  rfl

/-- Places below the aligned stack pointer are not above the stack pointer. -/
lemma Below.far (h : Below (align16 rsp) n x) (hn : n < 2 ^ 33) :
    2 ^ 63 ≤ (x - rsp).toNat := by
  obtain ⟨hpos, hle⟩ := h
  have hdiff : x - rsp = -(align16 rsp - x + (rsp - align16 rsp)) := by
    generalize align16 rsp = a
    grind
  have hneg : (x - rsp).toNat =
      (2 ^ 64 - (align16 rsp - x + (rsp - align16 rsp)).toNat) % 2 ^ 64 := by
    rw [hdiff, UInt64.toNat_neg]
    rfl
  rw [hneg, UInt64.toNat_add, toNat_sub_align16]
  omega

/-- Places from the stack pointer on are not below the aligned one. -/
lemma not_below_add (rsp : UInt64) (hk : k < 40) (hn : n < 2 ^ 33) :
    ¬Below (align16 rsp) n (rsp + UInt64.ofNat k) := by
  intro h
  have hfar := h.far hn
  rw [toNat_add_ofNat_sub rsp (by omega)] at hfar
  omega

lemma rsp_timerFrame (m : Machine) (g : Gate) :
    (timerFrame m g).cpu.rsp = align16 m.cpu.rsp - 184 :=
  (pushes_interrupted m { g with stack := align16 m.cpu.rsp } TIMER_VECTOR).rsp

lemma timerInterrupt_mem (m : Machine) (g : Gate) (s : StackBytes) (x : UInt64) :
    (timerInterrupt m g s).mem x =
      if Below (align16 m.cpu.rsp - 184) s.depth.toNat x then s.bytes x
        else (timerFrame m g).mem x := by
  simp only [timerInterrupt, StackBytes.under, rsp_timerFrame]

lemma timerFrame_mem (m : Machine) (g : Gate) (h : ¬Below (align16 m.cpu.rsp) 184 x) :
    (timerFrame m g).mem x = m.mem x := by
  rw [below_iff (by omega)] at h
  have hpushes := pushes_interrupted m { g with stack := align16 m.cpu.rsp } TIMER_VECTOR
  have hrsp := rsp_timerFrame m g
  rw [timerFrame] at hrsp ⊢
  refine hpushes.mem x ?_
  rw [hrsp]
  exact Nat.le_of_not_lt h

/-- **The interrupt** leaves alone what is not below the aligned stack pointer, or too far. -/
theorem mem_timerInterrupt (m : Machine) (g : Gate)
    (h : ¬Below (align16 m.cpu.rsp) (184 + s.depth.toNat) x) :
    (timerInterrupt m g s).mem x = m.mem x := by
  have hdepth := s.depth.toNat_lt
  have hcCode : ¬Below (align16 m.cpu.rsp - 184) s.depth.toNat x := fun hbelow =>
    h (Below.add (n := 184) hbelow (by omega))
  rw [timerInterrupt_mem, if_neg hcCode]
  exact timerFrame_mem m g fun hbelow => h (hbelow.mono (by omega))

/-- The C code does not write to the frame. -/
lemma mem_timerInterrupt_frame (m : Machine) (g : Gate) (s : StackBytes) (hpos : 0 < k)
    (hk : k ≤ 184) :
    (timerInterrupt m g s).mem (align16 m.cpu.rsp - UInt64.ofNat k) =
      (timerFrame m g).mem (align16 m.cpu.rsp - UInt64.ofNat k) := by
  have hdepth := s.depth.toNat_lt
  rw [timerInterrupt_mem]
  refine if_neg fun hbelow => ?_
  have hdiff : align16 m.cpu.rsp - 184 - (align16 m.cpu.rsp - UInt64.ofNat k) =
      UInt64.ofNat k - 184 := by
    generalize align16 m.cpu.rsp = a
    grind
  obtain ⟨hne, hle⟩ := hbelow
  rw [hdiff, UInt64.toNat_sub, toNat_ofNat_of_lt (by omega)] at hne hle
  change _ ≤ (2 ^ 64 - 184 + k) % 2 ^ 64 at hne
  change (2 ^ 64 - 184 + k) % 2 ^ 64 ≤ _ at hle
  omega

/-- The words of the frame. -/
lemma holds_timerFrame (m : Machine) (g : Gate) :
    Holds (timerFrame m g).mem (align16 m.cpu.rsp - 184) (frame m.cpu TIMER_VECTOR 0).words := by
  have hstack := (interrupted_stack m { g with stack := align16 m.cpu.rsp } TIMER_VECTOR none).1
  rw [← rsp_timerFrame m g]
  exact hstack

/-- The lowest byte of the frame is one of `r15`. -/
lemma bottom_timerFrame (m : Machine) (g : Gate) :
    (timerFrame m g).mem (align16 m.cpu.rsp - 184) = UInt8.ofNat (m.cpu.gpr .r15).toNat := by
  have hbyte := load64_byte (timerFrame m g).mem (align16 m.cpu.rsp - 184) (i := 0) (by omega)
  have hword : load64 (timerFrame m g).mem (align16 m.cpu.rsp - 184) = m.cpu.gpr .r15 :=
    (holds_timerFrame m g).1
  rw [hword, Nat.pow_zero, Nat.div_one] at hbyte
  exact (congrArg _ (UInt64.add_zero _).symm).trans hbyte

/-- The highest byte is 0: it belongs to `ss`, which has two bytes in eight. -/
lemma top_timerFrame (m : Machine) (g : Gate) :
    (timerFrame m g).mem (align16 m.cpu.rsp - 1) = 0 := by
  have hword : load64 (timerFrame m g).mem (align16 m.cpu.rsp - 184 + UInt64.ofNat (8 * 22)) =
      m.cpu.ss.toUInt64 := holds_getElem (holds_timerFrame m g) (show 22 < 23 by decide)
  have hbyte := load64_byte (timerFrame m g).mem
    (align16 m.cpu.rsp - 184 + UInt64.ofNat (8 * 22)) (i := 7) (by omega)
  have hplace : align16 m.cpu.rsp - 184 + UInt64.ofNat (8 * 22) + UInt64.ofNat 7 =
      align16 m.cpu.rsp - 1 := by
    rw [UInt64.sub_eq_add_neg, UInt64.sub_eq_add_neg, UInt64.add_assoc, UInt64.add_assoc]
    rfl
  have hsmall : m.cpu.ss.toUInt64.toNat / 256 ^ 7 = 0 := by
    have hss := m.cpu.ss.toNat_lt
    rw [UInt16.toNat_toUInt64]
    exact Nat.div_eq_of_lt (by omega)
  rw [hplace, hword, hsmall] at hbyte
  exact hbyte

/-! ## The boundaries -/

/-- `startTask` before it pushes anything. -/
def startEntry : List Instr := [.movSeg .ds .rdi, .movSeg .es .rdi, .movSeg .gs .rdi, .sti]

/-- What it pushes. -/
def startPushes : List Instr := [.push .rdi, .push .rsi, .pushfq, .push .rdx, .push .rcx]

/-- `switchTask` before it pops anything. -/
def switchEntry : List Instr :=
  [.movSeg .ds .rsi, .movSeg .es .rsi, .movSeg .gs .rsi, .sti, .movToRsp .rdi]

/-- And after it has popped the general registers. -/
def switchExit : List Instr := [.addRsp 24, .iretq]

/-- In `startTask` at least one word has been pushed. -/
lemma openBoundary_start (h : OpenBoundary startTask p) : ∃ j, 1 ≤ j ∧ j ≤ 5 ∧ p = 4 + j := by
  obtain ⟨hlt, hsti⟩ := h
  have hlo : 5 ≤ p := by
    by_contra hlo
    have hp : p ≤ 4 := by omega
    interval_cases p <;> simp [startTask] at hsti
  exact ⟨p - 4, by omega, by change p < 10 at hlt; omega, by omega⟩

/-- In `switchTask` the stack pointer has been moved. -/
lemma openBoundary_switch (h : OpenBoundary switchTask p) : 5 ≤ p ∧ p ≤ 21 := by
  obtain ⟨hlt, hsti⟩ := h
  refine ⟨?_, by change p < 22 at hlt; omega⟩
  by_contra hlo
  have hp : p ≤ 4 := by omega
  interval_cases p <;> simp [switchTask] at hsti

/-- The stack pointer is in the registers of the task, or just above those that have been popped. -/
lemma atBoundary_switch (h : OpenBoundary switchTask p) (c : Cpu) (tasks : UInt64) (i : ℕ)
    (mem : Mem) : ∃ k ≤ 144,
      (ResumeCall.switch.atBoundary c tasks i mem p).cpu.rsp = taskRegs tasks i + UInt64.ofNat k ∧
      (ResumeCall.switch.atBoundary c tasks i mem p).mem = mem := by
  obtain ⟨hlo, hhi⟩ := openBoundary_switch h
  obtain ⟨j, rfl⟩ := Nat.exists_eq_add_of_le hlo
  have htake : (switchEntry ++ (popall ++ switchExit)).take (switchEntry.length + j) =
      switchEntry ++ (popall ++ switchExit).take j := List.take_length_add_append j
  change switchTask.take (5 + j) = _ at htake
  rw [ResumeCall.atBoundary, ResumeCall.code, htake, run_append]
  rcases Nat.lt_or_ge j 16 with hpops | hskip
  · have hpop : (popall ++ switchExit).take j = (popallOrder.take j).map .pop := by
      rw [List.take_append_of_le_length (by show j ≤ 15; omega), popall, List.map_take]
    have hlength : (popallOrder.take j).length = j := by
      rw [List.length_take]
      exact min_eq_left (by show j ≤ 15; omega)
    obtain ⟨hrsp, hmem⟩ := rsp_run_pop (popallOrder.take j)
      (run (ResumeCall.switch.machine c tasks i mem) switchEntry)
    rw [hlength] at hrsp
    rw [hpop]
    exact ⟨8 * j, by omega, hrsp, hmem⟩
  · obtain rfl : j = 16 := by omega
    have hpop : (popall ++ switchExit).take 16 = popall ++ [.addRsp 24] := rfl
    obtain ⟨hrsp, hmem⟩ := rsp_run_pop popallOrder
      (run (ResumeCall.switch.machine c tasks i mem) switchEntry)
    rw [hpop, run_append]
    refine ⟨144, le_refl _, ?_, hmem⟩
    refine (congrArg (· + 24) hrsp).trans ?_
    show taskRegs tasks i + UInt64.ofNat 120 + 24 = _
    rw [UInt64.add_assoc]
    rfl

/-- Words that have been pushed, the last one on top. -/
lemma holds_pushed (W : ℕ → UInt64) (top : UInt64) (j : ℕ) :
    Holds mem (top - UInt64.ofNat (8 * j)) ((List.range j).map W).reverse ↔
      ∀ k, k < j → load64 mem (top - UInt64.ofNat (8 * (k + 1))) = W k := by
  induction j with
  | zero => simp [Holds]
  | succ j ih =>
      have hnext : top - UInt64.ofNat (8 * (j + 1)) + 8 = top - UInt64.ofNat (8 * j) := by
        have hadd : UInt64.ofNat (8 * (j + 1)) = UInt64.ofNat (8 * j) + 8 := by
          rw [Nat.mul_add, UInt64.ofNat_add]
          rfl
        grind
      rw [List.range_succ, List.map_append, List.reverse_append, List.map_singleton,
        List.reverse_singleton, List.singleton_append, Holds, hnext, ih]
      constructor
      · rintro ⟨hlast, hrest⟩ k hk
        rcases Nat.lt_succ_iff_lt_or_eq.mp hk with hlt | rfl
        · exact hrest k hlt
        · exact hlast
      · intro h
        exact ⟨h j (Nat.lt_succ_self j), fun k hk => h k (Nat.lt_succ_of_lt hk)⟩

/-- What `startTask` pushes, in its order. -/
def startValue (c : Cpu) : ℕ → UInt64
  | 0 => c.gpr .rdi
  | 1 => c.gpr .rsi
  | 2 => c.rflags
  | 3 => c.gpr .rdx
  | _ => c.gpr .rcx

lemma pushed_startPushes (c : Cpu) (hj : j ≤ 5) :
    (startPushes.take j).map c.pushed = ((List.range j).map (startValue c)).map some ∧
      (startPushes.drop j).map c.pushed =
        (((List.range 5).map (startValue c)).drop j).map some := by
  interval_cases j <;> exact ⟨rfl, rfl⟩

/-- The processor before the pushes. -/
def startCpu (c : Cpu) (tasks : UInt64) (i : ℕ) (mem : Mem) : Cpu :=
  (run (ResumeCall.start.machine c tasks i mem) startEntry).cpu

/-- The first `j` of the words are on the stack, and memory is otherwise what it was. -/
lemma atBoundary_start (hj : j ≤ 5) (c : Cpu) (tasks : UInt64) (i : ℕ) (mem : Mem) :
    (∀ k, k < j → load64 (ResumeCall.start.atBoundary c tasks i mem (4 + j)).mem
        (c.rsp - UInt64.ofNat (8 * (k + 1))) = startValue (startCpu c tasks i mem) k) ∧
      (ResumeCall.start.atBoundary c tasks i mem (4 + j)).cpu =
        { startCpu c tasks i mem with
          rsp := (ResumeCall.start.atBoundary c tasks i mem (4 + j)).cpu.rsp } ∧
      Pushes ⟨c, mem⟩ (ResumeCall.start.atBoundary c tasks i mem (4 + j)) j := by
  have htake : (startEntry ++ (startPushes ++ [Instr.iretq])).take (startEntry.length + j) =
      startEntry ++ (startPushes ++ [Instr.iretq]).take j := List.take_length_add_append j
  change startTask.take (4 + j) = _ at htake
  rw [List.take_append_of_le_length hj] at htake
  have hatBoundary : ResumeCall.start.atBoundary c tasks i mem (4 + j) =
      run (run (ResumeCall.start.machine c tasks i mem) startEntry) (startPushes.take j) := by
    rw [ResumeCall.atBoundary, ResumeCall.code, htake, run_append]
  obtain ⟨hstack, hcpu, hpushes⟩ := stack_run_pushes
    (pushed_startPushes (startCpu c tasks i mem) hj).1 (show Machine.Stack _ [] from trivial)
    (by rw [List.length_map, List.length_range, List.length_nil]; omega)
  rw [List.length_map, List.length_range] at hpushes
  rw [List.append_nil] at hstack
  rw [hatBoundary]
  refine ⟨?_, hcpu, hpushes.rsp, hpushes.mem⟩
  have hrsp : (run (run (ResumeCall.start.machine c tasks i mem) startEntry)
      (startPushes.take j)).cpu.rsp = c.rsp - UInt64.ofNat (8 * j) := hpushes.rsp
  rw [Machine.Stack, hrsp] at hstack
  exact (holds_pushed _ _ _).mp hstack

/-- The stack pointer at the boundary. -/
lemma rsp_start (hj : j ≤ 5) (c : Cpu) (tasks : UInt64) (i : ℕ) (mem : Mem) :
    (ResumeCall.start.atBoundary c tasks i mem (4 + j)).cpu.rsp = c.rsp - UInt64.ofNat (8 * j) :=
  (atBoundary_start hj c tasks i mem).2.2.rsp

/-- The words that are on the stack at last: those that were there at the boundary, as they are in
memory now, and those that are pushed then. -/
def lastWord (c : Cpu) (mem : Mem) (v : ℕ → UInt64) (j k : ℕ) : UInt64 :=
  if k < j then load64 mem (c.rsp - UInt64.ofNat (8 * (k + 1))) else v k

lemma map_lastWord (c : Cpu) (mem : Mem) (v : ℕ → UInt64) (hj : j ≤ 5) :
    (List.range j).map (lastWord c mem v j) ++ ((List.range 5).map v).drop j =
      (List.range 5).map (lastWord c mem v j) := by
  interval_cases j <;> simp [lastWord, List.range_succ]

/-- **The rest of `startTask`** loads them. -/
lemma start_rest (hj : j ≤ 5) (hm : m.cpu.Same
      (ResumeCall.start.atBoundary c tasks i mem (4 + j)).cpu) :
    let w := lastWord c m.mem (startValue (startCpu c tasks i mem)) j
    (run m (startTask.drop (4 + j))).cpu.ss = (w 0).toUInt16 ∧
      (run m (startTask.drop (4 + j))).cpu.rsp = w 1 ∧
      (run m (startTask.drop (4 + j))).cpu.cs = (w 3).toUInt16 ∧
      (run m (startTask.drop (4 + j))).cpu.rip = w 4 := by
  intro w
  have hdrop : (startEntry ++ (startPushes ++ [Instr.iretq])).drop (startEntry.length + j) =
      (startPushes ++ [Instr.iretq]).drop j := List.drop_length_add_append j
  change startTask.drop (4 + j) = _ at hdrop
  rw [List.drop_append_of_le_length hj] at hdrop
  obtain ⟨-, hcpu, -⟩ := atBoundary_start hj c tasks i mem
  have hsame : startValue m.cpu = startValue (startCpu c tasks i mem) := by
    funext k
    rw [startValue.eq_def, startValue.eq_def, hm.gpr, hm.rflags, hcpu]
  have hstack : m.Stack ((List.range j).map w).reverse := by
    rw [Machine.Stack, hm.rsp, rsp_start hj]
    exact (holds_pushed _ _ _).mpr fun k hk => (if_pos hk).symm
  have hfull := (stack_run_pushes (pushed_startPushes m.cpu hj).2 hstack (by
    simp only [List.length_reverse, List.length_map, List.length_range, List.length_drop]
    omega)).1
  rw [← List.reverse_append, hsame, map_lastWord c m.mem _ hj] at hfull
  have hexec := congrArg Machine.cpu (exec_iretq (show Machine.Stack _ [w 4, w 3, w 2, w 1, w 0]
    from hfull))
  rw [hdrop, run_append, run_cons, run_nil, hexec]
  exact ⟨rfl, rfl, rfl, rfl⟩

/-- Two bytes make a selector. -/
lemma selector_iff {a w : UInt64} : (load64 mem a).toUInt16 = w.toUInt16 ↔
    ∀ b, b < 2 → mem (a + UInt64.ofNat b) = UInt8.ofNat (w.toNat / 256 ^ b) := by
  have hbyte (b : ℕ) (hb : b < 8) : mem (a + UInt64.ofNat b) = UInt8.ofNat (w.toNat / 256 ^ b) ↔
      (load64 mem a).toNat / 256 ^ b % 256 = w.toNat / 256 ^ b % 256 := by
    rw [load64_byte mem a hb, ← UInt8.toNat_inj, UInt8.toNat_ofNat', UInt8.toNat_ofNat']
  rw [← UInt16.toNat_inj, UInt64.toNat_toUInt16, UInt64.toNat_toUInt16]
  constructor
  · intro h b hb
    rw [hbyte b (by omega)]
    interval_cases b <;> omega
  · intro h
    have hlow := (hbyte 0 (by omega)).mp (h 0 (by omega))
    have hhigh := (hbyte 1 (by omega)).mp (h 1 (by omega))
    omega

/-- Eight make a word. -/
lemma word_iff {a w : UInt64} : load64 mem a = w ↔
    ∀ b, b < 8 → mem (a + UInt64.ofNat b) = UInt8.ofNat (w.toNat / 256 ^ b) := by
  constructor
  · rintro rfl b hb
    exact load64_byte mem a hb
  · intro h
    have hw := w.toNat_lt
    rw [load64, load_ofBytes h, Nat.mod_eq_of_lt (by omega), UInt64.ofNat_toNat]

/-- **What the rest of `startTask` needs** is in the bytes that have been pushed and count. -/
theorem start_loads_iff (hj : j ≤ 5) (hm : m.cpu.Same
      (ResumeCall.start.atBoundary c tasks i mem (4 + j)).cpu) :
    ResumeCall.start.Loads (loadTask mem (element tasks sizeofTask i))
        (run m (startTask.drop (4 + j))).cpu ↔
      ∀ k, k < j → ∀ b, b < startSize k →
        m.mem (c.rsp - UInt64.ofNat (8 * (k + 1)) + UInt64.ofNat b) =
          UInt8.ofNat ((startValue (startCpu c tasks i mem) k).toNat / 256 ^ b) := by
  obtain ⟨hss, hrsp, hcs, hrip⟩ := start_rest hj hm
  have hselector (k : ℕ) : (lastWord c m.mem (startValue (startCpu c tasks i mem)) j k).toUInt16 =
      (startValue (startCpu c tasks i mem) k).toUInt16 ↔ (k < j → ∀ b, b < 2 →
        m.mem (c.rsp - UInt64.ofNat (8 * (k + 1)) + UInt64.ofNat b) =
          UInt8.ofNat ((startValue (startCpu c tasks i mem) k).toNat / 256 ^ b)) := by
    by_cases hk : k < j
    · rw [lastWord, if_pos hk, selector_iff]
      exact ⟨fun h _ => h, fun h => h hk⟩
    · rw [lastWord, if_neg hk]
      exact ⟨fun _ h => absurd h hk, fun _ => rfl⟩
  have hword (k : ℕ) : lastWord c m.mem (startValue (startCpu c tasks i mem)) j k =
      startValue (startCpu c tasks i mem) k ↔ (k < j → ∀ b, b < 8 →
        m.mem (c.rsp - UInt64.ofNat (8 * (k + 1)) + UInt64.ofNat b) =
          UInt8.ofNat ((startValue (startCpu c tasks i mem) k).toNat / 256 ^ b)) := by
    by_cases hk : k < j
    · rw [lastWord, if_pos hk, word_iff]
      exact ⟨fun h _ => h, fun h => h hk⟩
    · rw [lastWord, if_neg hk]
      exact ⟨fun _ h => absurd h hk, fun _ => rfl⟩
  have hloads : ResumeCall.start.Loads (loadTask mem (element tasks sizeofTask i))
      (run m (startTask.drop (4 + j))).cpu ↔
      (lastWord c m.mem (startValue (startCpu c tasks i mem)) j 0).toUInt16 =
          (startValue (startCpu c tasks i mem) 0).toUInt16 ∧
        lastWord c m.mem (startValue (startCpu c tasks i mem)) j 1 =
          startValue (startCpu c tasks i mem) 1 ∧
        (lastWord c m.mem (startValue (startCpu c tasks i mem)) j 3).toUInt16 =
          (startValue (startCpu c tasks i mem) 3).toUInt16 ∧
        lastWord c m.mem (startValue (startCpu c tasks i mem)) j 4 =
          startValue (startCpu c tasks i mem) 4 := by
    rw [← hss, ← hrsp, ← hcs, ← hrip]
    exact Iff.rfl
  rw [hloads, hselector, hword, hselector, hword]
  constructor
  · rintro ⟨h0, h1, h3, h4⟩ k hk
    have hk5 : k < 5 := by omega
    interval_cases k
    · exact h0 hk
    · exact h1 hk
    · exact fun b hb => absurd hb (Nat.not_lt_zero b)
    · exact h3 hk
    · exact h4 hk
  · exact fun h => ⟨h 0, h 1, h 3, h 4⟩

/-! ## `switchTask` -/

/-- The frame of an interrupt reaches into the registers of the task, where it leaves a 0. -/
lemma switch_overwrites (h : OpenBoundary switchTask p) (c : Cpu) (tasks : UInt64) (mem : Mem)
    (g : Gate) (s : StackBytes) (hi : i < n) : ∃ x, (x - tasks).toNat < sizeofTask * n ∧
      (ResumeCall.switch.atBoundary c tasks i mem p).mem x = mem x ∧
      (timerInterrupt (ResumeCall.switch.atBoundary c tasks i mem p) g s).mem x = 0 := by
  obtain ⟨k, hk, hrsp, hmem⟩ := atBoundary_switch h c tasks i mem
  have htop := (mem_timerInterrupt_frame (k := 1) (ResumeCall.switch.atBoundary c tasks i mem p) g s
    (by omega) (by omega)).trans (top_timerFrame _ g)
  rw [hrsp] at htop
  refine ⟨_, ?_, congrFun hmem _, htop⟩
  have halign := toNat_sub_align16 (taskRegs tasks i + UInt64.ofNat k)
  generalize align16 (taskRegs tasks i + UInt64.ofNat k) = a at halign ⊢
  have hlt := Nat.mod_lt (taskRegs tasks i + UInt64.ofNat k).toNat (show 16 > 0 by decide)
  -- the byte is at most 16 below the stack pointer, and the registers are 16 bytes into the task
  have hplace : a - UInt64.ofNat 1 - tasks = UInt64.ofNat (sizeofTask * i + k + 15) -
      (taskRegs tasks i + UInt64.ofNat k - a) := by
    rw [taskRegs, element_natCast, UInt64.ofNat_add, UInt64.ofNat_add]
    have hfifteen : UInt64.ofNat 15 = 15 := rfl
    have hone : UInt64.ofNat 1 = 1 := rfl
    grind
  have hbound : sizeofTask * i + k + 15 < sizeofTask * n := by
    have hstep : sizeofTask * (i + 1) ≤ sizeofTask * n := Nat.mul_le_mul_left _ hi
    rw [Nat.mul_succ] at hstep
    change _ + 248 ≤ _ at hstep
    omega
  rw [hplace, UInt64.toNat_sub, halign, UInt64.toNat_ofNat']
  omega

/-- **`switchTask` never tolerates an interrupt.** -/
theorem not_tolerates_switch (h : OpenBoundary switchTask p) (c : Cpu) (tasks : UInt64) (g : Gate)
    (s : StackBytes) (later : List LaterInterrupt) (hi : i < n) :
    ¬Tolerates .switch c tasks n i (fun _ => 1) p g s later := by
  intro htolerates
  obtain ⟨x, htable, hmem, hzero⟩ := switch_overwrites h c tasks (fun _ => 1) g s hi
  have hkept := htolerates.table x htable
  rw [hmem, hzero] at hkept
  exact absurd hkept (by decide)

/-! ## `startTask` -/

/-- **`startTask` tolerates interrupts** that are outside the table, if what it has pushed is
spared. -/
theorem tolerates_start (hj : j ≤ 5) (hframe : FrameOutside c tasks n (4 + j) s.depth)
    (hspared : WordsSpared c (4 + j) later) (i : ℕ) (mem : Mem) (g : Gate) :
    Tolerates .start c tasks n i mem (4 + j) g s later := by
  obtain ⟨hwords, -, -⟩ := atBoundary_start hj c tasks i mem
  have hrsp := rsp_start hj c tasks i mem
  have hdepth := s.depth.toNat_lt
  constructor
  · intro x htable
    refine mem_timerInterrupt _ g ?_
    rw [hrsp]
    have hout := hframe x htable
    rwa [Nat.add_sub_cancel_left] at hout
  · intro m hm hstack
    refine (start_loads_iff hj hm).mpr fun k hk b hb => ?_
    have hsize : startSize k ≤ 8 := by
      rw [startSize.eq_def]
      split <;> omega
    have hloaded : LoadedByte c (4 + j) (c.rsp - UInt64.ofNat (8 * (k + 1)) + UInt64.ofNat b) :=
      ⟨k, by omega, b, hb, rfl⟩
    -- the byte is on the stack, above the stack pointer at the boundary
    have hplace : c.rsp - UInt64.ofNat (8 * (k + 1)) + UInt64.ofNat b =
        c.rsp - UInt64.ofNat (8 * j) + UInt64.ofNat (8 * (j - (k + 1)) + b) := by
      have hsum : UInt64.ofNat (8 * j) =
          UInt64.ofNat (8 * (j - (k + 1))) + UInt64.ofNat (8 * (k + 1)) := by
        rw [← UInt64.ofNat_add]
        congr 1
        omega
      rw [UInt64.ofNat_add, hsum]
      grind
    have hsame := hstack (c.rsp - UInt64.ofNat (8 * (k + 1)) + UInt64.ofNat b) (by
      have hback : c.rsp - (c.rsp - UInt64.ofNat (8 * j)) = UInt64.ofNat (8 * j) := by grind
      change _ < (c.rsp - m.cpu.rsp).toNat
      rw [hm.rsp, hrsp, hback, hplace, toNat_add_ofNat_sub _ (by omega),
        toNat_ofNat_of_lt (by omega)]
      omega)
    rw [hsame, afterLater_spared (hspared _ hloaded), mem_timerInterrupt _ g (by
      rw [hrsp, hplace]
      exact not_below_add _ (by omega) (by omega)),
      load64_byte (ResumeCall.start.atBoundary c tasks i mem (4 + j)).mem
        (c.rsp - UInt64.ofNat (8 * (k + 1))) (show b < 8 by omega), hwords k hk]

/-- A frame that is not outside the table has its first byte or its last byte there. -/
lemma frame_ends {f : UInt64} (hx : (x - tasks).toNat < sizeofTask * n) (hbelow : Below f 184 x) :
    (f - 184 - tasks).toNat < sizeofTask * n ∨ (f - 1 - tasks).toNat < sizeofTask * n := by
  obtain ⟨hpos, hle⟩ := hbelow
  by_contra hboth
  obtain ⟨hfirst, hlast⟩ := not_or.mp hboth
  have hbyte : x - tasks = f - 184 - tasks + (184 - (f - x)) := by grind
  have hend : f - 1 - tasks = f - 184 - tasks + 183 := by
    have hoffset : (183 : UInt64) = 184 - 1 := rfl
    grind
  have hinner : (184 - (f - x)).toNat = 184 - (f - x).toNat := by
    rw [UInt64.toNat_sub 184]
    change (2 ^ 64 - _ + 184) % 2 ^ 64 = _
    omega
  rw [hbyte, UInt64.toNat_add, hinner] at hx
  rw [hend, UInt64.toNat_add] at hlast
  change ¬(_ + 183) % 2 ^ 64 < 248 * n at hlast
  have hsize := (f - 184 - tasks).toNat_lt
  change ¬_ < 248 * n at hfirst
  change _ < 248 * n at hx
  omega

/-- When the interrupt reaches into the table, it leaves a byte there that does not depend on it. -/
lemma start_overwrites (hj : j ≤ 5) (h : ¬FrameOutside c tasks n (4 + j) s.depth) (i : ℕ)
    (g : Gate) :
    ∃ x v, (x - tasks).toNat < sizeofTask * n ∧
      Below (align16 (c.rsp - UInt64.ofNat (8 * j))) (184 + s.depth.toNat) x ∧
      ∀ mem, (timerInterrupt (ResumeCall.start.atBoundary c tasks i mem (4 + j)) g s).mem x =
        v := by
  have hdepth := s.depth.toNat_lt
  have hrsp (mem : Mem) := rsp_start hj c tasks i mem
  simp only [FrameOutside, Nat.add_sub_cancel_left, not_forall, not_not] at h
  obtain ⟨x, htable, hbelow⟩ := h
  have hends : ∀ k, 0 < k → k ≤ 184 → Below (align16 (c.rsp - UInt64.ofNat (8 * j)))
      (184 + s.depth.toNat) (align16 (c.rsp - UInt64.ofNat (8 * j)) - UInt64.ofNat k) := by
    intro k hpos hk
    have hdiff : ∀ a : UInt64, a - (a - UInt64.ofNat k) = UInt64.ofNat k := fun a => by grind
    rw [Below, hdiff, toNat_ofNat_of_lt (by omega)]
    omega
  rcases hbelow.of_add (by omega) with hframe | hcCode
  · rcases frame_ends htable hframe with hfirst | hlast
    · refine ⟨_, UInt8.ofNat (c.gpr .r15).toNat, hfirst, hends 184 (by omega) (by omega),
        fun mem => ?_⟩
      have hbottom := (mem_timerInterrupt_frame (k := 184)
        (ResumeCall.start.atBoundary c tasks i mem (4 + j)) g s (by omega) (by omega)).trans
        (bottom_timerFrame _ g)
      rw [hrsp, (atBoundary_start hj c tasks i mem).2.1] at hbottom
      exact hbottom
    · refine ⟨_, 0, hlast, hends 1 (by omega) (by omega), fun mem => ?_⟩
      have htop := (mem_timerInterrupt_frame (k := 1)
        (ResumeCall.start.atBoundary c tasks i mem (4 + j)) g s (by omega) (by omega)).trans
        (top_timerFrame _ g)
      rw [hrsp] at htop
      exact htop
  · refine ⟨x, s.bytes x, htable, hbelow, fun mem => ?_⟩
    rw [timerInterrupt_mem, hrsp]
    exact if_pos hcCode

/-- A table that has something else there is not tolerant. -/
lemma not_tolerates_frame (hj : j ≤ 5) (h : ¬FrameOutside c tasks n (4 + j) s.depth) (i : ℕ)
    (g : Gate) (later : List LaterInterrupt) :
    ∃ mem, ¬Tolerates .start c tasks n i mem (4 + j) g s later := by
  obtain ⟨x, v, htable, hbelow, hv⟩ := start_overwrites hj h i g
  refine ⟨fun _ => v + 1, fun htolerates => ?_⟩
  have hdepth := s.depth.toNat_lt
  obtain ⟨-, -, hpushes⟩ := atBoundary_start hj c tasks i fun _ => v + 1
  have hmem := hpushes.mem x (by
    have hfar := hbelow.far (by omega)
    rw [rsp_start hj]
    omega)
  have hkept := htolerates.table x htable
  rw [hv, hmem] at hkept
  have hnext : v = v + 1 := hkept
  grind

/-- The words that count are words of the task. -/
lemma startValue_loaded (c : Cpu) (tasks : UInt64) (i : ℕ) (mem : Mem) (hk : startSize k ≠ 0) :
    ∃ a, startValue (startCpu c tasks i mem) k = load64 mem a := by
  match k with
  | 0 | 1 | 3 | _ + 4 => exact ⟨_, rfl⟩
  | 2 => exact absurd rfl hk

/-- When a later interrupt uses the place of a byte that counts, a task that has something else in
all its bytes is not resumed as it was saved. -/
lemma not_tolerates_words (hj : j ≤ 5) (h : ¬WordsSpared c (4 + j) later) (tasks : UInt64) (n i : ℕ)
    (g : Gate) (s : StackBytes) : ∃ mem, ¬Tolerates .start c tasks n i mem (4 + j) g s later := by
  simp only [WordsSpared, not_forall, not_not] at h
  obtain ⟨x, ⟨k, hk, b, hb, rfl⟩, u, hu, hbelow⟩ := h
  obtain ⟨v, hv⟩ := exists_afterLater ⟨u, hu, hbelow⟩
  refine ⟨fun _ => v + 1, fun htolerates => ?_⟩
  have hsize : startSize k ≤ 8 := by
    rw [startSize.eq_def]
    split <;> omega
  let m : Machine :=
    { cpu := (ResumeCall.start.atBoundary c tasks i (fun _ => v + 1) (4 + j)).cpu
      mem := afterLater later (timerInterrupt
        (ResumeCall.start.atBoundary c tasks i (fun _ => v + 1) (4 + j)) g s).mem }
  have hm : m.cpu.Same (ResumeCall.start.atBoundary c tasks i (fun _ => v + 1) (4 + j)).cpu :=
    ⟨rfl, rfl, rfl, rfl, rfl, rfl⟩
  have hloads := htolerates.loads m hm fun _ _ => rfl
  have hbyte := (start_loads_iff hj hm).mp hloads k (by omega) b hb
  obtain ⟨a, ha⟩ := startValue_loaded c tasks i (fun _ => v + 1) (k := k) (by omega)
  rw [ha, ← load64_byte _ _ (by omega)] at hbyte
  exact absurd ((hv _).symm.trans hbyte) (by grind)

/-! ## All boundaries -/

/-- **Resuming a task tolerates an interrupt** only in `startTask`, and there if what the interrupt
leaves on the stack is outside the table, and the interrupts that come before the task is resumed
leave alone what `startTask` has pushed. -/
theorem resume_tolerates_iff (call : ResumeCall) (c : Cpu) (g : Gate) (tasks : UInt64) (n i p : ℕ)
    (cCode : StackBytes) (later : List LaterInterrupt) (hi : i < n)
    (hp : OpenBoundary call.code p) :
    (∀ mem, Tolerates call c tasks n i mem p g cCode later) ↔
      call = .start ∧ FrameOutside c tasks n p cCode.depth ∧ WordsSpared c p later := by
  cases call with
  | start =>
      obtain ⟨j, -, hj, rfl⟩ := openBoundary_start hp
      constructor
      · intro h
        refine ⟨rfl, ?_, ?_⟩
        · by_contra hframe
          obtain ⟨mem, hmem⟩ := not_tolerates_frame hj hframe i g later
          exact hmem (h mem)
        · by_contra hwords
          obtain ⟨mem, hmem⟩ := not_tolerates_words hj hwords tasks n i g cCode
          exact hmem (h mem)
      · rintro ⟨-, hframe, hwords⟩ mem
        exact tolerates_start hj hframe hwords i mem g
  | switch =>
      constructor
      · intro h
        exact absurd (h _) (not_tolerates_switch hp c tasks g cCode later hi)
      · rintro ⟨hstart, -⟩
        cases hstart

/-- A table that is above the stack pointer. -/
lemma frameOutside_of_above {depth : UInt32}
    (h : (tasks - align16 (c.rsp - UInt64.ofNat (8 * (p - 4)))).toNat + sizeofTask * n + 2 ^ 33
      ≤ 2 ^ 64) : FrameOutside c tasks n p depth := by
  intro x htable hbelow
  have hdepth := depth.toNat_lt
  obtain ⟨hpos, hle⟩ := hbelow
  generalize align16 (c.rsp - UInt64.ofNat (8 * (p - 4))) = a at *
  have hdiff : a - x = -(x - tasks + (tasks - a)) := by grind
  have hneg : (a - x).toNat = (2 ^ 64 - (x - tasks + (tasks - a)).toNat) % 2 ^ 64 := by
    rw [hdiff, UInt64.toNat_neg]
    rfl
  rw [hneg, UInt64.toNat_add] at hpos hle
  omega

/-- **The stack is used again.**  An interrupt whose stack starts at the stack pointer of
`startTask` or above, as that of the preempted task does, and goes further down than the first word,
is no interrupt that may come before the new task is resumed. -/
theorem not_wordsSpared_of_reused {u : LaterInterrupt} (hu : u ∈ later) (hp : 5 ≤ p)
    (hdeep : (u.top - c.rsp).toNat + 8 ≤ u.used.depth.toNat) : ¬WordsSpared c p later := by
  intro h
  have hdepth := u.used.depth.toNat_lt
  refine h (c.rsp - UInt64.ofNat 8 + UInt64.ofNat 0) ⟨0, by omega, 0, by decide, rfl⟩ u hu ?_
  have hdiff : u.top - (c.rsp - UInt64.ofNat 8 + UInt64.ofNat 0) =
      u.top - c.rsp + UInt64.ofNat 8 := by
    have hzero : UInt64.ofNat 0 = 0 := rfl
    grind
  rw [Below, hdiff, UInt64.toNat_add, toNat_ofNat_of_lt (by omega)]
  omega

/-- A core whose stack is below a table of ten tasks, and an interrupt with another stack before the
task is resumed. -/
theorem resume_tolerates_stackBelow :
    WordsSpared plainMachine.cpu 7 [⟨0x30000, ⟨0x400, fun _ => 0⟩⟩] ∧
      ∀ mem, Tolerates .start plainMachine.cpu 0x20000 10 3 mem 7 plainGate ⟨0x400, fun _ => 0⟩
        [⟨0x30000, ⟨0x400, fun _ => 0⟩⟩] := by
  have hspared : WordsSpared plainMachine.cpu 7 [⟨0x30000, ⟨0x400, fun _ => 0⟩⟩] := by
    rintro x ⟨k, hk, b, hb, rfl⟩ u hu
    obtain rfl := List.mem_singleton.mp hu
    have hapart : ∀ k < 3, ∀ b < startSize k, ¬Below 0x30000 0x400
        (0x10000 - UInt64.ofNat (8 * (k + 1)) + UInt64.ofNat b) := by decide
    exact hapart k hk b hb
  exact ⟨hspared, (resume_tolerates_iff .start _ _ _ _ _ _ _ _ (by decide) (by decide)).mpr
    ⟨rfl, frameOutside_of_above (by decide), hspared⟩⟩

/-- `switchTask` has just loaded the stack pointer. -/
theorem resume_overwrites_switchTask : OpenBoundary switchTask 5 ∧
    ¬Tolerates .switch plainMachine.cpu 0x20000 10 3 (fun _ => 1) 5 plainGate ⟨0x400, fun _ => 0⟩
      [] := by
  have hopen : OpenBoundary switchTask 5 := by decide
  exact ⟨hopen, not_tolerates_switch hopen _ _ _ _ _ (by decide)⟩

end Seaweed
