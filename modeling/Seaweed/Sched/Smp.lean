import Seaweed.Int.Gdt
import Seaweed.Int.Tss
import Seaweed.Library.Runs
import Seaweed.Sched.Scheduler

/-!
# Cores and their kernel stacks (`sched/smp.c`, `setKernelStack` in `sched/scheduler.c`)

Each core has a task state segment, whose address is in its descriptor table, and `schedulerMain`
puts the kernel stack of the next task there.  Three indices are meant to be the same: core `k > 0`
fills segment `k`, its descriptor names segment `k + 1`, and `setKernelStack` on core `c` writes the
segments `c` and `2 * c`.  They agree on core 0, and on core 1 because `2 * 1 = 1 + 1`.

* `setKernelStack`, `bootCore`, `kernelMainSMP` — the code.
* `rsp0At_setKernelStack` — the two segments that a switch writes.
* **`kernelStacks_kept`** — while only the first two cores switch, every core finds its stack.
* **`kernelStacks_core2`** — a switch on the third core takes the stack of the second.
-/

namespace Seaweed

open Words Transition Memory

/-! ## The code -/

/-- The globals of the scheduler and of the descriptor tables, and, for each core, the kernel stack
of the task that it has switched to last. -/
structure SmpState where
  sched : Sched
  table : TssTable
  gdt : UInt64 → Gdt
  gdtAddr : UInt64
  cpuInfoIndex : UInt64
  lastStack : UInt64 → Option UInt64

def setKernelStack (t : TssTable) (currentCoreNumber newKernelStack : UInt64) : TssTable :=
  let tss := grabTSS t currentCoreNumber
  let mem := store64 t.mem (tss + tssSize * currentCoreNumber + 4) newKernelStack
  { t with mem := store64 mem (tss + 4) newKernelStack }

/-- What `bootMain` does for the boot core. -/
def bootCore (s : SmpState) (stack : UInt64) : SmpState :=
  let table := createGenericTSS s.table stack
  { s with table := table, gdt := createNewGDT s.gdt s.gdtAddr 0 (grabTSS table 0) }

/-- `pmm` is the page manager when the core asks for its stack. -/
def kernelMainSMP (s : SmpState) (lapicID : UInt32) (pmm : Pmm) : SmpState :=
  let cpuInfo := Function.update s.sched.cpuInfo s.cpuInfoIndex ⟨lapicID.toUInt64, -1⟩
  let cpuInfoIndex := s.cpuInfoIndex + 1
  let stack := (physicalPageAlloc pmm 4).1 + 0x4000 + KERNEL_HIGH_VMA
  let table := createGenericTSS s.table stack
  { s with
    sched := { s.sched with cpuInfo := cpuInfo }
    table := table
    gdt := createNewGDT s.gdt s.gdtAddr (cpuInfoIndex - 1) (grabTSS table cpuInfoIndex)
    cpuInfoIndex := cpuInfoIndex }

/-- A timer interrupt. -/
def SmpState.tick (s : SmpState) (regs : Regs) : SmpState :=
  match schedulerMain s.sched regs with
  | (sched, some d) =>
      { s with
        sched := sched
        table := setKernelStack s.table d.core d.kernelStack
        lastStack := Function.update s.lastStack d.core (some d.kernelStack) }
  | (sched, none) => { s with sched := sched }

/-! ## Steps -/

inductive SmpEvent
  | bringUp (lapicID : UInt32) (pmm : Pmm)
  | create (ss : UInt16) (rsp : UInt64) (cs : UInt16) (entryPoint : UInt64) (r : TaskResources)
  | tick (regs : Regs)

/-- The next core comes up, a task is created, or a core that is up is interrupted. -/
inductive SmpStep : SmpState → SmpEvent → SmpState → Prop
  | bringUp {s : SmpState} {lapicID : UInt32} {pmm : Pmm} :
      SmpStep s (.bringUp lapicID pmm) (kernelMainSMP s lapicID pmm)
  | create {s : SmpState} {ss : UInt16} {rsp : UInt64} {cs : UInt16} {entryPoint : UInt64}
      {r : TaskResources} : SmpStep s (.create ss rsp cs entryPoint r)
        { s with sched := createNewTask s.sched ss rsp cs entryPoint r }
  | tick {s : SmpState} {regs : Regs} (hup : regs.core < s.cpuInfoIndex) :
      SmpStep s (.tick regs) (s.tick regs)

/-- Before `bootMain` has made the first segment. -/
structure SmpState.Initial (s : SmpState) : Prop where
  max : s.table.max = 8
  current : s.table.current = 0
  cpuInfoIndex : s.cpuInfoIndex = 1
  notSwitched : ∀ c, s.lastStack c = none

/-- The stack pointer in the segment that the descriptor of core `c` names. -/
def SmpState.rsp0 (s : SmpState) (c : UInt64) : UInt64 :=
  load64 s.table.mem ((s.gdt c).tss.base + 4)

/-- Every core that has switched finds the kernel stack of its task. -/
def OwnStacks (s : SmpState) : Prop := ∀ c v, s.lastStack c = some v → s.rsp0 c = v

/-- An interrupt of the core of `regs` leaves the stacks of the others alone, and writes only inside
the table. -/
structure Confined (s : SmpState) (regs : Regs) : Prop where
  others : ∀ c, c < s.cpuInfoIndex → c ≠ regs.core → (s.tick regs).rsp0 c = s.rsp0 c
  inside : ∀ x, 104 * s.table.max.toNat ≤ (x - s.table.tss).toNat →
    (s.tick regs).table.mem x = s.table.mem x

/-- Only the first two cores switch, no ninth core comes up, and the third one does not come up
after the second has switched. -/
def SmpEvent.Ok (s : SmpState) : SmpEvent → Prop
  | .bringUp .. => s.cpuInfoIndex < 8 ∧ (s.cpuInfoIndex = 2 → s.lastStack 1 = none)
  | .create .. => True
  | .tick regs => regs.core < 2 ∨ (schedulerMain s.sched regs).2 = none

def OkStep (s : SmpState) (e : SmpEvent) (s' : SmpState) : Prop := SmpStep s e s' ∧ e.Ok s

variable {s s' s₀ : SmpState} {t : TssTable} {c v stack : UInt64} {regs : Regs} {i : ℕ}
  {es : List SmpEvent} {e : SmpEvent} {d : Dispatch} {sched' : Sched} {lapicID : UInt32} {pmm : Pmm}

/-! ## What a switch writes -/

lemma mem_setKernelStack (t : TssTable) (c v : UInt64) (hc : c.toNat < 2 ^ 31) :
    (setKernelStack t c v).mem =
      store64 (store64 t.mem (segment t.tss (2 * c.toNat) + 4) v)
        (segment t.tss c.toNat + 4) v := by
  have hdouble : grabTSS t c + tssSize * c = segment t.tss (2 * c.toNat) := by
    rw [grabTSS, UInt64.add_assoc, ← UInt64.mul_add, segment_eq, UInt64.toNat_add,
      Nat.mod_eq_of_lt (by omega), Nat.two_mul]
  simp only [setKernelStack, hdouble]
  rw [grabTSS, segment_eq]

/-- **The two segments that a switch writes.** -/
theorem rsp0At_setKernelStack (hc : c.toNat < 2 ^ 31) (hi : i < 2 ^ 32) :
    rsp0At (setKernelStack t c v) i =
      if i = c.toNat ∨ i = 2 * c.toNat then v else rsp0At t i := by
  have htss : (setKernelStack t c v).tss = t.tss := rfl
  rw [rsp0At, htss, mem_setKernelStack t c v hc, load64_rsp0 (by omega) hi,
    load64_rsp0 (by omega) hi, ite_or, rsp0At]

/-- On a core of the lower half of the table, both are inside. -/
lemma setKernelStack_inside (hc : 2 * c.toNat < t.max.toNat) (hmax : t.max.toNat < 2 ^ 31)
    {x : UInt64} (hx : 104 * t.max.toNat ≤ (x - t.tss).toNat) :
    (setKernelStack t c v).mem x = t.mem x := by
  have hout : ∀ j, j < t.max.toNat → 8 ≤ (x - (segment t.tss j + 4)).toNat := by
    intro j hj
    rw [segment_rsp0, toNat_sub_add_ofNat (by omega)]
    omega
  rw [mem_setKernelStack t c v (by omega), store64_outside (hout _ (by omega)),
    store64_outside (hout _ hc)]

/-! ## The tables -/

/-- The segment that the descriptor of a core names. -/
def descriptorSlot (c : ℕ) : ℕ := if c = 0 then 0 else c + 1

/-- The tables as the cores that are up have left them. -/
structure TablesMatch (s : SmpState) : Prop where
  max : s.table.max = 8
  current : s.table.current = s.cpuInfoIndex
  index_pos : 1 ≤ s.cpuInfoIndex.toNat
  index_le : s.cpuInfoIndex.toNat ≤ 8
  descriptor : ∀ c, c < s.cpuInfoIndex →
    (s.gdt c).tss.base = segment s.table.tss (descriptorSlot c.toNat)

namespace TablesMatch

lemma lt_index (h : TablesMatch s) (hc : c < s.cpuInfoIndex) : c.toNat < 8 := by
  have := h.index_le
  rw [UInt64.lt_iff_toNat_lt] at hc
  omega

lemma slot_lt (h : TablesMatch s) (hc : c < s.cpuInfoIndex) : descriptorSlot c.toNat < 2 ^ 32 := by
  have := h.lt_index hc
  rw [descriptorSlot]
  split_ifs <;> omega

lemma rsp0_eq (h : TablesMatch s) (hc : c < s.cpuInfoIndex) :
    s.rsp0 c = rsp0At s.table (descriptorSlot c.toNat) := by
  rw [SmpState.rsp0, h.descriptor c hc, rsp0At]

/-- After the boot core has been set up. -/
lemma bootCore (h0 : s.Initial) (stack : UInt64) : TablesMatch (bootCore s stack) := by
  have hroom : s.table.current < s.table.max := by
    rw [h0.current, h0.max]
    decide
  have heq := createGenericTSS_eq (v := stack) hroom
  exact
  { max := by
      show (createGenericTSS s.table stack).max = 8
      rw [heq, ← h0.max]
    current := by
      show (createGenericTSS s.table stack).current = s.cpuInfoIndex
      rw [heq, h0.cpuInfoIndex, h0.current]
      rfl
    index_pos := by
      show 1 ≤ s.cpuInfoIndex.toNat
      rw [h0.cpuInfoIndex]
      decide
    index_le := by
      show s.cpuInfoIndex.toNat ≤ 8
      rw [h0.cpuInfoIndex]
      decide
    descriptor := by
      intro c hc
      have hzero : c = 0 := by
        change c < s.cpuInfoIndex at hc
        rw [h0.cpuInfoIndex, UInt64.lt_iff_toNat_lt, UInt64.toNat_one] at hc
        exact UInt64.toNat_inj.mp (by rw [UInt64.toNat_zero]; omega)
      subst hzero
      exact base_createNewGDT.trans (segment_eq _ 0) }

/-- The next core takes the next segment and names the one after it. -/
lemma bringUp (h : TablesMatch s) (hlt : s.cpuInfoIndex < 8) (lapicID : UInt32) (pmm : Pmm) :
    TablesMatch (kernelMainSMP s lapicID pmm) := by
  have height : (8 : UInt64).toNat = 8 := rfl
  have hroom : s.table.current < s.table.max := by rwa [h.current, h.max]
  have heq := createGenericTSS_eq
    (v := (physicalPageAlloc pmm 4).1 + 0x4000 + KERNEL_HIGH_VMA) hroom
  rw [UInt64.lt_iff_toNat_lt, height] at hlt
  have hindex : (s.cpuInfoIndex + 1).toNat = s.cpuInfoIndex.toNat + 1 := toNat_add_one (by omega)
  have hpos := h.index_pos
  exact
  { max := by
      show (createGenericTSS s.table _).max = 8
      rw [heq, ← h.max]
    current := by
      show (createGenericTSS s.table _).current = s.cpuInfoIndex + 1
      rw [heq, ← h.current]
    index_pos := by
      show 1 ≤ (s.cpuInfoIndex + 1).toNat
      omega
    index_le := by
      show (s.cpuInfoIndex + 1).toNat ≤ 8
      omega
    descriptor := by
      intro c hc
      show (createNewGDT _ _ (s.cpuInfoIndex + 1 - 1) _ c).tss.base
        = segment (createGenericTSS s.table _).tss _
      change c < s.cpuInfoIndex + 1 at hc
      rw [UInt64.lt_iff_toNat_lt, hindex] at hc
      rw [UInt64.add_sub_cancel, heq]
      rcases eq_or_ne c s.cpuInfoIndex with rfl | hne
      · rw [base_createNewGDT, grabTSS, segment_eq, hindex, descriptorSlot, if_neg (by omega)]
      · have hlt : c < s.cpuInfoIndex := by
          have := mt UInt64.toNat_inj.mp hne
          rw [UInt64.lt_iff_toNat_lt]
          omega
        rw [createNewGDT_of_ne hne]
        exact h.descriptor c hlt }

/-- Of the cores that are up, this concerns the one whose descriptor names the segment taken. -/
lemma rsp0_bringUp (h : TablesMatch s) (hlt : s.cpuInfoIndex < 8) (hc : c < s.cpuInfoIndex)
    (hslot : descriptorSlot c.toNat ≠ s.cpuInfoIndex.toNat) (lapicID : UInt32) (pmm : Pmm) :
    (kernelMainSMP s lapicID pmm).rsp0 c = s.rsp0 c := by
  have hroom : s.table.current < s.table.max := by rwa [h.current, h.max]
  have hup : c < (kernelMainSMP s lapicID pmm).cpuInfoIndex := by
    show c < s.cpuInfoIndex + 1
    rw [UInt64.lt_iff_toNat_lt] at hc hlt ⊢
    have height : (8 : UInt64).toNat = 8 := rfl
    rw [toNat_add_one (by omega)]
    omega
  rw [(h.bringUp hlt lapicID pmm).rsp0_eq hup, h.rsp0_eq hc]
  have hindex := h.index_le
  refine (rsp0At_createGenericTSS hroom ?_ (h.slot_lt hc)).trans (if_neg ?_)
  · rw [h.current]
    omega
  · rwa [h.current]

end TablesMatch

/-! ## Switches -/

/-- On the first two cores, the segments that are written are one's own and none that is named by
another core. -/
lemma written_iff {c k : ℕ} (hc : c < 2) :
    (descriptorSlot k = c ∨ descriptorSlot k = 2 * c) ↔ k = c := by
  rw [descriptorSlot]
  split_ifs <;> omega

/-- From the third core on, those that are written are the one that the core before names, and
not one's own. -/
lemma descriptorSlot_pred {c : ℕ} (hc : 2 ≤ c) :
    descriptorSlot (c - 1) = c ∧ descriptorSlot c ≠ c ∧ descriptorSlot c ≠ 2 * c := by
  rw [descriptorSlot, descriptorSlot]
  split_ifs <;> omega

/-- The stack pointers after a switch of core `c`. -/
lemma TablesMatch.rsp0_switch (h : TablesMatch s) (hcore : c < s.cpuInfoIndex) {k : UInt64}
    (hk : k < s.cpuInfoIndex) :
    load64 (setKernelStack s.table c v).mem ((s.gdt k).tss.base + 4) =
      if descriptorSlot k.toNat = c.toNat ∨ descriptorSlot k.toNat = 2 * c.toNat then v
      else s.rsp0 k := by
  have hc := h.lt_index hcore
  rw [h.rsp0_eq hk, h.descriptor k hk]
  exact rsp0At_setKernelStack (by omega) (h.slot_lt hk)

lemma tick_some (hcall : schedulerMain s.sched regs = (sched', some d)) :
    s.tick regs = { s with
      sched := sched'
      table := setKernelStack s.table d.core d.kernelStack
      lastStack := Function.update s.lastStack d.core (some d.kernelStack) } := by
  rw [SmpState.tick, hcall]

lemma tick_none (hcall : schedulerMain s.sched regs = (sched', none)) :
    s.tick regs = { s with sched := sched' } := by
  rw [SmpState.tick, hcall]

/-! ## Runs -/

/-- The tables match, only the first two cores have switched, and they find their stacks. -/
structure KernelStacks (s : SmpState) : Prop where
  tables : TablesMatch s
  switched : ∀ c v, s.lastStack c = some v →
    c.toNat < 2 ∧ c < s.cpuInfoIndex ∧ s.rsp0 c = v

namespace KernelStacks

lemma bootCore (h0 : s.Initial) (stack : UInt64) : KernelStacks (bootCore s stack) where
  tables := TablesMatch.bootCore h0 stack
  switched := fun c v hv => by
    change s.lastStack c = some v at hv
    rw [h0.notSwitched c] at hv
    exact nomatch hv

lemma bringUp (h : KernelStacks s) (hlt : s.cpuInfoIndex < 8)
    (hthird : s.cpuInfoIndex = 2 → s.lastStack 1 = none) (lapicID : UInt32) (pmm : Pmm) :
    KernelStacks (kernelMainSMP s lapicID pmm) where
  tables := h.tables.bringUp hlt lapicID pmm
  switched := by
    intro c v hv
    change s.lastStack c = some v at hv
    obtain ⟨hc, hup, hstack⟩ := h.switched c v hv
    have hpos := h.tables.index_pos
    have hle := h.tables.index_le
    refine ⟨hc, ?_, (h.tables.rsp0_bringUp hlt hup ?_ lapicID pmm).trans hstack⟩
    · show c < s.cpuInfoIndex + 1
      rw [UInt64.lt_iff_toNat_lt, toNat_add_one (by omega)]
      omega
    · -- only the third core takes a segment that is in use, the one of the second
      intro hslot
      rcases Nat.eq_zero_or_pos c.toNat with hzero | hone
      · rw [hzero] at hslot
        change 0 = _ at hslot
        omega
      · have hsecond : c = 1 := UInt64.toNat_inj.mp (by rw [UInt64.toNat_one]; omega)
        have hindex : s.cpuInfoIndex = 2 := by
          rw [descriptorSlot, if_neg (by omega)] at hslot
          exact UInt64.toNat_inj.mp (by rw [← hslot]; show _ = 2; omega)
        rw [hsecond, hthird hindex] at hv
        exact nomatch hv

/-- A switch of one of the first two cores. -/
lemma switch (h : KernelStacks s) (hup : regs.core < s.cpuInfoIndex) (hc : regs.core.toNat < 2)
    (hcall : schedulerMain s.sched regs = (sched', some d)) : KernelStacks (s.tick regs) := by
  have hcore : d.core = regs.core := schedulerMain_core (by rw [hcall])
  rw [tick_some hcall, hcore]
  refine ⟨⟨h.tables.max, h.tables.current, h.tables.index_pos, h.tables.index_le,
    h.tables.descriptor⟩, fun c v hv => ?_⟩
  change Function.update s.lastStack regs.core (some d.kernelStack) c = some v at hv
  rcases eq_or_ne c regs.core with rfl | hne
  · rw [Function.update_self, Option.some.injEq] at hv
    refine ⟨hc, hup, ?_⟩
    exact (h.tables.rsp0_switch hup hup).trans
      ((if_pos ((written_iff hc).mpr rfl)).trans hv)
  · rw [Function.update_of_ne hne] at hv
    obtain ⟨hlt, hcup, hstack⟩ := h.switched c v hv
    refine ⟨hlt, hcup, ?_⟩
    have hnot := mt (written_iff hc).mp (mt UInt64.toNat_inj.mp hne)
    exact (h.tables.rsp0_switch hup hcup).trans ((if_neg hnot).trans hstack)

/-- **A step.** -/
theorem step (h : KernelStacks s) (hstep : SmpStep s e s') (hok : e.Ok s) : KernelStacks s' := by
  cases hstep with
  | bringUp => exact h.bringUp hok.1 hok.2 ..
  | create => exact ⟨⟨h.tables.max, h.tables.current, h.tables.index_pos, h.tables.index_le,
      h.tables.descriptor⟩, h.switched⟩
  | @tick regs hup =>
      rcases hcall : schedulerMain s.sched regs with ⟨sched', _ | d⟩
      · rw [tick_none hcall]
        exact ⟨⟨h.tables.max, h.tables.current, h.tables.index_pos, h.tables.index_le,
          h.tables.descriptor⟩, h.switched⟩
      · have hc : regs.core < 2 := hok.resolve_right (by rw [hcall]; simp)
        exact h.switch hup (UInt64.lt_iff_toNat_lt.mp hc) hcall

/-- An interrupt writes nothing that another core would find. -/
lemma confined (h : KernelStacks s) (hup : regs.core < s.cpuInfoIndex)
    (hok : (SmpEvent.tick regs).Ok s) : Confined s regs := by
  rcases hcall : schedulerMain s.sched regs with ⟨sched', _ | d⟩
  · constructor <;> intros <;> rw [tick_none hcall]
    rfl
  · have hc : regs.core.toNat < 2 :=
      UInt64.lt_iff_toNat_lt.mp (hok.resolve_right (by rw [hcall]; simp))
    have hcore : d.core = regs.core := schedulerMain_core (by rw [hcall])
    constructor
    · intro c hcup hne
      rw [tick_some hcall, hcore]
      have hnot := mt (written_iff hc).mp (mt UInt64.toNat_inj.mp hne)
      exact (h.tables.rsp0_switch hup hcup).trans (if_neg hnot)
    · intro x hx
      rw [tick_some hcall, hcore]
      have hmax : s.table.max.toNat = 8 := by rw [h.tables.max]; rfl
      exact setKernelStack_inside (by omega) (by omega) hx

end KernelStacks

/-- **Kernel stacks**, in every run whose steps are `Ok`: each core finds the stack of the task that
it switched to last, and an interrupt touches neither the stacks of the other cores nor memory
outside the table. -/
theorem kernelStacks_kept (h0 : s₀.Initial)
    (hrun : Run OkStep (bootCore s₀ stack) es s) :
    OwnStacks s ∧ ∀ regs, regs.core < s.cpuInfoIndex → (SmpEvent.tick regs).Ok s →
      Confined s regs := by
  have h : KernelStacks s := hrun.invariant
    (fun _ _ _ h hstep => h.step hstep.1 hstep.2) (KernelStacks.bootCore h0 stack)
  exact ⟨fun c v hv => (h.switched c v hv).2.2, fun regs hup hok => h.confined hup hok⟩

/-- A machine before it has set up its boot core. -/
def plainSmp : SmpState where
  sched :=
    { tasks := fun _ => default
      cpuInfo := fun _ => ⟨0, -1⟩
      numberOfTasks := 0
      maxNumberOfTasks := 10
      lock := false }
  table :=
    { mem := fun _ => 0
      heap := plainState.heap
      tss := 0xffff800000124220
      max := 8
      current := 0 }
  gdt := fun _ => default
  gdtAddr := 0xffff800000124000
  cpuInfoIndex := 1
  lastStack := fun _ => none

lemma plainSmp_initial : plainSmp.Initial := ⟨rfl, rfl, rfl, fun _ => rfl⟩

/-- A page manager with 32 MiB, of which the first `8 * n` pages are taken. -/
def takenPmm (n : ℕ) : Pmm := ⟨fun i => if i < n then 0xff else 0, 0x2000000, false⟩

/-- A task whose kernel stack comes from that page manager. -/
def SmpState.createTask (s : SmpState) (n : ℕ) : SmpState :=
  { s with
    sched := createNewTask s.sched 0x23 0x10000 0x1b 0x8000
      ⟨1, 0, takenPmm n, default, fun _ => default⟩ }

lemma step_createTask (s : SmpState) (n : ℕ) : SmpStep s (.create 0x23 0x10000 0x1b 0x8000
    ⟨1, 0, takenPmm n, default, fun _ => default⟩) (s.createTask n) := .create

/-- The registers of an interrupt on core `c`. -/
def regsOf (c : UInt64) : Regs := { (default : Regs) with core := c }

/-- Two cores that have each started a task. -/
def twoCores : SmpState :=
  SmpState.tick (SmpState.tick (SmpState.createTask (SmpState.createTask
    (kernelMainSMP (bootCore plainSmp 0x8000) 1 (takenPmm 1)) 3) 4) (regsOf 1)) (regsOf 0)

theorem kernelStacks_kept_twoCores :
    (twoCores.lastStack 0 = some 0xffff800000022000 ∧
      twoCores.lastStack 1 = some 0xffff80000001a000) ∧
    OwnStacks twoCores ∧ ∀ regs, regs.core < twoCores.cpuInfoIndex →
      (SmpEvent.tick regs).Ok twoCores → Confined twoCores regs := by
  have hcores : Run OkStep (bootCore plainSmp 0x8000) _
      (kernelMainSMP (bootCore plainSmp 0x8000) 1 (takenPmm 1)) :=
    Run.single ⟨.bringUp, by decide, fun _ => rfl⟩
  have htasks := (hcores.snoc ⟨step_createTask _ 3, trivial⟩).snoc ⟨step_createTask _ 4, trivial⟩
  have hrun : Run OkStep (bootCore plainSmp 0x8000) _ twoCores :=
    (htasks.snoc ⟨.tick (by decide +kernel), Or.inl (by decide)⟩).snoc
      ⟨.tick (by decide +kernel), Or.inl (by decide)⟩
  exact ⟨by decide +kernel, kernelStacks_kept plainSmp_initial hrun⟩

/-! ## The third core -/

/-- A switch of a later core writes the segment of the core before it, and not its own. -/
theorem kernelStacks_shifted (h : TablesMatch s) (hup : regs.core < s.cpuInfoIndex)
    (hc : 2 ≤ regs.core.toNat) (hcall : schedulerMain s.sched regs = (sched', some d)) :
    (s.tick regs).rsp0 regs.core = s.rsp0 regs.core ∧
      (s.tick regs).rsp0 (regs.core - 1) = d.kernelStack := by
  have hcore : d.core = regs.core := schedulerMain_core (by rw [hcall])
  have hpred : (regs.core - 1).toNat = regs.core.toNat - 1 := by
    rw [UInt64.toNat_sub_of_le _ _ (by rw [UInt64.le_iff_toNat_le, UInt64.toNat_one]; omega),
      UInt64.toNat_one]
  have hup' : regs.core - 1 < s.cpuInfoIndex := by
    rw [UInt64.lt_iff_toNat_lt] at hup ⊢
    omega
  obtain ⟨hslot, hown, hown'⟩ := descriptorSlot_pred hc
  rw [tick_some hcall, hcore]
  refine ⟨(h.rsp0_switch hup hup).trans (if_neg (not_or.mpr ⟨hown, hown'⟩)), ?_⟩
  exact (h.rsp0_switch hup hup').trans (if_pos (Or.inl (hpred ▸ hslot)))

/-- Three cores and two tasks, the first of which core 1 has started. -/
def threeCores : SmpState :=
  SmpState.tick (SmpState.createTask (SmpState.createTask (kernelMainSMP
    (kernelMainSMP (bootCore plainSmp 0x8000) 1 (takenPmm 1)) 2 (takenPmm 2)) 3) 4) (regsOf 1)

/-- **The third core** starts the second task, and core 1 finds its kernel stack. -/
theorem kernelStacks_core2 :
    (∃ es, Run SmpStep (bootCore plainSmp 0x8000) es threeCores) ∧
      (regsOf 2).core < threeCores.cpuInfoIndex ∧
      ¬ OwnStacks (threeCores.tick (regsOf 2)) ∧ ¬ Confined threeCores (regsOf 2) := by
  have hcores : Run SmpStep (bootCore plainSmp 0x8000) _ (kernelMainSMP
      (kernelMainSMP (bootCore plainSmp 0x8000) 1 (takenPmm 1)) 2 (takenPmm 2)) :=
    (Run.single .bringUp).snoc .bringUp
  have hlast : (threeCores.tick (regsOf 2)).lastStack 1 = some 0xffff80000001a000 := by
    decide +kernel
  have htasks := (hcores.snoc (step_createTask _ 3)).snoc (step_createTask _ 4)
  refine ⟨⟨_, htasks.snoc (.tick (by decide +kernel))⟩,
    by decide +kernel, fun hown => ?_, fun hconfined => ?_⟩
  · exact absurd (hown 1 _ hlast) (by decide +kernel)
  · exact absurd (hconfined.others 1 (by decide +kernel) (by decide)) (by decide +kernel)

end Seaweed
