import Seaweed.Sched.Interleavings
import Seaweed.Sched.Smp

/-!
# Kernel stacks of two cores, step by step

A core stays on the stack of the task that it leaves until `startTask` or `switchTask`, while
`setKernelStack` has already stored the stack of the next one in a segment, and the lock is free
again before that.  The segment is the one that the descriptor of the core names only on the first
two cores (`Smp`), so only these take part here.

* `StackState`, `StackStep` — the steps of the cores, with their segments and their stacks.
* `FineState.taskOn` — the task on whose stack a core is.
* `CoreStacks` — the invariant: what is in the segment of a core, and where it is.
* **`interleaving_stacksApart`** — the two cores are not on one stack, except after a release.
-/

namespace Seaweed

open FirstFit Words SpinLock Transition

variable {s s' : Sched} {a : SchedState} {q : RunQueue UInt64} {v : Found} {p : Place}
  {m : Leaving} {c c' : UInt64} {n : ℕ} {es : List SchedEvent} {f f' f₀ : FineState}
  {fes : List FineEvent} {e : FineEvent}

/-! ## Segments -/

/-- The access with which `setKernelStack` is called. -/
def Place.storing : Place → Option Found
  | .setStack v _ => some v
  | _ => none

/-- The cores, their segments, and the stack on which each has come into `schedulerMain`. -/
structure StackState where
  fine : FineState
  table : TssTable
  gdt : UInt64 → Gdt
  entered : UInt64 → UInt64

namespace StackState

variable (x : StackState)

/-- The stack that an interrupt of core `c` in user mode gets: `rsp0` of the segment that its
descriptor names. -/
def rsp0 (c : UInt64) : UInt64 := Memory.load64 x.table.mem ((x.gdt c).tss.base + 4)

/-- The segments after a step: only `setKernelStack` stores there. -/
def stored (e : FineEvent) : TssTable :=
  match e with
  | .work c => match x.fine.phase c with
    | .inside p => match p.storing with
      | some v => setKernelStack x.table v.regs.core
          (x.fine.shared.sched.tasks v.nextTask).kernelStack
      | none => x.table
    | _ => x.table
  | _ => x.table

/-- A timer interrupt puts the core on its kernel stack. -/
def interrupted (e : FineEvent) : UInt64 → UInt64 :=
  match e with
  | .call regs => Function.update x.entered regs.core (x.rsp0 regs.core)
  | _ => x.entered

/-- Where core `c` is, or where its next interrupt puts it. -/
def stackOf (c : UInt64) : UInt64 :=
  match x.fine.phase c with
  | .outside => x.rsp0 c
  | _ => x.entered c

end StackState

def StackState.after (x : StackState) (e : FineEvent) (f : FineState) : StackState :=
  ⟨f, x.stored e, x.gdt, x.interrupted e⟩

inductive StackStep : StackState → FineEvent → StackState → Prop
  | mk {x : StackState} {e : FineEvent} {f : FineState} (h : FineStep x.fine e f) :
      StackStep x e (x.after e f)

/-- Only the first two cores are interrupted. -/
def OnFirstTwo (e : FineEvent) : Prop := ∀ regs, e = .call regs → regs.core.toNat < 2

def TwoCoreStep (x : StackState) (e : FineEvent) (x' : StackState) : Prop :=
  StackStep x e x' ∧ OnFirstTwo e

/-! ## The task on whose stack a core is -/

def Place.found : Place → Option Found
  | .saveRegs v | .saveStatus v | .setCurrent v | .resetIdle v | .initSpace v | .setStack v _
  | .start v _ _ | .switch v _ _ => some v
  | .release m => m.found
  | _ => none

/-- `setKernelStack` is still to come. -/
def Place.unstored : Place → Option Found
  | .saveRegs v | .saveStatus v | .setCurrent v | .resetIdle v | .initSpace v
  | .setStack v _ => some v
  | _ => none

lemma Place.Of.found_eq (h : p.Of v) : p.found = some v := by
  cases h <;> rfl

def FineState.found (f : FineState) (c : UInt64) : Option Found :=
  match f.phase c with
  | .inside p => p.found
  | .after m => m.found
  | _ => none

def FineState.unstored (f : FineState) (c : UInt64) : Option Found :=
  match f.phase c with
  | .inside p => p.unstored
  | _ => none

/-- The task that the core leaves, or else the one it runs. -/
def orCurrent (o : Option Found) (s : Sched) (c : UInt64) : ℤ :=
  (o.map Found.lastTask).getD (s.cpuInfo c).currentTask

/-- The task on whose kernel stack a core is, when it is in `schedulerMain`: the one that it has
been running, also after it has been given another one. -/
def FineState.taskOn (f : FineState) (c : UInt64) : ℤ := orCurrent (f.found c) f.shared.sched c

/-- The task whose kernel stack is in the segment of a core. -/
def FineState.taskIn (f : FineState) (c : UInt64) : ℤ := orCurrent (f.unstored c) f.shared.sched c

/-- The core is not between `spinRelease` and `startTask` or `switchTask`. -/
def FineState.Settled (f : FineState) (c : UInt64) : Prop :=
  ∀ m, f.phase c = .after m → m.found = none

instance (f : FineState) (c : UInt64) : Decidable (f.Settled c) :=
  decidable_of_iff ((match f.phase c with
    | .after m => m.found.isNone
    | _ => true) = true) (by
      rw [FineState.Settled]
      cases f.phase c <;> simp)

lemma currentTask_outside (hstands : follows.Stands f (a, es)) (hout : ∀ p, f.phase c ≠ .inside p) :
    (f.shared.sched.cpuInfo c).currentTask = (a.sched.cpuInfo c).currentTask := by
  obtain ⟨o, hholder, q, s, hfollows⟩ := hstands.holder
  rw [hfollows.tables, cpuInfo_apply, hfollows.place.cpuInfo_eq]
  rintro p rfl
  cases hholder with
  | held _ hphase _ => exact hout p hphase

/-- The task is the one the core runs, or the one that the core has just left while it still holds
the lock. -/
lemma taskOn_cases (hstands : follows.Stands f (a, es)) (hsettled : f.Settled c) :
    f.taskOn c = (a.sched.cpuInfo c).currentTask ∨
      (∃ p, f.phase c = .inside p) ∧ a.Left (f.taskOn c) := by
  obtain ⟨o, hholder, q, s, hfollows⟩ := hstands.holder
  have hcpu : f.shared.sched.cpuInfo = s.cpuInfo := by rw [hfollows.tables, cpuInfo_apply]
  cases hphase : f.phase c with
  | outside | spinning | stuck =>
      refine Or.inl ?_
      rw [← currentTask_outside hstands (by simp [hphase]), FineState.taskOn, FineState.found,
        hphase]
      rfl
  | after m =>
      refine Or.inl ?_
      rw [← currentTask_outside hstands (by simp [hphase]), FineState.taskOn, FineState.found,
        hphase]
      simp only [hsettled m hphase]
      rfl
  | inside p =>
      obtain rfl := hholder.eq_of_inside hphase
      have hprogress : Progress c a es p s := hfollows.place
      rw [FineState.taskOn, FineState.found, orCurrent, hphase, hcpu]
      cases hprogress with
      | switching hswitch =>
          simp only [hswitch.place.found_eq, Option.map_some, Option.getD_some]
          exact Or.inr ⟨⟨_, rfl⟩, hswitch.last⟩
      | @gone m hgone hlast =>
          cases hfound : m.found with
          | none => exact Or.inl (by simp only [Place.found, hfound]; rfl)
          | some v =>
              simp only [Place.found, hfound, Option.map_some, Option.getD_some]
              exact Or.inr ⟨⟨_, rfl⟩, hlast v hfound⟩
      | _ => exact Or.inl rfl

/-- **No two cores are on the stack of one task**, unless one of them has released the lock and not
come to the task that it switches to. -/
theorem taskOn_apart (hstands : follows.Stands f (a, es)) (hne : c ≠ c') (hc : f.Settled c)
    (hc' : f.Settled c') (hused : f.taskOn c ≠ -1) : f.taskOn c ≠ f.taskOn c' := by
  intro hsame
  obtain ⟨o, hholder, q, s, hfollows⟩ := hstands.holder
  have hrep : Represents a q := hfollows.represents
  -- a task that a core has left waits, so no core runs it
  have hleft : ∀ d, a.Left (f.taskOn c) → f.taskOn c ≠ (a.sched.cpuInfo d).currentTask := by
    rintro d (hnone | ⟨n, hn, _, hwait⟩) hrun
    · exact hused hnone
    · have hrunning := hrep.running d n (hrep.current_eq_iff.mp (hrun.symm.trans hn))
      exact absurd (hwait.symm.trans hrunning) (by decide)
  rcases taskOn_cases hstands hc, taskOn_cases hstands hc' with
    ⟨hcur | ⟨⟨p, hp⟩, hwait⟩, hcur' | ⟨⟨p', hp'⟩, hwait'⟩⟩
  · cases hcore : q.running c with
    | none => exact hused (hcur.trans (hrep.current_eq_neg_iff.mpr hcore))
    | some i =>
        have hi := hrep.current_eq_iff.mpr hcore
        rw [hsame, hcur'] at hcur
        have hcore' := hrep.current_eq_iff.mp (hcur.trans hi)
        exact hne (q.running_inj c c' i hcore hcore')
  · exact hleft c (hsame ▸ hwait') hcur
  · exact hleft c' hwait (hsame.trans hcur')
  · exact hne (hholder.exclusive hp hp')

/-! ## Tasks that are counted -/

/-- A task that a core runs or has left is in the table. -/
lemma Represents.counted (h : Represents a q) {k : ℤ}
    (hk : k = (a.sched.cpuInfo c).currentTask ∨ a.Left k) (hn : k = n) :
    n < a.sched.numberOfTasks.toNat := by
  rcases hk with hk | hnone | ⟨l, hl, hlt, -⟩
  · have hrun := h.current_eq_iff.mp (hk.symm.trans hn)
    rw [h.created]
    exact lt_of_lt_of_le (q.running_lt_started hrun) q.started_le
  · omega
  · omega

/-- So is the one whose stack is in the segment. -/
lemma taskIn_cases (hstands : follows.Stands f (a, es)) :
    f.taskIn c = (a.sched.cpuInfo c).currentTask ∨ a.Left (f.taskIn c) := by
  obtain ⟨o, hholder, q, s, hfollows⟩ := hstands.holder
  have hcpu : f.shared.sched.cpuInfo = s.cpuInfo := by rw [hfollows.tables, cpuInfo_apply]
  cases hphase : f.phase c with
  | outside | spinning | stuck | after =>
      refine Or.inl ?_
      rw [← currentTask_outside hstands (by simp [hphase]), FineState.taskIn, FineState.unstored,
        hphase]
      rfl
  | inside p =>
      obtain rfl := hholder.eq_of_inside hphase
      have hprogress : Progress c a es p s := hfollows.place
      rw [FineState.taskIn, FineState.unstored, orCurrent, hphase, hcpu]
      cases hprogress with
      | @switching v p s hswitch =>
          obtain ⟨n, hn, -, hcurrent⟩ := hswitch.next
          cases hunstored : p.unstored with
          | none =>
              simp only [hunstored, Option.map_none, Option.getD_none]
              rcases hswitch.own with hown | hown
              · exact Or.inr (hown ▸ hswitch.last)
              · exact Or.inl (by rw [hown, hn, hcurrent])
          | some v' =>
              obtain rfl : v' = v := by
                have hplace := hswitch.place
                cases hplace <;> simp_all [Place.unstored]
              simp only [hunstored, Option.map_some, Option.getD_some]
              exact Or.inr hswitch.last
      | _ => exact Or.inl rfl

/-! ## An access of the core that holds the lock -/

/-- The accesses that are left keep to the task that has been found. -/
lemma Switching.found_next (h : Switching c a es v p s) : (work p s).1.found = some v := by
  obtain ⟨k, m, hfinishes, _, hfound⟩ := h.finishes
  rcases h.place.next s with hplace | ⟨m', hrelease⟩
  · exact hplace.found_eq
  · cases k with
    | zero =>
        have hplace := h.place
        obtain ⟨rfl, -⟩ := Prod.mk.inj hfinishes
        exact nomatch hplace
    | succ k =>
        have hrest : work p s = (.release m', (work p s).2) := Prod.ext hrelease rfl
        rw [works_succ, hrest, works_release] at hfinishes
        obtain ⟨⟨rfl⟩, -⟩ := Prod.mk.inj hfinishes
        rw [hrelease]
        exact hfound

/-- The core has been given its task. -/
def Place.Given : Place → Prop
  | .resetIdle _ | .initSpace _ | .setStack .. | .start .. | .switch .. | .release _ => True
  | _ => False

lemma Place.Given.work (h : p.Given) (s : Sched) :
    (work p s).1.Given ∧ (Seaweed.work p s).2.cpuInfo = s.cpuInfo := by
  cases p with
  | resetIdle | initSpace | setStack | release => exact ⟨trivial, rfl⟩
  | start | switch =>
      rw [Seaweed.work]
      split_ifs <;> exact ⟨trivial, rfl⟩
  | _ => exact h.elim

lemma Place.Given.works (h : p.Given) (s : Sched) (k : ℕ) :
    (works k (p, s)).2.cpuInfo = s.cpuInfo := by
  induction k generalizing p s with
  | zero => rfl
  | succ k ih =>
      obtain ⟨hgiven, hcpu⟩ := h.work s
      rw [works_succ, ih hgiven, hcpu]

lemma Switching.current_eq (h : Switching c a es v p s) (hgiven : p.Given) :
    (s.cpuInfo c).currentTask = v.nextTask := by
  obtain ⟨k, m, hfinishes, -⟩ := h.finishes
  obtain ⟨n, hn, -, hcurrent⟩ := h.next
  have hcpu := hgiven.works s k
  rw [hfinishes] at hcpu
  rw [← hcpu, hcurrent, hn]

/-- A task that is found at the end of the search takes the place of the current one. -/
lemma orCurrent_afterSearch {regs : Regs} {nextTask : ℤ} (s : Sched) :
    orCurrent (afterSearch regs (s.cpuInfo c).currentTask nextTask).found s c =
        (s.cpuInfo c).currentTask ∧
      orCurrent (afterSearch regs (s.cpuInfo c).currentTask nextTask).unstored s c =
        (s.cpuInfo c).currentTask := by
  rw [afterSearch]
  split_ifs <;> exact ⟨rfl, rfl⟩

/-- **An access** leaves the core on its stack, and stores at most that of the next task. -/
lemma Progress.stacks (hp : Progress c a es p s) (hends : ∀ m, p ≠ .release m) :
    orCurrent (work p s).1.found (work p s).2 c = orCurrent p.found s c ∧
      orCurrent (work p s).1.unstored (work p s).2 c =
        (p.storing.map Found.nextTask).getD (orCurrent p.unstored s c) := by
  cases hp with
  | countTasks hcore =>
      simp only [work]
      split_ifs <;> exact ⟨rfl, rfl⟩
  | currentTask hcore => exact ⟨rfl, rfl⟩
  | @test regs last i cnt next hscan =>
      have hlast : last = ((a.scanned i).cpuInfo c).currentTask := hscan.last
      simp only [work]
      split_ifs
      · exact ⟨rfl, rfl⟩
      · rw [hlast]
        exact orCurrent_afterSearch (a.scanned i)
  | waiting hscan hi =>
      simp only [work]
      split_ifs <;> exact ⟨rfl, rfl⟩
  | @waitingToStart regs last i cnt next hscan =>
      have hlast : last = ((a.scanned (i + 1)).cpuInfo c).currentTask := hscan.last
      simp only [work]
      split_ifs
      · rw [hlast]
        exact @orCurrent_afterSearch c regs i (a.scanned (i + 1))
      · exact ⟨rfl, rfl⟩
  | @switching v p s hswitch =>
      have hfound : orCurrent (work p s).1.found (work p s).2 c = orCurrent p.found s c := by
        rw [hswitch.found_next, hswitch.place.found_eq]
        rfl
      refine ⟨hfound, ?_⟩
      have hplace := hswitch.place
      cases hplace with
      | setStack => exact hswitch.current_eq trivial
      | start | switch =>
          simp only [work]
          split_ifs <;> rfl
      | _ => rfl
  | gone => exact absurd rfl (hends _)

/-- The others keep their tasks. -/
lemma Progress.cpuInfo_other (hp : Progress c a es p s) (hne : c' ≠ c) :
    (work p s).2.cpuInfo c' = s.cpuInfo c' := by
  cases hp with
  | switching hswitch => exact (hswitch.place.frame s).2.1 c' (hswitch.core ▸ hne)
  | countTasks | test | waiting | waitingToStart =>
      simp only [work]
      split_ifs <;> rfl
  | currentTask | gone => rfl

lemma orCurrent_congr {o : Option Found} (h : s'.cpuInfo c = s.cpuInfo c) :
    orCurrent o s' c = orCurrent o s c := by
  rw [orCurrent, orCurrent, h]

/-- The same for a state of the cores. -/
lemma work_tasks (hstands : follows.Stands f (a, es)) (hphase : f.phase c = .inside p)
    (hends : ∀ m, p ≠ .release m) :
    orCurrent (work p f.shared.sched).1.found (work p f.shared.sched).2 c = f.taskOn c ∧
      orCurrent (work p f.shared.sched).1.unstored (work p f.shared.sched).2 c =
        (p.storing.map Found.nextTask).getD (f.taskIn c) ∧
      (∀ c', c' ≠ c → (work p f.shared.sched).2.cpuInfo c' = f.shared.sched.cpuInfo c') ∧
      ∀ v, p.storing = some v → v.regs.core = c := by
  obtain ⟨o, hholder, q, s, hfollows⟩ := hstands.holder
  obtain rfl := hholder.eq_of_inside hphase
  have hprogress : Progress c a es p s := hfollows.place
  obtain ⟨hon, hin⟩ := hprogress.stacks hends
  have hcpu : f.shared.sched.cpuInfo = s.cpuInfo := by rw [hfollows.tables, cpuInfo_apply]
  have htaskOn : f.taskOn c = orCurrent p.found s c := by
    rw [FineState.taskOn, FineState.found, hphase]
    exact orCurrent_congr (congrFun hcpu c)
  have htaskIn : f.taskIn c = orCurrent p.unstored s c := by
    rw [FineState.taskIn, FineState.unstored, hphase]
    exact orCurrent_congr (congrFun hcpu c)
  have happly : (f.shared.creator.apply (work p s).2).cpuInfo = (work p s).2.cpuInfo :=
    cpuInfo_apply ..
  rw [hfollows.work_eq hends, htaskOn, htaskIn]
  refine ⟨?_, ?_, fun c' hne => ?_, ?_⟩
  · exact (orCurrent_congr (congrFun happly c)).trans hon
  · exact (orCurrent_congr (congrFun happly c)).trans hin
  · rw [happly, hcpu, hprogress.cpuInfo_other hne]
  · rintro v hv
    cases hprogress with
    | switching hswitch =>
        have hplace := hswitch.place
        cases hplace with
        | setStack =>
            obtain rfl := Option.some.inj hv
            exact hswitch.core
        | _ => exact nomatch hv
    | _ => exact nomatch hv

/-! ## The invariant -/

/-- The stack in the segment of core `c`, and the one that the core is on. -/
structure CoreStacks (x : StackState) (c : UInt64) : Prop where
  next : ∀ n : ℕ, x.fine.taskIn c = n → x.rsp0 c = (x.fine.shared.sched.tasks n).kernelStack
  entered : x.fine.phase c ≠ .outside → x.fine.Settled c → ∀ n : ℕ, x.fine.taskOn c = n →
    x.entered c = (x.fine.shared.sched.tasks n).kernelStack

structure StacksFollow (x : StackState) : Prop where
  stands : ∃ b, follows.Stands x.fine b
  first : ∀ c, x.fine.phase c ≠ .outside → c.toNat < 2
  descriptor : ∀ c, c.toNat < 2 →
    (x.gdt c).tss.base = segment x.table.tss (descriptorSlot c.toNat)
  core : ∀ c, c.toNat < 2 → CoreStacks x c

variable {x x' : StackState}

/-- What a core does not notice. -/
lemma CoreStacks.frame (h : CoreStacks x c) (hin : x'.fine.taskIn c = x.fine.taskIn c)
    (hon : x'.fine.phase c ≠ .outside → x'.fine.Settled c →
      x.fine.phase c ≠ .outside ∧ x.fine.Settled c ∧ x'.fine.taskOn c = x.fine.taskOn c)
    (hrsp0 : x'.rsp0 c = x.rsp0 c) (hentered : x'.entered c = x.entered c)
    (hstacks : ∀ n : ℕ, x.fine.taskIn c = n ∨ x.fine.Settled c ∧ x.fine.taskOn c = n →
      (x'.fine.shared.sched.tasks n).kernelStack = (x.fine.shared.sched.tasks n).kernelStack) :
    CoreStacks x' c where
  next := by
    intro n hn
    rw [hin] at hn
    rw [hrsp0, h.next n hn, hstacks n (Or.inl hn)]
  entered := by
    intro hphase hsettled n hn
    obtain ⟨hphase', hsettled', hsame⟩ := hon hphase hsettled
    rw [hsame] at hn
    rw [hentered, h.entered hphase' hsettled' n hn, hstacks n (Or.inr ⟨hsettled', hn⟩)]

lemma tss_stored (x : StackState) (e : FineEvent) : (x.stored e).tss = x.table.tss := by
  cases e with
  | work c =>
      rw [StackState.stored]
      split
      · split <;> rfl
      · rfl
  | _ => rfl

/-- **`setKernelStack` on one of the first two cores** stores in its own segment alone. -/
lemma StacksFollow.rsp0_setKernelStack (h : StacksFollow x) (hc : c.toNat < 2)
    (hc' : c'.toNat < 2) (stack : UInt64) :
    Memory.load64 (setKernelStack x.table c stack).mem ((x.gdt c').tss.base + 4) =
      if c' = c then stack else x.rsp0 c' := by
  have hslot : descriptorSlot c'.toNat < 2 ^ 32 := by
    rw [descriptorSlot]
    split_ifs <;> omega
  have hwritten := rsp0At_setKernelStack (t := x.table) (v := stack) (c := c) (by omega) hslot
  have hrsp0 : x.rsp0 c' = rsp0At x.table (descriptorSlot c'.toNat) := by
    rw [StackState.rsp0, h.descriptor c' hc', rsp0At]
  simp only [written_iff hc, UInt64.toNat_inj] at hwritten
  rw [h.descriptor c' hc', hrsp0]
  exact hwritten

/-- What an access leaves in the segments. -/
lemma StacksFollow.rsp0_work (h : StacksFollow x) {t : UInt64}
    (hinside : x.fine.phase t = .inside p)
    (hcore : ∀ v, p.storing = some v → v.regs.core = t) (hc : c.toNat < 2) :
    Memory.load64 (x.stored (.work t)).mem ((x.gdt c).tss.base + 4) =
      match p.storing with
      | some v =>
          if c = t then (x.fine.shared.sched.tasks v.nextTask).kernelStack else x.rsp0 c
      | none => x.rsp0 c := by
  have ht : t.toNat < 2 := h.first t (by simp [hinside])
  rw [StackState.stored, hinside]
  cases hv : p.storing with
  | none => simp only [hv, StackState.rsp0]
  | some v =>
      simp only [hv]
      rw [hcore v hv, h.rsp0_setKernelStack ht hc]

/-! ## Steps -/

lemma taskIn_outside (hout : ∀ p, f.phase c ≠ .inside p) :
    f.taskIn c = (f.shared.sched.cpuInfo c).currentTask := by
  rw [FineState.taskIn, FineState.unstored]
  cases hphase : f.phase c with
  | inside p => exact absurd hphase (hout p)
  | _ => rfl

lemma taskOn_outside (hout : ∀ p, f.phase c ≠ .inside p) (hsettled : f.Settled c) :
    f.taskOn c = (f.shared.sched.cpuInfo c).currentTask := by
  rw [FineState.taskOn, FineState.found]
  cases hphase : f.phase c with
  | inside p => exact absurd hphase (hout p)
  | after m =>
      simp only [hsettled m hphase]
      rfl
  | _ => rfl

/-- A core that another one's step does not concern. -/
lemma frame_other (f f' : FineState) (hphase : f'.phase c = f.phase c)
    (hcpu : f'.shared.sched.cpuInfo c = f.shared.sched.cpuInfo c) :
    f'.taskIn c = f.taskIn c ∧ (f'.Settled c ↔ f.Settled c) ∧ f'.taskOn c = f.taskOn c := by
  refine ⟨?_, ?_, ?_⟩
  · rw [FineState.taskIn, FineState.taskIn, FineState.unstored, hphase]
    exact orCurrent_congr hcpu
  · rw [FineState.Settled, FineState.Settled, hphase]
  · rw [FineState.taskOn, FineState.taskOn, FineState.found, hphase]
    exact orCurrent_congr hcpu

lemma eq_release (h : schedulerSection.ends p = some m) : p = .release m := by
  cases p with
  | release m' => exact congrArg Place.release (Option.some.inj h)
  | _ => simp [schedulerSection] at h

/-- Only those cores take part. -/
lemma StacksFollow.first_step (h : StacksFollow x) (hfirst : OnFirstTwo e)
    (hstep : FineStep x.fine e f) (hphase : f.phase c ≠ .outside) : c.toNat < 2 := by
  by_cases hold : x.fine.phase c = .outside
  · cases hstep with
    | @call regs hcall =>
        rcases eq_or_ne c regs.core with rfl | hne
        · exact hfirst regs rfl
        · exact absurd ((phase_go_of_ne hne).trans hold) hphase
    | @fail t regs k hheld hspin | @take t regs k hheld hspin =>
        rcases eq_or_ne c t with rfl | hne
        · exact nomatch hold.symm.trans hspin
        · exact absurd ((phase_go_of_ne hne).trans hold) hphase
    | @work t p hinside hends | @release t p m hinside hends =>
        rcases eq_or_ne c t with rfl | hne
        · exact nomatch hold.symm.trans hinside
        · exact absurd ((phase_go_of_ne hne).trans hold) hphase
    | @finish t m hafter =>
        rcases eq_or_ne c t with rfl | hne
        · exact nomatch hold.symm.trans hafter
        · exact absurd ((phase_go_of_ne hne).trans hold) hphase
    | env => exact absurd hold hphase
  · exact h.first c hold

/-- A step that stores nothing concerns a core only if it moves it. -/
lemma CoreStacks.moved (h : CoreStacks x c) (hshared : f.shared = x.fine.shared)
    (hstored : x.stored e = x.table) (hentered : x.interrupted e c = x.entered c)
    (hin : f.taskIn c = x.fine.taskIn c)
    (hon : f.phase c ≠ .outside → f.Settled c →
      x.fine.phase c ≠ .outside ∧ x.fine.Settled c ∧ f.taskOn c = x.fine.taskOn c) :
    CoreStacks (x.after e f) c := by
  refine h.frame hin hon ?_ hentered fun n _ => by rw [StackState.after, hshared]
  rw [StackState.rsp0, StackState.after, hstored, StackState.rsp0]

/-- A core that is elsewhere. -/
lemma CoreStacks.elsewhere (h : CoreStacks x c) (hphase : f.phase c = x.fine.phase c)
    (hshared : f.shared = x.fine.shared) (hstored : x.stored e = x.table)
    (hentered : x.interrupted e c = x.entered c) : CoreStacks (x.after e f) c := by
  obtain ⟨hin, hsettled, hon⟩ := frame_other _ _ hphase (by rw [hshared])
  exact h.moved hshared hstored hentered hin fun hout hs => ⟨hphase ▸ hout, hsettled.mp hs, hon⟩

/-- An interrupt puts the core on the stack in its segment. -/
lemma CoreStacks.called {regs : Regs} (h : CoreStacks x regs.core)
    (hout : x.fine.phase regs.core = .outside) :
    CoreStacks (x.after (.call regs) (x.fine.go regs.core (.spinning regs 0))) regs.core := by
  have hin := taskIn_outside (f := x.fine) (c := regs.core) (by simp [hout])
  refine ⟨fun n hn => h.next n ?_, fun _ hs n hn => ?_⟩
  · have htask := taskIn_outside (f := x.fine.go regs.core (.spinning regs 0))
      (c := regs.core) (by simp)
    exact hin.trans (htask.symm.trans hn)
  · have htask := taskOn_outside (f := x.fine.go regs.core (.spinning regs 0))
      (c := regs.core) (by simp) hs
    exact (Function.update_self ..).trans (h.next n (hin.trans (htask.symm.trans hn)))

/-- **An access** of core `t`. -/
lemma StacksFollow.core_work (h : StacksFollow x) {t : UInt64}
    (hinside : x.fine.phase t = .inside p) (hends : ∀ m, p ≠ .release m) (hc : c.toNat < 2) :
    CoreStacks (x.after (.work t)
      { x.fine.go t (.inside (work p x.fine.shared.sched).1) with
        shared := { x.fine.shared with
          sched := (work p x.fine.shared.sched).2
          entered := x.fine.shared.entered ++ p.entering } }) c := by
  have hold := h.core c hc
  obtain ⟨⟨a, es⟩, hstands⟩ := h.stands
  obtain ⟨hon, hin, hcpu, hcore⟩ := work_tasks hstands hinside hends
  have hkeeps := (keepsTables_work p x.fine.shared.sched).kernelStack
  have hrsp0 := h.rsp0_work hinside hcore hc
  rcases eq_or_ne c t with rfl | hne
  · have hsettled : x.fine.Settled c := by simp [FineState.Settled, hinside]
    refine ⟨fun n hn => ?_, fun _ _ n hn => ?_⟩
    · change orCurrent (FineState.unstored (x.fine.go c _) c) _ c = n at hn
      simp only [FineState.unstored, phase_go] at hn
      have hn' := hin.symm.trans hn
      refine (hrsp0.trans ?_).trans (hkeeps n).symm
      cases hv : p.storing with
      | none =>
          rw [hv] at hn'
          exact hold.next n hn'
      | some v =>
          rw [hv] at hn'
          have hnext : v.nextTask = n := hn'
          rw [← hnext]
          exact if_pos rfl
    · change orCurrent (FineState.found (x.fine.go c _) c) _ c = n at hn
      simp only [FineState.found, phase_go] at hn
      have hn' := hon.symm.trans hn
      exact (hold.entered (by simp [hinside]) hsettled n hn').trans (hkeeps n).symm
  · obtain ⟨hin', hsettled', hon'⟩ := frame_other x.fine
      { x.fine.go t (.inside (work p x.fine.shared.sched).1) with
        shared := { x.fine.shared with
          sched := (work p x.fine.shared.sched).2
          entered := x.fine.shared.entered ++ p.entering } }
      (phase_go_of_ne hne) (hcpu c hne)
    refine hold.frame hin' (fun hphase hs => ⟨?_, hsettled'.mp hs, hon'⟩) ?_ rfl
      fun n _ => hkeeps n
    · rwa [← phase_go_of_ne (s := x.fine) (p := .inside (work p x.fine.shared.sched).1) hne]
    · refine hrsp0.trans ?_
      cases p.storing with
      | none => rfl
      | some v => exact if_neg hne

/-- **A step of `createNewTask`** stores to an entry that nobody uses. -/
lemma StacksFollow.core_create (h : StacksFollow x) {y : CreateEvent} {shared : Tables}
    (hcreate : CreateStep x.fine.shared y shared) (hc : c.toNat < 2) :
    CoreStacks (x.after (.env y) { x.fine with shared := shared }) c := by
  obtain ⟨⟨a, es⟩, hstands⟩ := h.stands
  obtain ⟨o, hholder, q, s, hfollows⟩ := hstands.holder
  have hrep : Represents a q := hfollows.represents
  have hcreating : Creating a x.fine.shared.creator := hfollows.creating
  have hcounted : ∀ n : ℕ, x.fine.taskIn c = n ∨ x.fine.Settled c ∧ x.fine.taskOn c = n →
      n < a.sched.numberOfTasks.toNat := by
    rintro n (hn | ⟨hsettled, hn⟩)
    · exact hrep.counted (taskIn_cases hstands) hn
    · exact hrep.counted ((taskOn_cases hstands hsettled).imp_right And.right) hn
  have hcreated : shared.sched.cpuInfo = x.fine.shared.sched.cpuInfo ∧
      ∀ n : ℕ, n < a.sched.numberOfTasks.toNat →
        shared.sched.tasks n = x.fine.shared.sched.tasks n := by
    cases hcreate with
    | find | count => exact ⟨rfl, fun _ _ => rfl⟩
    | store hfound =>
        refine ⟨rfl, fun n hn => Function.update_of_ne ?_ ..⟩
        rw [hfound] at hcreating
        cases hcreating with
        | found hfree hmem =>
            rw [hrep.findFreeIndex_number hfree]
            omega
  obtain ⟨hin, hsettled, hon⟩ := frame_other x.fine { x.fine with shared := shared } rfl
    (congrFun hcreated.1 c)
  refine (h.core c hc).frame hin (fun hphase hs => ⟨hphase, hsettled.mp hs, hon⟩) rfl rfl
    fun n hn => ?_
  exact congrArg Task.kernelStack (hcreated.2 n (hcounted n hn))

/-- **A step of the cores.** -/
lemma StacksFollow.core_step (h : StacksFollow x) (hstep : FineStep x.fine e f)
    (hc : c.toNat < 2) : CoreStacks (x.after e f) c := by
  have hold := h.core c hc
  cases hstep with
  | @call regs hcall =>
      rcases eq_or_ne c regs.core with rfl | hne
      · exact hold.called hcall
      · exact hold.elsewhere (phase_go_of_ne hne) rfl rfl (Function.update_of_ne hne ..)
  | @fail t regs k hheld hspin =>
      rcases eq_or_ne c t with rfl | hne
      · have hout : ∀ p, (x.fine.go c (if k + 1 = DEADLOCK_COUNT then .stuck
            else .spinning regs (k + 1))).phase c ≠ .inside p := by
          rw [phase_go]
          split_ifs <;> simp
        have hsettled : x.fine.Settled c := by simp [FineState.Settled, hspin]
        refine hold.moved rfl rfl rfl ?_ fun _ hs => ⟨by simp [hspin], hsettled, ?_⟩
        · rw [taskIn_outside hout, taskIn_outside (by simp [hspin])]
          rfl
        · rw [taskOn_outside hout hs, taskOn_outside (by simp [hspin]) hsettled]
          rfl
      · exact hold.elsewhere (phase_go_of_ne hne) rfl rfl rfl
  | @take t regs k hheld hspin =>
      rcases eq_or_ne c t with rfl | hne
      · have hsettled : x.fine.Settled c := by simp [FineState.Settled, hspin]
        have hphase : (x.fine.go c (.inside (schedulerSection.start regs))).phase c
            = .inside (.countTasks regs) := phase_go
        refine hold.moved rfl rfl rfl ?_ fun _ hs => ⟨by simp [hspin], hsettled, ?_⟩
        · rw [taskIn_outside (f := x.fine) (by simp [hspin])]
          simp only [FineState.taskIn, FineState.unstored, hphase]
          rfl
        · rw [taskOn_outside (f := x.fine) (by simp [hspin]) hsettled]
          simp only [FineState.taskOn, FineState.found, hphase]
          rfl
      · exact hold.elsewhere (phase_go_of_ne hne) rfl rfl rfl
  | @work t p hinside hends =>
      refine h.core_work hinside ?_ hc
      rintro m rfl
      simp [schedulerSection] at hends
  | @release t p m hinside hends =>
      rcases eq_or_ne c t with rfl | hne
      · obtain rfl := eq_release hends
        have hphase : (x.fine.go c (.after m)).phase c = .after m := phase_go
        have hsettled : x.fine.Settled c := by simp [FineState.Settled, hinside]
        refine hold.moved rfl rfl rfl ?_ fun _ _ => ⟨by simp [hinside], hsettled, ?_⟩
        · simp only [FineState.taskIn, FineState.unstored, hphase, hinside]
          rfl
        · simp only [FineState.taskOn, FineState.found, hphase, hinside]
          rfl
      · exact hold.elsewhere (phase_go_of_ne hne) rfl rfl rfl
  | @finish t m hafter =>
      rcases eq_or_ne c t with rfl | hne
      · have hphase : (x.fine.go c .outside).phase c = .outside := phase_go
        refine hold.moved rfl rfl rfl ?_ fun hout _ => absurd hphase hout
        simp only [FineState.taskIn, FineState.unstored, hphase, hafter]
        rfl
      · exact hold.elsewhere (phase_go_of_ne hne) rfl rfl rfl
  | env hcreate => exact h.core_create hcreate hc

/-- **A step keeps the invariant.** -/
theorem StacksFollow.step (h : StacksFollow x) (hstep : TwoCoreStep x e x') : StacksFollow x' := by
  obtain ⟨⟨hfine⟩, hfirst⟩ := hstep
  obtain ⟨b, hstands⟩ := h.stands
  obtain ⟨_, b', _, hstands'⟩ := hstands.step hfine
  exact
  { stands := ⟨b', hstands'⟩
    first := fun c => h.first_step hfirst hfine
    descriptor := fun c hc => by
      rw [StackState.after, tss_stored]
      exact h.descriptor c hc
    core := fun c => h.core_step hfine }

/-- The cores are up, and nothing has been called yet. -/
structure StackState.Fresh (x : StackState) : Prop where
  fine : x.fine.Fresh
  up : ∃ smp : SmpState, TablesMatch smp ∧ 1 < smp.cpuInfoIndex ∧ x.table = smp.table ∧
    x.gdt = smp.gdt

lemma stacksFollow_fresh (h0 : x.Fresh) : StacksFollow x where
  stands := by
    obtain ⟨es, a, -, hstands⟩ := stands_run h0.fine .nil
    exact ⟨(a, es), hstands⟩
  first := fun c hphase => absurd (h0.fine.outside.outside c) hphase
  descriptor := by
    obtain ⟨smp, htables, hup, htable, hgdt⟩ := h0.up
    intro c hc
    rw [htable, hgdt]
    refine htables.descriptor c ?_
    rw [UInt64.lt_iff_toNat_lt] at hup ⊢
    exact lt_of_le_of_lt (Nat.le_of_lt_succ hc) hup
  core := by
    intro c _
    have hout := h0.fine.outside.outside c
    have hidle : x.fine.taskIn c = -1 := by
      rw [taskIn_outside (by simp [hout])]
      exact h0.fine.tables.idle c
    refine ⟨fun n hn => ?_, fun hphase => absurd hout hphase⟩
    omega

/-- The tasks that are counted have kernel stacks of their own. -/
def Sched.StacksDistinct (s : Sched) : Prop :=
  ∀ i : ℕ, i < s.numberOfTasks.toNat → ∀ j : ℕ, j < s.numberOfTasks.toNat →
    (s.tasks i).kernelStack = (s.tasks j).kernelStack → i = j

instance (s : Sched) : Decidable s.StacksDistinct :=
  inferInstanceAs (Decidable (∀ i : ℕ, i < _ → ∀ j : ℕ, j < _ → _ → _))

/-- A core is on the stack of its task. -/
lemma StacksFollow.stackOf_eq (h : StacksFollow x) (hc : c.toNat < 2)
    (hsettled : x.fine.Settled c) (hused : x.fine.taskOn c ≠ -1) :
    ∃ n : ℕ, x.fine.taskOn c = n ∧ n < x.fine.shared.sched.numberOfTasks.toNat ∧
      x.stackOf c = (x.fine.shared.sched.tasks n).kernelStack := by
  obtain ⟨⟨a, es⟩, hstands⟩ := h.stands
  obtain ⟨o, hholder, q, s, hfollows⟩ := hstands.holder
  have hcases := (taskOn_cases hstands hsettled).imp_right And.right
  have hnat : ∃ n : ℕ, x.fine.taskOn c = n := by
    rcases hcases with hcur | hnone | ⟨n, hn, -⟩
    · cases hcore : q.running c with
      | none => exact absurd (hcur.trans (hfollows.represents.current_eq_neg_iff.mpr hcore)) hused
      | some i => exact ⟨i, hcur.trans (hfollows.represents.current_eq_iff.mpr hcore)⟩
    · exact absurd hnone hused
    · exact ⟨n, hn⟩
  obtain ⟨n, hn⟩ := hnat
  have hnumber : x.fine.shared.sched.numberOfTasks = a.sched.numberOfTasks := by
    rw [hfollows.tables, ← hfollows.keeps.number]
    cases x.fine.shared.creator <;> rfl
  refine ⟨n, hn, ?_, ?_⟩
  · rw [hnumber]
    exact hfollows.represents.counted hcases hn
  · rw [StackState.stackOf]
    split
    · next hout =>
        refine (h.core c hc).next n ?_
        rw [taskIn_outside (by simp [hout]), ← taskOn_outside (by simp [hout]) hsettled, hn]
    · next hin => exact (h.core c hc).entered hin hsettled n hn

variable {x₀ : StackState}

/-- **The two cores are not on one kernel stack**, once they have come from a task each, unless one
of them has released the lock and not come to the task that it switches to. -/
theorem interleaving_stacksApart (h0 : x₀.Fresh) (hrun : Run TwoCoreStep x₀ fes x)
    (hdistinct : x.fine.shared.sched.StacksDistinct) (hc : x.fine.Settled 0)
    (hc' : x.fine.Settled 1) (hused : x.fine.taskOn 0 ≠ -1) (hused' : x.fine.taskOn 1 ≠ -1) :
    x.stackOf 0 ≠ x.stackOf 1 := by
  have hfollow : StacksFollow x :=
    hrun.invariant (fun _ _ _ h hstep => h.step hstep) (stacksFollow_fresh h0)
  obtain ⟨n, hn, hlt, hstack⟩ := hfollow.stackOf_eq (by decide) hc hused
  obtain ⟨k, hk, hlt', hstack'⟩ := hfollow.stackOf_eq (by decide) hc' hused'
  obtain ⟨⟨a, es⟩, hstands⟩ := hfollow.stands
  have hapart := taskOn_apart hstands (by decide) hc hc' hused
  intro hsame
  rw [hstack, hstack'] at hsame
  rw [hn, hk] at hapart
  exact hapart (congrArg _ (hdistinct n hlt k hlt' hsame))

/-! ## Two tasks on two cores -/

/-- Two cores that are up, and no task. -/
def plainStacks : StackState where
  fine := plainFine
  table := (kernelMainSMP (bootCore plainSmp 0x8000) 1 (takenPmm 1)).table
  gdt := (kernelMainSMP (bootCore plainSmp 0x8000) 1 (takenPmm 1)).gdt
  entered := fun _ => 0

lemma plainStacks_fresh : plainStacks.Fresh where
  fine := plainFine_fresh
  up := ⟨_, (TablesMatch.bootCore plainSmp_initial 0x8000).bringUp (by decide) 1 (takenPmm 1),
    by decide, rfl, rfl⟩

/-- A task whose kernel stack is made of the first pages behind `8 * n` others. -/
def stackCreate (n : ℕ) : List FineEvent :=
  [.env (.find ⟨0x23, 0x10000, 0x1b, 0x8000, ⟨1, 0, takenPmm n, default, fun _ => default⟩⟩),
    .env .store, .env .count]

/-- Core 0 starts task 0, and then task 1; core 1 resumes task 0. -/
def stackRace : List FineEvent :=
  stackCreate 3 ++ stackCreate 4 ++ plainTick 0 12 ++ [.finish 0] ++ plainTick 0 15 ++
    plainTick 1 17 ++ [.finish 1]

def StackState.next (x : StackState) (e : FineEvent) : StackState :=
  x.after e (x.fine.next e)

def StackState.enabled (x : StackState) (e : FineEvent) : Bool :=
  match e with
  | .call regs => x.fine.enabled e && decide (regs.core.toNat < 2)
  | _ => x.fine.enabled e

/-- Core 0 has not come to task 1, while core 1 runs task 0. -/
def racedStacks : StackState := stackRace.foldl StackState.next plainStacks

lemma StackState.step_next (x : StackState) (e : FineEvent) (he : x.enabled e = true) :
    TwoCoreStep x e (x.next e) := by
  have hfine : x.fine.enabled e = true := by
    cases e with
    | call regs => exact (Bool.and_eq_true_iff.mp he).1
    | _ => exact he
  refine
    ⟨.mk (State.step_next schedulerSection DEADLOCK_COUNT CreateEvent.step_next x.fine e hfine), ?_⟩
  rintro regs rfl
  exact of_decide_eq_true (Bool.and_eq_true_iff.mp he).2

lemma run_stacks (fes : List FineEvent) (x : StackState)
    (h : Replays (fun x e => x.enabled e = true) StackState.next x fes) :
    Run TwoCoreStep x fes (fes.foldl StackState.next x) := by
  have hrun := @Run.replay _ _ TwoCoreStep _ id _ _ StackState.step_next fes x h
  rwa [List.map_id] at hrun

/-- Both cores are on the kernel stack of task 0 then. -/
theorem racedStacks_shared : racedStacks.stackOf 0 = 0xffff80000001a000 ∧
    racedStacks.stackOf 1 = 0xffff80000001a000 := by decide +kernel

theorem interleaving_stacksApart_raced :
    (racedStacks.next (.finish 0)).stackOf 0 = 0xffff800000022000 ∧
      (racedStacks.next (.finish 0)).stackOf 0 ≠ (racedStacks.next (.finish 0)).stackOf 1 := by
  have hrun : Run TwoCoreStep plainStacks (stackRace ++ [.finish 0])
      (racedStacks.next (.finish 0)) :=
    (run_stacks stackRace plainStacks (by decide +kernel)).append
      (run_stacks [.finish 0] racedStacks (by decide +kernel))
  exact ⟨by decide +kernel, interleaving_stacksApart plainStacks_fresh hrun (by decide +kernel)
    (by decide +kernel) (by decide +kernel) (by decide +kernel) (by decide +kernel)⟩

end Seaweed
