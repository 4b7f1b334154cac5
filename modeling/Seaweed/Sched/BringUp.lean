import Seaweed.Acpi.Madt
import Seaweed.Sched.Smp

/-!
# Bringing up the cores (`initSMP` in `sched/smp.c`)

The boot core signals one processor after the other, and leaves each of them its number in a
mailbox.  A processor that starts takes its number from there, but fills the entries of the tables
that the next index of its own counter names.

* `prepTrampoline`, `smpLongModeCode`, `initSMP` — the code.
* `CoresMatch` — the numbers and the indices agree.
* **`coresMatch_iff`** — they do exactly if no processor that does not start is signalled before one
  that does.
-/

namespace Seaweed

open Words

/-! ## The code -/

/-- What becomes of a processor that is signalled: it starts, with its local APIC's ID and the page
manager at that time, or it stays silent. -/
structure Processor where
  entry : MadtEntry0
  start : Option (UInt32 × Pmm)

/-- A core that has started: the number it has in `fs`, which is `regs->core` in its interrupts, and
the entries that it has filled. -/
structure StartedCore where
  number : UInt64
  cpuInfo : UInt64
  gdt : UInt64
  deriving DecidableEq

/-- The state of the machine, the words at `0x500`, and the cores that have started. -/
structure BringUp where
  smp : SmpState
  arguments : ℕ → UInt64
  numberOfCores : UInt64
  started : List StartedCore

def prepTrampoline (s : BringUp) (stack pml4 entryPoint idt : UInt64) : BringUp :=
  { s with
    arguments := fun
      | 0 => stack
      | 1 => pml4
      | 2 => entryPoint
      | 3 => idt
      | 4 => s.numberOfCores
      | i => s.arguments i
    numberOfCores := s.numberOfCores + 1 }

/-- `smpLongModeCode` moves the core number to `fs`, and jumps to `kernelMainSMP`. -/
def smpLongModeCode (s : BringUp) (lapicID : UInt32) (pmm : Pmm) : BringUp :=
  let fs := (s.arguments 4).toUInt16
  let smp := kernelMainSMP s.smp lapicID pmm
  { s with
    smp := smp
    started := ⟨fs.toUInt64, s.smp.cpuInfoIndex, smp.cpuInfoIndex - 1⟩ :: s.started }

/-- What the trampoline is given besides the stack: the root of the page tables, `kernelMainSMP` and
the interrupt table.  The page manager is that of the moment at which the stack is allocated. -/
structure Trampoline where
  pmm : Pmm
  pml4 : UInt64
  kernelMainSMP : UInt64
  idtr : UInt64

/-- One turn of the loop: a processor that starts is ready when `ksleep` returns. -/
def wake (s : BringUp) (t : Trampoline) (p : Processor) : BringUp :=
  if p.entry.flags = 1 then
    let stack := (physicalPageAlloc t.pmm 4).1 + 0x4000 + HIGH_VMA
    let s := prepTrampoline s stack t.pml4 t.kernelMainSMP t.idtr
    match p.start with
    | some (lapicID, pmm) => smpLongModeCode s lapicID pmm
    | none => s
  else s

/-- `n` turns of the loop, which begins with entry 1. -/
def wakeAll (s : BringUp) (t : ℕ → Trampoline) (processors : ℕ → Processor) : ℕ → BringUp
  | 0 => s
  | n + 1 => wake (wakeAll s t processors n) (t (n + 1)) (processors (n + 1))

/-- `cpuInfo` is memory from the heap, in which entry 0 is set up first. -/
def initSMP (s : BringUp) (t : ℕ → Trampoline) (madtEntry0Count : UInt8)
    (processors : ℕ → Processor) : BringUp :=
  let cpuInfo := Function.update s.smp.sched.cpuInfo 0
    { s.smp.sched.cpuInfo 0 with currentTask := -1 }
  let s := { s with smp := { s.smp with sched := { s.smp.sched with cpuInfo := cpuInfo } } }
  wakeAll s t processors (madtEntry0Count.toNat - 1)

/-! ## What should be the same -/

/-- The globals as they are initialised. -/
structure BringUp.Initial (s : BringUp) : Prop where
  cpuInfoIndex : s.smp.cpuInfoIndex = 1
  numberOfCores : s.numberOfCores = 1
  started : s.started = []

/-- The numbers of the cores, with the boot core's. -/
def BringUp.numbers (s : BringUp) : List UInt64 := 0 :: s.started.map StartedCore.number

/-- Every core has a number of its own and has filled the entries with that number, and the entries
with the numbers of cores have been set up. -/
structure CoresMatch (s : BringUp) : Prop where
  distinct : s.numbers.Nodup
  cpuInfo : ∀ c ∈ s.started, c.number = c.cpuInfo
  gdt : ∀ c ∈ s.started, c.number = c.gdt
  initialised : ∀ n ∈ s.numbers, (s.smp.sched.cpuInfo n).currentTask = -1

def Processor.Signalled (p : Processor) : Prop := p.entry.flags = 1

def Processor.Starts (p : Processor) : Prop := p.start.isSome

/-- No processor is signalled and stays silent before one that starts, up to entry `n`. -/
def NoneMissing (processors : ℕ → Processor) (n : ℕ) : Prop :=
  ∀ i j, 1 ≤ i → i < j → j ≤ n → (processors i).Signalled → (processors j).Signalled →
    (processors j).Starts → (processors i).Starts

/-- All that have been signalled have started. -/
def AllAnswer (processors : ℕ → Processor) (n : ℕ) : Prop :=
  ∀ i, 1 ≤ i → i ≤ n → (processors i).Signalled → (processors i).Starts

variable {s : BringUp} {t : ℕ → Trampoline} {processors : ℕ → Processor} {p : Processor} {n : ℕ}

/-! ## The conditions, one processor at a time -/

lemma allAnswer_succ : AllAnswer processors (n + 1) ↔ AllAnswer processors n ∧
    ((processors (n + 1)).Signalled → (processors (n + 1)).Starts) := by
  constructor
  · exact fun h => ⟨fun i h1 hi => h i h1 (by omega), h (n + 1) (by omega) (le_refl _)⟩
  · rintro ⟨hbefore, hlast⟩ i h1 hi
    rcases Nat.lt_succ_iff_lt_or_eq.mp (Nat.lt_succ_of_le hi) with hlt | rfl
    · exact hbefore i h1 (by omega)
    · exact hlast

lemma noneMissing_succ : NoneMissing processors (n + 1) ↔ NoneMissing processors n ∧
    ((processors (n + 1)).Signalled → (processors (n + 1)).Starts → AllAnswer processors n) := by
  constructor
  · intro h
    exact ⟨fun i j h1 hij hj => h i j h1 hij (by omega), fun hsignalled hstarts i h1 hi hi' =>
      h i (n + 1) h1 (by omega) (le_refl _) hi' hsignalled hstarts⟩
  · rintro ⟨hbefore, hlast⟩ i j h1 hij hj hi hsignalled hstarts
    rcases Nat.lt_succ_iff_lt_or_eq.mp (Nat.lt_succ_of_le hj) with hlt | rfl
    · exact hbefore i j h1 hij (by omega) hi hsignalled hstarts
    · exact hlast hsignalled hstarts i h1 (by omega) hi

/-! ## The two counters -/

/-- After the entries up to `n`: the counter of the cores is not ahead of the boot core's, the
numbers given out are below the latter, and the entries filled have been set up. -/
structure BroughtUp (s : BringUp) (processors : ℕ → Processor) (n : ℕ) : Prop where
  index_le : s.smp.cpuInfoIndex.toNat ≤ s.numberOfCores.toNat
  cores_le : s.numberOfCores.toNat ≤ n + 1
  allAnswer_iff : s.smp.cpuInfoIndex.toNat = s.numberOfCores.toNat ↔ AllAnswer processors n
  distinct : s.numbers.Nodup
  below : ∀ c ∈ s.numbers, c.toNat < s.numberOfCores.toNat
  gdt : ∀ c ∈ s.started, c.gdt = c.cpuInfo
  boot : (s.smp.sched.cpuInfo 0).currentTask = -1
  setUp : ∀ c ∈ s.started, (s.smp.sched.cpuInfo c.cpuInfo).currentTask = -1
  match_iff : (∀ c ∈ s.started, c.number = c.cpuInfo) ↔ NoneMissing processors n

lemma broughtUp_start (h0 : s.Initial) (hboot : (s.smp.sched.cpuInfo 0).currentTask = -1) :
    BroughtUp s processors 0 where
  index_le := by rw [h0.cpuInfoIndex, h0.numberOfCores]
  cores_le := by
    rw [h0.numberOfCores]
    decide
  allAnswer_iff := by
    rw [h0.cpuInfoIndex, h0.numberOfCores]
    exact iff_of_true rfl fun i h1 hi => by omega
  distinct := by
    rw [BringUp.numbers, h0.started]
    exact List.nodup_singleton 0
  below := by
    rw [BringUp.numbers, h0.started, h0.numberOfCores]
    intro c hc
    rw [List.mem_singleton.mp hc]
    exact Nat.one_pos
  gdt := by simp [h0.started]
  boot := hboot
  setUp := by simp [h0.started]
  match_iff := by
    rw [h0.started]
    exact iff_of_true (by simp) fun i j h1 hij hj => by omega

/-- The boot core has counted another processor. -/
lemma toNat_numberOfCores_succ (h : BroughtUp s processors n) (hn : n < 255) :
    (s.numberOfCores + 1).toNat = s.numberOfCores.toNat + 1 := by
  have := h.cores_le
  exact toNat_add_one (by omega)

/-- A processor that is not signalled changes nothing. -/
lemma BroughtUp.skip (h : BroughtUp s processors n) (hp : ¬(processors (n + 1)).Signalled) :
    BroughtUp s processors (n + 1) where
  index_le := h.index_le
  cores_le := le_trans h.cores_le (by omega)
  allAnswer_iff := by
    rw [allAnswer_succ, and_iff_left fun hsignalled => absurd hsignalled hp]
    exact h.allAnswer_iff
  distinct := h.distinct
  below := h.below
  gdt := h.gdt
  boot := h.boot
  setUp := h.setUp
  match_iff := by
    rw [noneMissing_succ, and_iff_left fun hsignalled => absurd hsignalled hp]
    exact h.match_iff

/-- A processor that stays silent has taken a number. -/
lemma BroughtUp.silent (h : BroughtUp s processors n) (hn : n < 255)
    (hp : (processors (n + 1)).Signalled) (hsilent : ¬(processors (n + 1)).Starts)
    (stack pml4 entryPoint idt : UInt64) :
    BroughtUp (prepTrampoline s stack pml4 entryPoint idt) processors (n + 1) := by
  have hcores : (prepTrampoline s stack pml4 entryPoint idt).numberOfCores.toNat =
      s.numberOfCores.toNat + 1 := toNat_numberOfCores_succ h hn
  have hle := h.index_le
  have hmax := h.cores_le
  exact
  { index_le := by
      rw [hcores]
      exact le_trans hle (Nat.le_succ _)
    cores_le := by omega
    allAnswer_iff := by
      rw [allAnswer_succ, hcores]
      refine iff_of_false ?_ fun hall => hsilent (hall.2 hp)
      show s.smp.cpuInfoIndex.toNat ≠ _
      omega
    distinct := h.distinct
    below := fun c hc => by
      rw [hcores]
      exact Nat.lt_succ_of_lt (h.below c hc)
    gdt := h.gdt
    boot := h.boot
    setUp := h.setUp
    match_iff := by
      rw [noneMissing_succ, and_iff_left fun _ hstarts => absurd hstarts hsilent]
      exact h.match_iff }

/-- A processor that starts has the number that was counted, and the next index. -/
lemma BroughtUp.start (h : BroughtUp s processors n) (hn : n < 255)
    (hp : (processors (n + 1)).Signalled) (hstarts : (processors (n + 1)).Starts)
    (stack pml4 entryPoint idt : UInt64) (lapicID : UInt32) (pmm : Pmm) :
    BroughtUp (smpLongModeCode (prepTrampoline s stack pml4 entryPoint idt) lapicID pmm) processors
      (n + 1) := by
  have hcores : (s.numberOfCores + 1).toNat = s.numberOfCores.toNat + 1 :=
    toNat_numberOfCores_succ h hn
  have hle := h.index_le
  have hmax := h.cores_le
  have hindex : (s.smp.cpuInfoIndex + 1).toNat = s.smp.cpuInfoIndex.toNat + 1 :=
    toNat_add_one (by omega)
  have hnumber : s.numberOfCores.toUInt16.toUInt64 = s.numberOfCores := by
    rw [← UInt64.toNat_inj, UInt64.toUInt64_toUInt16, UInt64.toNat_mod]
    exact Nat.mod_eq_of_lt (by show _ < 65536; omega)
  have hstarted : (smpLongModeCode (prepTrampoline s stack pml4 entryPoint idt) lapicID pmm).started
      = ⟨s.numberOfCores, s.smp.cpuInfoIndex, s.smp.cpuInfoIndex⟩ :: s.started := by
    show ⟨s.numberOfCores.toUInt16.toUInt64, s.smp.cpuInfoIndex, s.smp.cpuInfoIndex + 1 - 1⟩
      :: s.started = _
    rw [hnumber, UInt64.add_sub_cancel]
  have hnumbers : (smpLongModeCode (prepTrampoline s stack pml4 entryPoint idt) lapicID
      pmm).numbers = 0 :: s.numberOfCores :: s.started.map StartedCore.number := by
    rw [BringUp.numbers, hstarted, List.map_cons]
  -- an entry that is set up stays so, and the one at the counter is now
  have hsetUp : ∀ x, (s.smp.sched.cpuInfo x).currentTask = -1 ∨ x = s.smp.cpuInfoIndex →
      (Function.update s.smp.sched.cpuInfo s.smp.cpuInfoIndex ⟨lapicID.toUInt64, -1⟩
        x).currentTask = -1 := by
    intro x hx
    rcases eq_or_ne x s.smp.cpuInfoIndex with rfl | hne
    · rw [Function.update_self]
    · rw [Function.update_of_ne hne]
      exact hx.resolve_right hne
  exact
  { index_le := by
      show (s.smp.cpuInfoIndex + 1).toNat ≤ (s.numberOfCores + 1).toNat
      omega
    cores_le := by
      show (s.numberOfCores + 1).toNat ≤ _
      omega
    allAnswer_iff := by
      show (s.smp.cpuInfoIndex + 1).toNat = (s.numberOfCores + 1).toNat ↔ _
      rw [allAnswer_succ, and_iff_left fun _ => hstarts, ← h.allAnswer_iff, hindex, hcores]
      exact Nat.succ_inj
    distinct := by
      have hnew : s.numberOfCores ∉ s.numbers := fun hmem => absurd (h.below _ hmem) (lt_irrefl _)
      rw [hnumbers]
      exact (List.Perm.swap _ _ _).nodup (List.nodup_cons.mpr ⟨hnew, h.distinct⟩)
    below := by
      intro c hc
      show c.toNat < (s.numberOfCores + 1).toNat
      rw [hcores]
      rw [hnumbers] at hc
      rcases List.mem_cons.mp ((List.Perm.swap _ _ _).mem_iff.mp hc) with rfl | hc
      · exact Nat.lt_succ_self _
      · exact Nat.lt_succ_of_lt (h.below c hc)
    gdt := by
      rw [hstarted]
      intro c hc
      rcases List.mem_cons.mp hc with rfl | hc
      · rfl
      · exact h.gdt c hc
    boot := hsetUp 0 (Or.inl h.boot)
    setUp := by
      rw [hstarted]
      intro c hc
      rcases List.mem_cons.mp hc with rfl | hc
      · exact hsetUp _ (Or.inr rfl)
      · exact hsetUp _ (Or.inl (h.setUp c hc))
    match_iff := by
      rw [hstarted, List.forall_mem_cons, noneMissing_succ, ← h.match_iff, ← h.allAnswer_iff,
        and_comm]
      refine and_congr_right fun _ => ?_
      constructor
      · exact fun heq _ _ => congrArg UInt64.toNat heq.symm
      · exact fun hall => UInt64.toNat_inj.mp (hall hp hstarts).symm }

/-- **A turn of the loop.** -/
theorem broughtUp_wake (h : BroughtUp s processors n) (hn : n < 255) (t : Trampoline) :
    BroughtUp (wake s t (processors (n + 1))) processors (n + 1) := by
  rw [wake]
  split_ifs with hp
  · split
    · rename_i lapicID pmm hstart
      exact h.start hn hp (by rw [Processor.Starts, hstart]; rfl) ..
    · rename_i hstart
      exact h.silent hn hp (by rw [Processor.Starts, hstart]; simp) ..
  · exact h.skip hp

/-- The loop. -/
lemma broughtUp_wakeAll (h : BroughtUp s processors 0) (hn : n ≤ 255) :
    BroughtUp (wakeAll s t processors n) processors n := by
  induction n with
  | zero => exact h
  | succ n ih => exact broughtUp_wake (ih (by omega)) (by omega) _

/-- The numbers match exactly if none is missing. -/
lemma BroughtUp.coresMatch_iff_noneMissing (h : BroughtUp s processors n) :
    CoresMatch s ↔ NoneMissing processors n := by
  rw [← h.match_iff]
  refine ⟨fun hmatch => hmatch.cpuInfo, fun hall => ⟨h.distinct, hall, fun c hc => ?_, ?_⟩⟩
  · rw [h.gdt c hc, hall c hc]
  · intro m hm
    rcases List.mem_cons.mp hm with rfl | hm
    · exact h.boot
    · obtain ⟨c, hc, rfl⟩ := List.mem_map.mp hm
      rw [hall c hc]
      exact h.setUp c hc

/-- **The numbers of the cores match the entries they fill**, and the entries have been set up,
exactly if no processor is signalled and stays silent before one that starts. -/
theorem coresMatch_iff (h0 : s.Initial) (t : ℕ → Trampoline) (madtEntry0Count : UInt8)
    (processors : ℕ → Processor) :
    CoresMatch (initSMP s t madtEntry0Count processors) ↔
      NoneMissing processors (madtEntry0Count.toNat - 1) := by
  have hcount := madtEntry0Count.toNat_lt
  have hboot : (Function.update s.smp.sched.cpuInfo 0
      { s.smp.sched.cpuInfo 0 with currentTask := -1 } 0).currentTask = -1 := by
    rw [Function.update_self]
  refine BroughtUp.coresMatch_iff_noneMissing (broughtUp_wakeAll (broughtUp_start ?_ ?_) (by omega))
  · exact ⟨h0.cpuInfoIndex, h0.numberOfCores, h0.started⟩
  · exact hboot

/-! ## Three processors -/

/-- A processor that can be used. -/
def usable (start : Option (UInt32 × Pmm)) : Processor := ⟨⟨0, 0, 1⟩, start⟩

def plainTrampoline : Trampoline := ⟨takenPmm 1, 0x1000, 0xffffffff80100000, 0⟩

/-- A machine before it brings up its cores. -/
def plainBringUp : BringUp := ⟨plainSmp, fun _ => 0, 1, []⟩

lemma plainBringUp_initial : plainBringUp.Initial := ⟨rfl, rfl, rfl⟩

/-- Both of the others start. -/
theorem coresMatch_bothStart : CoresMatch (initSMP plainBringUp (fun _ => plainTrampoline) 3
    fun _ => usable (some (1, takenPmm 2))) :=
  (coresMatch_iff plainBringUp_initial _ _ _).mpr fun _ _ _ _ _ _ _ _ => rfl

/-- **The first of the others stays silent**, and the second has number 2 and fills entry 1. -/
theorem coresMatch_firstSilent : ¬CoresMatch (initSMP plainBringUp (fun _ => plainTrampoline) 3
    fun i => usable (if i = 1 then none else some (2, takenPmm 2))) := by
  intro hmatch
  have hcore : (initSMP plainBringUp (fun _ => plainTrampoline) 3
      fun i => usable (if i = 1 then none else some (2, takenPmm 2))).started = [⟨2, 1, 1⟩] := by
    decide +kernel
  have hindex := hmatch.cpuInfo
  rw [hcore] at hindex
  exact absurd (hindex _ List.mem_cons_self) (by decide)

end Seaweed
