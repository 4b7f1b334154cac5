import Seaweed.Library.Memory

/-!
# A few x86-64 instructions

The part of the machine that saving and restoring a context needs: the general registers, the
stack, the frame that an interrupt leaves there and `iretq`.

* `Cpu`, `Machine`, `Instr`, `exec`, `run` — the machine.
* `Machine.interrupt` — what the processor does before the first instruction of a handler.
* `Holds` — consecutive words in memory, `Machine.Stack` the words at the stack pointer.
* **`stack_run_pushes`**, **`run_pop`** — pushing stacks the values and changes memory nowhere else,
  and popping into different registers takes them back.
-/

namespace X86

open Words Memory

/-! ## The machine -/

/-- The general registers, but for the stack pointer. -/
inductive Gpr
  | rax | rbx | rcx | rdx | rbp | rdi | rsi | r8 | r9 | r10 | r11 | r12 | r13 | r14 | r15
  deriving DecidableEq

inductive Seg
  | ds | es | fs | gs
  deriving DecidableEq

structure Cpu where
  gpr : Gpr → UInt64
  seg : Seg → UInt16
  rip : UInt64
  cs : UInt16
  rflags : UInt64
  rsp : UInt64
  ss : UInt16

structure Machine where
  cpu : Cpu
  mem : Mem

inductive Instr
  | push (r : Gpr)
  | pushImm (v : UInt64)
  | pushSeg (g : Seg)
  | pushfq
  | pop (r : Gpr)
  | addRsp (n : UInt64)
  | movFromRsp (r : Gpr)
  | movToRsp (r : Gpr)
  | movSeg (g : Seg) (r : Gpr)
  | cli
  | sti
  | iretq
  deriving DecidableEq

/-- The interrupt flag. -/
def IF : UInt64 := 0x200

namespace Machine

def push (m : Machine) (v : UInt64) : Machine where
  cpu := { m.cpu with rsp := m.cpu.rsp - 8 }
  mem := store64 m.mem (m.cpu.rsp - 8) v

/-- The word `n` bytes above the stack pointer. -/
def top (m : Machine) (n : UInt64) : UInt64 := load64 m.mem (m.cpu.rsp + n)

def setGpr (m : Machine) (r : Gpr) (v : UInt64) : Machine :=
  { m with cpu := { m.cpu with gpr := Function.update m.cpu.gpr r v } }

def setRsp (m : Machine) (v : UInt64) : Machine := { m with cpu := { m.cpu with rsp := v } }

def setRflags (m : Machine) (v : UInt64) : Machine := { m with cpu := { m.cpu with rflags := v } }

@[simp] lemma gpr_push (m : Machine) (v : UInt64) : (m.push v).cpu.gpr = m.cpu.gpr := rfl

@[simp] lemma seg_push (m : Machine) (v : UInt64) : (m.push v).cpu.seg = m.cpu.seg := rfl

@[simp] lemma gpr_setRsp (m : Machine) (v : UInt64) : (m.setRsp v).cpu.gpr = m.cpu.gpr := rfl

@[simp] lemma seg_setRsp (m : Machine) (v : UInt64) : (m.setRsp v).cpu.seg = m.cpu.seg := rfl

end Machine

/-- One instruction.  Only a control transfer sets `rip`. -/
def exec (m : Machine) : Instr → Machine
  | .push r => m.push (m.cpu.gpr r)
  | .pushImm v => m.push v
  | .pushSeg g => m.push (m.cpu.seg g).toUInt64
  | .pushfq => m.push m.cpu.rflags
  | .pop r => (m.setGpr r (m.top 0)).setRsp (m.cpu.rsp + 8)
  | .addRsp n => m.setRsp (m.cpu.rsp + n)
  | .movFromRsp r => m.setGpr r m.cpu.rsp
  | .movToRsp r => m.setRsp (m.cpu.gpr r)
  | .movSeg g r =>
      { m with cpu := { m.cpu with seg := Function.update m.cpu.seg g (m.cpu.gpr r).toUInt16 } }
  | .cli => m.setRflags (m.cpu.rflags &&& ~~~IF)
  | .sti => m.setRflags (m.cpu.rflags ||| IF)
  | .iretq =>
      { m with cpu := { m.cpu with
          rip := m.top 0, cs := (m.top 8).toUInt16, rflags := m.top 16, rsp := m.top 24,
          ss := (m.top 32).toUInt16 } }

/-- A sequence of instructions. -/
def run (m : Machine) (code : List Instr) : Machine := code.foldl exec m

@[simp] lemma run_nil (m : Machine) : run m [] = m := rfl

@[simp] lemma run_cons (m : Machine) (i : Instr) (code : List Instr) :
    run m (i :: code) = run (exec m i) code := rfl

lemma run_append (m : Machine) (code code' : List Instr) :
    run m (code ++ code') = run (run m code) code' := List.foldl_append

/-- What an interrupt takes from elsewhere: where the frame goes (from the task state segment, or
the aligned stack pointer), and the state the handler starts in. -/
structure Gate where
  stack : UInt64
  rip : UInt64
  cs : UInt16
  rflags : UInt64
  ss : UInt16

/-- The processor pushes the interrupted state, and for some exceptions an error code. -/
def Machine.interrupt (m : Machine) (g : Gate) (errorCode : Option UInt64) : Machine :=
  let c := m.cpu
  let m := ((((m.setRsp g.stack).push c.ss.toUInt64).push c.rsp).push c.rflags).push c.cs.toUInt64
  let m := m.push c.rip
  let m := match errorCode with
    | some e => m.push e
    | none => m
  { m with cpu := { m.cpu with rip := g.rip, cs := g.cs, rflags := g.rflags, ss := g.ss } }

/-- The 15 general registers and the five that `iretq` loads. -/
structure Cpu.Same (c c' : Cpu) : Prop where
  gpr : c.gpr = c'.gpr
  rip : c.rip = c'.rip
  cs : c.cs = c'.cs
  rflags : c.rflags = c'.rflags
  rsp : c.rsp = c'.rsp
  ss : c.ss = c'.ss

/-! ## Words in memory -/

/-- The words `ws` from `a` on. -/
def Holds (mem : Mem) (a : UInt64) : List UInt64 → Prop
  | [] => True
  | w :: ws => load64 mem a = w ∧ Holds mem (a + 8) ws

/-- The words from the stack pointer on. -/
def Machine.Stack (m : Machine) (ws : List UInt64) : Prop := Holds m.mem m.cpu.rsp ws

section Instructions

variable (m : Machine) (n : UInt64) (g : Seg) (r : Gpr) (ws : List UInt64)

@[simp] lemma gpr_addRsp : (exec m (.addRsp n)).cpu.gpr = m.cpu.gpr := rfl

@[simp] lemma gpr_cli : (exec m .cli).cpu.gpr = m.cpu.gpr := rfl

@[simp] lemma gpr_sti : (exec m .sti).cpu.gpr = m.cpu.gpr := rfl

@[simp] lemma gpr_movSeg : (exec m (.movSeg g r)).cpu.gpr = m.cpu.gpr := rfl

@[simp] lemma rsp_movToRsp : (exec m (.movToRsp r)).cpu.rsp = m.cpu.gpr r := rfl

@[simp] lemma mem_movToRsp : (exec m (.movToRsp r)).mem = m.mem := rfl

@[simp] lemma mem_movSeg : (exec m (.movSeg g r)).mem = m.mem := rfl

@[simp] lemma mem_sti : (exec m .sti).mem = m.mem := rfl

@[simp] lemma stack_cli : (exec m .cli).Stack ws ↔ m.Stack ws := Iff.rfl

@[simp] lemma stack_sti : (exec m .sti).Stack ws ↔ m.Stack ws := Iff.rfl

@[simp] lemma stack_movFromRsp : (exec m (.movFromRsp r)).Stack ws ↔ m.Stack ws := Iff.rfl

lemma gpr_movFromRsp : (exec m (.movFromRsp r)).cpu.gpr r = m.cpu.rsp := Function.update_self ..

@[simp] lemma rsp_movFromRsp : (exec m (.movFromRsp r)).cpu.rsp = m.cpu.rsp := rfl

end Instructions

variable {m m' m'' : Machine} {mem mem' : Mem} {a b v w x : UInt64} {vs ws : List UInt64} {r : Gpr}
  {rs : List Gpr} {code : List Instr} {k l : ℕ}

lemma holds_append (ws : List UInt64) (a : UInt64) : Holds mem a (ws ++ vs) ↔
    Holds mem a ws ∧ Holds mem (a + UInt64.ofNat (8 * ws.length)) vs := by
  induction ws generalizing a with
  | nil => simp [Holds]
  | cons w ws ih =>
      have hskip : a + UInt64.ofNat (8 * (w :: ws).length)
          = a + 8 + UInt64.ofNat (8 * ws.length) := by
        rw [List.length_cons, Nat.mul_succ, Nat.add_comm, UInt64.ofNat_add, UInt64.add_assoc]
        rfl
      simp only [List.cons_append, Holds, ih, hskip, and_assoc]

/-- One of the words. -/
lemma holds_getElem (h : Holds mem a ws) (hk : k < ws.length) :
    load64 mem (a + UInt64.ofNat (8 * k)) = ws[k] := by
  induction ws generalizing a k with
  | nil => simp at hk
  | cons w ws ih =>
      cases k with
      | zero => exact (congrArg (load64 mem) (UInt64.add_zero a)).trans h.1
      | succ k =>
          have hplace : a + UInt64.ofNat (8 * (k + 1)) = a + 8 + UInt64.ofNat (8 * k) := by
            rw [Nat.mul_succ, Nat.add_comm, UInt64.ofNat_add, UInt64.add_assoc]
            rfl
          rw [hplace]
          exact ih h.2 (by simpa using hk)

/-- A word is stored below the others, which do not reach around to it. -/
lemma holds_store64_below (hle : 8 ≤ (b - a).toNat)
    (hroom : (b - a).toNat + 8 * ws.length ≤ 2 ^ 64) (h : Holds mem b ws) :
    Holds (store64 mem a v) b ws := by
  induction ws generalizing b with
  | nil => trivial
  | cons w ws ih =>
      obtain ⟨hw, hws⟩ := h
      rw [List.length_cons] at hroom
      have hneg : (a - b).toNat = (2 ^ 64 - (b - a).toNat) % 2 ^ 64 := by
        rw [show a - b = -(b - a) by rw [UInt64.neg_sub], UInt64.toNat_neg]
        rfl
      have happ : Apart a 8 b 8 := apart_of_le hle (by omega)
      refine ⟨(load64_store64_apart happ).trans hw, ?_⟩
      rcases Nat.eq_zero_or_pos ws.length with hnil | hpos
      · rw [List.length_eq_zero_iff.mp hnil]
        trivial
      · have hnext : (b + 8 - a).toNat = (b - a).toNat + 8 := by
          have hdiff : b + 8 - a = (b - a) + 8 := by
            rw [UInt64.sub_eq_add_neg, UInt64.sub_eq_add_neg, UInt64.add_assoc, UInt64.add_assoc,
              UInt64.add_comm 8]
          rw [hdiff, UInt64.toNat_add]
          exact Nat.mod_eq_of_lt (by show _ + 8 < _; omega)
        exact ih (by omega) (by omega) hws

/-- Memory that agrees on the words holds them too. -/
lemma holds_congr
    (h : ∀ k, k < 8 * ws.length → mem (a + UInt64.ofNat k) = mem' (a + UInt64.ofNat k))
    (hholds : Holds mem a ws) : Holds mem' a ws := by
  induction ws generalizing a with
  | nil => trivial
  | cons w ws ih =>
      obtain ⟨hw, hws⟩ := hholds
      have hload : load mem a 8 = load mem' a 8 :=
        load_congr fun i hi => h i (by rw [List.length_cons]; omega)
      refine ⟨by rw [load64, ← hload]; exact hw, ih (fun k hk => ?_) hws⟩
      have hskip : a + 8 + UInt64.ofNat k = a + UInt64.ofNat (8 + k) := by
        rw [UInt64.ofNat_add, UInt64.add_assoc]
        rfl
      rw [hskip]
      exact h (8 + k) (by rw [List.length_cons]; omega)

/-! ## The stack -/

/-- A push puts its word on top of those that are there. -/
lemma stack_push (h : m.Stack ws) (hroom : 8 * (ws.length + 1) ≤ 2 ^ 64) (v : UInt64) :
    (m.push v).Stack (v :: ws) := by
  have hback : m.cpu.rsp - (m.cpu.rsp - 8) = 8 := by
    rw [UInt64.sub_eq_add_neg, UInt64.neg_sub, UInt64.add_comm, UInt64.sub_add_cancel]
  have height : (8 : UInt64).toNat = 8 := rfl
  refine ⟨load64_store64 .., ?_⟩
  show Holds _ (m.cpu.rsp - 8 + 8) ws
  rw [UInt64.sub_add_cancel]
  refine holds_store64_below ?_ ?_ h <;> rw [hback, height]
  omega

/-- `k` words have been pushed: memory has changed below the old stack pointer at most. -/
structure Pushes (m m' : Machine) (k : ℕ) : Prop where
  rsp : m'.cpu.rsp = m.cpu.rsp - UInt64.ofNat (8 * k)
  mem : ∀ x, 8 * k ≤ (x - m'.cpu.rsp).toNat → m'.mem x = m.mem x

lemma pushes_refl (m : Machine) : Pushes m m 0 where
  rsp := (UInt64.sub_zero _).symm
  mem := fun _ _ => rfl

lemma pushes_push (m : Machine) (v : UInt64) : Pushes m (m.push v) 1 where
  rsp := rfl
  mem := fun _ hx => store64_outside hx

/-- Words on top of words. -/
lemma Pushes.trans (h : Pushes m m' k) (h' : Pushes m' m'' l) : Pushes m m'' (k + l) where
  rsp := by
    rw [h'.rsp, h.rsp, Nat.mul_add, UInt64.ofNat_add, UInt64.sub_eq_add_neg, UInt64.sub_eq_add_neg,
      UInt64.sub_eq_add_neg, UInt64.neg_add, UInt64.sub_eq_add_neg, UInt64.add_assoc]
  mem := by
    intro x hx
    have hback : m'.cpu.rsp = m''.cpu.rsp + UInt64.ofNat (8 * l) := by
      rw [h'.rsp, UInt64.sub_add_cancel]
    have hdiff := toNat_sub_add_ofNat (i := 8 * l) (x := x) (a := m''.cpu.rsp) (by omega)
    rw [h'.mem x (by omega), h.mem x (by rw [hback, hdiff]; omega)]

/-- What an instruction pushes. -/
def Cpu.pushed (c : Cpu) : Instr → Option UInt64
  | .push r => some (c.gpr r)
  | .pushImm v => some v
  | .pushSeg g => some (c.seg g).toUInt64
  | .pushfq => some c.rflags
  | _ => none

lemma exec_pushed {i : Instr} (h : m.cpu.pushed i = some v) : exec m i = m.push v := by
  cases i <;> cases h <;> rfl

lemma pushed_push (m : Machine) (v : UInt64) : (m.push v).cpu.pushed = m.cpu.pushed := by
  funext i
  cases i <;> rfl

/-- **Pushes** stack their values, the last one on top, and change no register. -/
theorem stack_run_pushes (hvalues : code.map m.cpu.pushed = vs.map some) (h : m.Stack ws)
    (hroom : 8 * (ws.length + vs.length) ≤ 2 ^ 64) :
    (run m code).Stack (vs.reverse ++ ws) ∧
      (run m code).cpu = { m.cpu with rsp := (run m code).cpu.rsp } ∧
      Pushes m (run m code) vs.length := by
  induction code generalizing m ws vs with
  | nil =>
      obtain rfl := List.map_eq_nil_iff.mp hvalues.symm
      exact ⟨h, rfl, pushes_refl m⟩
  | cons i code ih =>
      cases vs with
      | nil => simp at hvalues
      | cons v vs =>
          rw [List.map_cons, List.map_cons, List.cons.injEq] at hvalues
          rw [List.length_cons] at hroom
          rw [run_cons, exec_pushed hvalues.1, List.length_cons, Nat.add_comm]
          obtain ⟨hstack, hcpu, hpushes⟩ := ih (by rw [pushed_push]; exact hvalues.2)
            (stack_push h (by omega) v) (by rw [List.length_cons]; omega)
          refine ⟨?_, hcpu, (pushes_push m v).trans hpushes⟩
          rw [List.reverse_cons, List.append_assoc]
          exact hstack

/-- **Pushing registers.** -/
theorem stack_run_push (rs : List Gpr) (h : m.Stack ws)
    (hroom : 8 * (ws.length + rs.length) ≤ 2 ^ 64) :
    (run m (rs.map .push)).Stack ((rs.map m.cpu.gpr).reverse ++ ws) ∧
      (run m (rs.map .push)).cpu = { m.cpu with rsp := (run m (rs.map .push)).cpu.rsp } ∧
      Pushes m (run m (rs.map .push)) rs.length := by
  have hvalues : (rs.map Instr.push).map m.cpu.pushed = (rs.map m.cpu.gpr).map some := by
    rw [List.map_map, List.map_map]
    rfl
  have hpushes := stack_run_pushes hvalues h (by rwa [List.length_map])
  rwa [List.length_map] at hpushes

/-- The words above the first ones, once the stack pointer has been raised. -/
lemma stack_addRsp (h : m.Stack (vs ++ ws)) {n : UInt64} (hn : UInt64.ofNat (8 * vs.length) = n) :
    (exec m (.addRsp n)).Stack ws :=
  hn ▸ ((holds_append vs _).mp h).2

lemma exec_pop (h : m.Stack (v :: ws)) (r : Gpr) :
    (exec m (.pop r)).Stack ws ∧ (exec m (.pop r)).cpu.gpr r = v ∧
      ∀ r', r' ≠ r → (exec m (.pop r)).cpu.gpr r' = m.cpu.gpr r' := by
  refine ⟨h.2, ?_, fun r' hne => Function.update_of_ne hne _ _⟩
  show Function.update m.cpu.gpr r (m.top 0) r = v
  rw [Function.update_self, Machine.top, UInt64.add_zero]
  exact h.1

/-- **Popping into different registers** takes the words from the stack, the top one first. -/
theorem run_pop (hnodup : rs.Nodup) (hlen : vs.length = rs.length) (h : m.Stack (vs ++ ws)) :
    (run m (rs.map .pop)).Stack ws ∧ rs.map (run m (rs.map .pop)).cpu.gpr = vs ∧
      ∀ r, r ∉ rs → (run m (rs.map .pop)).cpu.gpr r = m.cpu.gpr r := by
  induction rs generalizing m vs with
  | nil =>
      obtain rfl := List.length_eq_zero_iff.mp hlen
      exact ⟨h, rfl, fun _ _ => rfl⟩
  | cons r rs ih =>
      obtain ⟨v, vs, rfl⟩ := List.exists_cons_of_length_eq_add_one hlen
      obtain ⟨hnot, hnodup⟩ := List.nodup_cons.mp hnodup
      obtain ⟨hstack, hself, hother⟩ := exec_pop h r
      obtain ⟨hrest, hmap, hkept⟩ := ih hnodup (Nat.succ.inj hlen) hstack
      refine ⟨hrest, ?_, fun r' hr' => ?_⟩
      · rw [List.map_cons, List.map_cons, run_cons, hkept r hnot, hself, hmap]
      · rw [List.mem_cons, not_or] at hr'
        rw [List.map_cons, run_cons, hkept r' hr'.2, hother r' hr'.1]

/-- Pops raise the stack pointer, and leave memory alone. -/
lemma rsp_run_pop (rs : List Gpr) (m : Machine) :
    (run m (rs.map .pop)).cpu.rsp = m.cpu.rsp + UInt64.ofNat (8 * rs.length) ∧
      (run m (rs.map .pop)).mem = m.mem := by
  induction rs generalizing m with
  | nil => exact ⟨(UInt64.add_zero _).symm, rfl⟩
  | cons r rs ih =>
      obtain ⟨hrsp, hmem⟩ := ih (exec m (.pop r))
      refine ⟨?_, hmem⟩
      rw [List.map_cons, run_cons, hrsp, List.length_cons, Nat.mul_succ, Nat.add_comm,
        UInt64.ofNat_add, ← UInt64.add_assoc]
      rfl

/-- What `iretq` loads. -/
lemma exec_iretq {rip cs rflags rsp ss : UInt64} (h : m.Stack [rip, cs, rflags, rsp, ss]) :
    exec m .iretq = { m with cpu := { m.cpu with
      rip := rip, cs := cs.toUInt16, rflags := rflags, rsp := rsp, ss := ss.toUInt16 } } := by
  obtain ⟨h0, h8, h16, h24, h32, -⟩ := h
  simp only [UInt64.add_assoc, UInt64.reduceAdd] at h16 h24 h32
  rw [exec, Machine.top, Machine.top, Machine.top, Machine.top, Machine.top, UInt64.add_zero, h0,
    h8, h16, h24, h32]

/-- The frame of an interrupt. -/
lemma stack_interrupt (m : Machine) (g : Gate) (errorCode : Option UInt64) :
    (m.interrupt g errorCode).Stack (errorCode.toList ++
      [m.cpu.rip, m.cpu.cs.toUInt64, m.cpu.rflags, m.cpu.rsp, m.cpu.ss.toUInt64]) := by
  have hss := stack_push (show (m.setRsp g.stack).Stack [] from trivial) (by simp)
    m.cpu.ss.toUInt64
  have hrsp := stack_push hss (by simp) m.cpu.rsp
  have hrflags := stack_push hrsp (by simp) m.cpu.rflags
  have hcs := stack_push hrflags (by simp) m.cpu.cs.toUInt64
  have hrip := stack_push hcs (by simp) m.cpu.rip
  cases errorCode with
  | none => exact hrip
  | some e => exact stack_push hrip (by simp) e

@[simp] lemma gpr_interrupt (m : Machine) (g : Gate) (errorCode : Option UInt64) :
    (m.interrupt g errorCode).cpu.gpr = m.cpu.gpr := by
  cases errorCode <;> simp only [Machine.interrupt, Machine.gpr_push, Machine.gpr_setRsp]

@[simp] lemma seg_interrupt (m : Machine) (g : Gate) (errorCode : Option UInt64) :
    (m.interrupt g errorCode).cpu.seg = m.cpu.seg := by
  cases errorCode <;> simp only [Machine.interrupt, Machine.seg_push, Machine.seg_setRsp]

end X86
