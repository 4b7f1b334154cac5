import Seaweed.Sched.SectionProgress

/-!
# Interleavings

The cores go through `schedulerMain` step by step, while `bootMain` creates tasks without the lock.
Still every such run does what a run of indivisible calls does, and the calls are those that the
cores have made, in the order in which they have come to the lock.

* `SameCalls` — the indivisible calls are those that have been made.
* `follows` — the relation that the rule for sections asks for.
* **`interleaving_serialized`** — so the indivisible calls of `TaskRuns` are what happens.
-/

namespace Seaweed

open FirstFit Words SpinLock Transition

variable {s s' : Sched} {a a' : SchedState} {q : RunQueue UInt64} {regs : Regs} {v : Found}
  {p : Place} {m : Leaving} {c c' : UInt64} {i k n : ℕ} {j l : ℤ} {cnt : UInt64} {t : Task}
  {lastTask nextTask : ℤ} {es : List SchedEvent} {x : CreateCall}

/-! ## The relation -/

/-- What a call of `createNewTask` has stored, but not counted. -/
def Creation.apply (cr : Creation) (s : Sched) : Sched :=
  match cr with
  | .stored x index => s.setTask index x.newTask
  | _ => s

inductive Creating (a : SchedState) : Creation → Prop
  | idle : Creating a .idle
  | found {x : CreateCall} (hfree : findFreeIndex a.sched ≠ -1)
      (hmem : x.r.pmm.totalDetectedMemory.toNat < 2 ^ 47) :
      Creating a (.found x (findFreeIndex a.sched))
  | stored {x : CreateCall} (hfree : findFreeIndex a.sched ≠ -1)
      (hmem : x.r.pmm.totalDetectedMemory.toNat < 2 ^ 47) :
      Creating a (.stored x (findFreeIndex a.sched))

lemma Creating.congr {cr : Creation} (h : Creating a cr)
    (heq : findFreeIndex a'.sched = findFreeIndex a.sched) : Creating a' cr := by
  cases h with
  | idle => exact .idle
  | found hfree hmem => exact heq ▸ .found (heq.symm ▸ hfree) hmem
  | stored hfree hmem => exact heq ▸ .stored (heq.symm ▸ hfree) hmem

/-- Where the core that holds the lock is, if one does. -/
def AtPlace (o : Option (UInt64 × Place)) (a : SchedState) (es : List SchedEvent) (s : Sched) :
    Prop :=
  match o with
  | none => s = a.sched
  | some (c, p) => Progress c a es p s

/-- The call that has come to the lock, and not taken effect, if there is one. -/
def pendingCalls : Option (UInt64 × Place) → List Regs
  | none => []
  | some (_, p) => p.pending

/-- The indivisible calls are those that have been made. -/
structure SameCalls (o : Option (UInt64 × Place)) (t : Tables) (es : List SchedEvent) : Prop where
  entered : es.filterMap SchedEvent.calledWith ++ pendingCalls o = t.entered
  created : es.filterMap SchedEvent.createdWith = t.created

/-- The tables follow the indivisible calls. -/
structure FollowsCalls (q : RunQueue UInt64) (s : Sched) (o : Option (UInt64 × Place)) (t : Tables)
    (a : SchedState) (es : List SchedEvent) : Prop where
  represents : Represents a q
  unlocked : a.sched.lock = false
  creating : Creating a t.creator
  tables : t.sched = t.creator.apply s
  keeps : KeepsTables a.sched s
  place : AtPlace o a es s
  calls : SameCalls o t es

lemma Represents.findFreeIndex_number (h : Represents a q) (hfree : findFreeIndex a.sched ≠ -1) :
    findFreeIndex a.sched = a.sched.numberOfTasks.toNat := by
  rw [(h.findFreeIndex_eq hfree).1, h.created]

namespace FollowsCalls

variable {o : Option (UInt64 × Place)} {tb : Tables}

/-- The entry that is being filled is out of the way. -/
lemma work_eq (h : FollowsCalls q s (some (c, p)) tb a es) (hends : ∀ m, p ≠ .release m) :
    work p tb.sched = ((work p s).1, tb.creator.apply (work p s).2) := by
  rw [h.tables]
  have hcreating := h.creating
  have havoid := Progress.avoids h.place hends
  cases hcr : tb.creator with
  | idle | found => rfl
  | stored x index =>
      rw [hcr] at hcreating
      cases hcreating with
      | stored hfree hmem =>
          rw [h.represents.findFreeIndex_number hfree]
          have hput := work_put (s := s) havoid (Or.inr rfl) x.newTask
          have hsame : (work p s).2.put a.sched.numberOfTasks.toNat x.newTask s.numberOfTasks
              = (work p s).2.setTask a.sched.numberOfTasks.toNat x.newTask := by
            rw [← (keepsTables_work p s).number]
            rfl
          rwa [hsame] at hput

/-- **An access of the core that holds the lock.** -/
lemma work_step (h : FollowsCalls q s (some (c, p)) tb a es) (hends : ∀ m, p ≠ .release m) :
    ∃ es' a' q', Run LoggedStep (a, es) es' (a', es ++ es') ∧
      FollowsCalls q' (work p s).2 (some (c, (work p tb.sched).1))
        { tb with sched := (work p tb.sched).2, entered := tb.entered ++ p.entering } a'
          (es ++ es') ∧
      ∀ c' m, c' ≠ c → Gone c' a es m → Gone c' a' (es ++ es') m := by
  have hkeeps := h.keeps.trans (keepsTables_work p s)
  have htables : (work p tb.sched).2 = tb.creator.apply (work p s).2 := by rw [h.work_eq hends]
  have hplace : (work p tb.sched).1 = (work p s).1 := by rw [h.work_eq hends]
  rw [hplace]
  have hentered : tb.entered ++ p.entering =
      es.filterMap SchedEvent.calledWith ++ (p.pending ++ p.entering) := by
    rw [← h.calls.entered, pendingCalls, List.append_assoc]
  rcases Progress.step h.represents h.unlocked h.place hends with
    ⟨hpending, hstays⟩ | ⟨regs, sched', d, rfl, hregs, hnone, hcall, htick⟩
  · have hcalls : SameCalls (some (c, (work p s).1))
        { tb with sched := (work p tb.sched).2, entered := tb.entered ++ p.entering } es :=
      ⟨by rw [hentered, pendingCalls, hpending], h.calls.created⟩
    refine ⟨[], a, q, by simpa using Run.nil, ?_, fun _ m _ hgone => by simpa using hgone⟩
    rw [List.append_nil]
    exact ⟨h.represents, h.unlocked, h.creating, htables, hkeeps, hstays, hcalls⟩
  · obtain ⟨hkeeps', hunlocked⟩ := h.represents.keeps_tick hcall
    obtain ⟨q', _, hrep⟩ := taskTable_simulates h.represents (.tick hcall)
    have hcalls : SameCalls (some (regs.core, (work p s).1))
        { tb with sched := (work p tb.sched).2, entered := tb.entered ++ p.entering }
        (es ++ [.tick regs d]) := by
      constructor
      · rw [hentered, hregs, pendingCalls, hnone, List.append_nil, List.filterMap_append]
        rfl
      · rw [List.filterMap_append, h.calls.created]
        exact List.append_nil _
    refine ⟨[.tick regs d], a.note sched' d, q', Run.single (.mk (.tick hcall)), ?_,
      fun c' m hne hgone => hgone.tick_other h.represents hcall hne⟩
    exact ⟨hrep, hunlocked, h.creating.congr hkeeps'.findFreeIndex_eq, htables,
      hkeeps'.symm.trans hkeeps, htick, hcalls⟩

/-- **A step of `createNewTask`**, wherever the other cores are. -/
lemma create_step {e : CreateEvent} {tb' : Tables} (h : FollowsCalls q s o tb a es)
    (hstep : CreateStep tb e tb') : ∃ es' a' q' s', Run LoggedStep (a, es) es' (a', es ++ es') ∧
      FollowsCalls q' s' o tb' a' (es ++ es') ∧
      ∀ c m, Gone c a es m → Gone c a' (es ++ es') m := by
  have hcreating := h.creating
  have htables := h.tables
  cases hstep with
  | @find x hidle hfree hmem =>
      refine ⟨[], a, q, s, by simpa using Run.nil, ?_, fun _ m hgone => by simpa using hgone⟩
      rw [hidle] at htables
      have hindex : findFreeIndex tb.sched = findFreeIndex a.sched := by
        rw [htables]
        exact h.keeps.findFreeIndex_eq
      rw [hindex] at hfree
      rw [List.append_nil, hindex]
      exact ⟨h.represents, h.unlocked, .found hfree hmem, htables, h.keeps, h.place,
        ⟨h.calls.entered, h.calls.created⟩⟩
  | @store x index hfound =>
      refine ⟨[], a, q, s, by simpa using Run.nil, ?_, fun _ m hgone => by simpa using hgone⟩
      rw [hfound] at htables hcreating
      rw [List.append_nil]
      cases hcreating with
      | found hfree hmem =>
          refine ⟨h.represents, h.unlocked, .stored hfree hmem, ?_, h.keeps, h.place,
            ⟨h.calls.entered, h.calls.created⟩⟩
          rw [htables]
          rfl
  | @count x index hstored =>
      rw [hstored] at htables hcreating
      cases hcreating with
      | stored hfree hmem =>
          have hindex := h.represents.findFreeIndex_number hfree
          have hcreate := h.represents.create_eq hfree x
          have hrep := h.represents.create hfree hmem x.ss x.rsp x.cs x.entryPoint
          rw [hcreate] at hrep
          have hstep : SchedStep a (.create x.ss x.rsp x.cs x.entryPoint x.r) (a.created x) := by
            have hmk : SchedStep a (.create x.ss x.rsp x.cs x.entryPoint x.r) _ :=
              .create hfree hmem
            rwa [hcreate] at hmk
          refine ⟨[.create x.ss x.rsp x.cs x.entryPoint x.r], a.created x, q.create,
            s.put a.sched.numberOfTasks.toNat x.newTask (a.sched.numberOfTasks + 1),
            Run.single (.mk hstep), ?_, fun c m hgone =>
              hgone.created (h.represents.number_create hfree) x⟩
          have hcalls : SameCalls o { tb with
                sched := { tb.sched with numberOfTasks := tb.sched.numberOfTasks + 1 }
                creator := .idle
                created := tb.created ++ [x] }
              (es ++ [.create x.ss x.rsp x.cs x.entryPoint x.r]) := by
            constructor
            · rw [List.filterMap_append, ← h.calls.entered]
              exact congrArg (· ++ _) (List.append_nil _)
            · rw [List.filterMap_append, h.calls.created]
              rfl
          refine ⟨hrep, h.unlocked, .idle, ?_, ⟨rfl, h.keeps.max, fun j => ?_⟩, ?_, hcalls⟩
          · simp only [htables, hindex, Creation.apply, Sched.put, Sched.setTask, h.keeps.number]
          · change (Function.update s.tasks _ _ j).kernelStack
              = (Function.update a.sched.tasks _ _ j).kernelStack
            rcases eq_or_ne j a.sched.numberOfTasks.toNat with rfl | hne
            · rw [Function.update_self, Function.update_self]
            · rw [Function.update_of_ne hne, Function.update_of_ne hne, h.keeps.kernelStack]
          · cases o with
            | none =>
                have hplace : s = a.sched := h.place
                rw [hplace]
                rfl
            | some y => exact Progress.created h.represents hfree h.place x

end FollowsCalls

/-- The rule for sections applies. -/
def follows : Serialization schedulerSection CreateStep LoggedStep where
  Rel o tb b := ∃ q s, FollowsCalls q s o tb b.1 b.2
  Left c m b := Gone c b.1 b.2 m
  start := by
    rintro regs tb ⟨a, es⟩ ⟨q, s, h⟩
    obtain rfl : s = a.sched := h.place
    exact ⟨q, a.sched,
      { h with place := .countTasks rfl, calls := ⟨h.calls.entered, h.calls.created⟩ }⟩
  work := by
    rintro c p tb ⟨a, es⟩ ⟨q, s, h⟩ hends
    have hends' : ∀ m, p ≠ .release m := by
      rintro m rfl
      exact nomatch hends
    obtain ⟨es', a', q', hrun, h', hgone⟩ := h.work_step hends'
    exact ⟨es', (a', es ++ es'), hrun, ⟨q', _, h'⟩, hgone⟩
  release := by
    rintro c p m tb ⟨a, es⟩ ⟨q, s, h⟩ hends
    cases p with
    | release m' =>
        obtain rfl := Option.some.inj hends
        have hplace : Progress c a es (.release m') s := h.place
        cases hplace with
        | switching hswitch => exact nomatch hswitch.place
        | gone hgone _ =>
            exact ⟨⟨q, a.sched, { h with
              place := rfl
              calls := ⟨h.calls.entered, h.calls.created⟩ }⟩, hgone⟩
    | _ => exact nomatch hends
  env := by
    rintro o e tb tb' ⟨a, es⟩ ⟨q, s, h⟩ hstep
    obtain ⟨es', a', q', s', hrun, h', hgone⟩ := h.create_step hstep
    exact ⟨es', (a', es ++ es'), hrun, ⟨q', s', h'⟩, hgone⟩

/-! ## What the interleavings do -/

/-- The state of the indivisible calls at the start. -/
def FineState.log (f : FineState) : SchedState where
  sched := f.shared.sched
  steps := 0
  waitingSince := fun _ => 0
  passedOver := fun _ => 0
  starts := fun _ => 0

/-- No task yet, and no call. -/
structure FineState.Fresh (f : FineState) : Prop where
  outside : f.Initial
  idle : f.shared.creator = .idle
  unlocked : f.shared.sched.lock = false
  tables : f.log.Initial
  entered : f.shared.entered = []
  created : f.shared.created = []

/-- What the indivisible calls `es`, which lead to `a`, say about a state. -/
structure Serialized (f : FineState) (es : List SchedEvent) (a : SchedState) : Prop where
  exclusive : ∀ c c' p p', f.phase c = .inside p → f.phase c' = .inside p' → c = c'
  held_iff : f.held = true ↔ ∃ c p, f.phase c = .inside p
  tables : f.held = false → f.shared.sched = f.shared.creator.apply a.sched
  resumed : ∀ c m, f.phase c = .after m → lastTick c es = some (m.dispatch f.shared.sched)
  entered : f.held = false → es.filterMap SchedEvent.calledWith = f.shared.entered
  entering : ∀ c p, f.phase c = .inside p →
    es.filterMap SchedEvent.calledWith ++ p.pending = f.shared.entered
  created : es.filterMap SchedEvent.createdWith = f.shared.created

variable {f₀ f : FineState} {fes : List FineEvent}

/-- Every run follows a run of the indivisible calls. -/
lemma stands_run (h0 : f₀.Fresh) (hrun : Run FineStep f₀ fes f) :
    ∃ es a, Run SchedStep f₀.log es a ∧ follows.Stands f (a, es) := by
  have hrel : follows.Rel none f₀.shared (f₀.log, []) :=
    ⟨RunQueue.empty UInt64, f₀.shared.sched, represents_initial h0.tables, h0.unlocked,
      h0.idle ▸ .idle,
      by rw [h0.idle]; rfl, keepsTables_refl _, rfl, ⟨h0.entered.symm, h0.created.symm⟩⟩
  obtain ⟨es, ⟨a, es'⟩, hlogged, hstands⟩ := follows.run h0.outside hrel hrun
  have hlog : ∀ es b, Run LoggedStep (f₀.log, []) es b → b.2 = es ∧
      Run SchedStep f₀.log es b.1 := by
    intro es b hlogged
    induction hlogged with
    | nil => exact ⟨rfl, .nil⟩
    | snoc _ hstep ih =>
        cases hstep with
        | mk hstep =>
            obtain ⟨rfl, hrun⟩ := ih
            exact ⟨rfl, hrun.snoc hstep⟩
  obtain ⟨rfl, hrun'⟩ := hlog es _ hlogged
  exact ⟨_, a, hrun', hstands⟩

@[simp] lemma cpuInfo_apply (cr : Creation) (s : Sched) : (cr.apply s).cpuInfo = s.cpuInfo := by
  cases cr <;> rfl

/-- The entries of the tasks that are counted. -/
lemma FollowsCalls.tasks_apply {o : Option (UInt64 × Place)} {tb : Tables}
    (h : FollowsCalls q s o tb a es) (hn : n < a.sched.numberOfTasks.toNat) :
    tb.sched.tasks n = s.tasks n := by
  have hcreating := h.creating
  rw [h.tables]
  cases hcr : tb.creator with
  | idle | found => rfl
  | stored x index =>
      rw [hcr] at hcreating
      cases hcreating with
      | stored hfree hmem =>
          rw [h.represents.findFreeIndex_number hfree]
          exact Function.update_of_ne (by omega) _ _

/-- The core that holds the lock works on its own entry of `cpuInfo`. -/
lemma AtPlace.cpuInfo_eq {o : Option (UInt64 × Place)} (h : AtPlace o a es s)
    (hne : ∀ p, o ≠ some (c, p)) : s.cpuInfo c = a.sched.cpuInfo c := by
  cases o with
  | none => rw [show s = a.sched from h]
  | some y =>
      obtain ⟨c', p⟩ := y
      have hprogress : Progress c' a es p s := h
      cases hprogress with
      | switching hswitch => exact hswitch.cpuInfo c fun heq => hne p (heq ▸ rfl)
      | _ => rfl

/-- It does not touch the tasks that the others run. -/
lemma AtPlace.tasks_eq {o : Option (UInt64 × Place)} (h : AtPlace o a es s)
    (hrep : Represents a q) (hne : ∀ p, o ≠ some (c, p))
    (hrun : (a.sched.cpuInfo c).currentTask = n) : s.tasks n = a.sched.tasks n := by
  have hrunning := hrep.current_eq_iff.mp hrun
  have hstatus := hrep.running c n hrunning
  have hscanned : ∀ k, (a.scanned k).tasks n = a.sched.tasks n := fun k =>
    passOver_of_ne (by rw [hstatus]; decide)
  cases o with
  | none => rw [show s = a.sched from h]
  | some y =>
      obtain ⟨c', p⟩ := y
      have hprogress : Progress c' a es p s := h
      cases hprogress with
      | @switching v p s hswitch =>
          obtain ⟨l, hl, _, hnext⟩ := hswitch.next
          refine hswitch.tasks n ?_ ?_
          · intro heq
            rcases hswitch.last with hnone | ⟨k, hk, _, hwait⟩
            · omega
            · have hnk : n = k := by omega
              rw [← hnk, hstatus] at hwait
              exact absurd hwait (by decide)
          · intro heq
            have hln : l = n := by omega
            rw [hln] at hnext
            have hsame := q.running_inj c c' n hrunning (hrep.current_eq_iff.mp hnext)
            exact hne p (hsame ▸ rfl)
      | test | waiting | waitingToStart => exact hscanned _
      | _ => rfl

/-- **Interleavings are serialized.**  Whatever the order of the accesses, the calls that have come
to the lock, and those that have created a task, lead to the same tables as a run of indivisible
calls, and every core gets from `startTask` or `switchTask` what its last call has returned, though
it reads the arguments without the lock. -/
theorem interleaving_serialized (h0 : f₀.Fresh) (hrun : Run FineStep f₀ fes f) :
    ∃ es a, Run SchedStep f₀.log es a ∧ Serialized f es a := by
  obtain ⟨es, a, hrun', hstands⟩ := stands_run h0 hrun
  obtain ⟨o, hholder, q, s, hfollows⟩ := hstands.holder
  refine ⟨es, a, hrun', fun c c' p p' => hholder.exclusive, hholder.held_iff, ?_, ?_, ?_, ?_,
    hfollows.calls.created⟩
  · intro hheld
    obtain rfl := hholder.eq_none hheld
    have hplace : s = a.sched := hfollows.place
    rw [hfollows.tables, hplace]
  · intro c m hm
    have hgone : Gone c a es m := hstands.left c m hm
    have hout : ∀ p, o ≠ some (c, p) := by
      rintro p rfl
      cases hholder with
      | held _ hphase _ => exact nomatch hm.symm.trans hphase
    rw [hgone.tick]
    refine congrArg some (dispatch_congr fun v hv => ?_).symm
    obtain ⟨n, hn, hlt, hcurrent⟩ := hgone.current v hv
    rw [hn, hfollows.tasks_apply hlt, hfollows.place.tasks_eq hfollows.represents hout hcurrent]
  · intro hheld
    obtain rfl := hholder.eq_none hheld
    exact (List.append_nil _).symm.trans hfollows.calls.entered
  · intro c p hphase
    obtain rfl := hholder.eq_of_inside hphase
    exact hfollows.calls.entered

/-! ## Two tasks on two cores -/

/-- No task, and no call. -/
def plainFine : FineState where
  held := false
  phase := fun _ => .outside
  shared := { sched := plainSched.sched, creator := .idle, entered := [], created := [] }

lemma plainFine_fresh : plainFine.Fresh where
  outside := ⟨rfl, fun _ => rfl⟩
  idle := rfl
  unlocked := rfl
  tables := ⟨rfl, fun _ _ => rfl, fun _ => rfl, fun _ => rfl⟩
  entered := rfl
  created := rfl

/-- A task on a machine with 32 MiB. -/
def plainCreate : List FineEvent :=
  [.env (.find ⟨0x23, 0x10000, 0x1b, 0x8000,
    ⟨1, 0, ⟨fun _ => 0, 0x2000000, false⟩, default, fun _ => default⟩⟩), .env .store, .env .count]

/-- A timer interrupt on core `c`, up to the release after `k` accesses. -/
def plainTick (c : UInt64) (k : ℕ) : List FineEvent :=
  [.call { (default : Regs) with core := c }, .take c] ++ List.replicate k (.work c) ++ [.release c]

/-- Core 0 starts task 0, and then task 1; core 1 resumes task 0. -/
def raceEvents : List FineEvent :=
  plainCreate ++ plainCreate ++ plainTick 0 12 ++ [.finish 0] ++ plainTick 0 15 ++
    plainTick 1 17 ++ [.finish 1]

/-- Core 0 has not come to task 1, while core 1 runs task 0. -/
def raced : FineState := raceEvents.foldl FineState.next plainFine

lemma run_raced : Run FineStep plainFine raceEvents raced := fine_replay _ _ (by decide +kernel)

theorem interleaving_serialized_raced :
    ∃ es a, Run SchedStep plainFine.log es a ∧ Serialized raced es a :=
  interleaving_serialized plainFine_fresh run_raced

end Seaweed
