import Mathlib.Tactic

/-!
# A first-in-first-out run queue

What a dispatcher with one rule is *for*, whatever it keeps its tasks in: tasks are created in
order, a task that has never run goes first, and after that the task that has waited longest.  When
a core switches, the task it was running goes to the end of the queue.

A `RunQueue` carries what makes it one as fields: every started task is either waiting in the queue
or running on one core, and not both.  It also counts, for each waiting task, how often it has been
passed over (`age`).

* `create`, `start`, `resume` — the operations.
* `RunQueue.oldest` — the head of the queue is the task that has been passed over most often.
* **`RunQueue.age_lt_started`** — nobody is passed over more often than there are started tasks.
-/

/-- Tasks are numbered in the order in which they are created, and started in that order. -/
structure RunQueue (Core : Type*) where
  created : ℕ
  started : ℕ
  queue : List ℕ
  running : Core → Option ℕ
  age : ℕ → ℕ
  started_le : started ≤ created
  nodup : queue.Nodup
  apart : ∀ i ∈ queue, ∀ c, running c ≠ some i
  running_inj : ∀ c c' i, running c = some i → running c' = some i → c = c'
  mem_started : ∀ i, i < started ↔ i ∈ queue ∨ ∃ c, running c = some i
  ages : queue.Pairwise fun i j => age j < age i
  bound : ∀ k (hk : k < queue.length), age queue[k] + k + 1 ≤ started

namespace RunQueue

variable {Core : Type*}

/-! ## Reading a run queue -/

lemma queue_lt_started (q : RunQueue Core) {i : ℕ} (h : i ∈ q.queue) : i < q.started :=
  (q.mem_started i).mpr (Or.inl h)

lemma running_lt_started (q : RunQueue Core) {i : ℕ} {c : Core} (h : q.running c = some i) :
    i < q.started :=
  (q.mem_started i).mpr (Or.inr ⟨c, h⟩)

lemma queue_lt_created (q : RunQueue Core) {i : ℕ} (h : i ∈ q.queue) : i < q.created :=
  lt_of_lt_of_le (q.queue_lt_started h) q.started_le

/-- **Nobody is passed over more often than there are started tasks.** -/
theorem age_lt_started (q : RunQueue Core) {i : ℕ} (h : i ∈ q.queue) : q.age i < q.started := by
  obtain ⟨k, hk, rfl⟩ := List.getElem_of_mem h
  have := q.bound k hk
  omega

/-- The head of the queue is the task that has been passed over most often. -/
theorem oldest (q : RunQueue Core) {n i : ℕ} {rest : List ℕ} (hq : q.queue = n :: rest)
    (h : i ∈ q.queue) : i = n ∨ q.age i < q.age n := by
  have hages := q.ages
  rw [hq] at hages h
  rcases List.mem_cons.mp h with rfl | hrest
  · exact Or.inl rfl
  · exact Or.inr ((List.pairwise_cons.mp hages).1 i hrest)

/-- A list of different numbers below `n` is no longer than `n`. -/
lemma length_le_of_nodup {l : List ℕ} {n : ℕ} (hnodup : l.Nodup) (hlt : ∀ i ∈ l, i < n) :
    l.length ≤ n := by
  have hsub : l.toFinset ⊆ Finset.range n := by
    intro i hi
    simpa using hlt i (by simpa using hi)
  have hcard := Finset.card_le_card hsub
  rwa [List.toFinset_card_of_nodup hnodup, Finset.card_range] at hcard

/-! ## The operations -/

/-- No task yet. -/
def empty (Core : Type*) : RunQueue Core where
  created := 0
  started := 0
  queue := []
  running := fun _ => none
  age := fun _ => 0
  started_le := le_refl 0
  nodup := List.nodup_nil
  apart := by simp
  running_inj := by simp
  mem_started := by simp
  ages := List.Pairwise.nil
  bound := by simp

/-- One more task. -/
def create (q : RunQueue Core) : RunQueue Core :=
  { q with
    created := q.created + 1
    started_le := Nat.le_succ_of_le q.started_le }

/-- The core `c` switches to task `n`; `waiting` are the tasks that are passed over. -/
structure Candidate (q : RunQueue Core) (n : ℕ) (waiting : List ℕ) (started : ℕ) : Prop where
  started_le : started ≤ q.created
  nodup : (n :: waiting).Nodup
  apart : ∀ i ∈ n :: waiting, ∀ c, q.running c ≠ some i
  mem_started : ∀ i, i < started ↔ i ∈ n :: waiting ∨ ∃ c, q.running c = some i
  ages : waiting.Pairwise fun i j => q.age j < q.age i
  bound : ∀ k (hk : k < waiting.length), q.age waiting[k] + 1 + k + 1 ≤ started

/-- What a core is running is not switched to, and does not wait. -/
lemma Candidate.ne_of_running {q : RunQueue Core} {n i started : ℕ} {waiting : List ℕ} {c : Core}
    (h : q.Candidate n waiting started) (hrun : q.running c = some i) : i ≠ n := by
  rintro rfl
  exact h.apart i List.mem_cons_self c hrun

lemma Candidate.not_mem_of_running {q : RunQueue Core} {n i started : ℕ} {waiting : List ℕ}
    {c : Core} (h : q.Candidate n waiting started) (hrun : q.running c = some i) : i ∉ waiting :=
  fun hwait => h.apart i (List.mem_cons_of_mem n hwait) c hrun

/-- The next task that has never run can be switched to. -/
lemma candidate_start (q : RunQueue Core) (h : q.started < q.created) :
    q.Candidate q.started q.queue (q.started + 1) where
  started_le := h
  nodup := List.nodup_cons.mpr ⟨fun hmem => lt_irrefl _ (q.queue_lt_started hmem), q.nodup⟩
  apart := by
    intro i hi c hc
    rcases List.mem_cons.mp hi with rfl | hwait
    · exact lt_irrefl _ (q.running_lt_started hc)
    · exact q.apart i hwait c hc
  mem_started := by
    intro i
    rw [Nat.lt_succ_iff_lt_or_eq, q.mem_started i, List.mem_cons]
    tauto
  ages := q.ages
  bound := fun k hk => by have := q.bound k hk; omega

/-- So can the head of the queue. -/
lemma candidate_resume (q : RunQueue Core) {n : ℕ} {rest : List ℕ} (hq : q.queue = n :: rest) :
    q.Candidate n rest q.started where
  started_le := q.started_le
  nodup := hq ▸ q.nodup
  apart := hq ▸ q.apart
  mem_started := hq ▸ q.mem_started
  ages := (List.pairwise_cons.mp (hq ▸ q.ages)).2
  bound := by
    intro k hk
    have hk' : k + 1 < q.queue.length := by rw [hq, List.length_cons]; omega
    have := q.bound (k + 1) hk'
    have hget : q.queue[k + 1] = rest[k] := by simp only [hq, List.getElem_cons_succ]
    rw [hget] at this
    omega

variable [DecidableEq Core]

/-- The core `c` switches to task `n`: what it was running goes to the end of the queue, and every
waiting task has been passed over once more. -/
def switchTo (q : RunQueue Core) (c : Core) {n : ℕ} {waiting : List ℕ} {started : ℕ}
    (h : q.Candidate n waiting started) : RunQueue Core where
  created := q.created
  started := started
  queue := waiting ++ (q.running c).toList
  running := Function.update q.running c (some n)
  age := fun i => if i ∈ waiting then q.age i + 1 else 0
  started_le := h.started_le
  nodup := by
    rw [List.nodup_append]
    refine ⟨(List.nodup_cons.mp h.nodup).2, by cases q.running c <;> simp, fun i hi j hj heq => ?_⟩
    rw [Option.mem_toList] at hj
    exact h.apart i (List.mem_cons_of_mem n hi) c (heq ▸ hj)
  apart := by
    intro i hi c' hc'
    rcases eq_or_ne c' c with rfl | hne
    · rw [Function.update_self, Option.some.injEq] at hc'
      subst hc'
      rcases List.mem_append.mp hi with hwait | hlast
      · exact (List.nodup_cons.mp h.nodup).1 hwait
      · exact h.apart n List.mem_cons_self c' (Option.mem_toList.mp hlast)
    · rw [Function.update_of_ne hne] at hc'
      rcases List.mem_append.mp hi with hwait | hlast
      · exact h.apart i (List.mem_cons_of_mem n hwait) c' hc'
      · exact hne (q.running_inj c' c i hc' (Option.mem_toList.mp hlast))
  running_inj := by
    intro c₁ c₂ i h₁ h₂
    have hother := h.apart n List.mem_cons_self
    rcases eq_or_ne c c₁ with rfl | hne₁ <;> rcases eq_or_ne c c₂ with rfl | hne₂
    · rfl
    · rw [Function.update_self] at h₁
      rw [Function.update_of_ne hne₂.symm, ← h₁] at h₂
      exact absurd h₂ (hother c₂)
    · rw [Function.update_self] at h₂
      rw [Function.update_of_ne hne₁.symm, ← h₂] at h₁
      exact absurd h₁ (hother c₁)
    · rw [Function.update_of_ne hne₁.symm] at h₁
      rw [Function.update_of_ne hne₂.symm] at h₂
      exact q.running_inj c₁ c₂ i h₁ h₂
  mem_started := by
    intro i
    rw [h.mem_started i, List.mem_append, Option.mem_toList]
    constructor
    · rintro (hi | ⟨c', hc'⟩)
      · rcases List.mem_cons.mp hi with rfl | hwait
        · exact Or.inr ⟨c, Function.update_self ..⟩
        · exact Or.inl (Or.inl hwait)
      · rcases eq_or_ne c' c with rfl | hne
        · exact Or.inl (Or.inr hc')
        · exact Or.inr ⟨c', by rwa [Function.update_of_ne hne]⟩
    · rintro ((hwait | hlast) | ⟨c', hc'⟩)
      · exact Or.inl (List.mem_cons_of_mem n hwait)
      · exact Or.inr ⟨c, hlast⟩
      · rcases eq_or_ne c' c with rfl | hne
        · rw [Function.update_self, Option.some.injEq] at hc'
          exact Or.inl (hc' ▸ List.mem_cons_self)
        · rw [Function.update_of_ne hne] at hc'
          exact Or.inr ⟨c', hc'⟩
  ages := by
    have hlast : ∀ i, i ∈ (q.running c).toList → i ∉ waiting := fun i hi hwait =>
      h.apart i (List.mem_cons_of_mem n hwait) c (Option.mem_toList.mp hi)
    rw [List.pairwise_append]
    refine ⟨?_, by cases q.running c <;> simp, fun i hi j hj => ?_⟩
    · refine h.ages.imp_of_mem fun {i j} hi hj hlt => ?_
      rw [if_pos hi, if_pos hj]
      omega
    · rw [if_pos hi, if_neg (hlast j hj)]
      omega
  bound := by
    intro k hk
    have hlen : waiting.length + 1 ≤ started :=
      length_le_of_nodup h.nodup fun i hi => (h.mem_started i).mpr (Or.inl hi)
    rcases Nat.lt_or_ge k waiting.length with hlt | hge
    · rw [List.getElem_append_left hlt, if_pos (List.getElem_mem hlt)]
      exact h.bound k hlt
    · have hmem : (waiting ++ (q.running c).toList)[k] ∈ (q.running c).toList := by
        rw [List.getElem_append_right hge]
        exact List.getElem_mem _
      have hnot : (waiting ++ (q.running c).toList)[k] ∉ waiting := fun hwait =>
        h.apart _ (List.mem_cons_of_mem n hwait) c (Option.mem_toList.mp hmem)
      have hone : (q.running c).toList.length ≤ 1 := by cases q.running c <;> simp
      rw [List.length_append] at hk
      rw [if_neg hnot]
      omega

/-- After a switch the core has the task it switched to, and the other cores what they had. -/
lemma switchTo_running (q : RunQueue Core) {c c' : Core} {n i : ℕ} {waiting : List ℕ} {started : ℕ}
    (h : q.Candidate n waiting started) (hrun : (q.switchTo c h).running c' = some i) :
    (c' = c ∧ n = i) ∨ (c' ≠ c ∧ q.running c' = some i) := by
  change Function.update q.running c (some n) c' = some i at hrun
  rcases eq_or_ne c' c with rfl | hne
  · rw [Function.update_self, Option.some.injEq] at hrun
    exact Or.inl ⟨rfl, hrun⟩
  · rw [Function.update_of_ne hne] at hrun
    exact Or.inr ⟨hne, hrun⟩

/-- The core `c` starts the next task that has never run. -/
def start (q : RunQueue Core) (c : Core) (h : q.started < q.created) : RunQueue Core :=
  q.switchTo c (q.candidate_start h)

/-- The core `c` resumes the task that has waited longest. -/
def resume (q : RunQueue Core) (c : Core) {n : ℕ} {rest : List ℕ} (hq : q.queue = n :: rest) :
    RunQueue Core :=
  q.switchTo c (q.candidate_resume hq)

/-! ## Steps -/

inductive Event (Core : Type*)
  | create
  | dispatch (c : Core) (n : ℕ)
  | idle (c : Core)

/-- A core switches whenever a task waits or has never run, and a task that has never run goes
first. -/
inductive Step : RunQueue Core → Event Core → RunQueue Core → Prop
  | create {q : RunQueue Core} : Step q .create q.create
  | start {q : RunQueue Core} {c : Core} (h : q.started < q.created) :
      Step q (.dispatch c q.started) (q.start c h)
  | resume {q : RunQueue Core} {c : Core} {n : ℕ} {rest : List ℕ} (hall : q.started = q.created)
      (hq : q.queue = n :: rest) : Step q (.dispatch c n) (q.resume c hq)
  | idle {q : RunQueue Core} {c : Core} (hall : q.started = q.created) (hq : q.queue = []) :
      Step q (.idle c) q

end RunQueue
