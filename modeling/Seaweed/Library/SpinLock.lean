import Seaweed.Library.Runs

/-!
# Sections under a spin lock

Threads call a function whose body is between taking a lock, by a test-and-set in a loop that gives
up after so many failures, and giving it back.  The body accesses the shared state in small steps,
and the steps of the threads, and those of an environment that does not take the lock, come in any
order.

* `Program`, `Step` — the threads.
* `State.Holder` — at most one thread is inside, and the lock is held exactly then.
* `Serialization` — what has to be known of the small steps, one thread at a time.
* **`Run.serialize`** — then every run does what a run of indivisible calls does.
-/

namespace SpinLock

open Transition

variable {Thread Arg Inside After Shared EnvEvent Abs AbsEvent : Type*}

/-! ## The threads -/

/-- The body of the function, as what a thread does next while it holds the lock, and what it has
still to do afterwards. -/
structure Program (Thread Arg Inside After Shared : Type*) where
  caller : Arg → Thread
  start : Arg → Inside
  work : Inside → Shared → Inside × Shared
  ends : Inside → Option After

inductive Phase (Arg Inside After : Type*)
  | outside
  | spinning (x : Arg) (failed : ℕ)
  | stuck
  | inside (l : Inside)
  | after (m : After)

structure State (Thread Arg Inside After Shared : Type*) where
  held : Bool
  phase : Thread → Phase Arg Inside After
  shared : Shared

inductive Event (Thread Arg EnvEvent : Type*)
  | call (x : Arg)
  | fail (t : Thread)
  | take (t : Thread)
  | work (t : Thread)
  | release (t : Thread)
  | finish (t : Thread)
  | env (e : EnvEvent)

/-- The state with thread `t` in another phase. -/
def State.go [DecidableEq Thread] (s : State Thread Arg Inside After Shared) (t : Thread)
    (p : Phase Arg Inside After) :
    State Thread Arg Inside After Shared :=
  { s with phase := Function.update s.phase t p }

/-- One step of a thread, or of the environment. -/
inductive Step [DecidableEq Thread] (P : Program Thread Arg Inside After Shared) (limit : ℕ)
    (EnvStep : Shared → EnvEvent → Shared → Prop) :
    State Thread Arg Inside After Shared → Event Thread Arg EnvEvent →
      State Thread Arg Inside After Shared → Prop
  | call {s : State Thread Arg Inside After Shared} {x : Arg}
      (hphase : s.phase (P.caller x) = .outside) :
      Step P limit EnvStep s (.call x) (s.go (P.caller x) (.spinning x 0))
  | fail {s : State Thread Arg Inside After Shared} {t : Thread} {x : Arg} {n : ℕ}
      (hheld : s.held = true) (hphase : s.phase t = .spinning x n) :
      Step P limit EnvStep s (.fail t)
        (s.go t (if n + 1 = limit then .stuck else .spinning x (n + 1)))
  | take {s : State Thread Arg Inside After Shared} {t : Thread} {x : Arg} {n : ℕ}
      (hheld : s.held = false) (hphase : s.phase t = .spinning x n) :
      Step P limit EnvStep s (.take t) { s.go t (.inside (P.start x)) with held := true }
  | work {s : State Thread Arg Inside After Shared} {t : Thread} {l : Inside}
      (hphase : s.phase t = .inside l) (hends : P.ends l = none) :
      Step P limit EnvStep s (.work t)
        { s.go t (.inside (P.work l s.shared).1) with shared := (P.work l s.shared).2 }
  | release {s : State Thread Arg Inside After Shared} {t : Thread} {l : Inside} {m : After}
      (hphase : s.phase t = .inside l) (hends : P.ends l = some m) :
      Step P limit EnvStep s (.release t) { s.go t (.after m) with held := false }
  | finish {s : State Thread Arg Inside After Shared} {t : Thread} {m : After}
      (hphase : s.phase t = .after m) : Step P limit EnvStep s (.finish t) (s.go t .outside)
  | env {s : State Thread Arg Inside After Shared} {e : EnvEvent} {shared : Shared}
      (hstep : EnvStep s.shared e shared) :
      Step P limit EnvStep s (.env e) { s with shared := shared }

/-- Nobody has called the function yet. -/
structure State.Initial (s : State Thread Arg Inside After Shared) : Prop where
  free : s.held = false
  outside : ∀ t, s.phase t = .outside

/-- Who holds the lock, and where it is in its section. -/
inductive State.Holder (s : State Thread Arg Inside After Shared) : Option (Thread × Inside) → Prop
  | free (hheld : s.held = false) (hout : ∀ t l, s.phase t ≠ .inside l) : s.Holder none
  | held {t : Thread} {l : Inside} (hheld : s.held = true) (hphase : s.phase t = .inside l)
      (honly : ∀ t' l', s.phase t' = .inside l' → t' = t) : s.Holder (some (t, l))

variable {P : Program Thread Arg Inside After Shared} {limit : ℕ}
  {EnvStep : Shared → EnvEvent → Shared → Prop} {s s' : State Thread Arg Inside After Shared}
  {t t' : Thread} {l : Inside} {m : After} {o : Option (Thread × Inside)}
  {p : Phase Arg Inside After}

/-! ## Reading a state -/

/-- Two threads are not inside at once. -/
lemma State.Holder.exclusive {l' : Inside} (h : s.Holder o) (ht : s.phase t = .inside l)
    (ht' : s.phase t' = .inside l') : t = t' := by
  cases h with
  | free _ hout => exact absurd ht (hout t l)
  | held _ _ honly => rw [honly t l ht, honly t' l' ht']

/-- The lock is held exactly while a thread is inside. -/
lemma State.Holder.held_iff (h : s.Holder o) :
    s.held = true ↔ ∃ t l, s.phase t = .inside l := by
  cases h with
  | free hheld hout =>
      rw [hheld]
      exact ⟨fun h => Bool.noConfusion h, fun ⟨t, l, h⟩ => absurd h (hout t l)⟩
  | held hheld hphase _ => exact ⟨fun _ => ⟨_, _, hphase⟩, fun _ => hheld⟩

/-- The thread that is inside is the holder. -/
lemma State.Holder.eq_of_inside (h : s.Holder o) (ht : s.phase t = .inside l) :
    o = some (t, l) := by
  cases h with
  | free _ hout => exact absurd ht (hout t l)
  | held _ hphase honly =>
      obtain rfl := honly t l ht
      rw [hphase, Phase.inside.injEq] at ht
      rw [ht]

lemma State.Holder.not_inside (h : s.Holder o) (hheld : s.held = false) :
    s.phase t ≠ .inside l := fun ht =>
  Bool.false_ne_true (hheld.symm.trans (h.held_iff.mpr ⟨t, l, ht⟩))

lemma State.Holder.eq_none (h : s.Holder o) (hheld : s.held = false) : o = none := by
  cases h with
  | free _ _ => rfl
  | held hheld' _ _ => exact absurd (hheld.symm.trans hheld') Bool.false_ne_true

variable [DecidableEq Thread]

@[simp] lemma phase_go : (s.go t p).phase t = p := Function.update_self ..

lemma phase_go_of_ne (h : t' ≠ t) : (s.go t p).phase t' = s.phase t' := Function.update_of_ne h ..

/-- A thread that is outside the section stays outside it. -/
lemma State.Holder.go (h : s.Holder o) (ht : ∀ l, s.phase t ≠ .inside l)
    (hp : ∀ l, p ≠ .inside l) : (s.go t p).Holder o := by
  cases h with
  | free hheld hout =>
      refine .free hheld fun t' l => ?_
      rcases eq_or_ne t' t with rfl | hne
      · rw [phase_go]
        exact hp l
      · rw [phase_go_of_ne hne]
        exact hout t' l
  | @held t₀ l₀ hheld hphase honly =>
      have hne : t₀ ≠ t := fun heq => ht l₀ (heq ▸ hphase)
      refine .held hheld ((phase_go_of_ne hne).trans hphase) fun t' l' ht' => ?_
      rcases eq_or_ne t' t with rfl | hne'
      · exact absurd (phase_go.symm.trans ht') (hp l')
      · exact honly t' l' ((phase_go_of_ne hne').symm.trans ht')

/-! ## The rule -/

/-- What has to be known to see each section as one indivisible call: a relation to the abstract
states for each place in a section, kept by the small steps of one thread and by the environment, at
the cost of abstract steps that do not disturb the threads that have left. -/
structure Serialization (P : Program Thread Arg Inside After Shared)
    (EnvStep : Shared → EnvEvent → Shared → Prop) (AbsStep : Abs → AbsEvent → Abs → Prop) where
  Rel : Option (Thread × Inside) → Shared → Abs → Prop
  Left : Thread → After → Abs → Prop
  start : ∀ x shared a, Rel none shared a → Rel (some (P.caller x, P.start x)) shared a
  work : ∀ t l shared a, Rel (some (t, l)) shared a → P.ends l = none →
    ∃ es a', Run AbsStep a es a' ∧ Rel (some (t, (P.work l shared).1)) (P.work l shared).2 a' ∧
      ∀ t' m, t' ≠ t → Left t' m a → Left t' m a'
  release : ∀ t l m shared a, Rel (some (t, l)) shared a → P.ends l = some m →
    Rel none shared a ∧ Left t m a
  env : ∀ o e shared shared' a, Rel o shared a → EnvStep shared e shared' →
    ∃ es a', Run AbsStep a es a' ∧ Rel o shared' a' ∧ ∀ t m, Left t m a → Left t m a'

/-- The abstract state that a state stands for. -/
structure Serialization.Stands {AbsStep : Abs → AbsEvent → Abs → Prop}
    (S : Serialization P EnvStep AbsStep) (s : State Thread Arg Inside After Shared) (a : Abs) :
    Prop where
  holder : ∃ o, s.Holder o ∧ S.Rel o s.shared a
  caller : ∀ t x n, s.phase t = .spinning x n → P.caller x = t
  left : ∀ t m, s.phase t = .after m → S.Left t m a

variable {AbsStep : Abs → AbsEvent → Abs → Prop} {S : Serialization P EnvStep AbsStep} {a a' : Abs}

namespace Serialization.Stands

/-- The other threads are where they were. -/
lemma caller_go (h : S.Stands s a) (hp : ∀ x n, p = .spinning x n → P.caller x = t) {x : Arg}
    {n : ℕ} (ht' : (s.go t p).phase t' = .spinning x n) : P.caller x = t' := by
  rcases eq_or_ne t' t with rfl | hne
  · exact hp x n (phase_go.symm.trans ht')
  · exact h.caller t' x n ((phase_go_of_ne hne).symm.trans ht')

lemma left_go (h : S.Stands s a) (hp : ∀ m, p ≠ .after m)
    (ht' : (s.go t p).phase t' = .after m) : S.Left t' m a := by
  rcases eq_or_ne t' t with rfl | hne
  · exact absurd (phase_go.symm.trans ht') (hp m)
  · exact h.left t' m ((phase_go_of_ne hne).symm.trans ht')

/-- A thread that is not inside does not go there. -/
lemma go (h : S.Stands s a) (ht : ∀ l, s.phase t ≠ .inside l) (hp : ∀ l, p ≠ .inside l)
    (hcaller : ∀ x n, p = .spinning x n → P.caller x = t) (hleft : ∀ m, p ≠ .after m) :
    S.Stands (s.go t p) a where
  holder := by
    obtain ⟨o, hholder, hrel⟩ := h.holder
    exact ⟨o, hholder.go ht hp, hrel⟩
  caller := fun _ _ _ => h.caller_go hcaller
  left := fun _ _ => h.left_go hleft

/-- **A step** is no step of the abstract system, or some. -/
theorem step {e : Event Thread Arg EnvEvent} (h : S.Stands s a)
    (hstep : Step P limit EnvStep s e s') : ∃ es a', Run AbsStep a es a' ∧ S.Stands s' a' := by
  obtain ⟨o, hholder, hrel⟩ := h.holder
  cases hstep with
  | @call x hphase =>
      refine ⟨[], a, .nil, h.go (by simp [hphase]) nofun ?_ nofun⟩
      rintro y n ⟨⟩
      rfl
  | @fail t x n hheld hphase =>
      have hcaller := h.caller t x n hphase
      refine ⟨[], a, .nil, h.go (by simp [hphase]) ?_ ?_ ?_⟩ <;> split_ifs
      · nofun
      · nofun
      · nofun
      · rintro y k ⟨⟩
        exact hcaller
      · nofun
      · nofun
  | @take t x n hheld hphase =>
      obtain rfl := hholder.eq_none hheld
      have hcaller := h.caller t x n hphase
      refine ⟨[], a, .nil,
        ⟨_, .held rfl phase_go fun t' l' ht' => ?_, hcaller ▸ S.start x _ a hrel⟩,
        fun _ _ _ => h.caller_go (by nofun), fun _ _ => h.left_go (by nofun)⟩
      by_contra hne
      exact hholder.not_inside hheld ((phase_go_of_ne hne).symm.trans ht')
  | @work t l hphase hends =>
      obtain rfl := hholder.eq_of_inside hphase
      obtain ⟨es, a', hrun, hrel', hkept⟩ := S.work t l _ a hrel hends
      refine ⟨es, a', hrun, ⟨_, .held (hholder.held_iff.mpr ⟨t, l, hphase⟩) phase_go
        fun t' l' ht' => ?_, hrel'⟩, fun _ _ _ => h.caller_go (by nofun), fun t' m ht' => ?_⟩
      · by_contra hne
        exact hne (hholder.exclusive ((phase_go_of_ne hne).symm.trans ht') hphase)
      · have hne : t' ≠ t := by
          rintro rfl
          exact nomatch phase_go.symm.trans ht'
        exact hkept t' m hne (h.left_go (by nofun) ht')
  | @release t l m hphase hends =>
      obtain rfl := hholder.eq_of_inside hphase
      obtain ⟨hrel', hleft⟩ := S.release t l m _ a hrel hends
      refine ⟨[], a, .nil, ⟨none, .free rfl fun t' l' ht' => ?_, hrel'⟩,
        fun _ _ _ => h.caller_go (by nofun), fun t' m' ht' => ?_⟩
      · rcases eq_or_ne t' t with rfl | hne
        · exact nomatch phase_go.symm.trans ht'
        · exact hne (hholder.exclusive ((phase_go_of_ne hne).symm.trans ht') hphase)
      · rcases eq_or_ne t' t with rfl | hne
        · obtain ⟨⟩ := phase_go.symm.trans ht'
          exact hleft
        · exact h.left t' m' ((phase_go_of_ne hne).symm.trans ht')
  | @finish t m hphase =>
      exact ⟨[], a, .nil, h.go (by simp [hphase]) nofun nofun nofun⟩
  | @env e shared hstep =>
      obtain ⟨es, a', hrun, hrel', hkept⟩ := S.env o e _ shared a hrel hstep
      refine ⟨es, a', hrun, ⟨o, ?_, hrel'⟩, h.caller, fun t m ht => hkept t m (h.left t m ht)⟩
      cases hholder with
      | free hheld hout => exact .free hheld hout
      | held hheld hphase honly => exact .held hheld hphase honly

end Serialization.Stands

/-- **Serialization.**  Every run of the threads, step by step and in any order, does what a run of
indivisible calls does. -/
theorem Serialization.run (S : Serialization P EnvStep AbsStep)
    {s₀ : State Thread Arg Inside After Shared} {es : List (Event Thread Arg EnvEvent)}
    (h0 : s₀.Initial) (hrel : S.Rel none s₀.shared a)
    (hrun : Run (Step P limit EnvStep) s₀ es s) :
    ∃ es' a', Run AbsStep a es' a' ∧ S.Stands s a' := by
  induction hrun with
  | nil =>
      exact ⟨[], a, .nil, ⟨none, .free h0.free (by simp [h0.outside]), hrel⟩,
        by simp [h0.outside], by simp [h0.outside]⟩
  | snoc _ hstep ih =>
      obtain ⟨es', a', hrun', hstands⟩ := ih
      obtain ⟨es'', a'', hrun'', hstands'⟩ := hstands.step hstep
      exact ⟨es' ++ es'', a'', hrun'.append hrun'', hstands'⟩

/-! ## Computed runs -/

variable (P : Program Thread Arg Inside After Shared) (limit : ℕ)

/-- What has to be so for an event, where `env` is the condition on those of the environment. -/
def State.enabled (env : Shared → EnvEvent → Bool) (s : State Thread Arg Inside After Shared) :
    Event Thread Arg EnvEvent → Bool
  | .call x => match s.phase (P.caller x) with
    | .outside => true
    | _ => false
  | .fail t => match s.phase t with
    | .spinning .. => s.held
    | _ => false
  | .take t => match s.phase t with
    | .spinning .. => !s.held
    | _ => false
  | .work t => match s.phase t with
    | .inside l => (P.ends l).isNone
    | _ => false
  | .release t => match s.phase t with
    | .inside l => (P.ends l).isSome
    | _ => false
  | .finish t => match s.phase t with
    | .after _ => true
    | _ => false
  | .env e => env s.shared e

/-- The state that an event leads to, where `env` computes what those of the environment do. -/
def State.next (env : Shared → EnvEvent → Shared) (s : State Thread Arg Inside After Shared) :
    Event Thread Arg EnvEvent → State Thread Arg Inside After Shared
  | .call x => s.go (P.caller x) (.spinning x 0)
  | .fail t => match s.phase t with
    | .spinning x n => s.go t (if n + 1 = limit then .stuck else .spinning x (n + 1))
    | _ => s
  | .take t => match s.phase t with
    | .spinning x _ => { s.go t (.inside (P.start x)) with held := true }
    | _ => s
  | .work t => match s.phase t with
    | .inside l => { s.go t (.inside (P.work l s.shared).1) with shared := (P.work l s.shared).2 }
    | _ => s
  | .release t => match s.phase t with
    | .inside l => match P.ends l with
      | some m => { s.go t (.after m) with held := false }
      | none => s
    | _ => s
  | .finish t => s.go t .outside
  | .env e => { s with shared := env s.shared e }

/-- **Computing an event** that is enabled is a step. -/
theorem State.step_next {enabled : Shared → EnvEvent → Bool} {next : Shared → EnvEvent → Shared}
    (henv : ∀ shared e, enabled shared e = true → EnvStep shared e (next shared e))
    (s : State Thread Arg Inside After Shared) (e : Event Thread Arg EnvEvent)
    (he : s.enabled P enabled e = true) : Step P limit EnvStep s e (s.next P limit next e) := by
  cases e with
  | call x =>
      cases hphase : s.phase (P.caller x) <;> simp [State.enabled, hphase] at he
      exact .call hphase
  | fail t =>
      cases hphase : s.phase t <;> simp [State.enabled, hphase] at he
      simp only [State.next, hphase]
      exact .fail he hphase
  | take t =>
      cases hphase : s.phase t <;> simp [State.enabled, hphase] at he
      simp only [State.next, hphase]
      exact .take he hphase
  | work t =>
      cases hphase : s.phase t <;> simp [State.enabled, hphase] at he
      simp only [State.next, hphase]
      exact .work hphase he
  | release t =>
      cases hphase : s.phase t <;> simp [State.enabled, hphase] at he
      obtain ⟨m, hends⟩ := Option.isSome_iff_exists.mp he
      simp only [State.next, hphase, hends]
      exact .release hphase hends
  | finish t =>
      cases hphase : s.phase t <;> simp [State.enabled, hphase] at he
      exact .finish hphase
  | env e => exact .env (henv _ _ he)

end SpinLock
