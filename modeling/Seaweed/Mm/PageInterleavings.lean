import Seaweed.Mm.PageRuns
import Seaweed.Sched.LockedSteps

/-!
# Page allocation on several cores (`physicalPageAlloc` in `kernel/mm/physicalPageManager.c`)

Any number of cores call `physicalPageAlloc`, which is a section under a lock, and each access to
the bitmap is a step of its own: the two searches for the first free page, the search for the run,
and for each page of it the load and the store of the byte with its bit.

* `PagePlace`, `pageWork` — what a core does next with the lock.
* `Finishes` — the accesses that are left, and what they lead to.
* `finishes_start` — the whole section is `physicalPageAlloc`.
* **`pageAlloc_serialized`** — in every interleaving the calls are indivisible, and no page is
  handed out twice.
* **`pageAlloc_completes`** — a core that has the lock gives it back after some accesses of its own.
-/

namespace Seaweed

open FirstFit SpinLock Transition Words

/-! ## The section -/

structure PageCall where
  core : UInt64
  count : UInt64
  deriving DecidableEq

/-- The next access, with the local variables. -/
inductive PagePlace
  | findBase (i : ℕ)
  | findIndex (base : UInt64) (i : ℕ)
  | search (i base cnt : UInt64)
  | loadByte (base : UInt64) (j : ℕ)
  | storeByte (base : UInt64) (j : ℕ) (byte : UInt8)
  | done (base : UInt64)
  deriving DecidableEq

/-- Page `j` of the run. -/
def runPage (base : UInt64) (j : ℕ) : ℕ := (base / PAGESIZE).toNat + j

def pageWork (count : UInt64) : PagePlace → Pmm → PagePlace × Pmm
  | .findBase i, s =>
      if i < pageLimit s then
        if isset s.bitmap i then (.findBase (i + 1), s)
        else (.findIndex (UInt64.ofInt i * PAGESIZE) 0, s)
      else (.findIndex (UInt64.ofInt (-1) * PAGESIZE) 0, s)
  | .findIndex base i, s =>
      if i < pageLimit s then
        if isset s.bitmap i then (.findIndex base (i + 1), s)
        else (.search (UInt64.ofInt i) base 0, s)
      else (.search (UInt64.ofInt (-1)) base 0, s)
  | .search i base cnt, s =>
      if i.toNat < pageLimit s then
        if isset s.bitmap i.toNat then (.search (i + 1) (base + (cnt + 1) * PAGESIZE) 0, s)
        else if cnt + 1 = count then (.loadByte base 0, s)
        else (.search (i + 1) base (cnt + 1), s)
      else (.done 0, s)
  | .loadByte base j, s =>
      if j < count.toNat then (.storeByte base j (s.bitmap (runPage base j / 8)), s)
      else (.done base, s)
  | .storeByte base j byte, s =>
      (.loadByte base (j + 1), { s with
        bitmap := Function.update s.bitmap (runPage base j / 8)
          (byte ||| (1 <<< UInt8.ofNat (runPage base j % 8))) })
  | .done base, s => (.done base, s)

/-- What a call has returned. -/
structure PageResult where
  call : PageCall
  base : UInt64
  deriving DecidableEq

/-- A core that has the lock. -/
inductive PageInside
  | entering (x : PageCall)
  | searching (x : PageCall) (p : PagePlace)
  | returning (r : PageResult)
  deriving DecidableEq

def PageInside.call : PageInside → PageCall
  | .entering x | .searching x _ => x
  | .returning r => r.call

/-- The page manager.  `entered` are the calls, in the order in which they have got the lock, and
`returned` is what they have returned; no core reads either. -/
structure PageMachine where
  pmm : Pmm
  entered : List PageCall
  returned : List PageResult

/-- One access; the first and the last step only write down the call and its result. -/
def pageStep : PageInside → PageMachine → PageInside × PageMachine
  | .entering x, s => (.searching x (.findBase 0), { s with entered := s.entered ++ [x] })
  | .searching x (.done base), s =>
      (.returning ⟨x, base⟩, { s with returned := s.returned ++ [⟨x, base⟩] })
  | .searching x p, s =>
      (.searching x (pageWork x.count p s.pmm).1, { s with pmm := (pageWork x.count p s.pmm).2 })
  | .returning r, s => (.returning r, s)

def pageSection : Program UInt64 PageCall PageInside PageResult PageMachine where
  caller := PageCall.core
  start := .entering
  work := pageStep
  ends
    | .returning r => some r
    | _ => none

/-- Nothing else writes to the bitmap while no page is freed. -/
def NoFrees (_ : PageMachine) (_ : Empty) (_ : PageMachine) : Prop := False

abbrev PageCoreState := SpinLock.State UInt64 PageCall PageInside PageResult PageMachine

def PageCoreStep : PageCoreState → SpinLock.Event UInt64 PageCall Empty → PageCoreState → Prop :=
  SpinLock.Step pageSection DEADLOCK_COUNT NoFrees

lemma pageStep_searching {x : PageCall} {p : PagePlace} (s : PageMachine) (hp : ∀ b, p ≠ .done b) :
    pageStep (.searching x p) s =
      (.searching x (pageWork x.count p s.pmm).1,
        { s with pmm := (pageWork x.count p s.pmm).2 }) := by
  cases p with
  | done b => exact absurd rfl (hp b)
  | _ => rfl

/-! ## The accesses that are left -/

/-- The accesses from a place on return `base` and leave the page manager as `s'`. -/
def Finishes (count : UInt64) (p : PagePlace) (s : Pmm) (base : UInt64) (s' : Pmm) : Prop :=
  ∃ k, (fun x : PagePlace × Pmm => pageWork count x.1 x.2)^[k] (p, s) = (.done base, s')

variable {count base : UInt64} {p p' : PagePlace} {s s' s₁ : Pmm} {i : ℕ}

lemma Finishes.of_step (h : pageWork count p s = (p', s₁)) (hrest : Finishes count p' s₁ base s') :
    Finishes count p s base s' := by
  obtain ⟨k, hk⟩ := hrest
  refine ⟨k + 1, ?_⟩
  rw [Function.iterate_succ_apply]
  show (fun x : PagePlace × Pmm => pageWork count x.1 x.2)^[k] (pageWork count p s) = _
  rw [h]
  exact hk

/-- One access less is left. -/
lemma Finishes.step (h : Finishes count p s base s') (hp : ∀ b, p ≠ .done b) :
    Finishes count (pageWork count p s).1 (pageWork count p s).2 base s' := by
  obtain ⟨k, hk⟩ := h
  cases k with
  | zero => exact absurd (congrArg Prod.fst hk) (hp base)
  | succ k => exact ⟨k, (Function.iterate_succ_apply _ _ _).symm.trans hk⟩

lemma finishes_done (count base : UInt64) (s : Pmm) : Finishes count (.done base) s base s :=
  ⟨0, rfl⟩

/-- The pages are marked one after the other; the first `j` are marked already. -/
lemma finishes_marks {bitmap : Bitmap} {n j : ℕ} (hn : n = count.toNat) (hj : j ≤ n) :
    Finishes count (.loadByte base j)
      { s with bitmap := setRange bitmap (base / PAGESIZE).toNat j } base
      { s with bitmap := setRange bitmap (base / PAGESIZE).toNat n } := by
  induction hd : n - j generalizing j with
  | zero =>
      obtain rfl : j = n := by omega
      refine Finishes.of_step ?_ (finishes_done count base _)
      rw [pageWork, if_neg (by omega)]
  | succ d ih =>
      have hlt : j < count.toNat := by omega
      refine Finishes.of_step (by rw [pageWork, if_pos hlt]) ?_
      exact Finishes.of_step rfl (ih (by omega) (by omega))

/-- What the search leads to from a place on, where `found` is what `scan` finds. -/
def SearchEnds (count : UInt64) (s : Pmm) (p : PagePlace) : (found : Option UInt64) → Prop
  | some b => Finishes count p s b
      { s with bitmap := setRange s.bitmap (b / PAGESIZE).toNat count.toNat }
  | none => Finishes count p s 0 s

lemma SearchEnds.of_step {found : Option UInt64} (h : pageWork count p s = (p', s))
    (hrest : SearchEnds count s p' found) : SearchEnds count s p found := by
  cases found with
  | none => exact Finishes.of_step h hrest
  | some b => exact Finishes.of_step h hrest

/-- **The search for the run** is the search of `physicalPageAlloc`. -/
lemma searchEnds_scan (count : UInt64) (s : Pmm) (turns : ℕ) (i base cnt : UInt64)
    (hturns : turns = pageLimit s - i.toNat) :
    SearchEnds count s (.search i base cnt)
      (scan PAGESIZE (isset s.bitmap) count turns i base cnt) := by
  have hlim := pageLimit_lt s
  induction turns generalizing i base cnt with
  | zero =>
      refine SearchEnds.of_step ?_ (finishes_done count 0 s)
      rw [pageWork, if_neg (by omega)]
  | succ turns ih =>
      have hlt : i.toNat < pageLimit s := by omega
      have hnext : (i + 1).toNat = i.toNat + 1 := toNat_add_one (by omega)
      rw [scan]
      split_ifs with hbusy hfound
      · refine SearchEnds.of_step ?_ (ih (i + 1) (base + (cnt + 1) * PAGESIZE) 0 (by omega))
        rw [pageWork, if_pos hlt, if_pos hbusy]
      · refine SearchEnds.of_step ?_ (finishes_marks rfl (Nat.zero_le _))
        rw [pageWork, if_pos hlt, if_neg hbusy, if_pos hfound]
      · refine SearchEnds.of_step ?_ (ih (i + 1) base (cnt + 1) (by omega))
        rw [pageWork, if_pos hlt, if_neg hbusy, if_neg hfound]

lemma firstFreePage_eq (hi : i < pageLimit s) (hfree : isset s.bitmap i = false)
    (hbelow : ∀ j, j < i → isset s.bitmap j = true) : firstFreePage s = i := by
  rcases firstIndex_cases (fun i => !isset s.bitmap i) (pageLimit s) with
    ⟨f, hf, _, hclear, hmin⟩ | ⟨_, hnone⟩
  · rcases Nat.lt_trichotomy f i with hlt | rfl | hgt
    · simp [hbelow f hlt] at hclear
    · exact hf
    · have hbusy := hmin i hgt
      simp [hfree] at hbusy
  · have hbusy := hnone i hi
    simp [hfree] at hbusy

lemma firstFreePage_none (hfull : ∀ j, j < pageLimit s → isset s.bitmap j = true) :
    firstFreePage s = -1 := by
  rcases firstIndex_cases (fun i => !isset s.bitmap i) (pageLimit s) with
    ⟨f, _, hlt, hclear, _⟩ | ⟨hnone, _⟩
  · simp [hfull f hlt] at hclear
  · exact hnone

/-- A loop that looks for the first free page. -/
lemma finishes_find (place : ℕ → PagePlace) (next : ℤ → PagePlace)
    (hwork : ∀ i, pageWork count (place i) s =
      if i < pageLimit s then if isset s.bitmap i then (place (i + 1), s) else (next i, s)
      else (next (-1), s))
    (hnext : Finishes count (next (firstFreePage s)) s base s') (hi : i ≤ pageLimit s)
    (hbelow : ∀ j, j < i → isset s.bitmap j = true) : Finishes count (place i) s base s' := by
  induction hd : pageLimit s - i generalizing i with
  | zero =>
      have hnone : firstFreePage s = -1 := firstFreePage_none fun j hj => hbelow j (by omega)
      rw [hnone] at hnext
      exact .of_step ((hwork i).trans (if_neg (by omega))) hnext
  | succ d ih =>
      have hlt : i < pageLimit s := by omega
      cases hbusy : isset s.bitmap i with
      | true =>
          have hrest : Finishes count (place (i + 1)) s base s' := by
            refine ih (by omega) (fun j hj => ?_) (by omega)
            rcases Nat.lt_succ_iff_lt_or_eq.mp hj with hlt | rfl
            · exact hbelow j hlt
            · exact hbusy
          exact .of_step ((hwork i).trans (by rw [if_pos hlt, if_pos hbusy])) hrest
      | false =>
          rw [firstFreePage_eq hlt hbusy hbelow] at hnext
          exact .of_step ((hwork i).trans (by simp [hlt, hbusy])) hnext

/-- **The section is `physicalPageAlloc`.** -/
theorem finishes_start (count : UInt64) (hlock : s.lock = false) :
    Finishes count (.findBase 0) s (physicalPageAlloc s count).1 (physicalPageAlloc s count).2 := by
  have hsearch := searchEnds_scan count s _ (UInt64.ofInt (firstFreePage s))
    (UInt64.ofInt (firstFreePage s) * PAGESIZE) 0 rfl
  have hresult : Finishes count
      (.search (UInt64.ofInt (firstFreePage s)) (UInt64.ofInt (firstFreePage s) * PAGESIZE) 0) s
      (physicalPageAlloc s count).1 (physicalPageAlloc s count).2 := by
    have hcall : physicalPageAlloc s count =
        match scan PAGESIZE (isset s.bitmap) count
          (pageLimit s - (UInt64.ofInt (firstFreePage s)).toNat) (UInt64.ofInt (firstFreePage s))
          (UInt64.ofInt (firstFreePage s) * PAGESIZE) 0 with
        | some b => (b, { s with
            bitmap := setRange s.bitmap (b / PAGESIZE).toNat count.toNat, lock := false })
        | none => (0, { s with lock := false }) := rfl
    rw [hcall, ← hlock]
    revert hsearch
    cases scan PAGESIZE (isset s.bitmap) count
      (pageLimit s - (UInt64.ofInt (firstFreePage s)).toNat) (UInt64.ofInt (firstFreePage s))
      (UInt64.ofInt (firstFreePage s) * PAGESIZE) 0 with
    | none => exact id
    | some b => exact id
  exact finishes_find .findBase (fun f => .findIndex (UInt64.ofInt f * PAGESIZE) 0) (fun _ => rfl)
    (finishes_find (.findIndex _) (fun f => .search (UInt64.ofInt f) _ 0) (fun _ => rfl) hresult
      (Nat.zero_le _) (by simp)) (Nat.zero_le _) (by simp)

/-! ## The calls one after the other -/

/-- The page manager, and the calls that have been made. -/
structure PageLog where
  pmm : Pmm
  made : List PageResult

/-- An indivisible call. -/
inductive PageCallStep : PageLog → PageCall → PageLog → Prop
  | mk {a : PageLog} {x : PageCall} :
      PageCallStep a x
        { pmm := (physicalPageAlloc a.pmm x.count).2
          made := a.made ++ [⟨x, (physicalPageAlloc a.pmm x.count).1⟩] }

/-- The pages that calls have handed out, those of the last call first. -/
def handedOut (made : List PageResult) : List PageAlloc :=
  (made.filter fun r => r.base ≠ 0).reverse.map fun r => ⟨r.base, r.call.count⟩

lemma handedOut_append (made : List PageResult) (r : PageResult) :
    handedOut (made ++ [r]) =
      if r.base = 0 then handedOut made else ⟨r.base, r.call.count⟩ :: handedOut made := by
  by_cases hbase : r.base = 0
  · simp [handedOut, List.filter_append, hbase]
  · simp [handedOut, List.filter_append, hbase]

variable {s₀ : Pmm} {a a' : PageLog} {x : PageCall} {xs : List PageCall}

/-- One call keeps to the ledger. -/
lemma pageCall_follows (hpage0 : isset s₀.bitmap 0 = true)
    (h : ∃ L, Follows s₀ ⟨a.pmm, handedOut a.made⟩ L) (hstep : PageCallStep a x a') :
    ∃ L, Follows s₀ ⟨a'.pmm, handedOut a'.made⟩ L := by
  obtain ⟨⟩ := hstep
  rw [handedOut_append]
  by_cases hcount : x.count = 0
  · rcases physicalPageAlloc_cases a.pmm x.count with ⟨_, hne, _⟩ | ⟨_, heq⟩
    · exact absurd hcount hne
    · obtain ⟨L, hL⟩ := h
      rw [heq, if_pos rfl]
      exact ⟨L, hL.held, hL.bits, hL.aligned, hL.memory⟩
  · split_ifs with hbase
    · exact follows_step hpage0 _ (.alloc x.count) _ h (.allocFail hcount (Prod.ext hbase rfl))
    · exact follows_step hpage0 _ (.alloc x.count) _ h (.alloc hcount rfl hbase)

lemma pageCalls_follow (hpage0 : isset s₀.bitmap 0 = true)
    (hrun : Run PageCallStep ⟨s₀, []⟩ xs a) : ∃ L, Follows s₀ ⟨a.pmm, handedOut a.made⟩ L :=
  hrun.invariant (I := fun a => ∃ L, Follows s₀ ⟨a.pmm, handedOut a.made⟩ L)
    (fun _ _ _ h hstep => pageCall_follows hpage0 h hstep) ⟨_, follows_start s₀⟩

/-- The run is that of the calls that the log shows. -/
lemma calls_made (hrun : Run PageCallStep ⟨s₀, []⟩ xs a) : xs = a.made.map PageResult.call := by
  induction hrun with
  | nil => rfl
  | snoc _ hstep ih =>
      obtain ⟨⟩ := hstep
      rw [List.map_append, ← ih]
      rfl

/-! ## What the interleavings do -/

/-- A core in its section: the call has not taken effect, or what is left of it leads to the state
that it has taken effect in, or its result has been written down. -/
inductive PageProgress (s : PageMachine) (a : PageLog) : PageInside → Prop
  | entering {x : PageCall} (hpmm : s.pmm = a.pmm) (hreturned : s.returned = a.made) :
      PageProgress s a (.entering x)
  | searching {x : PageCall} {p : PagePlace} {base : UInt64}
      (hmade : a.made = s.returned ++ [⟨x, base⟩])
      (hrest : Finishes x.count p s.pmm base a.pmm) : PageProgress s a (.searching x p)
  | returning {r : PageResult} (hpmm : s.pmm = a.pmm) (hreturned : s.returned = a.made)
      (hmade : r ∈ a.made) : PageProgress s a (.returning r)

/-- The page manager follows the indivisible calls, where `o` is the core that has the lock. -/
structure FollowsPages (o : Option (UInt64 × PageInside)) (s : PageMachine) (a : PageLog) :
    Prop where
  lock : a.pmm.lock = false
  entered : s.entered = a.made.map PageResult.call
  place : match o with
    | none => s.pmm = a.pmm ∧ s.returned = a.made
    | some (t, l) => l.call.core = t ∧ PageProgress s a l

lemma lock_physicalPageAlloc (s : Pmm) (count : UInt64) :
    (physicalPageAlloc s count).2.lock = false := by
  rcases physicalPageAlloc_cases s count with ⟨_, _, _, heq⟩ | ⟨_, heq⟩
  · rw [heq]
  · rw [heq]

variable {s s' : PageMachine} {l : PageInside} {t : UInt64}

/-- **A core's access** is the whole call, if it is the first one, and otherwise nothing. -/
lemma FollowsPages.step (h : FollowsPages (some (t, l)) s a) :
    ∃ xs a', Run PageCallStep a xs a' ∧
      FollowsPages (some (t, (pageStep l s).1)) (pageStep l s).2 a' ∧
        ∀ r ∈ a.made, r ∈ a'.made := by
  obtain ⟨hlock, hentered, hcore, hprogress⟩ := h
  cases hprogress with
  | @entering x hpmm hreturned =>
      have hfinishes : Finishes x.count (.findBase 0) s.pmm (physicalPageAlloc a.pmm x.count).1
          (physicalPageAlloc a.pmm x.count).2 := by
        rw [hpmm]
        exact finishes_start x.count hlock
      refine ⟨[x], _, .single .mk, ⟨lock_physicalPageAlloc .., ?_, hcore, .searching ?_ hfinishes⟩,
        fun r hr => List.mem_append_left _ hr⟩
      · rw [List.map_append, ← hentered]
        rfl
      · rw [← hreturned]
        rfl
  | @searching x p base hmade hrest =>
      by_cases hdone : ∃ b, p = .done b
      · obtain ⟨b, rfl⟩ := hdone
        obtain ⟨k, hk⟩ := hrest
        rw [Function.iterate_fixed rfl, Prod.mk.injEq, PagePlace.done.injEq] at hk
        obtain ⟨rfl, hpmm⟩ := hk
        refine ⟨[], a, .nil, ⟨hlock, hentered, hcore, .returning hpmm hmade.symm ?_⟩,
          fun _ hr => hr⟩
        rw [hmade]
        exact List.mem_append_right _ (List.mem_singleton_self _)
      · have hp : ∀ b, p ≠ .done b := fun b hb => hdone ⟨b, hb⟩
        rw [pageStep_searching s hp]
        exact ⟨[], a, .nil, ⟨hlock, hentered, hcore, .searching hmade (hrest.step hp)⟩,
          fun _ hr => hr⟩
  | returning hpmm hreturned hmade =>
      exact ⟨[], a, .nil, ⟨hlock, hentered, hcore, .returning hpmm hreturned hmade⟩, fun _ hr => hr⟩

/-- The rule for sections applies: a call takes effect at its first step. -/
def pageFollows : Serialization pageSection NoFrees PageCallStep where
  Rel := FollowsPages
  Left t r a := r ∈ a.made ∧ r.call.core = t
  start x s a h := ⟨h.lock, h.entered, rfl, .entering h.place.1 h.place.2⟩
  work t l s a h _ := by
    obtain ⟨xs, a', hrun, h', hmade⟩ := h.step
    exact ⟨xs, a', hrun, h', fun t' r _ hleft => ⟨hmade r hleft.1, hleft.2⟩⟩
  release t l r s a h hends := by
    obtain ⟨hlock, hentered, hcore, hprogress⟩ := h
    cases hprogress with
    | returning hpmm hreturned hmade =>
        obtain rfl := Option.some.inj hends
        exact ⟨⟨hlock, hentered, hpmm, hreturned⟩, hmade, hcore⟩
    | _ => exact nomatch hends
  env _ _ _ _ _ _ hstep := hstep.elim

/-- Nobody has called `physicalPageAlloc`. -/
structure PageCoreState.Fresh (f : PageCoreState) : Prop where
  outside : f.Initial
  lock : f.shared.pmm.lock = false
  entered : f.shared.entered = []
  returned : f.shared.returned = []

/-- The pages of different calls are apart, and were free in `s₀`. -/
structure HandedOutOnce (s₀ : Pmm) (made : List PageResult) : Prop where
  apart : ((handedOut made).map PageAlloc.pages).Pairwise Extent.Apart
  free : ∀ x ∈ handedOut made, ∀ p ∈ x.pages, isset s₀.bitmap p = false ∧ p < pageLimit s₀

/-- What indivisible calls that lead to `a` say about a state: they are the calls that have entered,
in the order in which they have got the lock, and they return the same, but for the call of the core
that has the lock, which may not have returned. -/
structure PagesSerialized (f₀ f : PageCoreState) (a : PageLog) : Prop where
  exclusive : ∀ t t' l l', f.phase t = .inside l → f.phase t' = .inside l' → t = t'
  shared : f.held = false → f.shared.pmm = a.pmm
  entered : f.shared.entered = a.made.map PageResult.call
  allReturned : f.held = false → f.shared.returned = a.made
  returned : f.shared.returned = a.made ∨ ∃ t l base, f.phase t = .inside l ∧
    a.made = f.shared.returned ++ [⟨l.call, base⟩]
  after : ∀ t r, f.phase t = .after r → r ∈ f.shared.returned ∧ r.call.core = t
  madeOnce : HandedOutOnce f₀.shared.pmm a.made
  returnedOnce : HandedOutOnce f₀.shared.pmm f.shared.returned

variable {f₀ f : PageCoreState} {fes : List (SpinLock.Event UInt64 PageCall Empty)}

/-- What has been handed out is apart, and has been free. -/
lemma handedOutOnce (hpage0 : isset s₀.bitmap 0 = true) (hrun : Run PageCallStep ⟨s₀, []⟩ xs a) :
    HandedOutOnce s₀ a.made := by
  obtain ⟨L, hL⟩ := pageCalls_follow hpage0 hrun
  have hheld : L.held = (handedOut a.made).map PageAlloc.pages := hL.held
  refine ⟨hheld ▸ L.apart, fun x hx p hp => ?_⟩
  have hmem : x.pages ∈ L.held := hheld ▸ List.mem_map_of_mem hx
  have hwithin := L.within _ hmem
  have hfresh : ¬ isset s₀.bitmap p = true := L.fresh _ hmem p hp
  rw [Extent.mem_iff] at hp
  exact ⟨Bool.eq_false_of_not_eq_true hfresh, by omega⟩

/-- It stays so without the last call. -/
lemma HandedOutOnce.of_append {made : List PageResult} {r : PageResult}
    (h : HandedOutOnce s₀ (made ++ [r])) : HandedOutOnce s₀ made := by
  obtain ⟨hapart, hfree⟩ := h
  rw [handedOut_append] at hapart hfree
  split_ifs at hapart hfree with hbase
  · exact ⟨hapart, hfree⟩
  · exact ⟨(List.pairwise_cons.mp hapart).2, fun x hx => hfree x (List.mem_cons_of_mem _ hx)⟩

lemma pages_stand (h0 : f₀.Fresh) (hrun : Run PageCoreStep f₀ fes f) :
    ∃ xs a, Run PageCallStep ⟨f₀.shared.pmm, []⟩ xs a ∧ pageFollows.Stands f a :=
  pageFollows.run h0.outside ⟨h0.lock, h0.entered, rfl, h0.returned⟩ hrun

/-- **Page allocation is indivisible.**  Whatever the order of the accesses of the cores, each call
returns what it returns in a run of calls that are made one after the other, and no page is handed
out twice. -/
theorem pageAlloc_serialized (h0 : f₀.Fresh) (hpage0 : isset f₀.shared.pmm.bitmap 0 = true)
    (hrun : Run PageCoreStep f₀ fes f) :
    ∃ a, Run PageCallStep ⟨f₀.shared.pmm, []⟩ f.shared.entered a ∧ PagesSerialized f₀ f a := by
  obtain ⟨xs, a, hcalls, hstands⟩ := pages_stand h0 hrun
  obtain ⟨o, hholder, hfollows⟩ := hstands.holder
  have honce := handedOutOnce hpage0 hcalls
  have hentered : xs = f.shared.entered := (calls_made hcalls).trans hfollows.entered.symm
  have hout : f.held = false → f.shared.pmm = a.pmm ∧ f.shared.returned = a.made := by
    intro hheld
    obtain rfl := hholder.eq_none hheld
    exact hfollows.place
  -- the core that has the lock is the only one whose call may not have returned
  have hreturned : f.shared.returned = a.made ∨ ∃ t l base, f.phase t = .inside l ∧
      l.call.core = t ∧ a.made = f.shared.returned ++ [⟨l.call, base⟩] := by
    cases hheld : f.held with
    | false => exact .inl (hout hheld).2
    | true =>
        obtain ⟨t, l, hphase⟩ := hholder.held_iff.mp hheld
        obtain rfl := hholder.eq_of_inside hphase
        obtain ⟨hcore, hprogress⟩ := hfollows.place
        cases hprogress with
        | entering _ hsame => exact .inl hsame
        | searching hmade _ => exact .inr ⟨t, _, _, hphase, hcore, hmade⟩
        | returning _ hsame _ => exact .inl hsame
  refine ⟨a, hentered ▸ hcalls, fun t t' l l' => hholder.exclusive, fun h => (hout h).1,
    hfollows.entered, fun h => (hout h).2, ?_, fun t r hphase => ?_, honce, ?_⟩
  · rcases hreturned with hsame | ⟨t, l, base, hphase, -, hmade⟩
    · exact .inl hsame
    · exact .inr ⟨t, l, base, hphase, hmade⟩
  · obtain ⟨hmem, hcore⟩ := hstands.left t r hphase
    refine ⟨?_, hcore⟩
    rcases hreturned with hsame | ⟨t', l, base, hphase', hcore', hmade⟩
    · rwa [hsame]
    · rw [hmade] at hmem
      rcases List.mem_append.mp hmem with hmem | hmem
      · exact hmem
      · -- this call is still inside
        obtain rfl := List.mem_singleton.mp hmem
        obtain rfl : t' = t := hcore'.symm.trans hcore
        exact nomatch hphase'.symm.trans hphase
  · rcases hreturned with hsame | ⟨t, l, base, -, -, hmade⟩
    · rwa [hsame]
    · rw [hmade] at honce
      exact honce.of_append

/-! ## The end of a section -/

/-- The accesses that are left can be made one after the other, and the result is written down. -/
lemma Finishes.run {s' : Pmm} (hphase : f.phase t = .inside (.searching x p))
    (h : Finishes x.count p f.shared.pmm base s') :
    ∃ n f', Run PageCoreStep f (List.replicate n (.work t)) f' ∧
      f'.phase t = .inside (.returning ⟨x, base⟩) ∧ ∀ t', t' ≠ t → f'.phase t' = f.phase t' := by
  obtain ⟨k, hk⟩ := h
  induction k generalizing f p with
  | zero =>
      obtain rfl : p = .done base := congrArg Prod.fst hk
      exact ⟨1, _, .single (.work hphase rfl), phase_go, fun t' hne => phase_go_of_ne hne⟩
  | succ k ih =>
      by_cases hdone : ∃ b, p = .done b
      · obtain ⟨b, rfl⟩ := hdone
        rw [Function.iterate_fixed rfl, Prod.mk.injEq, PagePlace.done.injEq] at hk
        obtain ⟨rfl, -⟩ := hk
        exact ⟨1, _, .single (.work hphase rfl), phase_go, fun t' hne => phase_go_of_ne hne⟩
      · have hp : ∀ b, p ≠ .done b := fun b hb => hdone ⟨b, hb⟩
        have hstep : PageCoreStep f (.work t) _ := .work hphase rfl
        have hnext : pageSection.work (.searching x p) f.shared = _ :=
          pageStep_searching f.shared hp
        rw [hnext] at hstep
        rw [Function.iterate_succ_apply] at hk
        obtain ⟨n, f', hrun, hend, hothers⟩ := ih
          (f := { f.go t (.inside (.searching x (pageWork x.count p f.shared.pmm).1)) with
            shared := { f.shared with pmm := (pageWork x.count p f.shared.pmm).2 } }) phase_go hk
        refine ⟨n + 1, f', (Run.single hstep).append hrun, hend, fun t' hne => ?_⟩
        exact (hothers t' hne).trans (phase_go_of_ne hne)

/-- What is left of a section can be done. -/
lemma returns_of_inside (h0 : f₀.Fresh) (hrun : Run PageCoreStep f₀ fes f)
    (hphase : f.phase t = .inside l) :
    ∃ n f' base, Run PageCoreStep f (List.replicate n (.work t)) f' ∧
      f'.phase t = .inside (.returning ⟨l.call, base⟩) ∧ ∀ t', t' ≠ t →
        f'.phase t' = f.phase t' := by
  obtain ⟨xs, a, -, hstands⟩ := pages_stand h0 hrun
  obtain ⟨o, hholder, hfollows⟩ := hstands.holder
  obtain rfl := hholder.eq_of_inside hphase
  obtain ⟨-, hprogress⟩ := hfollows.place
  cases hprogress with
  | @entering x hpmm hreturned =>
      have hstep : PageCoreStep f (.work t) _ := .work hphase rfl
      have hfinishes : Finishes x.count (.findBase 0) f.shared.pmm
          (physicalPageAlloc a.pmm x.count).1 (physicalPageAlloc a.pmm x.count).2 := by
        rw [hpmm]
        exact finishes_start x.count hfollows.lock
      obtain ⟨n, f', hworks, hend, hothers⟩ := Finishes.run
        (f := { f.go t (.inside (.searching x (.findBase 0))) with
          shared := { f.shared with entered := f.shared.entered ++ [x] } }) phase_go hfinishes
      exact ⟨n + 1, f', _, (Run.single hstep).append hworks, hend, fun t' hne =>
        (hothers t' hne).trans (phase_go_of_ne hne)⟩
  | searching _ hrest =>
      obtain ⟨n, f', hworks, hend, hothers⟩ := hrest.run hphase
      exact ⟨n, f', _, hworks, hend, hothers⟩
  | @returning r _ _ _ => exact ⟨0, f, r.base, .nil, hphase, fun _ _ => rfl⟩

/-- **Every section ends.**  In every state that can be reached, a core that has the lock gives it
back after some accesses of its own, and returns what its call has in a run of indivisible calls. -/
theorem pageAlloc_completes (h0 : f₀.Fresh) (hrun : Run PageCoreStep f₀ fes f)
    (hphase : f.phase t = .inside l) :
    ∃ n f' base, Run PageCoreStep f (List.replicate n (.work t) ++ [.release t]) f' ∧
      f'.held = false ∧ f'.phase t = .after ⟨l.call, base⟩ ∧
      (∀ t', t' ≠ t → f'.phase t' = f.phase t') ∧
      ∃ a, Run PageCallStep ⟨f₀.shared.pmm, []⟩ f'.shared.entered a ∧ f'.shared.pmm = a.pmm ∧
        f'.shared.returned = a.made ∧ ⟨l.call, base⟩ ∈ a.made := by
  obtain ⟨n, f', base, hworks, hend, hothers⟩ := returns_of_inside h0 hrun hphase
  have hrelease : PageCoreStep f' (.release t)
      { f'.go t (.after ⟨l.call, base⟩) with held := false } := .release hend rfl
  have hsection := hworks.append (Run.single hrelease)
  obtain ⟨xs, a, hcalls, hstands⟩ := pages_stand h0 (hrun.append hsection)
  obtain ⟨o, hholder, hfollows⟩ := hstands.holder
  obtain rfl := hholder.eq_none rfl
  have hentered := (calls_made hcalls).trans hfollows.entered.symm
  exact ⟨n, _, base, hsection, rfl, phase_go,
    fun t' hne => (phase_go_of_ne hne).trans (hothers t' hne),
    a, hentered ▸ hcalls, hfollows.place.1, hfollows.place.2, (hstands.left t _ phase_go).1⟩

/-! ## Two cores -/

/-- Four pages, of which the first one is taken. -/
def plainPages : PageCoreState where
  held := false
  phase := fun _ => .outside
  shared :=
    { pmm :=
        { bitmap := Function.update (fun _ => 0) 0 1, totalDetectedMemory := 0x4000, lock := false }
      entered := []
      returned := [] }

lemma plainPages_fresh : plainPages.Fresh := ⟨⟨rfl, fun _ => rfl⟩, rfl, rfl, rfl⟩

def noFreesEnabled (_ : PageMachine) (_ : Empty) : Bool := false

def noFreesNext (s : PageMachine) (_ : Empty) : PageMachine := s

lemma noFrees_next (s : PageMachine) (e : Empty) (_ : noFreesEnabled s e = true) :
    NoFrees s e (noFreesNext s e) := e.elim

def pagesEnabled (f : PageCoreState) (e : SpinLock.Event UInt64 PageCall Empty) : Bool :=
  SpinLock.State.enabled pageSection noFreesEnabled f e

def pagesNext (f : PageCoreState) (e : SpinLock.Event UInt64 PageCall Empty) : PageCoreState :=
  SpinLock.State.next pageSection DEADLOCK_COUNT noFreesNext f e

/-- Computing events that are enabled is a run. -/
lemma pages_replay (f : PageCoreState) (fes : List (SpinLock.Event UInt64 PageCall Empty))
    (h : Replays (fun f e => pagesEnabled f e = true) pagesNext f fes) :
    Run PageCoreStep f fes (fes.foldl pagesNext f) := by
  have hrun := @Run.replay _ _ PageCoreStep _ id _ _
    (SpinLock.State.step_next pageSection DEADLOCK_COUNT noFrees_next) fes f h
  rwa [List.map_id] at hrun

/-- Core 0 gets a page while core 1 waits for the lock, and then core 1 gets one. -/
def twoPageEvents : List (SpinLock.Event UInt64 PageCall Empty) :=
  [.call ⟨0, 1⟩, .call ⟨1, 1⟩, .take 0, .fail 1] ++ List.replicate 10 (.work 0) ++
    [.release 0, .take 1] ++ List.replicate 12 (.work 1) ++ [.release 1]

def twoPages : PageCoreState := twoPageEvents.foldl pagesNext plainPages

theorem pageAlloc_serialized_twoPages :
    ∃ a, Run PageCallStep ⟨plainPages.shared.pmm, []⟩ twoPages.shared.entered a ∧
      PagesSerialized plainPages twoPages a :=
  pageAlloc_serialized plainPages_fresh (by decide)
    (pages_replay plainPages twoPageEvents (by decide +kernel))

example : twoPages.shared.returned = [⟨⟨0, 1⟩, 0x1000⟩, ⟨⟨1, 1⟩, 0x2000⟩] := by decide +kernel

/-- Core 0 has just got the lock. -/
theorem pageAlloc_completes_firstPage :
    ∃ n f' base, Run PageCoreStep ([.call ⟨0, 1⟩, .take 0].foldl pagesNext plainPages)
        (List.replicate n (.work 0) ++ [.release 0]) f' ∧
      f'.phase 0 = .after ⟨⟨0, 1⟩, base⟩ := by
  obtain ⟨n, f', base, hrun, -, hphase, -⟩ := pageAlloc_completes (t := 0) (l := .entering ⟨0, 1⟩)
    plainPages_fresh (pages_replay plainPages [.call ⟨0, 1⟩, .take 0] (by decide +kernel)) rfl
  exact ⟨n, f', base, hrun, hphase⟩

end Seaweed
