import Seaweed.Library.SearchReads
import Seaweed.Mm.SpaceFailures

/-!
# The table of address spaces

`initVMM` allocates a hundred entries and says that there are a thousand.  `findFirstFreeSlot` and
the test in `initAddressSpace` go by what it says.

* `DirectoryCall` — the calls, with the entries they read or write.
* `StaysInside` — a call keeps to the hundred entries, and does nothing if it has to be refused.
* **`directory_inside_iff`** — it does exactly if a slot is free among them, or the index is one of
  them or beyond the thousand.
-/

namespace Seaweed

open FirstFit Words Transition

/-- How many entries `initVMM` allocates. -/
def directoryEntries : ℕ := 100

/-! ## Calls that are watched -/

inductive DirectoryEvent
  | create (size flags : UInt64)
  | free (index : UInt64)
  | enter (index : UInt64)

/-- The address spaces, the root register, the indices of the live address spaces, and the entries
of the table that have been read or written. -/
structure DirectoryTrace where
  spaces : AddressSpaces
  cr3 : UInt64
  live : List UInt64
  touched : List ℕ

/-- The entries that `findFirstFreeSlot` reads. -/
def findFirstFreeSlotReads (s : AddressSpaces) : List ℕ :=
  stopReads (fun i => (s.pageDirectoryTables (UInt64.ofNat i)).pml4 == 0) s.pageDirectoryCount.toNat

/-- The entries that a call reads or writes. -/
def directoryAccesses (s : AddressSpaces) : DirectoryEvent → List ℕ
  | .create _ _ => findFirstFreeSlotReads s ++ [(findFirstFreeSlot s).toNat]
  | .free index => [index.toNat]
  | .enter index => if s.pageDirectoryCount < index then [] else [index.toNat]

/-- One call.  What is freed is live. -/
inductive DirectoryCall : DirectoryTrace → DirectoryEvent → DirectoryTrace → Prop
  | create {t : DirectoryTrace} {size flags index : UInt64} {spaces' : AddressSpaces}
      (hcall : createNewAddressSpace t.spaces size flags = some (index, spaces')) :
      DirectoryCall t (.create size flags) ⟨spaces', t.cr3, index :: t.live,
        t.touched ++ directoryAccesses t.spaces (.create size flags)⟩
  | free {t : DirectoryTrace} {index : UInt64} (hlive : index ∈ t.live) :
      DirectoryCall t (.free index) ⟨freeAddressSpace t.spaces index, t.cr3,
        t.live.filter (· ≠ index), t.touched ++ directoryAccesses t.spaces (.free index)⟩
  | enter {t : DirectoryTrace} {index : UInt64} :
      DirectoryCall t (.enter index) ⟨t.spaces, initAddressSpace t.spaces t.cr3 index, t.live,
        t.touched ++ directoryAccesses t.spaces (.enter index)⟩

/-- What may be asked for: anything, but only live address spaces are freed. -/
def Requested (t : DirectoryTrace) : DirectoryEvent → Prop
  | .create _ _ => True
  | .free index => index ∈ t.live
  | .enter _ => True

/-- There is no slot for the address space, or no address space at the index. -/
def Invalid (s : AddressSpaces) : DirectoryEvent → Prop
  | .create _ _ => ∀ i, i < directoryEntries → (s.pageDirectoryTables (UInt64.ofNat i)).pml4 ≠ 0
  | .free _ => False
  | .enter index => directoryEntries ≤ index.toNat ∨ (s.pageDirectoryTables index).pml4 = 0

/-- The call reads and writes only entries that are there, and changes nothing if the request is
invalid. -/
structure StaysInside (t : DirectoryTrace) (e : DirectoryEvent) : Prop where
  inside : ∀ i ∈ directoryAccesses t.spaces e, i < directoryEntries
  refused : Invalid t.spaces e → ∀ t', DirectoryCall t e t' → t'.spaces = t.spaces ∧ t'.cr3 = t.cr3

/-- An entry is free for a new address space; an index is in the table, or is beyond the number that
`initVMM` has written down. -/
def DirectoryOk (s : AddressSpaces) : DirectoryEvent → Prop
  | .create _ _ => ∃ i, i < directoryEntries ∧ (s.pageDirectoryTables (UInt64.ofNat i)).pml4 = 0
  | .free _ => True
  | .enter index => index.toNat < directoryEntries ∨ s.pageDirectoryCount < index

/-- A call that meets the condition. -/
def OkCall (t : DirectoryTrace) (e : DirectoryEvent) (t' : DirectoryTrace) : Prop :=
  DirectoryCall t e t' ∧ DirectoryOk t.spaces e

variable {s : AddressSpaces} {t t' : DirectoryTrace} {e : DirectoryEvent} {es : List DirectoryEvent}
  {size flags index : UInt64} {i : ℕ}

/-! ## The search for a slot -/

/-- With a free slot in the table the search ends there. -/
lemma findFirstFreeSlot_inside (hcount : directoryEntries ≤ s.pageDirectoryCount.toNat)
    (hfree : ∃ i, i < directoryEntries ∧ (s.pageDirectoryTables (UInt64.ofNat i)).pml4 = 0) :
    (findFirstFreeSlot s).toNat < directoryEntries ∧
      ∀ i ∈ findFirstFreeSlotReads s, i < directoryEntries := by
  obtain ⟨i, hi, hzero⟩ := hfree
  have hstop := (stopIndex_le (p := fun i => (s.pageDirectoryTables (UInt64.ofNat i)).pml4 == 0)
    (n := s.pageDirectoryCount.toNat) (i := i) (by omega) (beq_iff_eq.mpr hzero)).1
  constructor
  · rw [findFirstFreeSlot, firstIndex, if_pos (by omega), ofInt_natCast,
      toNat_ofNat_of_lt (by have := s.pageDirectoryCount.toNat_lt; omega)]
    omega
  · intro j hj
    have hle := (mem_stopReads.mp hj).1
    omega

/-- Without one it goes on behind the table. -/
lemma findFirstFreeSlotReads_outside (hcount : directoryEntries < s.pageDirectoryCount.toNat)
    (hfull : ∀ i, i < directoryEntries → (s.pageDirectoryTables (UInt64.ofNat i)).pml4 ≠ 0) :
    directoryEntries ∈ findFirstFreeSlotReads s := by
  refine mem_stopReads.mpr ⟨?_, hcount⟩
  rcases stopIndex_cases (fun i => (s.pageDirectoryTables (UInt64.ofNat i)).pml4 == 0)
    s.pageDirectoryCount.toNat with ⟨_, hstop, _⟩ | ⟨heq, _⟩
  · by_contra hlt
    exact hfull _ (Nat.lt_of_not_le hlt) (beq_iff_eq.mp hstop)
  · omega

/-! ## Runs -/

/-- The count is as `initVMM` has left it, and nothing but the table has been used so far. -/
structure DirectoryKept (t : DirectoryTrace) : Prop where
  count : t.spaces.pageDirectoryCount = 1000
  live : ∀ index ∈ t.live, index.toNat < directoryEntries
  touched : ∀ i ∈ t.touched, i < directoryEntries

lemma DirectoryKept.count_lt (h : DirectoryKept t) :
    directoryEntries < t.spaces.pageDirectoryCount.toNat := by
  rw [h.count]
  decide

/-- **One call stays inside exactly if it meets the condition.** -/
lemma DirectoryKept.staysInside_iff (h : DirectoryKept t) (hreq : Requested t e) :
    StaysInside t e ↔ DirectoryOk t.spaces e := by
  cases e with
  | create size flags =>
      constructor
      · intro hstays
        by_contra hfull
        simp only [DirectoryOk, not_exists, not_and] at hfull
        have hread := findFirstFreeSlotReads_outside h.count_lt hfull
        exact lt_irrefl _ (hstays.inside _ (List.mem_append_left _ hread))
      · intro hfree
        obtain ⟨hslot, hreads⟩ := findFirstFreeSlot_inside h.count_lt.le hfree
        refine ⟨fun i hi => ?_, fun hfull => ?_⟩
        · rcases List.mem_append.mp hi with hread | hwrite
          · exact hreads i hread
          · rwa [List.mem_singleton.mp hwrite]
        · obtain ⟨i, hi, hzero⟩ := hfree
          exact absurd hzero (hfull i hi)
  | free index =>
      refine ⟨fun _ => trivial, fun _ => ⟨fun i hi => ?_, fun hinvalid => hinvalid.elim⟩⟩
      rw [List.mem_singleton.mp hi]
      exact h.live index hreq
  | enter index =>
      constructor
      · intro hstays
        by_contra hbad
        simp only [DirectoryOk, not_or, Nat.not_lt] at hbad
        refine absurd (hstays.inside index.toNat ?_) (by omega)
        rw [directoryAccesses, if_neg hbad.2]
        exact List.mem_singleton_self _
      · intro hok
        refine ⟨fun i hi => ?_, fun hinvalid t' hcall => ?_⟩
        · rw [directoryAccesses] at hi
          split_ifs at hi with hbeyond
          · exact absurd hi List.not_mem_nil
          · rw [List.mem_singleton.mp hi]
            exact hok.resolve_right hbeyond
        · cases hcall
          refine ⟨rfl, if_pos ?_⟩
          rcases hok with hlow | hbeyond
          · exact Or.inr (hinvalid.resolve_left (by omega))
          · exact Or.inl hbeyond

/-- **One step.** -/
lemma directoryKept_step (t : DirectoryTrace) (e : DirectoryEvent) (t' : DirectoryTrace)
    (h : DirectoryKept t) (hstep : OkCall t e t') : DirectoryKept t' := by
  obtain ⟨hcall, hok⟩ := hstep
  have htouched : ∀ {e : DirectoryEvent}, Requested t e → DirectoryOk t.spaces e →
      ∀ i ∈ t.touched ++ directoryAccesses t.spaces e, i < directoryEntries := by
    intro e hreq hok i hi
    rcases List.mem_append.mp hi with hold | hnew
    · exact h.touched i hold
    · exact ((h.staysInside_iff hreq).mpr hok).inside i hnew
  cases hcall with
  | @create size flags index spaces' hcall =>
      obtain ⟨rfl, _, hcount⟩ := created_root hcall
      constructor
      case count => exact hcount.trans h.count
      case live =>
        refine List.forall_mem_cons.mpr ⟨?_, h.live⟩
        exact (findFirstFreeSlot_inside h.count_lt.le hok).1
      case touched => exact htouched (e := .create size flags) trivial hok
  | @free index hlive =>
      constructor
      case count => exact h.count
      case live => exact fun i hi => h.live i (List.mem_of_mem_filter hi)
      case touched => exact htouched (e := .free index) hlive hok
  | @enter index => exact ⟨h.count, h.live, htouched (e := .enter index) trivial hok⟩

/-- **The table is not overrun as long as every call meets the condition**: up to then only entries
that are there have been touched, and the next call stays inside exactly if it meets the condition
as well.  The count is the one that `initVMM` has written down. -/
theorem directory_inside_iff (heap : Heap) (mem : Memory.Mem) (spaces : AddressSpaces)
    (cr3 : UInt64) (hcount : spaces.pageDirectoryCount = (initVMM heap mem).1.pageDirectoryCount)
    (hrun : Run OkCall ⟨spaces, cr3, [], []⟩ es t) :
    (∀ i ∈ t.touched, i < directoryEntries) ∧
      ∀ e, Requested t e → (StaysInside t e ↔ DirectoryOk t.spaces e) := by
  have hstart : DirectoryKept ⟨spaces, cr3, [], []⟩ := ⟨hcount, by simp, by simp⟩
  have h := hrun.invariant directoryKept_step hstart
  exact ⟨h.touched, fun e hreq => h.staysInside_iff hreq⟩

/-- One address space is created and entered. -/
theorem directory_inside_oneSpace :
    (∀ i ∈ (directoryAccesses freshSpaces (.create 1 7) ++
        directoryAccesses (firstSpace 1 7).2 (.enter 0)), i < directoryEntries) ∧
      ∀ e, Requested ⟨(firstSpace 1 7).2, initAddressSpace (firstSpace 1 7).2 kpml4Addr 0, [0],
        directoryAccesses freshSpaces (.create 1 7) ++
          directoryAccesses (firstSpace 1 7).2 (.enter 0)⟩ e →
        (StaysInside ⟨(firstSpace 1 7).2, initAddressSpace (firstSpace 1 7).2 kpml4Addr 0, [0],
          directoryAccesses freshSpaces (.create 1 7) ++
            directoryAccesses (firstSpace 1 7).2 (.enter 0)⟩ e ↔
          DirectoryOk (firstSpace 1 7).2 e) := by
  have hcreate : DirectoryCall ⟨freshSpaces, kpml4Addr, [], []⟩ (.create 1 7)
      ⟨(firstSpace 1 7).2, kpml4Addr, [0], directoryAccesses freshSpaces (.create 1 7)⟩ := by
    have hindex : (createNewAddressSpace freshSpaces 1 7).map Prod.fst = some 0 := by decide +kernel
    obtain ⟨⟨index, spaces'⟩, hcall, rfl⟩ := Option.map_eq_some_iff.mp hindex
    have hfirst : firstSpace 1 7 = (0, spaces') := by rw [firstSpace, hcall, Option.getD_some]
    rw [hfirst]
    exact DirectoryCall.create (t := ⟨freshSpaces, kpml4Addr, [], []⟩) hcall
  have henter := @DirectoryCall.enter ⟨(firstSpace 1 7).2, kpml4Addr, [0],
    directoryAccesses freshSpaces (.create 1 7)⟩ 0
  exact directory_inside_iff ⟨0, 0, fun _ => 0, 0, fun _ => ⟨0, 0⟩⟩
    (fun _ => 0) freshSpaces kpml4Addr rfl
    ((Run.single ⟨hcreate, ⟨0, by decide, rfl⟩⟩).snoc
      ⟨henter, Or.inl (show (0 : UInt64).toNat < directoryEntries by decide)⟩)

/-- Index 100 is behind the table, and `initAddressSpace` looks at it. -/
theorem directory_entry100 : ∃ t : DirectoryTrace,
    Run DirectoryCall ⟨freshSpaces, kpml4Addr, [], []⟩ [.enter 100] t ∧
    100 ∈ t.touched ∧ ¬StaysInside ⟨freshSpaces, kpml4Addr, [], []⟩ (.enter 100) := by
  refine ⟨_, Run.single DirectoryCall.enter, by decide, fun h => ?_⟩
  exact absurd (h.inside 100 (by decide)) (by decide)

end Seaweed
