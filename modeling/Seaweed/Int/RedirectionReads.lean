import Seaweed.Int.Apic

/-!
# Reading a redirection entry (`kernel/int/apic.c`)

`ioapicRead` stores the number of the register where `ioapicWrite` stores its data, so the register
that is selected is lost before anything has been read.  After a write of an entry that is its upper
half.

* `EntryLaws` — reads give what was written, and change nothing; masking changes one bit.
* `IgnoresSelected` — what the selected registers hold has no influence.
* `readRedirectionTable_ignores` — which is true of reads, whatever a device answers.
* **`entryLaws_never`** — so no I/O APIC gives back what was written.
-/

namespace Seaweed

/-! ## What should hold -/

/-- The entry number `n`. -/
def redirectionEntry (ioapic : IoApic) (n : UInt32) : UInt64 :=
  (ioapic.register (n * 2 + 16)).toUInt64 ||| (ioapic.register (n * 2 + 16 + 1)).toUInt64 <<< 32

/-- The laws of an entry, which is the entry of an interrupt. -/
structure EntryLaws (other : IoApic → UInt32) (madtInfo : MadtInfo) (ioapics : IoApics)
    (gsi : UInt32) :
    Prop where
  roundTrip : ∀ data, (readRedirectionTable (ioapicRead other) madtInfo gsi
    (writeRedirectionTable (ioapicRead other) madtInfo gsi data ioapics).2).1 = data
  readKeeps : ∀ j n, HasEntry madtInfo ioapics j n →
    redirectionEntry
      (ioapicOf madtInfo (readRedirectionTable (ioapicRead other) madtInfo gsi ioapics).2 j) n
      = redirectionEntry (ioapicOf madtInfo ioapics j) n
  masks : ∀ k, firstCovering madtInfo ioapics gsi.toNat = some k →
    ∀ j n, HasEntry madtInfo ioapics j n →
    redirectionEntry (ioapicOf madtInfo (maskGSI (ioapicRead other) madtInfo gsi ioapics) j) n =
      if (madtInfo.madtEntry1.entries j).ioapicAddr = (madtInfo.madtEntry1.entries k).ioapicAddr ∧
          n = gsi - (madtInfo.madtEntry1.entries k).gsiBase
      then redirectionEntry (ioapicOf madtInfo ioapics j) n ||| (1 : UInt64) <<< 16
      else redirectionEntry (ioapicOf madtInfo ioapics j) n

/-! ## The selected register -/

lemma storeData_again (base : UInt64) (data data' : UInt32) (ioapics : IoApics) :
    storeData base data (storeData base data' ioapics) = storeData base data ioapics := by
  simp only [storeData, Function.update_self, Function.update_idem]

lemma storeData_comm {base base' : UInt64} (hne : base ≠ base') (data data' : UInt32)
    (ioapics : IoApics) :
    storeData base data (storeData base' data' ioapics) =
      storeData base' data' (storeData base data ioapics) := by
  simp only [storeData]
  rw [Function.update_of_ne hne, Function.update_of_ne hne.symm, Function.update_comm hne.symm]

/-- The answer does not depend on what a selected register holds.  Afterwards the register may hold
it still. -/
def IgnoresSelected {α : Type} (f : IoApics → α × IoApics) : Prop :=
  ∀ base data ioapics, (f (storeData base data ioapics)).1 = (f ioapics).1 ∧
    ((f (storeData base data ioapics)).2 = (f ioapics).2 ∨
      (f (storeData base data ioapics)).2 = storeData base data (f ioapics).2)

namespace IgnoresSelected

variable {α β : Type}

lemma answer (a : α) : IgnoresSelected fun ioapics => (a, ioapics) := fun _ _ _ => ⟨rfl, Or.inr rfl⟩

lemma andThen {f : IoApics → α × IoApics} {g : α → IoApics → β × IoApics} (hf : IgnoresSelected f)
    (hg : ∀ a, IgnoresSelected (g a)) :
    IgnoresSelected fun ioapics => g (f ioapics).1 (f ioapics).2 := by
  intro base data ioapics
  obtain ⟨hanswer, hstate⟩ := hf base data ioapics
  dsimp only
  rw [hanswer]
  rcases hstate with hsame | hstill
  · rw [hsame]
    exact ⟨rfl, Or.inl rfl⟩
  · rw [hstill]
    exact hg _ base data _

lemma ifThen {f g : IoApics → α × IoApics} {p : Prop} [Decidable p] (hf : IgnoresSelected f)
    (hg : IgnoresSelected g) :
    IgnoresSelected fun ioapics => if p then f ioapics else g ioapics := by
  intro base data ioapics
  by_cases hp : p
  · simp only [if_pos hp]
    exact hf base data ioapics
  · simp only [if_neg hp]
    exact hg base data ioapics

end IgnoresSelected

variable (other : IoApic → UInt32) (madtInfo : MadtInfo)

/-- **A read begins with a store**, so it does not see what was there. -/
lemma ioapicRead_ignores (base : UInt64) (reg : UInt32) :
    IgnoresSelected (ioapicRead other base reg) := by
  intro b data ioapics
  rw [ioapicRead]
  dsimp only
  by_cases hb : base = b
  · rw [hb, storeData_again]
    exact ⟨rfl, Or.inl rfl⟩
  · rw [storeData_comm hb]
    refine ⟨congrArg other ?_, Or.inr rfl⟩
    rw [storeData, Function.update_of_ne hb]

lemma getMaxGSIs_ignores (base : UInt64) : IgnoresSelected (getMaxGSIs (ioapicRead other) base) :=
  (ioapicRead_ignores other base 1).andThen fun data =>
    IgnoresSelected.answer (data >>> 16 &&& ~~~((1 : UInt32) <<< 7))

lemma findLoop_ignores (gsi : UInt64) (left i : ℕ) :
    IgnoresSelected (findLoop (ioapicRead other) madtInfo gsi left i) := by
  induction left generalizing i with
  | zero => exact IgnoresSelected.answer i
  | succ left ih =>
      let entry := madtInfo.madtEntry1.entries i
      refine (getMaxGSIs_ignores other entry.ioapicAddr.toUInt64).andThen (g := fun max ioapics =>
        if entry.gsiBase.toUInt64 ≤ gsi ∧ gsi ≤ (max + entry.gsiBase).toUInt64 then (i, ioapics)
        else if i = madtInfo.madtEntry1.count.toNat then (ERROR, ioapics)
        else findLoop (ioapicRead other) madtInfo gsi left (i + 1) ioapics) fun _ => ?_
      exact IgnoresSelected.ifThen (IgnoresSelected.answer i)
        (IgnoresSelected.ifThen (IgnoresSelected.answer ERROR) (ih (i + 1)))

lemma readRedirectionTable_ignores (gsi : UInt32) :
    IgnoresSelected (readRedirectionTable (ioapicRead other) madtInfo gsi) := by
  have hentry : ∀ base reg, IgnoresSelected fun ioapics =>
      let low := ioapicRead other base reg ioapics
      let high := ioapicRead other base (reg + 1) low.2
      (low.1.toUInt64 ||| high.1.toUInt64 <<< 32, high.2) := fun base reg =>
    (ioapicRead_ignores other base reg).andThen fun low =>
      (ioapicRead_ignores other base (reg + 1)).andThen fun high =>
        IgnoresSelected.answer (low.toUInt64 ||| high.toUInt64 <<< 32)
  exact (findLoop_ignores other madtInfo gsi.toUInt64 _ 0).andThen fun found =>
    IgnoresSelected.ifThen (p := found = ERROR) (IgnoresSelected.answer 69420)
      (hentry (madtInfo.madtEntry1.entries found).ioapicAddr.toUInt64
        (entryReg gsi (madtInfo.madtEntry1.entries found).gsiBase))

/-- **What is read after a write** depends on the lower half of what was written at most: the upper
half is in the register that is selected. -/
lemma readRedirectionTable_lower (gsi : UInt32) (ioapics : IoApics) {data data' : UInt64}
    (hlower : data.toUInt32 = data'.toUInt32) :
    (readRedirectionTable (ioapicRead other) madtInfo gsi
        (writeRedirectionTable (ioapicRead other) madtInfo gsi data ioapics).2).1 =
      (readRedirectionTable (ioapicRead other) madtInfo gsi
        (writeRedirectionTable (ioapicRead other) madtInfo gsi data' ioapics).2).1 := by
  have hignores := readRedirectionTable_ignores other madtInfo gsi
  rw [writeRedirectionTable, writeRedirectionTable]
  split_ifs with herror
  · rfl
  · dsimp only
    rw [ioapicWrite, (hignores _ _ _).1, ioapicWrite, ioapicWrite, (hignores _ _ _).1, hlower]
    rfl

/-- **No I/O APIC gives back every entry that was written**, whatever it answers. -/
theorem entryLaws_never (other : IoApic → UInt32) (madtInfo : MadtInfo) (ioapics : IoApics)
    (gsi : UInt32) :
    ¬EntryLaws other madtInfo ioapics gsi := by
  intro h
  have hlower : (0 : UInt64).toUInt32 = (0x100000000 : UInt64).toUInt32 := rfl
  have hsame := readRedirectionTable_lower other madtInfo gsi ioapics hlower
  rw [h.roundTrip, h.roundTrip] at hsame
  exact absurd hsame (by decide)

/-- An I/O APIC that answers with the two upper bytes of its window: bit 32 is lost. -/
theorem entryLaws_upperBytes :
    ¬EntryLaws (fun ioapic => ioapic.register ioapic.index >>> 16) oneIoApic
    zeroedIoApics 0 :=
  fun h => absurd (h.roundTrip 0x100000000) (by decide +kernel)

end Seaweed
