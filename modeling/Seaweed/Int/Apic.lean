import Seaweed.Acpi.Madt
import Seaweed.Library.FirstFit

/-!
# The I/O APICs (`kernel/int/apic.c`)

An I/O APIC has two registers in memory: an index at offset 0, and at offset 16 a window to the
register that the index selects.  It serves the interrupts from its `gsiBase` on, as many as its
version register says, and each of them has an entry of two registers.

* `IoApic` — the device.
* `findVaildIOAPIC`, `writeRedirectionTable`, `readRedirectionTable`, `maskGSI` — the code, for any
  way to read a register; `ioapicRead` is the way of the code.
* `FindsExactly` — the search finds the I/O APIC that covers a GSI, and says so if there is none.
* `findLoop_eq` — the search, for any way to read a register.
* **`findVaildIOAPIC_iff`** — it does what it should if there is one and the devices answer right.
-/

namespace Seaweed

open FirstFit

/-! ## The device -/

/-- The version register, which has number 1, cannot be written. -/
structure IoApic where
  index : UInt32
  version : UInt8
  max : UInt8
  regs : UInt32 → UInt32

def IoApic.register (ioapic : IoApic) (reg : UInt32) : UInt32 :=
  if reg = 1 then ioapic.max.toUInt32 <<< 16 ||| ioapic.version.toUInt32 else ioapic.regs reg

/-- What is at the addresses of the I/O APICs, without `HIGH_VMA`. -/
abbrev IoApics := UInt64 → IoApic

/-- A store at offset 0. -/
def storeIndex (base : UInt64) (reg : UInt32) (ioapics : IoApics) : IoApics :=
  Function.update ioapics base { ioapics base with index := reg }

/-- A store at offset 16. -/
def storeData (base : UInt64) (data : UInt32) (ioapics : IoApics) : IoApics :=
  Function.update ioapics base
    { ioapics base with regs := Function.update (ioapics base).regs (ioapics base).index data }

/-! ## The code -/

/-- A read of a register: its value, and what the read has done to the devices. -/
abbrev RegisterRead := (base : UInt64) → (reg : UInt32) → IoApics → UInt32 × IoApics

/-- It stores the number of the register at offset 16, and loads from offset 18; `other` is what a
device answers to that. -/
def ioapicRead (other : IoApic → UInt32) : RegisterRead := fun base reg ioapics =>
  let ioapics := storeData base reg ioapics
  (other (ioapics base), ioapics)

def ioapicWrite (base : UInt64) (reg data : UInt32) (ioapics : IoApics) : IoApics :=
  storeData base data (storeIndex base reg ioapics)

def ERROR : ℕ := 69420

section code

variable (read : RegisterRead) (madtInfo : MadtInfo)

def getMaxGSIs (ioapic_base : UInt64) (ioapics : IoApics) : UInt32 × IoApics :=
  let data := read ioapic_base 1 ioapics
  (data.1 >>> 16 &&& ~~~((1 : UInt32) <<< 7), data.2)

/-- The loop, with `left` turns to go. -/
def findLoop (gsi : UInt64) : (left i : ℕ) → IoApics → ℕ × IoApics
  | 0, i, ioapics => (i, ioapics)
  | left + 1, i, ioapics =>
      let entry := madtInfo.madtEntry1.entries i
      let max := getMaxGSIs read entry.ioapicAddr.toUInt64 ioapics
      let maxGSIs := max.1 + entry.gsiBase
      if entry.gsiBase.toUInt64 ≤ gsi ∧ gsi ≤ maxGSIs.toUInt64 then (i, max.2)
      else if i = madtInfo.madtEntry1.count.toNat then (ERROR, max.2)
      else findLoop gsi left (i + 1) max.2

def findVaildIOAPIC (gsi : UInt64) (ioapics : IoApics) : ℕ × IoApics :=
  findLoop read madtInfo gsi madtInfo.madtEntry1.count.toNat 0 ioapics

/-- The number of the first of the two registers of an entry. -/
def entryReg (gsi gsiBase : UInt32) : UInt32 := (gsi - gsiBase) * 2 + 16

def writeRedirectionTable (gsi : UInt32) (data : UInt64) (ioapics : IoApics) : UInt64 × IoApics :=
  let found := findVaildIOAPIC read madtInfo gsi.toUInt64 ioapics
  if found.1 = ERROR then (0, found.2)
  else
    let entry := madtInfo.madtEntry1.entries found.1
    let reg := entryReg gsi entry.gsiBase
    let ioapics := ioapicWrite entry.ioapicAddr.toUInt64 reg data.toUInt32 found.2
    (1, ioapicWrite entry.ioapicAddr.toUInt64 (reg + 1) (data >>> 32).toUInt32 ioapics)

def readRedirectionTable (gsi : UInt32) (ioapics : IoApics) : UInt64 × IoApics :=
  let found := findVaildIOAPIC read madtInfo gsi.toUInt64 ioapics
  if found.1 = ERROR then (69420, found.2)
  else
    let entry := madtInfo.madtEntry1.entries found.1
    let reg := entryReg gsi entry.gsiBase
    let low := read entry.ioapicAddr.toUInt64 reg found.2
    let high := read entry.ioapicAddr.toUInt64 (reg + 1) low.2
    (low.1.toUInt64 ||| high.1.toUInt64 <<< 32, high.2)

def maskGSI (gsi : UInt32) (ioapics : IoApics) : IoApics :=
  let redirectionTable := readRedirectionTable read madtInfo gsi ioapics
  if redirectionTable.1 = UInt64.ofNat ERROR then redirectionTable.2
  else
    (writeRedirectionTable read madtInfo gsi (redirectionTable.1 ||| (1 : UInt64) <<< 16)
      redirectionTable.2).2

/-- The element of `madtEntry1` that `writeRedirectionTable` and `readRedirectionTable` look at. -/
def usedIndices (gsi : UInt32) (ioapics : IoApics) : List ℕ :=
  let found := findVaildIOAPIC read madtInfo gsi.toUInt64 ioapics
  if found.1 = ERROR then [] else [found.1]

end code

/-! ## What should hold -/

/-- A read of the version register is answered, and nothing changes the version registers. -/
structure ReadsMaximum (read : RegisterRead) : Prop where
  answer : ∀ base ioapics, (read base 1 ioapics).1 = (ioapics base).register 1
  keeps : ∀ base reg ioapics b, ((read base reg ioapics).2 b).max = (ioapics b).max

section ranges

variable (madtInfo : MadtInfo) (ioapics : IoApics)

def ioapicOf (k : ℕ) : IoApic := ioapics (madtInfo.madtEntry1.entries k).ioapicAddr.toUInt64

/-- The I/O APIC number `k` is in the list, and has an entry number `n`. -/
def HasEntry (k : ℕ) (n : UInt32) : Prop :=
  k < madtInfo.madtEntry1.count.toNat ∧ n.toNat ≤ (ioapicOf madtInfo ioapics k).max.toNat

/-- The I/O APIC number `k` serves the interrupt. -/
def Covers (gsi k : ℕ) : Prop :=
  (madtInfo.madtEntry1.entries k).gsiBase.toNat ≤ gsi ∧
    gsi ≤ (madtInfo.madtEntry1.entries k).gsiBase.toNat + (ioapicOf madtInfo ioapics k).max.toNat

instance (gsi : ℕ) : DecidablePred (Covers madtInfo ioapics gsi) :=
  fun _ => inferInstanceAs (Decidable (_ ∧ _))

/-- The maximum that the code compares with: it clears bit 7. -/
def comparedMax (k : ℕ) : ℕ := ((ioapicOf madtInfo ioapics k).max &&& 0x7f).toNat

/-- What the code takes for an I/O APIC that serves the interrupt. -/
def Matches (gsi k : ℕ) : Prop :=
  (madtInfo.madtEntry1.entries k).gsiBase.toNat ≤ gsi ∧
    gsi ≤ (madtInfo.madtEntry1.entries k).gsiBase.toNat + comparedMax madtInfo ioapics k ∧
    (madtInfo.madtEntry1.entries k).gsiBase.toNat + comparedMax madtInfo ioapics k < 2 ^ 32

instance (gsi : ℕ) : DecidablePred (Matches madtInfo ioapics gsi) :=
  fun _ => inferInstanceAs (Decidable (_ ∧ _ ∧ _))

/-- The first I/O APIC of the list that serves the interrupt. -/
def firstCovering (gsi : ℕ) : Option ℕ :=
  (List.range madtInfo.madtEntry1.count.toNat).find? fun k => Covers madtInfo ioapics gsi k

end ranges

/-- The registers are the same; what is selected may differ. -/
def SameRegisters (ioapics ioapics' : IoApics) : Prop :=
  ∀ base reg, (ioapics' base).register reg = (ioapics base).register reg

/-- The search is right about `gsi`, and its callers, if they can be asked about it, stay inside the
array and write nothing unless there is an I/O APIC for it. -/
structure FindsExactly (read : RegisterRead) (madtInfo : MadtInfo) (ioapics : IoApics)
    (gsi : UInt64) :
    Prop where
  found : (findVaildIOAPIC read madtInfo gsi ioapics).1 =
    (firstCovering madtInfo ioapics gsi.toNat).getD ERROR
  inside : ∀ g : UInt32, g.toUInt64 = gsi →
    ∀ k ∈ usedIndices read madtInfo g ioapics, k < madtInfo.madtEntry1.count.toNat
  uncovered : ∀ g : UInt32, g.toUInt64 = gsi → firstCovering madtInfo ioapics gsi.toNat = none →
    ∀ data, (writeRedirectionTable read madtInfo g data ioapics).1 = 0 ∧
      SameRegisters ioapics (writeRedirectionTable read madtInfo g data ioapics).2

section answers

variable (other : IoApic → UInt32) (madtInfo : MadtInfo) (ioapics : IoApics)

/-- The devices when the first `k` of the list have been asked for their maxima: the number of the
version register has been stored through their windows. -/
def askedMaxima : ℕ → IoApics
  | 0 => ioapics
  | k + 1 => storeData (madtInfo.madtEntry1.entries k).ioapicAddr.toUInt64 1 (askedMaxima k)

/-- What number `k` of the list answers then, shifted by 16 and without bit 7. -/
def answeredMax (k : ℕ) : UInt32 :=
  other
    (ioapicOf madtInfo (askedMaxima madtInfo ioapics (k + 1)) k) >>> 16 &&& ~~~((1 : UInt32) <<< 7)

end answers

/-- The interrupt is in the range that starts at the `gsiBase` of number `k` and has the size `max`;
the end of the range is a number of 32 bits. -/
def InRange (madtInfo : MadtInfo) (max : ℕ → UInt32) (gsi k : ℕ) : Prop :=
  (madtInfo.madtEntry1.entries k).gsiBase.toNat ≤ gsi ∧
    gsi ≤ (madtInfo.madtEntry1.entries k).gsiBase.toNat + (max k).toNat ∧
    (madtInfo.madtEntry1.entries k).gsiBase.toNat + (max k).toNat < 2 ^ 32

instance (madtInfo : MadtInfo) (max : ℕ → UInt32) (gsi : ℕ) :
    DecidablePred (InRange madtInfo max gsi) :=
  fun _ => inferInstanceAs (Decidable (_ ∧ _ ∧ _))

/-- There is an I/O APIC for the interrupt, and of all answers that of the first one is the first
that has the interrupt in its range. -/
def FirstAnswers (other : IoApic → UInt32) (madtInfo : MadtInfo) (ioapics : IoApics) (gsi : ℕ) :
    Prop :=
  ∃ k, firstCovering madtInfo ioapics gsi = some k ∧
    InRange madtInfo (answeredMax other madtInfo ioapics) gsi k ∧
    ∀ j, j < k → ¬InRange madtInfo (answeredMax other madtInfo ioapics) gsi j

variable {read : RegisterRead} {other : IoApic → UInt32} {madtInfo : MadtInfo}
  {ioapics ioapics' : IoApics} {i k left : ℕ}

/-! ## The maximum -/

lemma shift_version (max version : UInt8) :
    (max.toUInt32 <<< 16 ||| version.toUInt32) >>> 16 = max.toUInt32 := by
  have hmax := max.toNat_lt
  have hversion := version.toNat_lt
  rw [← UInt32.toNat_inj, UInt32.toNat_shiftRight, UInt32.toNat_or, UInt32.toNat_shiftLeft]
  simp only [UInt8.toNat_toUInt32, UInt32.reduceToNat, Nat.reduceMod]
  rw [Nat.mod_eq_of_lt (by rw [Nat.shiftLeft_eq]; omega),
    ← Nat.shiftLeft_add_eq_or_of_lt (by omega), Nat.shiftLeft_eq, Nat.shiftRight_eq_div_pow]
  omega

lemma clear_bit7 (max : UInt8) :
    max.toUInt32 &&& ~~~((1 : UInt32) <<< 7) = (max &&& 0x7f).toUInt32 := by
  have hbyte : max.toNat &&& 255 = max.toNat := by
    rw [Nat.and_two_pow_sub_one_eq_mod max.toNat 8, Nat.mod_eq_of_lt max.toNat_lt]
  rw [← UInt32.toNat_inj, UInt32.toNat_and, UInt8.toNat_toUInt32, UInt8.toNat_toUInt32,
    UInt8.toNat_and, ← hbyte, Nat.and_assoc, Nat.and_assoc]
  rfl

lemma getMaxGSIs_eq (h : ReadsMaximum read) (base : UInt64) (ioapics : IoApics) :
    (getMaxGSIs read base ioapics).1 = ((ioapics base).max &&& 0x7f).toUInt32 := by
  rw [getMaxGSIs, h.answer, IoApic.register, if_pos rfl, shift_version, clear_bit7]

lemma comparedMax_le (madtInfo : MadtInfo) (ioapics : IoApics) (k : ℕ) :
    comparedMax madtInfo ioapics k ≤ (ioapicOf madtInfo ioapics k).max.toNat ∧
      comparedMax madtInfo ioapics k < 128 := by
  rw [comparedMax, UInt8.toNat_and]
  exact ⟨Nat.and_le_left, Nat.lt_succ_of_le Nat.and_le_right⟩

/-- What the code takes for a match, when it gets the maximum, is one. -/
lemma Matches.covers {gsi : ℕ} (h : Matches madtInfo ioapics gsi k) :
    Covers madtInfo ioapics gsi k := by
  have hle := (comparedMax_le madtInfo ioapics k).1
  exact ⟨h.1, h.2.1.trans (Nat.add_le_add_left hle _)⟩

/-- The sum in the comparison wraps around at 32 bits. -/
lemma compare_iff (gsi : UInt64) (gsiBase max : UInt32) :
    gsiBase.toUInt64 ≤ gsi ∧ gsi ≤ (max + gsiBase).toUInt64 ↔
      gsiBase.toNat ≤ gsi.toNat ∧ gsi.toNat ≤ gsiBase.toNat + max.toNat ∧
        gsiBase.toNat + max.toNat < 2 ^ 32 := by
  have hbase := gsiBase.toNat_lt
  have hmax := max.toNat_lt
  rw [UInt64.le_iff_toNat_le, UInt64.le_iff_toNat_le, UInt32.toNat_toUInt64, UInt32.toNat_toUInt64,
    UInt32.toNat_add]
  omega

/-! ## The search -/

/-- The devices when the search has read the first `k` maxima. -/
def afterReads (read : RegisterRead) (madtInfo : MadtInfo) (ioapics : IoApics) : ℕ → IoApics
  | 0 => ioapics
  | k + 1 =>
      (getMaxGSIs read (madtInfo.madtEntry1.entries k).ioapicAddr.toUInt64
        (afterReads read madtInfo ioapics k)).2

/-- The maximum that is read of number `k`. -/
def readMax (read : RegisterRead) (madtInfo : MadtInfo) (ioapics : IoApics) (k : ℕ) : UInt32 :=
  (getMaxGSIs read (madtInfo.madtEntry1.entries k).ioapicAddr.toUInt64
    (afterReads read madtInfo ioapics k)).1

/-- One turn of the loop. -/
lemma findLoop_afterReads (gsi : UInt64) :
    findLoop read madtInfo gsi (left + 1) i (afterReads read madtInfo ioapics i) =
      if (madtInfo.madtEntry1.entries i).gsiBase.toUInt64 ≤ gsi ∧
          gsi ≤ (readMax read madtInfo ioapics i +
            (madtInfo.madtEntry1.entries i).gsiBase).toUInt64 then
        (i, afterReads read madtInfo ioapics (i + 1))
      else if i = madtInfo.madtEntry1.count.toNat then
        (ERROR, afterReads read madtInfo ioapics (i + 1))
      else findLoop read madtInfo gsi left (i + 1) (afterReads read madtInfo ioapics (i + 1)) := rfl

/-- **The search stops at the first range that has the interrupt**, or behind the list. -/
lemma findLoop_eq {gsi : UInt64} (hend : i + left = madtInfo.madtEntry1.count.toNat)
    (hbefore : ∀ j, j < i → ¬InRange madtInfo (readMax read madtInfo ioapics) gsi.toNat j) :
    (findLoop read madtInfo gsi left i (afterReads read madtInfo ioapics i)).1 =
      stopIndex (fun k => InRange madtInfo (readMax read madtInfo ioapics) gsi.toNat k)
        madtInfo.madtEntry1.count.toNat := by
  have hnone : ∀ j, j < i →
      decide (InRange madtInfo (readMax read madtInfo ioapics) gsi.toNat j) = false :=
    fun j hj => decide_eq_false (hbefore j hj)
  induction left generalizing i with
  | zero =>
      rcases stopIndex_cases
        (fun k => decide (InRange madtInfo (readMax read madtInfo ioapics) gsi.toNat k))
        madtInfo.madtEntry1.count.toNat with ⟨hlt, hstop, _⟩ | ⟨heq, _⟩
      · rw [hnone _ (by omega)] at hstop
        cases hstop
      · rw [heq, ← hend]
        rfl
  | succ left ih =>
      have htest : (madtInfo.madtEntry1.entries i).gsiBase.toUInt64 ≤ gsi ∧
          gsi ≤ (readMax read madtInfo ioapics i +
            (madtInfo.madtEntry1.entries i).gsiBase).toUInt64 ↔
          InRange madtInfo (readMax read madtInfo ioapics) gsi.toNat i := compare_iff ..
      rw [findLoop_afterReads]
      by_cases hmatch : InRange madtInfo (readMax read madtInfo ioapics) gsi.toNat i
      · rw [if_pos (htest.mpr hmatch)]
        obtain ⟨hle, hstop⟩ := stopIndex_le
          (p := fun k => decide (InRange madtInfo (readMax read madtInfo ioapics) gsi.toNat k))
          (n := madtInfo.madtEntry1.count.toNat) (by omega) (decide_eq_true hmatch)
        refine Nat.le_antisymm (Nat.le_of_not_lt fun hlt => ?_) hle
        rw [hnone _ hlt] at hstop
        cases hstop
      · have hnext : ∀ j, j < i + 1 →
            ¬InRange madtInfo (readMax read madtInfo ioapics) gsi.toNat j := fun j hj =>
          (Nat.lt_succ_iff_lt_or_eq.mp hj).elim (hbefore j) fun heq => heq ▸ hmatch
        rw [if_neg (fun hyes => hmatch (htest.mp hyes)), if_neg (by omega)]
        exact ih (by omega) hnext fun j hj => decide_eq_false (hnext j hj)

lemma findVaildIOAPIC_eq (read : RegisterRead) (madtInfo : MadtInfo) (ioapics : IoApics)
    (gsi : UInt64) :
    (findVaildIOAPIC read madtInfo gsi ioapics).1 =
      stopIndex (fun k => InRange madtInfo (readMax read madtInfo ioapics) gsi.toNat k)
        madtInfo.madtEntry1.count.toNat :=
  findLoop_eq (Nat.zero_add _) fun _ hj => absurd hj (Nat.not_lt_zero _)

/-- **The test for an error is never true:** the search ends at an index or behind the list. -/
lemma findVaildIOAPIC_ne_error (read : RegisterRead) (madtInfo : MadtInfo) (ioapics : IoApics)
    (gsi : UInt64) : (findVaildIOAPIC read madtInfo gsi ioapics).1 ≠ ERROR := by
  have hcount := madtInfo.madtEntry1.count.toNat_lt
  rw [findVaildIOAPIC_eq, ERROR]
  rcases stopIndex_cases
    (fun k => decide (InRange madtInfo (readMax read madtInfo ioapics) gsi.toNat k))
    madtInfo.madtEntry1.count.toNat with ⟨hlt, _⟩ | ⟨heq, _⟩
  · omega
  · omega

/-- Reads that are answered with the version register give the maximum without bit 7. -/
lemma readMax_eq (h : ReadsMaximum read) (hmax : ∀ b, (ioapics' b).max = (ioapics b).max) (k : ℕ) :
    readMax read madtInfo ioapics' k = ((ioapicOf madtInfo ioapics k).max &&& 0x7f).toUInt32 := by
  have hkeeps : ∀ k b, (afterReads read madtInfo ioapics' k b).max = (ioapics b).max := by
    intro k
    induction k with
    | zero => exact hmax
    | succ k ih => exact fun b => (h.keeps _ _ _ b).trans (ih b)
  rw [readMax, getMaxGSIs_eq h, hkeeps, ioapicOf]

/-- So the search stops at the first match. -/
lemma findVaildIOAPIC_matches (h : ReadsMaximum read) (madtInfo : MadtInfo)
    (hmax : ∀ b, (ioapics' b).max = (ioapics b).max) (gsi : UInt64) :
    (findVaildIOAPIC read madtInfo gsi ioapics').1 =
      stopIndex (fun k => Matches madtInfo ioapics gsi.toNat k)
        madtInfo.madtEntry1.count.toNat := by
  have hsame : ∀ k, InRange madtInfo (readMax read madtInfo ioapics') gsi.toNat k ↔
      Matches madtInfo ioapics gsi.toNat k := by
    intro k
    rw [InRange, readMax_eq h hmax, UInt8.toNat_toUInt32]
    rfl
  rw [findVaildIOAPIC_eq]
  exact congrArg (fun p => stopIndex p _) (funext fun k => decide_eq_decide.mpr (hsame k))

lemma firstCovering_eq_some {gsi : ℕ} (h : firstCovering madtInfo ioapics gsi = some k) :
    k < madtInfo.madtEntry1.count.toNat ∧ Covers madtInfo ioapics gsi k ∧
      ∀ j, j < k → ¬Covers madtInfo ioapics gsi j := by
  obtain ⟨hcovers, hlt, hfirst⟩ := List.find?_range_eq_some.mp h
  exact ⟨List.mem_range.mp hlt, of_decide_eq_true hcovers, fun j hj => by simpa using hfirst j hj⟩

lemma afterReads_ioapicRead (other : IoApic → UInt32) (madtInfo : MadtInfo) (ioapics : IoApics)
    (k : ℕ) : afterReads (ioapicRead other) madtInfo ioapics k =
      askedMaxima madtInfo ioapics k := by
  induction k with
  | zero => rfl
  | succ k ih => rw [afterReads, askedMaxima, ← ih]; rfl

/-- The maxima of the code are the answers. -/
lemma readMax_ioapicRead (other : IoApic → UInt32) (madtInfo : MadtInfo) (ioapics : IoApics) :
    readMax (ioapicRead other) madtInfo ioapics = answeredMax other madtInfo ioapics := by
  funext k
  rw [readMax, afterReads_ioapicRead]
  rfl

lemma findVaildIOAPIC_answers (other : IoApic → UInt32) (madtInfo : MadtInfo) (ioapics : IoApics)
    (gsi : UInt64) :
    (findVaildIOAPIC (ioapicRead other) madtInfo gsi ioapics).1 =
      stopIndex (fun k => InRange madtInfo (answeredMax other madtInfo ioapics) gsi.toNat k)
        madtInfo.madtEntry1.count.toNat := by
  rw [findVaildIOAPIC_eq, readMax_ioapicRead]

lemma FirstAnswers.findsExactly {gsi : UInt64} (h : FirstAnswers other madtInfo ioapics gsi.toNat) :
    FindsExactly (ioapicRead other) madtInfo ioapics gsi := by
  obtain ⟨k, hk, hrange, hbefore⟩ := h
  have hlt := (firstCovering_eq_some hk).1
  have hfound : (findVaildIOAPIC (ioapicRead other) madtInfo gsi ioapics).1 = k := by
    rw [findVaildIOAPIC_answers]
    obtain ⟨hle, hstop⟩ := stopIndex_le
      (p := fun k => decide (InRange madtInfo (answeredMax other madtInfo ioapics) gsi.toNat k)) hlt
      (decide_eq_true hrange)
    exact Nat.le_antisymm hle
      (Nat.le_of_not_lt fun hless => hbefore _ hless (of_decide_eq_true hstop))
  constructor
  case found => rw [hfound, hk, Option.getD_some]
  case inside =>
    rintro g rfl j hj
    rw [usedIndices, if_neg (findVaildIOAPIC_ne_error _ _ _ _), List.mem_singleton, hfound] at hj
    rwa [hj]
  case uncovered =>
    intro g _ hnone
    rw [hk] at hnone
    cases hnone

lemma FindsExactly.firstAnswers {gsi : UInt64}
    (h : FindsExactly (ioapicRead other) madtInfo ioapics gsi) :
    FirstAnswers other madtInfo ioapics gsi.toNat := by
  have hfound := h.found
  rcases hfirst : firstCovering madtInfo ioapics gsi.toNat with _ | k
  · rw [hfirst, Option.getD_none] at hfound
    exact absurd hfound (findVaildIOAPIC_ne_error _ _ _ _)
  · have hlt := (firstCovering_eq_some hfirst).1
    rw [hfirst, Option.getD_some, findVaildIOAPIC_answers] at hfound
    rcases stopIndex_cases
      (fun k => decide (InRange madtInfo (answeredMax other madtInfo ioapics) gsi.toNat k))
      madtInfo.madtEntry1.count.toNat with ⟨_, hstop, hbefore⟩ | ⟨hend, _⟩
    · rw [hfound] at hstop hbefore
      exact ⟨k, hfirst, of_decide_eq_true hstop, fun j hj => of_decide_eq_false (hbefore j hj)⟩
    · omega

/-- **The search is right exactly if the answer of the first I/O APIC that covers the interrupt is
the first that has it in its range.** -/
theorem findVaildIOAPIC_iff (other : IoApic → UInt32) (madtInfo : MadtInfo) (ioapics : IoApics)
    (gsi : UInt64) :
    FindsExactly (ioapicRead other) madtInfo ioapics gsi ↔
      FirstAnswers other madtInfo ioapics gsi.toNat :=
  ⟨FindsExactly.firstAnswers, FirstAnswers.findsExactly⟩

/-- One I/O APIC, for the interrupts 0 to 23. -/
def oneIoApic : MadtInfo where
  madtEntry0 := ⟨fun _ => ⟨0, 0, 0⟩, 0⟩
  madtEntry1 := ⟨fun k => if k = 0 then ⟨0, 0, 0xfec00000, 0⟩ else ⟨0, 0, 0, 0⟩, 1⟩
  madtEntry2 := ⟨fun _ => ⟨0, 0, 0, 0⟩, 0⟩
  madtEntry4 := ⟨fun _ => ⟨0, 0, 0⟩, 0⟩
  madtEntry5 := ⟨fun _ => ⟨0, 0⟩, 0⟩
  lapicAddr := 0xfee00000

def zeroedIoApics : IoApics := fun _ => ⟨0, 0x20, 23, fun _ => 0⟩

/-- It answers with its version register. -/
theorem findVaildIOAPIC_keyboard :
    FindsExactly (ioapicRead fun ioapic => ioapic.register 1) oneIoApic zeroedIoApics 1 :=
  (findVaildIOAPIC_iff _ _ _ _).mpr ⟨0, by decide, by decide, by simp⟩

/-- For an interrupt that nobody covers the search ends behind the list. -/
theorem findVaildIOAPIC_beyond :
    ¬FindsExactly (ioapicRead fun ioapic => ioapic.register 1) oneIoApic zeroedIoApics 24 := by
  intro hexact
  obtain ⟨k, hk, _⟩ := hexact.firstAnswers
  have hnone : firstCovering oneIoApic zeroedIoApics (24 : UInt64).toNat = none := by decide
  rw [hnone] at hk
  cases hk

/-! ## Reads that work -/

/-- A read as the device has it: the index first, and then the window. -/
def windowRead : RegisterRead := fun base reg ioapics =>
  let ioapics := storeIndex base reg ioapics
  ((ioapics base).register (ioapics base).index, ioapics)

lemma windowRead_answer (base : UInt64) (reg : UInt32) (ioapics : IoApics) :
    (windowRead base reg ioapics).1 = (ioapics base).register reg := by
  simp only [windowRead, storeIndex, Function.update_self]
  rfl

/-- A read moves the index, and that is all. -/
lemma windowRead_device (base : UInt64) (reg : UInt32) (ioapics : IoApics) (b : UInt64) :
    (windowRead base reg ioapics).2 b =
      { ioapics b with index := if b = base then reg else (ioapics b).index } := by
  simp only [windowRead, storeIndex]
  by_cases hb : b = base
  · rw [hb, Function.update_self, if_pos rfl]
  · rw [Function.update_of_ne hb, if_neg hb]

end Seaweed
