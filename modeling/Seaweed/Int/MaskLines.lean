import Seaweed.Int.Apic
import Seaweed.Library.LastWrite

/-!
# The lines of the I/O APICs (`initAPIC` in `kernel/int/apic.c`)

`initAPIC` masks the interrupts of every I/O APIC, in a loop from its `gsiBase` to its maximum, and
then routes the interrupts 0 to 15.  The bound of the loop is the number of the last entry, not the
interrupt of that entry, and the loop does not reach it.

* `maskUnused`, `routeLines` — the loops.
* `IoApicList` — the I/O APICs are different devices and serve different interrupts.
* `LinesReady` — all unused interrupts are masked, and the others routed.
* `LinesReach` — the loops get to every entry, and no write goes astray.
* **`initLines_iff`** — this is what it takes.
-/

namespace Seaweed

open FirstFit LastWrite

/-! ## The code -/

section code

variable (read : RegisterRead) (madtInfo : MadtInfo)

/-- The inner loop, from `j` on. -/
def maskLines (ioapic_base : UInt64) (j : ℕ) (ioapics : IoApics) : IoApics :=
  if j < (getMaxGSIs read ioapic_base ioapics).1.toNat then
    maskLines ioapic_base (j + 1)
      (maskGSI read madtInfo (UInt32.ofNat j) (getMaxGSIs read ioapic_base ioapics).2)
  else (getMaxGSIs read ioapic_base ioapics).2
termination_by 2 ^ 32 - j
decreasing_by
  have hlt := (getMaxGSIs read ioapic_base ioapics).1.toNat_lt
  omega

def maskUnused : IoApics → IoApics :=
  turns (fun i ioapics => maskLines read madtInfo
    (madtInfo.madtEntry1.entries i).ioapicAddr.toUInt64
    (madtInfo.madtEntry1.entries i).gsiBase.toNat ioapics) madtInfo.madtEntry1.count.toNat

def routeLines : IoApics → IoApics :=
  turns (fun i ioapics =>
    (writeRedirectionTable read madtInfo (UInt32.ofNat i) (UInt64.ofNat (i + 32)) ioapics).2) 16

/-- The two loops of `initAPIC`. -/
def initLines (ioapics : IoApics) : IoApics :=
  routeLines read madtInfo (maskUnused read madtInfo ioapics)

end code

/-! ## What should hold -/

/-- A read returns the register that was asked for, and changes none. -/
structure Works (read : RegisterRead) : Prop where
  answer : ∀ base reg ioapics, (read base reg ioapics).1 = (ioapics base).register reg
  keeps : ∀ base reg ioapics, SameRegisters ioapics (read base reg ioapics).2

/-- The I/O APICs of the list have different addresses, and no two serve the same interrupt. -/
structure IoApicList (madtInfo : MadtInfo) (ioapics : IoApics) : Prop where
  apart : ∀ j k, j < madtInfo.madtEntry1.count.toNat → k < madtInfo.madtEntry1.count.toNat →
    (madtInfo.madtEntry1.entries j).ioapicAddr = (madtInfo.madtEntry1.entries k).ioapicAddr → j = k
  disjoint : ∀ j k, j < madtInfo.madtEntry1.count.toNat → k < madtInfo.madtEntry1.count.toNat →
    ∀ gsi, Covers madtInfo ioapics gsi j → Covers madtInfo ioapics gsi k → j = k

/-- The register of an entry with the vector and the mask bit. -/
def firstRegister (ioapic : IoApic) (n : UInt32) : UInt32 := ioapic.register (n * 2 + 16)

def Masked (first : UInt32) : Prop := first &&& 0x10000 ≠ 0

instance : DecidablePred Masked := fun _ => instDecidableNot

def Delivers (first : UInt32) (vector : ℕ) : Prop := (first &&& 0xff).toNat = vector ∧ ¬Masked first

instance (first : UInt32) : DecidablePred (Delivers first) :=
  fun _ => inferInstanceAs (Decidable (_ ∧ _))

/-- The interrupt of an entry. -/
def lineOf (madtInfo : MadtInfo) (k : ℕ) (n : UInt32) : ℕ :=
  (madtInfo.madtEntry1.entries k).gsiBase.toNat + n.toNat

/-- In the state `ioapics'`, the entries of the I/O APICs are masked from interrupt 16 on, and the
others deliver the vector of their interrupt. -/
structure LinesReady (madtInfo : MadtInfo) (ioapics ioapics' : IoApics) : Prop where
  masked : ∀ k n, HasEntry madtInfo ioapics k n → 16 ≤ lineOf madtInfo k n →
    Masked (firstRegister (ioapicOf madtInfo ioapics' k) n)
  routed : ∀ k n, HasEntry madtInfo ioapics k n → lineOf madtInfo k n < 16 →
    Delivers (firstRegister (ioapicOf madtInfo ioapics' k) n) (lineOf madtInfo k n + 32)

/-- No I/O APIC of the list is found for the interrupt, and the record behind the list leads to
entry `n` of the I/O APIC number `k`. -/
def Strays (madtInfo : MadtInfo) (ioapics : IoApics) (gsi : UInt32) (k : ℕ) (n : UInt32) : Prop :=
  (∀ j, j < madtInfo.madtEntry1.count.toNat → ¬Matches madtInfo ioapics gsi.toNat j) ∧
    (madtInfo.madtEntry1.entries madtInfo.madtEntry1.count.toNat).ioapicAddr =
      (madtInfo.madtEntry1.entries k).ioapicAddr ∧
    n * 2 = (gsi - (madtInfo.madtEntry1.entries madtInfo.madtEntry1.count.toNat).gsiBase) * 2

/-- The loops get to every entry: one from interrupt 16 on is masked already or is below the bound,
and no write goes astray to it; one below 16 is found, or is reached by its own write or none, and
not by a later one. -/
structure LinesReach (madtInfo : MadtInfo) (ioapics : IoApics) : Prop where
  masked : ∀ k n, HasEntry madtInfo ioapics k n → 16 ≤ lineOf madtInfo k n →
    (Masked (firstRegister (ioapicOf madtInfo ioapics k) n) ∨
      lineOf madtInfo k n < comparedMax madtInfo ioapics k) ∧
    ∀ gsi : UInt32, gsi.toNat < 16 → ¬Strays madtInfo ioapics gsi k n
  routed : ∀ k n, HasEntry madtInfo ioapics k n → lineOf madtInfo k n < 16 →
    (n.toNat ≤ comparedMax madtInfo ioapics k ∨
      (∃ gsi : UInt32, gsi.toNat = lineOf madtInfo k n ∧ Strays madtInfo ioapics gsi k n) ∨
      (Delivers (firstRegister (ioapicOf madtInfo ioapics k) n) (lineOf madtInfo k n + 32) ∧
        ∀ gsi : UInt32, gsi.toNat < lineOf madtInfo k n → ¬Strays madtInfo ioapics gsi k n)) ∧
    ∀ gsi : UInt32, lineOf madtInfo k n < gsi.toNat → gsi.toNat < 16 →
      ¬Strays madtInfo ioapics gsi k n

variable {read : RegisterRead} {madtInfo : MadtInfo} {ioapics ioapics' : IoApics} {k : ℕ}
  {n : UInt32}

/-! ## Stores -/

/-- The maxima of the I/O APICs are the same. -/
def SameMaxima (ioapics ioapics' : IoApics) : Prop :=
  ∀ base, (ioapics' base).max = (ioapics base).max

lemma SameMaxima.trans {ioapics'' : IoApics} (h : SameMaxima ioapics ioapics')
    (h' : SameMaxima ioapics' ioapics'') : SameMaxima ioapics ioapics'' :=
  fun base => (h' base).trans (h base)

lemma SameRegisters.trans {ioapics'' : IoApics} (h : SameRegisters ioapics ioapics')
    (h' : SameRegisters ioapics' ioapics'') : SameRegisters ioapics ioapics'' :=
  fun base reg => (h' base reg).trans (h base reg)

/-- The maximum is in a register. -/
lemma SameRegisters.sameMaxima (h : SameRegisters ioapics ioapics') :
    SameMaxima ioapics ioapics' := by
  intro base
  have hversion := congrArg (fun r : UInt32 => r >>> 16) (h base 1)
  simp only [IoApic.register, if_true, shift_version] at hversion
  rw [← UInt8.toNat_inj, ← UInt8.toNat_toUInt32, hversion, UInt8.toNat_toUInt32]

lemma Works.readsMaximum (h : Works read) : ReadsMaximum read where
  answer base ioapics := h.answer base 1 ioapics
  keeps base reg ioapics := (h.keeps base reg ioapics).sameMaxima

/-- **A write changes one register**, unless that is the version register. -/
lemma ioapicWrite_register (base b : UInt64) (reg r data : UInt32) (ioapics : IoApics) :
    (ioapicWrite base reg data ioapics b).register r =
      if b = base ∧ r = reg ∧ r ≠ 1 then data else (ioapics b).register r := by
  simp only [ioapicWrite, storeData, storeIndex, Function.update_self, IoApic.register]
  by_cases hb : b = base
  · subst hb
    rw [Function.update_self]
    by_cases hversion : r = 1
    · simp [hversion]
    · by_cases hr : r = reg
      · simp [hr, hr ▸ hversion]
      · simp [hr, hversion]
  · rw [Function.update_of_ne hb, Function.update_of_ne hb]
    exact (if_neg fun h => hb h.1).symm

lemma ioapicWrite_sameMaxima (base : UInt64) (reg data : UInt32) (ioapics : IoApics) :
    SameMaxima ioapics (ioapicWrite base reg data ioapics) := by
  intro b
  simp only [ioapicWrite, storeData, storeIndex, Function.update_self]
  by_cases hb : b = base
  · rw [hb, Function.update_self]
  · rw [Function.update_of_ne hb, Function.update_of_ne hb]

/-- The two registers of an entry are not confused with each other, or with the version register. -/
lemma firstRegister_ne (n m : UInt32) : n * 2 + 16 ≠ 1 ∧ n * 2 + 16 ≠ m * 2 + 16 + 1 := by
  simp only [Ne, ← UInt32.toNat_inj, UInt32.toNat_add, UInt32.toNat_mul, UInt32.reduceToNat]
  omega

/-! ## The functions, with reads that work -/

lemma getMaxGSIs_keeps (h : Works read) (base : UInt64) (ioapics : IoApics) :
    SameRegisters ioapics (getMaxGSIs read base ioapics).2 := h.keeps base 1 ioapics

lemma findLoop_keeps (h : Works read) (madtInfo : MadtInfo) (gsi : UInt64) (left i : ℕ)
    (ioapics : IoApics) :
    SameRegisters ioapics (findLoop read madtInfo gsi left i ioapics).2 := by
  induction left generalizing i ioapics with
  | zero => exact fun _ _ => rfl
  | succ left ih =>
      have hmax := getMaxGSIs_keeps h (madtInfo.madtEntry1.entries i).ioapicAddr.toUInt64 ioapics
      rw [findLoop]
      split_ifs
      · exact hmax
      · exact hmax
      · exact hmax.trans (ih _ _)

/-- The record that is used for an interrupt, which may be the one behind the list. -/
def usedRecord (madtInfo : MadtInfo) (ioapics : IoApics) (gsi : ℕ) : MadtEntry1 :=
  madtInfo.madtEntry1.entries
    (stopIndex (fun k => Matches madtInfo ioapics gsi k) madtInfo.madtEntry1.count.toNat)

/-- What is written for the interrupt goes to entry `n` of the device. -/
def Hits (madtInfo : MadtInfo) (ioapics : IoApics) (gsi : UInt32) (base : UInt64) (n : UInt32) :
    Prop :=
  base = (usedRecord madtInfo ioapics gsi.toNat).ioapicAddr.toUInt64 ∧
    n * 2 = (gsi - (usedRecord madtInfo ioapics gsi.toNat).gsiBase) * 2

/-- The search is not an error, and uses the record. -/
lemma findVaildIOAPIC_used (h : Works read) (madtInfo : MadtInfo)
    (hmax : SameMaxima ioapics ioapics') (gsi : UInt32) :
    (findVaildIOAPIC read madtInfo gsi.toUInt64 ioapics').1 ≠ ERROR ∧
      madtInfo.madtEntry1.entries (findVaildIOAPIC read madtInfo gsi.toUInt64 ioapics').1 =
        usedRecord madtInfo ioapics gsi.toNat := by
  refine ⟨findVaildIOAPIC_ne_error _ _ _ _, ?_⟩
  have hfound := findVaildIOAPIC_matches h.readsMaximum madtInfo hmax gsi.toUInt64
  rw [UInt32.toNat_toUInt64] at hfound
  rw [hfound, usedRecord]

/-- **A write of an entry** changes the one it hits. -/
lemma writeRedirectionTable_first (h : Works read) (madtInfo : MadtInfo)
    (hmax : SameMaxima ioapics ioapics') (gsi : UInt32) (data : UInt64) (base : UInt64)
    (n : UInt32) :
    SameMaxima ioapics (writeRedirectionTable read madtInfo gsi data ioapics').2 ∧
      (Hits madtInfo ioapics gsi base n →
        firstRegister ((writeRedirectionTable read madtInfo gsi data ioapics').2 base) n =
          data.toUInt32) ∧
      (¬Hits madtInfo ioapics gsi base n →
        firstRegister ((writeRedirectionTable read madtInfo gsi data ioapics').2 base) n =
          firstRegister (ioapics' base) n) := by
  obtain ⟨herror, hused⟩ := findVaildIOAPIC_used h madtInfo hmax gsi
  have hkeeps := findLoop_keeps h madtInfo gsi.toUInt64 madtInfo.madtEntry1.count.toNat 0
    ioapics'
  obtain ⟨hversion, hother⟩ :=
    firstRegister_ne n (gsi - (usedRecord madtInfo ioapics gsi.toNat).gsiBase)
  rw [writeRedirectionTable, if_neg herror]
  dsimp only
  rw [hused, firstRegister, firstRegister, entryReg, ioapicWrite_register, ioapicWrite_register,
    if_neg (fun hboth => hother hboth.2.1)]
  refine ⟨?_, fun hhit => ?_, fun hmiss => ?_⟩
  · exact (hmax.trans hkeeps.sameMaxima).trans
      ((ioapicWrite_sameMaxima _ _ _ _).trans (ioapicWrite_sameMaxima _ _ _ _))
  · rw [if_pos ⟨hhit.1, by rw [hhit.2], hversion⟩]
  · rw [if_neg fun hboth => hmiss ⟨hboth.1, (UInt32.add_left_inj _).mp hboth.2.1⟩]
    exact hkeeps base _

/-! ## Masking -/

lemma halves_first (low high : UInt32) :
    (low.toUInt64 ||| high.toUInt64 <<< 32).toUInt32 = low := by
  have hhigh : (high.toUInt64 <<< 32).toUInt32 = 0 := by
    rw [← UInt32.toNat_inj, UInt64.toNat_toUInt32, UInt64.toNat_shiftLeft, Nat.shiftLeft_eq]
    simp only [UInt64.reduceToNat, Nat.reduceMod, UInt32.toNat_zero]
    omega
  rw [UInt64.toUInt32_or, hhigh, UInt32.or_zero, UInt32.toUInt32_toUInt64]

lemma masked_or (first : UInt32) : Masked (first ||| 0x10000) := by
  intro hzero
  have hset : Nat.testBit 65536 16 = true := by decide
  have hbit := congrArg (fun r : UInt32 => r.toNat.testBit 16) hzero
  simp [UInt32.toNat_and, UInt32.toNat_or, hset] at hbit

/-- What is read for an interrupt, and that a read changes nothing. -/
lemma readRedirectionTable_works (h : Works read) (madtInfo : MadtInfo)
    (hmax : SameMaxima ioapics ioapics') (gsi : UInt32) :
    SameRegisters ioapics' (readRedirectionTable read madtInfo gsi ioapics').2 ∧
      ∀ base n, Hits madtInfo ioapics gsi base n →
        (readRedirectionTable read madtInfo gsi ioapics').1.toUInt32 =
          firstRegister (ioapics' base) n := by
  obtain ⟨herror, hused⟩ := findVaildIOAPIC_used h madtInfo hmax gsi
  have hkeeps := findLoop_keeps h madtInfo gsi.toUInt64 madtInfo.madtEntry1.count.toNat 0
    ioapics'
  rw [readRedirectionTable, if_neg herror]
  dsimp only
  rw [hused]
  constructor
  · exact (hkeeps.trans (h.keeps _ _ _)).trans (h.keeps _ _ _)
  · rintro base n ⟨rfl, hn⟩
    rw [halves_first, h.answer, firstRegister, hn]
    exact hkeeps _ _

/-- **Masking sets one bit** of the entry that it hits.  Where it gives up, because the entry looks
like the code of an error, the bit is set. -/
lemma maskGSI_first (h : Works read) (madtInfo : MadtInfo) (hmax : SameMaxima ioapics ioapics')
    (gsi : UInt32) (base : UInt64) (n : UInt32) :
    SameMaxima ioapics (maskGSI read madtInfo gsi ioapics') ∧
      (Hits madtInfo ioapics gsi base n →
        firstRegister (maskGSI read madtInfo gsi ioapics' base) n =
        firstRegister (ioapics' base) n ||| 0x10000) ∧
      (¬Hits madtInfo ioapics gsi base n →
        firstRegister (maskGSI read madtInfo gsi ioapics' base) n =
        firstRegister (ioapics' base) n) := by
  obtain ⟨hkeeps, hvalue⟩ := readRedirectionTable_works h madtInfo hmax gsi
  rw [maskGSI]
  split_ifs with herror
  · refine ⟨hmax.trans hkeeps.sameMaxima, fun hhit => ?_, fun _ => hkeeps base _⟩
    have hcode := hvalue base n hhit
    rw [herror] at hcode
    rw [← hcode]
    exact (hkeeps base _).trans hcode.symm
  · obtain ⟨hmaxima, hhits, hmisses⟩ := writeRedirectionTable_first h madtInfo
      (hmax.trans hkeeps.sameMaxima) gsi
      ((readRedirectionTable read madtInfo gsi ioapics').1 ||| (1 : UInt64) <<< 16) base n
    refine ⟨hmaxima, fun hhit => ?_, fun hmiss => (hmisses hmiss).trans (hkeeps base _)⟩
    rw [hhits hhit, UInt64.toUInt32_or, hvalue base n hhit]
    rfl

/-! ## Which entry is hit -/

/-- The number that is written for an interrupt is the number of its entry: doubling loses
nothing. -/
lemma number_eq_iff {gsi : UInt32} (hentry : HasEntry madtInfo ioapics k n)
    (hmatch : Matches madtInfo ioapics gsi.toNat k) :
    n * 2 = (gsi - (madtInfo.madtEntry1.entries k).gsiBase) * 2 ↔
      gsi.toNat = lineOf madtInfo k n := by
  have hbyte := (ioapicOf madtInfo ioapics k).max.toNat_lt
  have hn := hentry.2
  have hsmall := (comparedMax_le madtInfo ioapics k).2
  have hle := hmatch.1
  have hbelow := hmatch.2.1
  have hnumber : (gsi - (madtInfo.madtEntry1.entries k).gsiBase).toNat =
      gsi.toNat - (madtInfo.madtEntry1.entries k).gsiBase.toNat := by
    rw [UInt32.toNat_sub_of_le _ _ (UInt32.le_iff_toNat_le.mpr hle)]
  rw [← UInt32.toNat_inj, UInt32.toNat_mul, UInt32.toNat_mul, hnumber, lineOf]
  simp only [UInt32.reduceToNat]
  omega

/-- **An entry of the list is hit for its own interrupt**, if that is found, and by what goes
astray. -/
lemma hits_iff (hlist : IoApicList madtInfo ioapics) (hentry : HasEntry madtInfo ioapics k n)
    (gsi : UInt32) :
    Hits madtInfo ioapics gsi (madtInfo.madtEntry1.entries k).ioapicAddr.toUInt64 n ↔
      Matches madtInfo ioapics gsi.toNat k ∧ gsi.toNat = lineOf madtInfo k n ∨
        Strays madtInfo ioapics gsi k n := by
  rw [Hits, usedRecord, UInt32.toUInt64_inj]
  rcases stopIndex_cases (fun j => decide (Matches madtInfo ioapics gsi.toNat j))
    madtInfo.madtEntry1.count.toNat with ⟨hlt, hstop, _⟩ | ⟨hend, hnone⟩
  · -- the search finds an I/O APIC
    generalize stopIndex (fun j => decide (Matches madtInfo ioapics gsi.toNat j))
      madtInfo.madtEntry1.count.toNat = f at hlt hstop ⊢
    have hmatch : Matches madtInfo ioapics gsi.toNat f := of_decide_eq_true hstop
    have hnostray : ¬Strays madtInfo ioapics gsi k n := fun hstray => hstray.1 f hlt hmatch
    rw [or_iff_left hnostray]
    constructor
    · rintro ⟨haddr, hdouble⟩
      obtain rfl := hlist.apart k f hentry.1 hlt haddr
      exact ⟨hmatch, (number_eq_iff hentry hmatch).mp hdouble⟩
    · rintro ⟨hk, hline⟩
      obtain rfl := hlist.disjoint k f hentry.1 hlt gsi.toNat hk.covers hmatch.covers
      exact ⟨rfl, (number_eq_iff hentry hk).mpr hline⟩
  · -- the search ends behind the list
    have hnomatch : ∀ j, j < madtInfo.madtEntry1.count.toNat →
        ¬Matches madtInfo ioapics gsi.toNat j :=
      fun j hj => of_decide_eq_false (hnone j hj)
    rw [hend, or_iff_right (fun hown => hnomatch k hentry.1 hown.1)]
    constructor
    · rintro ⟨haddr, hdouble⟩
      exact ⟨hnomatch, haddr.symm, hdouble⟩
    · rintro ⟨_, haddr, hdouble⟩
      exact ⟨haddr.symm, hdouble⟩

/-! ## The loops that mask -/

/-- In going from one state to the other, the entries of the list have been masked where `p` says
so, and the others left alone. -/
structure MasksWhere (madtInfo : MadtInfo) (start : IoApics) (p : ℕ → UInt32 → Prop)
    (ioapics ioapics' : IoApics) : Prop where
  maxima : SameMaxima start ioapics'
  mask : ∀ k n, HasEntry madtInfo start k n → p k n →
    firstRegister (ioapicOf madtInfo ioapics' k) n =
      firstRegister (ioapicOf madtInfo ioapics k) n ||| 0x10000
  keep : ∀ k n, HasEntry madtInfo start k n → ¬p k n →
    firstRegister (ioapicOf madtInfo ioapics' k) n = firstRegister (ioapicOf madtInfo ioapics k) n

/-- **The inner loop** masks the interrupts of its I/O APIC up to its bound. -/
lemma maskLines_masks (h : Works read) (hlist : IoApicList madtInfo ioapics) {i : ℕ}
    (hi : i < madtInfo.madtEntry1.count.toNat) (hmax : SameMaxima ioapics ioapics') {j : ℕ}
    (hj : (madtInfo.madtEntry1.entries i).gsiBase.toNat ≤ j) :
    MasksWhere madtInfo ioapics
      (fun k n => k = i ∧ j ≤ lineOf madtInfo k n ∧
        lineOf madtInfo k n < comparedMax madtInfo ioapics i)
      ioapics' (maskLines read madtInfo
        (madtInfo.madtEntry1.entries i).ioapicAddr.toUInt64 j ioapics') := by
  have hsmall := (comparedMax_le madtInfo ioapics i).2
  have hkeeps :=
    fun ioapics => getMaxGSIs_keeps h (madtInfo.madtEntry1.entries i).ioapicAddr.toUInt64 ioapics
  have hbound : ∀ ioapics', SameMaxima ioapics ioapics' →
      (getMaxGSIs read (madtInfo.madtEntry1.entries i).ioapicAddr.toUInt64 ioapics').1.toNat =
        comparedMax madtInfo ioapics i := by
    intro ioapics' hmax
    rw [getMaxGSIs_eq h.readsMaximum, hmax, UInt8.toNat_toUInt32]
    rfl
  obtain ⟨d, hd⟩ : ∃ d, comparedMax madtInfo ioapics i - j = d := ⟨_, rfl⟩
  induction d generalizing j ioapics' with
  | zero =>
      rw [maskLines, if_neg (by rw [hbound _ hmax]; omega)]
      constructor
      case maxima => exact hmax.trans (hkeeps _).sameMaxima
      case mask => exact fun k n _ hp => absurd hp.2 (by omega)
      case keep => exact fun k n _ _ => hkeeps _ _ _
  | succ d ih =>
      rw [maskLines, if_pos (by rw [hbound _ hmax]; omega)]
      have hread : SameMaxima ioapics (getMaxGSIs read _ ioapics').2 :=
        hmax.trans (hkeeps _).sameMaxima
      have hgsi : (UInt32.ofNat j).toNat = j :=
        UInt32.toNat_ofNat_of_lt' (by rw [UInt32.size]; omega)
      have hmatch : Matches madtInfo ioapics j i := ⟨hj, by omega, by omega⟩
      have hhit : ∀ k n, HasEntry madtInfo ioapics k n →
          (Hits madtInfo ioapics (UInt32.ofNat j)
            (madtInfo.madtEntry1.entries k).ioapicAddr.toUInt64 n ↔
            k = i ∧ j = lineOf madtInfo k n) := by
        intro k n hentry
        rw [hits_iff hlist hentry, hgsi]
        constructor
        · rintro (⟨hk, hline⟩ | hstray)
          · exact ⟨hlist.disjoint k i hentry.1 hi j hk.covers hmatch.covers, hline⟩
          · have hnone := hstray.1 i hi
            rw [hgsi] at hnone
            exact absurd hmatch hnone
        · rintro ⟨rfl, hline⟩
          exact Or.inl ⟨hmatch, hline⟩
      have hstep := fun k n => maskGSI_first h madtInfo hread (UInt32.ofNat j)
        (madtInfo.madtEntry1.entries k).ioapicAddr.toUInt64 n
      have hrest := ih (hstep i 0).1 (Nat.le_succ_of_le hj) (by omega)
      constructor
      case maxima => exact hrest.maxima
      case mask =>
        rintro k n hentry ⟨hk, hle, hlt⟩
        by_cases hline : j = lineOf madtInfo k n
        · rw [hrest.keep k n hentry fun hp => absurd hp.2.1 (by omega)]
          exact ((hstep k n).2.1 ((hhit k n hentry).mpr ⟨hk, hline⟩)).trans
            (congrArg (· ||| 0x10000) (hkeeps _ _ _))
        · rw [hrest.mask k n hentry ⟨hk, by omega, hlt⟩]
          exact congrArg (· ||| 0x10000) (((hstep k n).2.2 fun hp =>
            hline ((hhit k n hentry).mp hp).2).trans (hkeeps _ _ _))
      case keep =>
        intro k n hentry hnot
        rw [hrest.keep k n hentry fun hp => hnot ⟨hp.1, by omega, hp.2.2⟩]
        refine ((hstep k n).2.2 fun hp => hnot ?_).trans (hkeeps _ _ _)
        obtain ⟨hk, hline⟩ := (hhit k n hentry).mp hp
        exact ⟨hk, Nat.le_of_eq hline, by omega⟩

/-- **The outer loop** masks the interrupts that are below the bound of their I/O APIC. -/
lemma maskUnused_masks (h : Works read) (hlist : IoApicList madtInfo ioapics) :
    MasksWhere madtInfo ioapics
      (fun k n => lineOf madtInfo k n < comparedMax madtInfo ioapics k) ioapics
      (maskUnused read madtInfo ioapics) := by
  let step :=
    fun i ioapics => maskLines read madtInfo (madtInfo.madtEntry1.entries i).ioapicAddr.toUInt64
    (madtInfo.madtEntry1.entries i).gsiBase.toNat ioapics
  have hturns : ∀ m, m ≤ madtInfo.madtEntry1.count.toNat → MasksWhere madtInfo ioapics
      (fun k n => k < m ∧ lineOf madtInfo k n < comparedMax madtInfo ioapics k) ioapics
      (turns step m ioapics) := by
    intro m hm
    induction m with
    | zero =>
        exact ⟨fun _ => rfl, fun k n _ hp => absurd hp.1 (Nat.not_lt_zero k), fun _ _ _ _ => rfl⟩
    | succ m ih =>
        have hbefore := ih (by omega)
        have hturn := maskLines_masks h hlist (i := m) (by omega) hbefore.maxima (Nat.le_refl _)
        rw [turns_succ]
        constructor
        case maxima => exact hturn.maxima
        case mask =>
          rintro k n hentry ⟨hk, hlt⟩
          rcases Nat.lt_succ_iff_lt_or_eq.mp hk with hless | rfl
          · rw [hturn.keep k n hentry fun hp => absurd hp.1 (by omega)]
            exact hbefore.mask k n hentry ⟨hless, hlt⟩
          · rw [hturn.mask k n hentry ⟨rfl, Nat.le_add_right _ _, hlt⟩,
              hbefore.keep k n hentry fun hp => absurd hp.1 (Nat.lt_irrefl k)]
        case keep =>
          intro k n hentry hnot
          rw [hturn.keep k n hentry fun hp => hnot ⟨by omega, hp.1 ▸ hp.2.2⟩]
          exact hbefore.keep k n hentry fun hp => hnot ⟨by omega, hp.2⟩
  have hall := hturns _ (Nat.le_refl _)
  exact ⟨hall.maxima, fun k n hentry hlt => hall.mask k n hentry ⟨hentry.1, hlt⟩,
    fun k n hentry hnot => hall.keep k n hentry fun hp => hnot hp.2⟩

/-! ## The loop that routes -/

/-- What the loop writes for an interrupt. -/
lemma delivers_route {i v : ℕ} (hi : i < 16) :
    Delivers (UInt64.ofNat (i + 32)).toUInt32 v ↔ v = i + 32 := by
  have hall : ∀ i, i < 16 → ((UInt64.ofNat (i + 32)).toUInt32 &&& 0xff).toNat = i + 32 ∧
      ¬Masked (UInt64.ofNat (i + 32)).toUInt32 := by decide
  rw [Delivers, (hall i hi).1, and_iff_left (hall i hi).2]
  exact eq_comm

/-- The write for interrupt `i` goes to the entry. -/
def RouteHits (madtInfo : MadtInfo) (ioapics : IoApics) (k : ℕ) (n : UInt32) (i : ℕ) : Prop :=
  Hits madtInfo ioapics (UInt32.ofNat i) (madtInfo.madtEntry1.entries k).ioapicAddr.toUInt64 n

lemma routeLines_writes (h : Works read) (madtInfo : MadtInfo) (ioapics : IoApics) (k : ℕ)
    (n : UInt32) :
    Writes (SameMaxima ioapics) (fun i ioapics =>
        (writeRedirectionTable read madtInfo (UInt32.ofNat i) (UInt64.ofNat (i + 32)) ioapics).2)
      (fun ioapics => firstRegister (ioapicOf madtInfo ioapics k) n)
      (RouteHits madtInfo ioapics k n) fun i => (UInt64.ofNat (i + 32)).toUInt32 where
  keeps _ _ hmax := (writeRedirectionTable_first h madtInfo hmax _ _ 0 0).1
  hit _ _ hmax := (writeRedirectionTable_first h madtInfo hmax _ _ _ n).2.1
  miss _ _ hmax := (writeRedirectionTable_first h madtInfo hmax _ _ _ n).2.2

/-- **What an entry holds in the end:** what the last write to it has written, or what it held
before, which has been masked if the interrupt is below the bound. -/
lemma initLines_cases (h : Works read) (hlist : IoApicList madtInfo ioapics)
    (hentry : HasEntry madtInfo ioapics k n) :
    (∃ i, i < 16 ∧ RouteHits madtInfo ioapics k n i ∧
      (∀ j, i < j → j < 16 → ¬RouteHits madtInfo ioapics k n j) ∧
      firstRegister (ioapicOf madtInfo (initLines read madtInfo ioapics) k) n =
        (UInt64.ofNat (i + 32)).toUInt32) ∨
    (∀ j, j < 16 → ¬RouteHits madtInfo ioapics k n j) ∧
      ((lineOf madtInfo k n < comparedMax madtInfo ioapics k ∧
          Masked (firstRegister (ioapicOf madtInfo (initLines read madtInfo ioapics) k) n)) ∨
        (comparedMax madtInfo ioapics k ≤ lineOf madtInfo k n ∧
          firstRegister (ioapicOf madtInfo (initLines read madtInfo ioapics) k) n =
            firstRegister (ioapicOf madtInfo ioapics k) n)) := by
  have hmasks := maskUnused_masks h hlist
  have hwrites := routeLines_writes h madtInfo ioapics k n
  rcases last_or_none (RouteHits madtInfo ioapics k n) 16 with hnone | ⟨i, hi, hit, hlater⟩
  · refine Or.inr ⟨hnone, ?_⟩
    have hsame : firstRegister (ioapicOf madtInfo (initLines read madtInfo ioapics) k) n =
        firstRegister (ioapicOf madtInfo (maskUnused read madtInfo ioapics) k) n :=
      hwrites.untouched hmasks.maxima hnone
    rw [hsame]
    rcases Nat.lt_or_ge (lineOf madtInfo k n) (comparedMax madtInfo ioapics k) with hlt | hge
    · rw [hmasks.mask k n hentry hlt]
      exact Or.inl ⟨hlt, masked_or _⟩
    · exact Or.inr ⟨hge, hmasks.keep k n hentry (Nat.not_lt.mpr hge)⟩
  · exact Or.inl ⟨i, hi, hit, hlater, hwrites.last hmasks.maxima hi hit hlater⟩

lemma toNat_ofNat_line {i : ℕ} (hi : i < 16) : (UInt32.ofNat i).toNat = i :=
  UInt32.toNat_ofNat_of_lt' (by rw [UInt32.size]; omega)

lemma routeHits_iff (hlist : IoApicList madtInfo ioapics) (hentry : HasEntry madtInfo ioapics k n)
    {i : ℕ} (hi : i < 16) : RouteHits madtInfo ioapics k n i ↔
      Matches madtInfo ioapics i k ∧ i = lineOf madtInfo k n ∨
        Strays madtInfo ioapics (UInt32.ofNat i) k n := by
  rw [RouteHits, hits_iff hlist hentry, toNat_ofNat_line hi]

lemma Strays.routeHits {gsi : UInt32} (hstray : Strays madtInfo ioapics gsi k n)
    (hlist : IoApicList madtInfo ioapics) (hentry : HasEntry madtInfo ioapics k n)
    (hgsi : gsi.toNat < 16) :
    RouteHits madtInfo ioapics k n gsi.toNat :=
  (routeHits_iff hlist hentry hgsi).mpr (Or.inr (by rwa [UInt32.ofNat_toNat]))

/-- A write for another interrupt goes astray. -/
lemma RouteHits.strays {i : ℕ} (hit : RouteHits madtInfo ioapics k n i)
    (hlist : IoApicList madtInfo ioapics) (hentry : HasEntry madtInfo ioapics k n) (hi : i < 16)
    (hne : i ≠ lineOf madtInfo k n) :
    Strays madtInfo ioapics (UInt32.ofNat i) k n :=
  ((routeHits_iff hlist hentry hi).mp hit).resolve_left fun hown => hne hown.2

/-- An interrupt below 16 is found if its number is not too high, and its write goes to its
entry. -/
lemma routeHits_own (hlist : IoApicList madtInfo ioapics) (hentry : HasEntry madtInfo ioapics k n)
    (hline : lineOf madtInfo k n < 16) (hn : n.toNat ≤ comparedMax madtInfo ioapics k) :
    RouteHits madtInfo ioapics k n (lineOf madtInfo k n) := by
  have hsmall := (comparedMax_le madtInfo ioapics k).2
  have hmatch : Matches madtInfo ioapics (lineOf madtInfo k n) k := by
    rw [lineOf] at hline ⊢
    exact ⟨Nat.le_add_right _ _, Nat.add_le_add_left hn _, by omega⟩
  exact (routeHits_iff hlist hentry hline).mpr (Or.inl ⟨hmatch, rfl⟩)

lemma LinesReach.ready (hreach : LinesReach madtInfo ioapics) (h : Works read)
    (hlist : IoApicList madtInfo ioapics) :
    LinesReady madtInfo ioapics (initLines read madtInfo ioapics) := by
  constructor
  case masked =>
    intro k n hentry hline
    obtain ⟨hbefore, hnostray⟩ := hreach.masked k n hentry hline
    rcases initLines_cases h hlist hentry with ⟨i, hi, hit, _⟩ | ⟨_, ⟨_, hmasked⟩ | ⟨hge, hsame⟩⟩
    · exact absurd (hit.strays hlist hentry hi (by omega))
        (hnostray _ (by rwa [toNat_ofNat_line hi]))
    · exact hmasked
    · rw [hsame]
      exact hbefore.resolve_right (Nat.not_lt.mpr hge)
  case routed =>
    intro k n hentry hline
    obtain ⟨hown, hlater⟩ := hreach.routed k n hentry hline
    rcases initLines_cases h hlist hentry with ⟨i, hi, hit, hlast, hvalue⟩ | ⟨hnone, hheld⟩
    · rw [hvalue, delivers_route hi]
      -- the last write is not for a later interrupt, nor, if the entry has one of its own, for an
      -- earlier one
      have hle : i ≤ lineOf madtInfo k n := by
        refine Nat.le_of_not_lt fun hgt => ?_
        exact hlater (UInt32.ofNat i) (by rwa [toNat_ofNat_line hi]) (by rwa [toNat_ofNat_line hi])
          (hit.strays hlist hentry hi (Nat.ne_of_gt hgt))
      rcases Nat.eq_or_lt_of_le hle with heq | hlt
      · rw [heq]
      · have hnotown : ¬RouteHits madtInfo ioapics k n (lineOf madtInfo k n) := hlast _ hlt hline
        rcases hown with hn | ⟨gsi, hgsi, hstray⟩ | ⟨_, hearlier⟩
        · exact absurd (routeHits_own hlist hentry hline hn) hnotown
        · exact absurd (hgsi ▸ hstray.routeHits hlist hentry (hgsi ▸ hline)) hnotown
        · exact absurd (hit.strays hlist hentry hi (Nat.ne_of_lt hlt))
            (hearlier _ (by rwa [toNat_ofNat_line hi]))
    · rcases hown with hn | ⟨gsi, hgsi, hstray⟩ | ⟨hdelivers, _⟩
      · exact absurd (routeHits_own hlist hentry hline hn) (hnone _ hline)
      · exact absurd (hgsi ▸ hstray.routeHits hlist hentry (hgsi ▸ hline)) (hnone _ hline)
      · rcases hheld with ⟨hlt, _⟩ | ⟨_, hsame⟩
        · have hn : n.toNat ≤ comparedMax madtInfo ioapics k :=
            (Nat.le_add_left _ _).trans (Nat.le_of_lt hlt)
          exact absurd (routeHits_own hlist hentry hline hn) (hnone _ hline)
        · rw [hsame]
          exact hdelivers

lemma LinesReady.reach (hready : LinesReady madtInfo ioapics (initLines read madtInfo ioapics))
    (h : Works read) (hlist : IoApicList madtInfo ioapics) : LinesReach madtInfo ioapics := by
  constructor
  case masked =>
    intro k n hentry hline
    have hmasked := hready.masked k n hentry hline
    rcases initLines_cases h hlist hentry with ⟨i, hi, _, _, hvalue⟩ | ⟨hnone, hheld⟩
    · rw [hvalue] at hmasked
      exact absurd hmasked ((delivers_route hi).mpr rfl).2
    · refine ⟨?_, fun gsi hgsi hstray => hnone _ hgsi (hstray.routeHits hlist hentry hgsi)⟩
      rcases hheld with ⟨hlt, _⟩ | ⟨_, hsame⟩
      · exact Or.inr hlt
      · exact Or.inl (hsame ▸ hmasked)
  case routed =>
    intro k n hentry hline
    have hdelivers := hready.routed k n hentry hline
    rcases initLines_cases h hlist hentry with ⟨i, hi, hit, hlater, hvalue⟩ | ⟨hnone, hheld⟩
    · rw [hvalue, delivers_route hi, Nat.add_right_cancel_iff] at hdelivers
      refine ⟨?_, fun gsi hgt hgsi hstray =>
        hlater _ (by omega) hgsi (hstray.routeHits hlist hentry hgsi)⟩
      rcases (routeHits_iff hlist hentry hi).mp hit with ⟨hmatch, _⟩ | hstray
      · have hle := hmatch.2.1
        rw [← hdelivers, lineOf] at hle
        exact Or.inl (by omega)
      · exact Or.inr (Or.inl ⟨UInt32.ofNat i, (toNat_ofNat_line hi).trans hdelivers.symm, hstray⟩)
    · have hnostray : ∀ gsi : UInt32, gsi.toNat < 16 → ¬Strays madtInfo ioapics gsi k n :=
        fun gsi hgsi hstray => hnone _ hgsi (hstray.routeHits hlist hentry hgsi)
      refine ⟨Or.inr (Or.inr ⟨?_, fun gsi hlt => hnostray gsi (by omega)⟩),
        fun gsi _ => hnostray gsi⟩
      rcases hheld with ⟨_, hmasked⟩ | ⟨_, hsame⟩
      · exact absurd hmasked hdelivers.2
      · exact hsame ▸ hdelivers

/-- **The interrupts are ready exactly if the loops reach every entry.** -/
theorem initLines_iff (read : RegisterRead) (madtInfo : MadtInfo) (ioapics : IoApics)
    (h : Works read) (hlist : IoApicList madtInfo ioapics) :
    LinesReady madtInfo ioapics (initLines read madtInfo ioapics) ↔ LinesReach madtInfo ioapics :=
  ⟨fun hready => hready.reach h hlist, fun hreach => hreach.ready h hlist⟩

/-- **The last entry of an I/O APIC** is not reached by the loop. -/
lemma lastEntry_reach (hreach : LinesReach madtInfo ioapics)
    (hk : k < madtInfo.madtEntry1.count.toNat)
    (hline : 16 ≤ lineOf madtInfo k (ioapicOf madtInfo ioapics k).max.toUInt32) :
    Masked (firstRegister (ioapicOf madtInfo ioapics k)
      (ioapicOf madtInfo ioapics k).max.toUInt32) := by
  have hmax : (ioapicOf madtInfo ioapics k).max.toUInt32.toNat =
      (ioapicOf madtInfo ioapics k).max.toNat :=
    UInt8.toNat_toUInt32 _
  have hbound := (comparedMax_le madtInfo ioapics k).1
  refine (hreach.masked k _ ⟨hk, Nat.le_of_eq hmax⟩ hline).1.resolve_right fun hlt => ?_
  rw [lineOf, hmax] at hlt
  omega

lemma windowRead_works : Works windowRead where
  answer := windowRead_answer
  keeps base reg ioapics b r := by
    rw [windowRead_device]
    rfl

/-- A list of one I/O APIC. -/
lemma ioApicList_one (ioapics : IoApics) : IoApicList oneIoApic ioapics := by
  have hsingle : ∀ j k, j < oneIoApic.madtEntry1.count.toNat →
      k < oneIoApic.madtEntry1.count.toNat →
      j = k := by
    intro j k hj hk
    exact (Nat.lt_one_iff.mp hj).trans (Nat.lt_one_iff.mp hk).symm
  exact ⟨fun j k hj hk _ => hsingle j k hj hk, fun j k hj hk _ _ _ => hsingle j k hj hk⟩

/-- An I/O APIC for 24 interrupts, which are all masked, as after a reset. -/
def resetIoApics : IoApics := fun _ => ⟨0, 0x20, 23, fun _ => 0x10000⟩

/-- Sixteen interrupts are routed, and the others stay masked. -/
theorem initLines_reset :
    LinesReady oneIoApic resetIoApics (initLines windowRead oneIoApic resetIoApics) := by
  have hfound : ∀ i, i < 16 → Matches oneIoApic resetIoApics i 0 := by decide
  have hnostray : ∀ (gsi : UInt32) k n, gsi.toNat < 16 → ¬Strays oneIoApic resetIoApics gsi k n :=
    fun gsi k n hgsi hstray => hstray.1 0 (by decide) (hfound _ hgsi)
  have hmasked : ∀ n : UInt32, n.toNat ≤ 23 → firstRegister (ioapicOf oneIoApic resetIoApics 0) n
      = 0x10000 := fun n hn => by
    refine if_neg fun hone => ?_
    have hodd := congrArg UInt32.toNat hone
    simp only [UInt32.toNat_add, UInt32.toNat_mul, UInt32.reduceToNat] at hodd
    omega
  refine (initLines_iff _ _ _ windowRead_works (ioApicList_one _)).mpr ⟨?_, ?_⟩
  · rintro k n ⟨hk, hn⟩ _
    obtain rfl := Nat.lt_one_iff.mp hk
    refine ⟨Or.inl ?_, fun gsi => hnostray gsi 0 n⟩
    rw [hmasked n hn]
    decide
  · rintro k n ⟨hk, hn⟩ hline
    obtain rfl := Nat.lt_one_iff.mp hk
    exact ⟨Or.inl hn, fun gsi _ => hnostray gsi 0 n⟩

/-- Of 24 interrupts the last is not masked. -/
theorem initLines_twentyFour : IoApicList oneIoApic zeroedIoApics ∧
    ¬LinesReady oneIoApic zeroedIoApics (initLines windowRead oneIoApic zeroedIoApics) := by
  refine ⟨ioApicList_one _, fun hready => ?_⟩
  have hlast :=
    lastEntry_reach (hready.reach windowRead_works (ioApicList_one _)) (k := 0) (by decide)
    (by decide)
  exact absurd hlast (by decide)

end Seaweed
