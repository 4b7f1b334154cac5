import Mathlib.Order.Bounds.Basic
import Seaweed.Drivers.PciBar
import Seaweed.Mm.KHeap

/-!
# The words of the EEPROM (`kernel/net/e1000.c`)

A word of the EEPROM is requested by a write to a register of the adapter.  The word is in the upper
half of what the register yields then, as soon as bit 4 is set.  The test of the loop that waits for
the bit is `(!tmp) & (1 << 4)`.

* `poll`, `eepromRead`, `initEthernet` — the code.
* `IsFirstDone` — the read in which the bit is set for the first time.
* `poll_eq` — the loop ends after one read.
* `macTurns_run` — what the loop of `initEthernet` stores.
* **`readsWhenReady_iff`** — the words are read when they are ready exactly if the bit is set in the
  first read after each request.
-/

namespace Seaweed

/-! ## The code -/

/-- `NICinfo_t`. -/
structure NICInfo where
  mac : ℕ → UInt8
  regBase : UInt64

/-- The register: `values` are what it yields in one read after the other.  `writes` are the writes,
with their addresses. -/
structure EepromRegister where
  values : ℕ → UInt32
  reads : ℕ
  writes : List (UInt64 × UInt32)

/-- `(!(tmp)) & (1 << 4)`, where `!tmp` is 0 or 1. -/
def pollTest (tmp : UInt32) : UInt32 :=
  let notTmp : UInt32 := if tmp = 0 then 1 else 0
  notTmp &&& (1 : UInt32) <<< 4

lemma pollTest_eq_zero (tmp : UInt32) : pollTest tmp = 0 := by
  unfold pollTest
  split_ifs <;> decide

/-- The loop, with the last value. -/
def poll (e : EepromRegister) : UInt32 × EepromRegister :=
  let tmp := e.values e.reads
  let e := { e with reads := e.reads + 1 }
  if pollTest tmp ≠ 0 then poll e else (tmp, e)
termination_by 0
decreasing_by exact absurd (pollTest_eq_zero _) ‹_›

/-- What is written to the register. -/
def eepromRequest (regBase : UInt64) (addr : UInt8) : UInt64 × UInt32 :=
  (regBase + 0x14, (1 : UInt32) ||| addr.toUInt32 <<< 8)

def eepromRead (regBase : UInt64) (e : EepromRegister) (addr : UInt8) : UInt32 × EepromRegister :=
  let e := { e with writes := e.writes ++ [eepromRequest regBase addr] }
  let (tmp, e) := poll e
  (((tmp >>> 16) &&& 0xffff).toUInt16.toUInt32, e)

/-- The globals, with the hardware. -/
structure Ethernet where
  NICinfo : NICInfo
  ports : PciPorts
  eeprom : EepromRegister

/-- The test of the search. -/
def PciDevice.isEthernet (d : PciDevice) : Bool := d.classCode == 2 && d.subclass == 0

/-- The search from `i` on.  `device` is the variable that it sets, which is not initialised. -/
def findEthernet (pciInfo : PciArray) (device : PciDevice) (i : ℕ) : Option PciDevice :=
  if i < pciInfo.totalDevices then
    if (pciInfo.pciDevices i).isEthernet then some (pciInfo.pciDevices i)
    else if i = pciInfo.totalDevices - 1 then none
    else findEthernet pciInfo device (i + 1)
  else some device
termination_by pciInfo.totalDevices - i

/-- A turn of the loop that reads the address, with `cnt`. -/
def macTurn (turn : Ethernet × ℕ) (i : ℕ) : Ethernet × ℕ :=
  let (s, cnt) := turn
  let (tmp, eeprom) := eepromRead s.NICinfo.regBase s.eeprom (UInt8.ofNat i)
  let mac := Function.update s.NICinfo.mac cnt tmp.toUInt8
  let mac := Function.update mac (cnt + 1) (tmp >>> 8).toUInt8
  ({ s with NICinfo := { s.NICinfo with mac := mac }, eeprom := eeprom }, cnt + 2)

def initEthernet (pciInfo : PciArray) (device : PciDevice) (s : Ethernet) : Ethernet :=
  match findEthernet pciInfo device 0 with
  | none => s
  | some device =>
      let bar0 := getBAR s.ports device 0
      let s := { s with
        NICinfo := { s.NICinfo with regBase := bar0.1.base.toUInt64 + HIGH_VMA }
        ports := bar0.2 }
      ((List.range 3).foldl macTurn (s, 0)).1

/-! ## What should hold -/

/-- The done bit. -/
def Done (value : UInt32) : Prop := value &&& (1 : UInt32) <<< 4 ≠ 0

instance : DecidablePred Done := fun _ => inferInstanceAs (Decidable (_ ≠ _))

/-- From the read `n` on, `k` is the first one that yields the bit. -/
def IsFirstDone (values : ℕ → UInt32) (n k : ℕ) : Prop := IsLeast {k | n ≤ k ∧ Done (values k)} k

/-- The upper half of a value. -/
def eepromWord (value : UInt32) : UInt32 := value >>> 16

/-- A call of `eepromRead` reads up to the first value with the bit, and returns the word in
that. -/
structure WordRead (regBase : UInt64) (e : EepromRegister) (addr : UInt8) (k : ℕ) : Prop where
  first : IsFirstDone e.values e.reads k
  returns : (eepromRead regBase e addr).1 = eepromWord (e.values k)
  polls : (eepromRead regBase e addr).2.reads = k + 1

/-- Between the two states the words 0, 1 and 2 have been requested; `k₀`, `k₁` and `k₂` are the
reads in which they are ready, and their bytes are stored. -/
structure MacRead (s s' : Ethernet) (k₀ k₁ k₂ : ℕ) : Prop where
  first : IsFirstDone s.eeprom.values s.eeprom.reads k₀
  second : IsFirstDone s.eeprom.values (k₀ + 1) k₁
  third : IsFirstDone s.eeprom.values (k₁ + 1) k₂
  mac : (List.range 6).map s'.NICinfo.mac = [k₀, k₁, k₂].flatMap fun k =>
    [(eepromWord (s.eeprom.values k)).toUInt8, (eepromWord (s.eeprom.values k) >>> 8).toUInt8]
  polls : s'.eeprom.reads = k₂ + 1
  requests : s'.eeprom.writes = s.eeprom.writes ++ [0, 1, 2].map (eepromRequest s'.NICinfo.regBase)

/-- `eepromRead` and `initEthernet` read the words when they are ready. -/
structure ReadsWhenReady (pciInfo : PciArray) (device : PciDevice) (s : Ethernet) : Prop where
  word : ∀ regBase addr, ∃ k, WordRead regBase s.eeprom addr k
  mac : ∃ k₀ k₁ k₂, MacRead s (initEthernet pciInfo device s) k₀ k₁ k₂

variable {regBase : UInt64} {e : EepromRegister} {addr : UInt8} {values : ℕ → UInt32} {n k i j : ℕ}
  {s : Ethernet} {pciInfo : PciArray} {device : PciDevice}

/-! ## One word -/

/-- **The loop ends after one read.** -/
lemma poll_eq (e : EepromRegister) :
    poll e = (e.values e.reads, { e with reads := e.reads + 1 }) := by
  rw [poll, if_neg (not_not.mpr (pollTest_eq_zero _))]

/-- The casts keep the upper half. -/
lemma toUInt32_upper (tmp : UInt32) :
    ((tmp >>> 16) &&& 0xffff).toUInt16.toUInt32 = eepromWord tmp := by
  have hlt := tmp.toNat_lt
  have hshift : (tmp >>> 16).toNat = tmp.toNat / 2 ^ 16 := by
    rw [UInt32.toNat_shiftRight, Nat.shiftRight_eq_div_pow]
    rfl
  have hmask : (0xffff : UInt32).toNat = 2 ^ 16 - 1 := rfl
  rw [eepromWord, ← UInt32.toNat_inj, UInt16.toNat_toUInt32, UInt32.toNat_toUInt16,
    UInt32.toNat_and, hmask, Nat.and_two_pow_sub_one_eq_mod, Nat.mod_mod, hshift]
  exact Nat.mod_eq_of_lt (Nat.div_lt_of_lt_mul (by omega))

/-- What a call does. -/
lemma eepromRead_eq (regBase : UInt64) (e : EepromRegister) (addr : UInt8) :
    eepromRead regBase e addr = (eepromWord (e.values e.reads),
      { e with reads := e.reads + 1, writes := e.writes ++ [eepromRequest regBase addr] }) := by
  rw [eepromRead, poll_eq]
  dsimp only
  rw [toUInt32_upper]

lemma isFirstDone_self (h : Done (values n)) : IsFirstDone values n n :=
  ⟨⟨le_refl n, h⟩, fun _ hk => hk.1⟩

/-- A call reads its word when it is ready exactly if the bit is set in the first read. -/
lemma wordRead_iff (regBase : UInt64) (e : EepromRegister) (addr : UInt8) :
    (∃ k, WordRead regBase e addr k) ↔ Done (e.values e.reads) := by
  constructor
  · rintro ⟨k, hk⟩
    have hpolls := hk.polls
    rw [eepromRead_eq] at hpolls
    obtain rfl : e.reads = k := Nat.succ.inj hpolls
    exact hk.first.1.2
  · intro hdone
    refine ⟨e.reads, isFirstDone_self hdone, ?_, ?_⟩ <;> rw [eepromRead_eq]

/-! ## The address -/

lemma exists_findEthernet (device : PciDevice) (hi : i < pciInfo.totalDevices)
    (hethernet : (pciInfo.pciDevices i).isEthernet) (hn : n ≤ i) :
    ∃ d, findEthernet pciInfo device n = some d := by
  induction hleft : i - n using Nat.strong_induction_on generalizing n with
  | _ left ih =>
      rw [findEthernet, if_pos (hn.trans_lt hi)]
      split_ifs with hfound hlast
      · exact ⟨_, rfl⟩
      · have hsame : n = i := by omega
        exact absurd hethernet (hsame ▸ hfound)
      · have hne : n ≠ i := fun heq => hfound (heq ▸ hethernet)
        exact ih (i - (n + 1)) (by omega) (by omega) rfl

/-- The word that is read in the turn `i`, if each turn reads the register once. -/
def wordInTurn (e : EepromRegister) (i : ℕ) : UInt32 := eepromWord (e.values (e.reads + i))

/-- After `n` turns: each one has requested a word, has read the register once, and has stored two
bytes. -/
structure MacTurns (regBase : UInt64) (e : EepromRegister) (n : ℕ) (turn : Ethernet × ℕ) :
    Prop where
  cnt : turn.2 = 2 * n
  base : turn.1.NICinfo.regBase = regBase
  values : turn.1.eeprom.values = e.values
  reads : turn.1.eeprom.reads = e.reads + n
  writes : turn.1.eeprom.writes = e.writes ++
    (List.range n).map fun i => eepromRequest regBase (UInt8.ofNat i)
  mac : ∀ i, i < n → turn.1.NICinfo.mac (2 * i) = (wordInTurn e i).toUInt8 ∧
    turn.1.NICinfo.mac (2 * i + 1) = (wordInTurn e i >>> 8).toUInt8

/-- **One turn.** -/
lemma MacTurns.next {turn : Ethernet × ℕ} (h : MacTurns regBase e n turn) :
    MacTurns regBase e (n + 1) (macTurn turn n) := by
  have hturn : macTurn turn n =
      ({ turn.1 with
          NICinfo.mac := Function.update (Function.update turn.1.NICinfo.mac (2 * n)
            (wordInTurn e n).toUInt8) (2 * n + 1) (wordInTurn e n >>> 8).toUInt8
          eeprom.reads := turn.1.eeprom.reads + 1
          eeprom.writes := turn.1.eeprom.writes ++
            [eepromRequest regBase (UInt8.ofNat n)] }, 2 * n + 2) := by
    rw [macTurn]
    dsimp only
    rw [eepromRead_eq, h.values, h.reads, h.base, h.cnt]
    rfl
  rw [hturn]
  constructor
  case cnt => rfl
  case base => exact h.base
  case values => exact h.values
  case reads => exact congrArg (· + 1) h.reads
  case writes =>
    dsimp only
    rw [h.writes, List.append_assoc, List.range_succ, List.map_append, List.map_singleton]
  case mac =>
    intro i hi
    dsimp only
    rcases Nat.lt_succ_iff_lt_or_eq.mp hi with hlt | rfl
    · rw [Function.update_of_ne (by omega), Function.update_of_ne (by omega),
        Function.update_of_ne (by omega), Function.update_of_ne (by omega)]
      exact h.mac i hlt
    · rw [Function.update_of_ne (by omega), Function.update_self, Function.update_self]
      exact ⟨rfl, rfl⟩

/-- **All turns.** -/
lemma macTurns_run (s : Ethernet) (n : ℕ) :
    MacTurns s.NICinfo.regBase s.eeprom n ((List.range n).foldl macTurn (s, 0)) := by
  induction n with
  | zero => exact ⟨rfl, rfl, rfl, rfl, (List.append_nil _).symm,
      fun i hi => absurd hi (Nat.not_lt_zero i)⟩
  | succ n ih =>
      rw [List.range_succ, List.foldl_append]
      exact ih.next

lemma map_range_two_mul {α : Type} (f : ℕ → α) (n : ℕ) :
    (List.range (2 * n)).map f = (List.range n).flatMap fun i => [f (2 * i), f (2 * i + 1)] := by
  induction n with
  | zero => rfl
  | succ n ih =>
      rw [Nat.mul_succ, List.range_succ, List.range_succ, List.map_append, List.map_append, ih,
        List.range_succ, List.flatMap_append, List.append_assoc]
      rfl

/-- The bytes that are stored. -/
lemma MacTurns.bytes {turn : Ethernet × ℕ} (h : MacTurns regBase e n turn) :
    (List.range (2 * n)).map turn.1.NICinfo.mac =
      (List.range n).flatMap fun i =>
        [(wordInTurn e i).toUInt8, (wordInTurn e i >>> 8).toUInt8] := by
  rw [map_range_two_mul]
  refine List.flatMap_congr fun i hi => ?_
  obtain ⟨hlow, hhigh⟩ := h.mac i (List.mem_range.mp hi)
  rw [hlow, hhigh]

/-- The state in which the turns begin. -/
def Ethernet.found (s : Ethernet) (device : PciDevice) : Ethernet :=
  { s with
    NICinfo.regBase := (getBAR s.ports device 0).1.base.toUInt64 + HIGH_VMA
    ports := (getBAR s.ports device 0).2 }

lemma initEthernet_found {d : PciDevice} (h : findEthernet pciInfo device 0 = some d)
    (s : Ethernet) :
    initEthernet pciInfo device s = ((List.range 3).foldl macTurn (s.found d, 0)).1 := by
  rw [initEthernet, h]
  rfl

lemma Ethernet.found_eeprom (s : Ethernet) (device : PciDevice) :
    (s.found device).eeprom = s.eeprom := by
  rw [Ethernet.found]

/-- What `initEthernet` does if there is an adapter. -/
lemma initEthernet_turns (device : PciDevice) (s : Ethernet)
    (h : ∃ i < pciInfo.totalDevices, (pciInfo.pciDevices i).isEthernet) :
    ∃ regBase turn, initEthernet pciInfo device s = turn.1 ∧ MacTurns regBase s.eeprom 3 turn := by
  obtain ⟨i, hi, hethernet⟩ := h
  obtain ⟨d, hd⟩ := exists_findEthernet device hi hethernet (Nat.zero_le i)
  have hturns := macTurns_run (s.found d) 3
  rw [Ethernet.found_eeprom] at hturns
  exact ⟨_, _, initEthernet_found hd s, hturns⟩

/-- **EEPROM words are read only when ready** exactly if the bit is set in the first read after each
request. -/
theorem readsWhenReady_iff (pciInfo : PciArray) (device : PciDevice) (s : Ethernet)
    (h : ∃ i < pciInfo.totalDevices, (pciInfo.pciDevices i).isEthernet) :
    ReadsWhenReady pciInfo device s ↔ Done (s.eeprom.values s.eeprom.reads) ∧
      Done (s.eeprom.values (s.eeprom.reads + 1)) ∧
        Done (s.eeprom.values (s.eeprom.reads + 2)) := by
  obtain ⟨regBase, turn, hinit, hturns⟩ := initEthernet_turns device s h
  have hreads : turn.1.eeprom.reads = s.eeprom.reads + 3 := hturns.reads
  constructor
  · rintro ⟨_, k₀, k₁, k₂, hmac⟩
    have hpolls := hmac.polls
    rw [hinit, hreads] at hpolls
    obtain ⟨⟨hle₀, hdone₀⟩, _⟩ := hmac.first
    obtain ⟨⟨hle₁, hdone₁⟩, _⟩ := hmac.second
    obtain ⟨⟨hle₂, hdone₂⟩, _⟩ := hmac.third
    obtain rfl : k₀ = s.eeprom.reads := by omega
    obtain rfl : k₁ = s.eeprom.reads + 1 := by omega
    obtain rfl : k₂ = s.eeprom.reads + 2 := by omega
    exact ⟨hdone₀, hdone₁, hdone₂⟩
  · rintro ⟨hdone₀, hdone₁, hdone₂⟩
    refine ⟨fun _ addr => (wordRead_iff _ s.eeprom addr).mpr hdone₀,
      s.eeprom.reads, s.eeprom.reads + 1, s.eeprom.reads + 2, ?_⟩
    rw [hinit]
    constructor
    case first => exact isFirstDone_self hdone₀
    case second => exact isFirstDone_self hdone₁
    case third => exact isFirstDone_self hdone₂
    case mac => exact hturns.bytes
    case polls => exact hreads
    case requests =>
      rw [hturns.writes, hturns.base]
      rfl

/-- One device, which is an adapter. -/
def oneAdapter : PciArray where
  pciDevices _ := ⟨2, 0, 0, 0x100e, 0x8086, 0, 3, 0⟩
  totalDevices := 1
  maxSize := 10

/-- An adapter whose registers are at `0xfebc0000`. -/
def adapter (values : ℕ → UInt32) : Ethernet where
  NICinfo := ⟨fun _ => 0, 0⟩
  ports := ⟨0, fun _ => 0xfebc0000, fun _ => 0xfffe0000⟩
  eeprom := ⟨values, 0, []⟩

lemma oneAdapter_found : ∃ i < oneAdapter.totalDevices, (oneAdapter.pciDevices i).isEthernet :=
  ⟨0, by decide, by decide⟩

/-- What the variable may hold before. -/
def noDevice : PciDevice := ⟨0, 0, 0, 0, 0, 0, 0, 0⟩

/-- An EEPROM that is always ready. -/
theorem readsWhenReady_atOnce : ReadsWhenReady oneAdapter noDevice (adapter fun _ => 0x12345610) :=
  (readsWhenReady_iff oneAdapter noDevice (adapter fun _ => 0x12345610) oneAdapter_found).mpr
    ⟨by decide, by decide, by decide⟩

/-- An EEPROM that is not ready in the first read, but always from then on: the first word is taken
for 0. -/
def lateValues (n : ℕ) : UInt32 := if n = 0 then 0 else 0x12345610

lemma initEthernet_late : (List.range 6).map (initEthernet oneAdapter noDevice
    (adapter lateValues)).NICinfo.mac = [0, 0, 0x34, 0x12, 0x34, 0x12] := by
  obtain ⟨regBase, turn, hinit, hturns⟩ :=
    initEthernet_turns noDevice (adapter lateValues) oneAdapter_found
  rw [hinit]
  exact hturns.bytes.trans (by decide)

theorem readsWhenReady_late : (∀ n, ∃ k, n ≤ k ∧ Done (lateValues k)) ∧
    (List.range 6).map (initEthernet oneAdapter noDevice (adapter lateValues)).NICinfo.mac =
      [0, 0, 0x34, 0x12, 0x34, 0x12] ∧
    ¬ ReadsWhenReady oneAdapter noDevice (adapter lateValues) := by
  refine ⟨fun n => ⟨n + 1, Nat.le_succ n, ?_⟩, initEthernet_late, fun h => ?_⟩
  · rw [lateValues, if_neg (Nat.succ_ne_zero n)]
    decide
  · have hdone := (wordRead_iff 0 (adapter lateValues).eeprom 0).mp (h.word 0 0)
    exact absurd hdone (by decide)

end Seaweed
