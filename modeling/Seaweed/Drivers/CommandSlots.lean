import Seaweed.Drivers.Ahci

/-!
# The slots of a port (`sataRW` and `initSATAdevice` in `kernel/drivers/ahci.c`)

`sataRW` clears a command header before it fills one, but it has not moved on to its slot by then:
what it clears is header 0.

* `PortMemory` — the list of headers, and the command tables apart from it.
* `OwnSlot` — a command keeps to its slot.
* `initSATAdevice_ownSlot` — the command that identifies a drive does.
* **`sataRW_ownSlot_iff`** — one that transfers sectors does exactly if header 0 is clear already.
-/

namespace Seaweed

open Memory Records Words

/-! ## The list of headers -/

/-- Where the list starts. -/
def commandList (port : HbaPort) : UInt64 := port.clb.toUInt64 + HIGH_VMA

/-- The command table of slot `i`. -/
def commandTable (port : HbaPort) (mem : Mem) (i : UInt32) : UInt64 :=
  (ctba mem (hbaCMDhdr port i)).toUInt64 + HIGH_VMA

/-- The command tables are apart from the list, and from each other. -/
structure PortMemory (port : HbaPort) (mem : Mem) : Prop where
  list : ∀ i, i < 32 → Apart (commandTable port mem i) sizeofCommandTable (commandList port)
    (32 * sizeofCMDhdr)
  distinct : ∀ i j, i < 32 → j < 32 → i ≠ j → Apart (commandTable port mem i) sizeofCommandTable
    (commandTable port mem j) sizeofCommandTable

/-- A command keeps to its slot: the addresses of the tables stay, so do the other headers, and the
command is in the table that the slot has had. -/
structure OwnSlot (port : HbaPort) (mem : Mem) (s : SataCommand) (p : Prdt) (f : FisH2D) :
    Prop where
  tables : ∀ i, i < 32 → ctba s.mem (hbaCMDhdr port i) = ctba mem (hbaCMDhdr port i) ∧
    ctbau s.mem (hbaCMDhdr port i) = ctbau mem (hbaCMDhdr port i)
  others : ∀ i, i < 32 → i ≠ findCMD port → ∀ k, k < sizeofCMDhdr →
    s.mem (hbaCMDhdr port i + UInt64.ofNat k) = mem (hbaCMDhdr port i + UInt64.ofNat k)
  table : s.cmdtbl = commandTable port mem (findCMD port)
  fis : loadFis s.mem s.cmdtbl = f
  prdt : loadPrdt s.mem (s.cmdtbl + 128) = p

/-- Clearing header 0 does no harm: it has no table in slot 0, or nothing at all. -/
def HeaderClear (port : HbaPort) (mem : Mem) : Prop :=
  if findCMD port = 0 then ctba mem (commandList port) = 0 ∧ ctbau mem (commandList port) = 0
  else ∀ k, k < sizeofCMDhdr → mem (commandList port + UInt64.ofNat k) = 0

variable {mem m : Mem} {a x cmdtbl : UInt64} {w : Bool} {f : FisH2D} {p : Prdt} {port : HbaPort}
  {i : UInt32}

lemma findCMD_lt (port : HbaPort) : (findCMD port).toNat < 32 := by
  rw [findCMD]
  split_ifs with h
  · rw [UInt32.toNat_ofNat']
    omega
  · decide

lemma hbaCMDhdr_eq (port : HbaPort) (i : UInt32) :
    hbaCMDhdr port i = commandList port + UInt64.ofNat (32 * i.toNat) := by
  have hindex : i.toUInt64 = UInt64.ofNat i.toNat := by
    rw [← UInt64.toNat_inj, UInt32.toNat_toUInt64, toNat_ofNat_of_lt (by
      have := i.toNat_lt
      omega)]
  rw [hbaCMDhdr, hindex, ← UInt64.ofNat_mul, commandList, sizeofCMDhdr]

/-- Byte `k` of a header, in the list. -/
lemma hbaCMDhdr_add (port : HbaPort) (i : UInt32) (k : ℕ) :
    hbaCMDhdr port i + UInt64.ofNat k = commandList port + UInt64.ofNat (32 * i.toNat + k) := by
  rw [hbaCMDhdr_eq, UInt64.add_assoc, ← UInt64.ofNat_add]

/-- A header whose bytes are the same has the same table. -/
lemma ctba_congr {mem' : Mem} {b : UInt64}
    (h : ∀ k, 8 ≤ k → k < 16 → mem (a + UInt64.ofNat k) = mem' (b + UInt64.ofNat k)) :
    ctba mem a = ctba mem' b ∧ ctbau mem a = ctbau mem' b := by
  have hload : ∀ i : ℕ, 8 ≤ i → i ≤ 12 →
      load mem (a + UInt64.ofNat i) 4 = load mem' (b + UInt64.ofNat i) 4 :=
    fun i hge hle => load_congr fun j hj => by
      rw [UInt64.add_assoc, UInt64.add_assoc, ← UInt64.ofNat_add]
      exact h (i + j) (by omega) (by omega)
  exact ⟨congrArg UInt32.ofNat (hload 8 (by omega) (by omega)),
    congrArg UInt32.ofNat (hload 12 (by omega) (by omega))⟩

/-! ## What is written -/

lemma fillHeader_outside {hdr : UInt64} (h : 4 ≤ (x - hdr).toNat) :
    fillHeader mem hdr w x = mem x := by
  have htwo : 2 ≤ (x - (hdr + UInt64.ofNat 2)).toNat := by
    rw [toNat_sub_add_ofNat (by omega)]
    omega
  have hone : ∀ b : UInt8, [b].length ≤ (x - hdr).toNat := fun b => by
    rw [List.length_singleton]
    omega
  rw [fillHeader]
  refine (store_outside htwo).trans ?_
  rw [storeBytes_outside (hone _), storeBytes_outside (hone _)]

lemma storePrdt_outside (h : 16 ≤ (x - a).toNat) : storePrdt mem a p x = mem x := by
  have h4 : (4 : UInt64) = UInt64.ofNat 4 := rfl
  have h12 : (12 : UInt64) = UInt64.ofNat 12 := rfl
  rw [storePrdt, h4, h12]
  rw [store_outside (by rw [toNat_sub_add_ofNat (by omega)]; omega),
    store_outside (by rw [toNat_sub_add_ofNat (by omega)]; omega), store_outside (by omega)]

lemma storeCommand_outside (h : sizeofCommandTable ≤ (x - cmdtbl).toNat) :
    storeCommand mem cmdtbl p f x = mem x := by
  have h128 : (128 : UInt64) = UInt64.ofNat 128 := rfl
  rw [sizeofCommandTable] at h
  rw [storeCommand, storeBytes_outside (by rw [length_fisBytes]; omega), h128,
    storePrdt_outside (by rw [toNat_sub_add_ofNat (by omega)]; omega),
    storeBytes_outside (by rw [List.length_replicate, sizeofCommandTable]; omega)]

/-- The header of slot `i` is filled in the first four bytes. -/
lemma fillHeader_list {k : ℕ} (hi : i < 32) (hk : k < 1024)
    (hout : k < 32 * i.toNat ∨ 32 * i.toNat + 4 ≤ k) :
    fillHeader mem (hbaCMDhdr port i) w (commandList port + UInt64.ofNat k)
      = mem (commandList port + UInt64.ofNat k) := by
  have hlt : i.toNat < 32 := hi
  refine fillHeader_outside ?_
  have happ := apart_offsets (n := 4) (k := 1) (commandList port) (i := 32 * i.toNat) (j := k)
    (by omega) (by omega) (by omega) 0 (by omega)
  rw [hbaCMDhdr_eq]
  simpa using happ

/-- The address of the table is behind that. -/
lemma ctba_fillHeader (hi : i < 32) :
    ctba (fillHeader mem (hbaCMDhdr port i) w) (hbaCMDhdr port i) =
      ctba mem (hbaCMDhdr port i) := by
  have hlt : i.toNat < 32 := hi
  refine (ctba_congr fun k hge hlt => ?_).1
  rw [hbaCMDhdr_add]
  exact fillHeader_list hi (by omega) (by omega)

/-- **The list after a command**: only the first bytes of the header are written. -/
lemma command_list {cmdtbl : UInt64} {k : ℕ} (hi : i < 32)
    (happ : Apart cmdtbl sizeofCommandTable (commandList port) (32 * sizeofCMDhdr)) (hk : k < 1024)
    (hout : k < 32 * i.toNat ∨ 32 * i.toNat + 4 ≤ k) :
    storeCommand (fillHeader m (hbaCMDhdr port i) w) cmdtbl p f (commandList port + UInt64.ofNat k)
      = m (commandList port + UInt64.ofNat k) :=
  (storeCommand_outside (happ k hk)).trans (fillHeader_list hi hk hout)

/-- The command that is built in slot `findCMD port` when memory is `m`. -/
def commandFrom (port : HbaPort) (m : Mem) (w : Bool) (p : Prdt) (f : FisH2D) : SataCommand :=
  let hdr := hbaCMDhdr port (findCMD port)
  let mem := fillHeader m hdr w
  let cmdtbl := (ctba mem hdr).toUInt64 + HIGH_VMA
  ⟨sendCommand port (findCMD port), storeCommand mem cmdtbl p f, cmdtbl⟩

lemma cmdtbl_commandFrom :
    (commandFrom port m w p f).cmdtbl = commandTable port m (findCMD port) := by
  simp only [commandFrom, ctba_fillHeader (findCMD_lt port), commandTable]

/-- What the code of the two functions has in common keeps to the slot, when the memory is as it was
in the other headers and where the address of the table is. -/
lemma ownSlot_commandFrom (h : PortMemory port mem) (hport : f.pmport = 0)
    (hothers : ∀ k, k < 1024 → k / 32 ≠ (findCMD port).toNat →
      m (commandList port + UInt64.ofNat k) = mem (commandList port + UInt64.ofNat k))
    (htable : ctba m (hbaCMDhdr port (findCMD port)) = ctba mem (hbaCMDhdr port (findCMD port)) ∧
      ctbau m (hbaCMDhdr port (findCMD port)) = ctbau mem (hbaCMDhdr port (findCMD port))) :
    OwnSlot port mem (commandFrom port m w p f)
      { p with dbc := UInt32.ofNat (p.dbc.toNat % 2 ^ 22) } f := by
  have hslot := findCMD_lt port
  have hcmdtbl : (commandFrom port m w p f).cmdtbl = commandTable port mem (findCMD port) := by
    rw [cmdtbl_commandFrom, commandTable, htable.1, commandTable]
  have happ := h.list (findCMD port) hslot
  rw [← hcmdtbl] at happ
  have hbyte : ∀ k, k < 1024 → (k < 32 * (findCMD port).toNat ∨ 32 * (findCMD port).toNat + 4 ≤ k) →
      (commandFrom port m w p f).mem (commandList port + UInt64.ofNat k)
        = m (commandList port + UInt64.ofNat k) :=
    fun k hk hout => command_list hslot happ hk hout
  have hother : ∀ i, i < 32 → i ≠ findCMD port → ∀ k, k < sizeofCMDhdr →
      (commandFrom port m w p f).mem (hbaCMDhdr port i + UInt64.ofNat k)
        = mem (hbaCMDhdr port i + UInt64.ofNat k) := by
    intro i hi hne k hk
    have hlt : i.toNat < 32 := hi
    have hk32 : k < 32 := hk
    have hne' : i.toNat ≠ (findCMD port).toNat := mt UInt32.toNat_inj.mp hne
    rw [hbaCMDhdr_add, hbyte _ (by omega) (by omega)]
    exact hothers _ (by omega) (by omega)
  refine ⟨fun i hi => ?_, hother, hcmdtbl, (load_storeCommand hport).1, (load_storeCommand hport).2⟩
  rcases eq_or_ne i (findCMD port) with rfl | hne
  · refine ⟨Eq.trans (ctba_congr fun k hge hlt => ?_).1 htable.1,
      Eq.trans (ctba_congr fun k hge hlt => ?_).2 htable.2⟩ <;>
    · rw [hbaCMDhdr_add]
      exact hbyte _ (by omega) (by omega)
  · exact ctba_congr fun k hge hlt => hother i hi hne k (by rw [sizeofCMDhdr]; omega)

/-- **The command that identifies a drive keeps to its slot.** -/
theorem initSATAdevice_ownSlot (h : PortMemory port mem) (identify : UInt64) :
    OwnSlot port mem (initSATAdevice port mem identify)
      { dba := identify.toUInt32, dbc := 511, i := true }
      { fisType := FIS_REG_H2D, c := true, command := 0xec, device := 0 } :=
  ownSlot_commandFrom h rfl (fun _ _ _ => rfl) ⟨rfl, rfl⟩

/-- The memory after header 0 has been cleared. -/
def clearedList (port : HbaPort) (mem : Mem) : Mem :=
  storeBytes mem (commandList port) (List.replicate sizeofCMDhdr 0)

lemma clearedList_byte {k : ℕ} (hk : k < 1024) :
    clearedList port mem (commandList port + UInt64.ofNat k)
      = if k < 32 then 0 else mem (commandList port + UInt64.ofNat k) := by
  rw [clearedList]
  split_ifs with hlow
  · refine storeBytes_inside (by omega) ?_
    rw [List.getElem?_replicate, sizeofCMDhdr, if_pos hlow]
  · refine storeBytes_outside ?_
    rw [List.length_replicate, toNat_add_ofNat_sub _ (by omega), sizeofCMDhdr]
    omega

lemma sataRW_eq (port : HbaPort) (mem : Mem) (start : UInt64) (count : UInt32) (buffer : UInt64)
    (w : Bool) : sataRW port mem start count buffer w
      = commandFrom port (clearedList port mem) w (sataPrdt count buffer) (sataFis start count w) :=
        rfl

/-- A cleared header has no table. -/
lemma ctba_cleared : ctba (clearedList port mem) (commandList port) = 0 ∧
    ctbau (clearedList port mem) (commandList port) = 0 := by
  have hzero : ctba (clearedList port mem) (commandList port) = ctba (fun _ => 0) 0 ∧
      ctbau (clearedList port mem) (commandList port) = ctbau (fun _ => 0) 0 :=
    ctba_congr fun k _ hlt => by rw [clearedList_byte (by omega), if_pos (by omega)]
  exact ⟨hzero.1.trans rfl, hzero.2.trans rfl⟩

lemma hbaCMDhdr_zero (port : HbaPort) : hbaCMDhdr port 0 = commandList port := UInt64.add_zero _

/-- Clearing header 0 in vain. -/
lemma HeaderClear.ownSlot (hclear : HeaderClear port mem) (h : PortMemory port mem)
    (hport : f.pmport = 0) : OwnSlot port mem (commandFrom port (clearedList port mem) w p f)
      { p with dbc := UInt32.ofNat (p.dbc.toNat % 2 ^ 22) } f := by
  rw [HeaderClear] at hclear
  split_ifs at hclear with hzero
  · refine ownSlot_commandFrom h hport (fun k hk hne => ?_) ?_
    · rw [hzero] at hne
      have hne' : k / 32 ≠ 0 := hne
      rw [clearedList_byte hk, if_neg (by omega)]
    · rw [hzero, hbaCMDhdr_zero, hclear.1, hclear.2]
      exact ctba_cleared
  · have hsame : ∀ k, k < 1024 → clearedList port mem (commandList port + UInt64.ofNat k)
        = mem (commandList port + UInt64.ofNat k) := by
      intro k hk
      rw [clearedList_byte hk]
      split_ifs with hlow
      · exact (hclear k hlow).symm
      · rfl
    have hslot := findCMD_lt port
    refine ownSlot_commandFrom h hport (fun k hk _ => hsame k hk) (ctba_congr fun k _ hlt => ?_)
    rw [hbaCMDhdr_add]
    exact hsame _ (by omega)

/-- Otherwise something is lost: the table of slot 0, or what header 0 has had. -/
lemma OwnSlot.headerClear {p' : Prdt} {f' : FisH2D}
    (hown : OwnSlot port mem (commandFrom port (clearedList port mem) w p f) p' f')
    (h : PortMemory port mem) : HeaderClear port mem := by
  have hslot := findCMD_lt port
  have happ := h.list (findCMD port) hslot
  rw [← hown.table] at happ
  rw [HeaderClear]
  split_ifs with hzero
  · have htable := hown.table
    rw [cmdtbl_commandFrom, hzero, commandTable, commandTable, hbaCMDhdr_zero, ctba_cleared.1]
      at htable
    have hctba : ctba mem (commandList port) = 0 :=
      (UInt32.toUInt64_inj.mp ((UInt64.add_left_inj _).mp htable)).symm
    refine ⟨hctba, ?_⟩
    have hkept := (hown.tables 0 (by decide)).2
    rw [hbaCMDhdr_zero] at hkept
    have hcleared : ctbau (clearedList port mem) (commandList port) = 0 := ctba_cleared.2
    rw [← hkept, ← hcleared]
    refine (ctba_congr fun k hge hlt => ?_).2
    exact command_list hslot happ (by omega) (Or.inr (by rw [hzero, UInt32.toNat_zero]; omega))
  · intro k hk
    have hk32 : k < 32 := hk
    have hkept := hown.others 0 (by decide) (Ne.symm hzero) k hk
    have hpos := mt UInt32.toNat_inj.mp hzero
    rw [UInt32.toNat_zero] at hpos
    rw [hbaCMDhdr_zero] at hkept
    rw [← hkept]
    refine (command_list hslot happ (by omega) (by omega)).trans ?_
    rw [clearedList_byte (by omega), if_pos hk32]

/-- **A command keeps to its slot exactly if header 0 is clear already.** -/
theorem sataRW_ownSlot_iff (port : HbaPort) (mem : Mem) (h : PortMemory port mem) (start : UInt64)
    (count : UInt32) (buffer : UInt64) (w : Bool) :
    OwnSlot port mem (sataRW port mem start count buffer w)
        { sataPrdt count buffer with
          dbc := UInt32.ofNat ((sataPrdt count buffer).dbc.toNat % 2 ^ 22) }
        (sataFis start count w) ↔ HeaderClear port mem := by
  rw [sataRW_eq]
  exact ⟨fun hown => hown.headerClear h, fun hclear => hclear.ownSlot h rfl⟩

/-- Headers at `0x8000`, with tables from `0x10000` on that are `0x100` bytes apart. -/
def listMemory : Mem := fun x =>
  let k := (x - commandList idlePort).toNat
  if 1024 ≤ k then 0
  else if k % 32 = 9 then UInt8.ofNat (k / 32)
  else if k % 32 = 10 then 1
  else 0

lemma listMemory_byte {k : ℕ} (hi : i < 32) (hk : k < 32) :
    (listMemory (hbaCMDhdr idlePort i + UInt64.ofNat k)).toNat
      = if k = 9 then i.toNat else if k = 10 then 1 else 0 := by
  have hlt : i.toNat < 32 := hi
  rw [hbaCMDhdr_add, listMemory]
  simp only [toNat_add_ofNat_sub (commandList idlePort) (show 32 * i.toNat + k < 2 ^ 64 by omega)]
  rw [if_neg (by omega), Nat.mul_add_mod, Nat.mod_eq_of_lt hk]
  split_ifs
  · rw [UInt8.toNat_ofNat']
    omega
  · rfl
  · rfl

lemma commandTable_listMemory (hi : i < 32) :
    commandTable idlePort listMemory i = HIGH_VMA + UInt64.ofNat (0x10000 + 0x100 * i.toNat) := by
  have hlt : i.toNat < 32 := hi
  have h8 : (listMemory (hbaCMDhdr idlePort i + 8)).toNat = 0 :=
    listMemory_byte (k := 8) hi (by omega)
  have h9 : (listMemory (hbaCMDhdr idlePort i + 9)).toNat = i.toNat :=
    listMemory_byte (k := 9) hi (by omega)
  have h10 : (listMemory (hbaCMDhdr idlePort i + 10)).toNat = 1 :=
    listMemory_byte (k := 10) hi (by omega)
  have h11 : (listMemory (hbaCMDhdr idlePort i + 11)).toNat = 0 :=
    listMemory_byte (k := 11) hi (by omega)
  have hload : load listMemory (hbaCMDhdr idlePort i + 8) 4 = 0x10000 + 0x100 * i.toNat := by
    simp only [load, UInt64.add_assoc, UInt64.reduceAdd, h8, h9, h10, h11]
    omega
  rw [commandTable, ctba, hload, UInt64.add_comm, ← UInt64.toNat_inj, UInt64.toNat_add,
    UInt64.toNat_add, UInt32.toNat_toUInt64, UInt32.toNat_ofNat', toNat_ofNat_of_lt (by omega),
    Nat.mod_eq_of_lt (show 0x10000 + 0x100 * i.toNat < 2 ^ 32 by omega)]

lemma portMemory_list : PortMemory idlePort listMemory := by
  have hlist : commandList idlePort = HIGH_VMA + UInt64.ofNat 0x8000 := rfl
  refine ⟨fun i hi => ?_, fun i j hi hj hne => ?_⟩
  · have hlt : i.toNat < 32 := hi
    rw [commandTable_listMemory hi, hlist]
    exact apart_offsets _ (by rw [sizeofCommandTable]; omega) (by rw [sizeofCMDhdr]; omega)
      (by rw [sizeofCMDhdr]; omega)
  · have hlt : i.toNat < 32 := hi
    have hlt' : j.toNat < 32 := hj
    have hne' := mt UInt32.toNat_inj.mp hne
    rw [commandTable_listMemory hi, commandTable_listMemory hj]
    exact apart_offsets _ (by rw [sizeofCommandTable]; omega) (by rw [sizeofCommandTable]; omega)
      (by rw [sizeofCommandTable]; omega)

theorem sataRW_ownSlot_list :
    OwnSlot idlePort listMemory (sataRW idlePort listMemory 0x4000 1 (HIGH_VMA + 0x200000) false)
        { sataPrdt 1 (HIGH_VMA + 0x200000) with
          dbc := UInt32.ofNat ((sataPrdt 1 (HIGH_VMA + 0x200000)).dbc.toNat % 2 ^ 22) }
        (sataFis 0x4000 1 false) ↔ HeaderClear idlePort listMemory :=
  sataRW_ownSlot_iff idlePort listMemory portMemory_list 0x4000 1 (HIGH_VMA + 0x200000) false

/-- Slot 0 is free, and loses its table at `0x10000`; the command is at physical address 0. -/
theorem sataRW_slot0 :
    (∃ i, i < 32 ∧ (idlePort.sact ||| idlePort.ci) &&& ((1 : UInt32) <<< UInt32.ofNat i) = 0) ∧
      PortMemory idlePort listMemory ∧
      (sataRW idlePort listMemory 0x4000 1 (HIGH_VMA + 0x200000) false).cmdtbl = HIGH_VMA ∧
      ¬OwnSlot idlePort listMemory
        (sataRW idlePort listMemory 0x4000 1 (HIGH_VMA + 0x200000) false)
        { sataPrdt 1 (HIGH_VMA + 0x200000) with
          dbc := UInt32.ofNat ((sataPrdt 1 (HIGH_VMA + 0x200000)).dbc.toNat % 2 ^ 22) }
        (sataFis 0x4000 1 false) := by
  refine ⟨⟨0, by decide⟩, portMemory_list, by decide +kernel, fun h => ?_⟩
  rw [sataRW_eq] at h
  have hclear := h.headerClear portMemory_list
  rw [HeaderClear, if_pos (by decide)] at hclear
  exact absurd hclear.1 (by decide +kernel)

end Seaweed
