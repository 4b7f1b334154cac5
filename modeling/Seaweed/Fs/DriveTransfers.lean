import Seaweed.Drivers.CommandSlots
import Seaweed.Fs.MountReads

/-!
# The file system on the driver

The loops of the file system transfer one sector a turn, and what a turn does is said there without
any command: the drive has done what it was asked for.  Here it is asked with the command that
`sataRW` builds, and drive and controller do what they read in the command table.

A port that has nothing to do is given slot 0, whose header is cleared first, so the command table
is at physical address 0.  The bytes there and the list of headers are the driver's.

* `performCommand` — what a command table asks for.
* `driverRW`, `driverTransfers` — a call of the driver, and a loop of them.
* `driverBytes`, `Refines` — the memory of the driver, and the same file system outside of it.
* **`driverRW_refines`** — a call is a turn of the loops.
* **`driverTransfers_refines`**, `driverFile_refines` — so a loop is a loop, and a file is a file.
-/

namespace Seaweed

open FirstFit Memory Records Sectors Words

/-! ## The drive -/

/-- `none` is a table that does not ask for whole sectors, or for something else than sectors. -/
def performCommand (mem : Mem) (disk : Disk) (cmdtbl : UInt64) : Option (Mem × Disk) :=
  let fis := loadFis mem cmdtbl
  let prdt := loadPrdt mem (cmdtbl + 128)
  let sector := fun i => UInt64.ofNat (fis.lba + i)
  let buffer := UInt64.ofNat (prdt.dba.toNat + 2 ^ 32 * prdt.dbau.toNat) + HIGH_VMA
  if prdt.dbc.toNat + 1 ≠ 0x200 * fis.count then none
  else if fis.command = 0x25 then
    some (readSectors 0x200 disk sector buffer mem fis.count, disk)
  else if fis.command = 0x35 then
    some (mem, writeSectors 0x200 mem sector buffer disk fis.count)
  else none

/-- The registers when `sendCommand` returns. -/
def commandDone (port : HbaPort) (CMDslot : UInt32) : HbaPort :=
  { port with
    cmd := (port.cmd &&& ~~~HBA_CMD_ST) &&& ~~~HBA_CMD_FRE
    ci := port.ci &&& ~~~((1 : UInt32) <<< CMDslot) }

/-- The file system, and the port of its drive. -/
structure DrivenGfs where
  gfs : Gfs
  port : HbaPort

def driverRW (s : DrivenGfs) (start : UInt64) (count : UInt32) (buffer : UInt64) (w : Bool) :
    Option DrivenGfs :=
  let c := sataRW s.port s.gfs.mem start count buffer w
  (performCommand c.mem s.gfs.disk c.cmdtbl).map fun r =>
    { gfs := { s.gfs with mem := r.1, disk := r.2 }
      port := commandDone c.port (findCMD s.port) }

/-- `n` turns of a loop that transfers sectors. -/
def driverTransfers (sector : Gfs → UInt64 → UInt64) (buffer start : UInt64) (w : Bool)
    (s : DrivenGfs) : ℕ → Option DrivenGfs
  | 0 => some s
  | n + 1 => do
      let s ← driverTransfers sector buffer start w s n
      let i := start + UInt64.ofNat n
      driverRW s (sector s.gfs i) 1 (buffer + (i - start) * 0x200) w

variable {s s' : DrivenGfs} {g g' : Gfs} {port : HbaPort} {mem : Mem} {c : SataCommand}
  {sector : Gfs → UInt64 → UInt64} {start buffer x : UInt64} {count : UInt32} {w : Bool}
  {fileName : CString} {n k : ℕ}

/-- **A command that encodes a transfer is that transfer.** -/
theorem Encodes.performCommand_eq (h : Encodes c start count buffer w) (disk : Disk) :
    performCommand c.mem disk c.cmdtbl = some (if w then
      (c.mem, writeSectors 0x200 c.mem (fun i => start + UInt64.ofNat i) buffer disk count.toNat)
      else (readSectors 0x200 disk (fun i => start + UInt64.ofNat i) buffer c.mem count.toNat,
        disk)) := by
  have hplace : UInt64.ofNat ((loadPrdt c.mem (c.cmdtbl + 128)).dba.toNat
      + 2 ^ 32 * (loadPrdt c.mem (c.cmdtbl + 128)).dbau.toNat) + HIGH_VMA = buffer := by
    rw [h.address, UInt64.ofNat_toNat, UInt64.sub_add_cancel]
  have hsector : ∀ i, UInt64.ofNat (start.toNat + i) = start + UInt64.ofNat i := fun i => by
    rw [UInt64.ofNat_add, UInt64.ofNat_toNat]
  simp only [performCommand, hplace, h.lba, hsector, h.sectors, h.bytes, h.command]
  cases w <;> simp

/-! ## The driver's memory -/

/-- The port has nothing to do. -/
structure Idle (port : HbaPort) : Prop where
  sact : port.sact = 0
  ci : port.ci = 0

/-- The list of headers, and the command table of a header that has been cleared. -/
def driverBytes (port : HbaPort) : Set UInt64 :=
  { x | (x - commandList port).toNat < 32 * sizeofCMDhdr ∨
    (x - HIGH_VMA).toNat < sizeofCommandTable }

lemma driverBytes_congr {port' : HbaPort} (h : port'.clb = port.clb) :
    driverBytes port' = driverBytes port := by
  rw [driverBytes, driverBytes, commandList, commandList, h]

lemma Idle.findCMD_eq (h : Idle port) : findCMD port = 0 := by
  simp only [findCMD, freeCMD, h.sact, h.ci]
  rfl

/-- It has nothing to do again when the command is done. -/
lemma Idle.commandDone (h : Idle port) :
    Idle (commandDone (sendCommand port (findCMD port)) (findCMD port)) := by
  refine ⟨h.sact, ?_⟩
  simp [Seaweed.commandDone, sendCommand]

/-- The command table is at physical address 0. -/
lemma Idle.cmdtbl_eq (h : Idle port) (mem : Mem) (start : UInt64) (count : UInt32) (buffer : UInt64)
    (w : Bool) : (sataRW port mem start count buffer w).cmdtbl = HIGH_VMA := by
  rw [sataRW_eq, cmdtbl_commandFrom, h.findCMD_eq, commandTable, hbaCMDhdr_zero, ctba_cleared.1]
  rfl

/-- **A command changes nothing but the driver's memory.** -/
lemma Idle.eqOn_sataRW (h : Idle port) (mem : Mem) (start : UInt64) (count : UInt32)
    (buffer : UInt64) (w : Bool) :
    Set.EqOn (sataRW port mem start count buffer w).mem mem (driverBytes port)ᶜ := by
  intro x hx
  have hcmdtbl := h.cmdtbl_eq mem start count buffer w
  obtain ⟨hlist, htable⟩ := not_or.mp hx
  rw [Nat.not_lt] at hlist htable
  rw [sizeofCMDhdr] at hlist
  rw [sataRW_eq] at hcmdtbl ⊢
  simp only [commandFrom] at hcmdtbl ⊢
  rw [hcmdtbl, storeCommand_outside htable, h.findCMD_eq, hbaCMDhdr_zero,
    fillHeader_outside (by omega), clearedList,
    storeBytes_outside (by rw [List.length_replicate, sizeofCMDhdr]; omega)]

/-! ## The same file system -/

/-- The driver's machine shows the file system, if nobody looks at the driver's memory. -/
structure Refines (s : DrivenGfs) (g : Gfs) : Prop where
  idle : Idle s.port
  mem : Set.EqOn s.gfs.mem g.mem (driverBytes s.port)ᶜ
  disk : ∀ sector k, k < 0x200 → s.gfs.disk sector k = g.disk sector k
  sectorCount : s.gfs.sectorCount = g.sectorCount
  superBlock : s.gfs.superBlock = g.superBlock

/-- `n` sectors from `buffer` on are in the direct map, and none of them is the driver's. -/
structure OwnBuffer (port : HbaPort) (buffer : UInt64) (n : ℕ) : Prop where
  direct : ∀ i, i < n → DirectMapped (buffer + UInt64.ofNat (0x200 * i))
  apart : ∀ k, k < 0x200 * n → buffer + UInt64.ofNat k ∉ driverBytes port

/-- One of the sectors. -/
lemma OwnBuffer.turn (h : OwnBuffer port buffer n) (hk : k < n) :
    OwnBuffer port (buffer + UInt64.ofNat (0x200 * k)) 1 := by
  refine ⟨fun i hi => ?_, fun j hj => ?_⟩
  · rw [Nat.lt_one_iff.mp hi]
    simpa using h.direct k hk
  · rw [UInt64.add_assoc, ← UInt64.ofNat_add]
    exact h.apart _ (by omega)

/-- A turn keeps what the file system knows of its drive. -/
lemma sataRW_kept (g : Gfs) (start buffer : UInt64) (w : Bool) :
    (g.sataRW start buffer w).sectorCount = g.sectorCount ∧
      (g.sataRW start buffer w).superBlock = g.superBlock := by
  rw [Gfs.sataRW]
  split_ifs
  · exact ⟨rfl, rfl⟩
  · exact ⟨rfl, rfl⟩

/-- What is left after a call, field by field. -/
lemma driverRW_eq_some {r : Mem × Disk}
    (h : performCommand (sataRW s.port s.gfs.mem start count buffer w).mem s.gfs.disk
      (sataRW s.port s.gfs.mem start count buffer w).cmdtbl = some r) :
    ∃ s', driverRW s start count buffer w = some s' ∧
      s'.port = commandDone (sendCommand s.port (findCMD s.port)) (findCMD s.port) ∧
      s'.gfs.mem = r.1 ∧ s'.gfs.disk = r.2 ∧ s'.gfs.sectorCount = s.gfs.sectorCount ∧
      s'.gfs.superBlock = s.gfs.superBlock := by
  rw [driverRW, h, Option.map_some]
  exact ⟨_, rfl, rfl, rfl, rfl, rfl, rfl⟩

/-- **A call of the driver is a turn of the loops.** -/
theorem driverRW_refines (h : Refines s g) (hstart : start.toNat < 2 ^ 32)
    (hbuffer : OwnBuffer s.port buffer 1) :
    ∃ s', driverRW s start 1 buffer w = some s' ∧ s'.port.clb = s.port.clb ∧
      Refines s' (g.sataRW start buffer w) := by
  have hdirect : DirectMapped buffer := by simpa using hbuffer.direct 0 (by omega)
  have hencodes : Encodes (sataRW s.port s.gfs.mem start 1 buffer w) start 1 buffer w :=
    (encodes_sataRW s.port s.gfs.mem start w (by decide) (by decide) hdirect).mpr
      ⟨hstart, by decide⟩
  obtain ⟨s', hcall, hport, hmem, hdisk, hcount, hplace⟩ :=
    driverRW_eq_some (hencodes.performCommand_eq s.gfs.disk)
  have hone : (1 : UInt32).toNat = 1 := rfl
  have hfirst : start + UInt64.ofNat 0 = start := UInt64.add_zero _
  have hclb : s'.port.clb = s.port.clb := by rw [hport]; rfl
  have hkept := sataRW_kept g start buffer w
  have hsame := (h.idle.eqOn_sataRW s.gfs.mem start 1 buffer w).trans h.mem
  rw [hone, readSectors_one, writeSectors_one, hfirst] at hmem hdisk
  refine ⟨s', hcall, hclb, ?_⟩
  constructor
  case idle =>
    rw [hport]
    exact h.idle.commandDone
  case sectorCount => rw [hcount, h.sectorCount, hkept.1]
  case superBlock => rw [hplace, h.superBlock, hkept.2]
  case mem =>
    intro x hx
    rw [driverBytes_congr hclb] at hx
    have hbyte := hsame hx
    rw [hmem, Gfs.sataRW]
    cases w with
    | true => exact hbyte
    | false =>
        simp only [Bool.false_eq_true, if_false, readSector]
        split_ifs with hin
        · exact h.disk start _ hin
        · exact hbyte
  case disk =>
    intro sector k hk
    have hbyte := hsame (hbuffer.apart k (by omega))
    rw [hdisk, Gfs.sataRW]
    cases w with
    | false => exact h.disk sector k hk
    | true =>
        simp only [if_true, writeSector]
        rcases eq_or_ne sector start with rfl | hne
        · rw [Function.update_self, Function.update_self, hbyte]
        · rw [Function.update_of_ne hne, Function.update_of_ne hne, h.disk sector k hk]

lemma superBlock_transferSectors (g : Gfs) (n : ℕ) :
    (g.transferSectors sector buffer start w n).superBlock = g.superBlock := by
  induction n with
  | zero => rfl
  | succ n ih =>
      rw [Gfs.transferSectors]
      exact (sataRW_kept _ _ _ _).2.trans ih

/-- **And a loop of calls is a loop**, as long as the sectors have 32-bit numbers, and the choice of
a sector does not depend on the driver's memory. -/
theorem driverTransfers_refines (h : Refines s g) (hbuffer : OwnBuffer s.port buffer n)
    (hsector : ∀ s' g', s'.port.clb = s.port.clb → g'.superBlock = g.superBlock →
      Refines s' g' → ∀ i, sector s'.gfs i = sector g' i)
    (hstart : ∀ i, i < n → (sector (g.transferSectors sector buffer start w i)
      (start + UInt64.ofNat i)).toNat < 2 ^ 32) :
    ∃ s', driverTransfers sector buffer start w s n = some s' ∧ s'.port.clb = s.port.clb ∧
      Refines s' (g.transferSectors sector buffer start w n) := by
  induction n with
  | zero => exact ⟨s, rfl, rfl, h⟩
  | succ n ih =>
      have hfewer : OwnBuffer s.port buffer n :=
        ⟨fun i hi => hbuffer.direct i (by omega), fun k hk => hbuffer.apart k (by omega)⟩
      obtain ⟨s₁, hturns, hclb, hrefines⟩ := ih hfewer fun i hi => hstart i (by omega)
      have hplace : OwnBuffer s₁.port (buffer + (start + UInt64.ofNat n - start) * 0x200) 1 := by
        have hown := hbuffer.turn (Nat.lt_succ_self n)
        rw [transfer_place]
        exact ⟨hown.direct, fun k hk => by rw [driverBytes_congr hclb]; exact hown.apart k hk⟩
      obtain ⟨s₂, hcall, hclb₂, hrefines₂⟩ :=
        driverRW_refines hrefines (hstart n (Nat.lt_succ_self n)) hplace (w := w)
      refine ⟨s₂, ?_, hclb₂.trans hclb, hrefines₂⟩
      rw [← hsector s₁ _ hclb (superBlock_transferSectors g n) hrefines] at hcall
      rw [driverTransfers, hturns, Option.bind_eq_bind, Option.bind_some]
      exact hcall

/-! ## Files -/

/-- `fopen`, `writeBack` and `readIn`: a look-up, and a loop for the file. -/
def Gfs.fileTransfer (g : Gfs) (fileName : CString) (buffer start : UInt64) (w : Bool) (n : ℕ) :
    Gfs :=
  if inodeLookUp g fileName = -1 then g
  else g.transferSectors (fileSector (inodeLookUp g fileName)) buffer start w n

/-- The same on the driver. -/
def driverFile (s : DrivenGfs) (fileName : CString) (buffer start : UInt64) (w : Bool) (n : ℕ) :
    Option DrivenGfs :=
  if inodeLookUp s.gfs fileName = -1 then some s
  else driverTransfers (fileSector (inodeLookUp s.gfs fileName)) buffer start w s n

/-- The calls that read and write files. -/
inductive FileCall
  | fopen (count : UInt64)
  | writeBack (count : UInt64)
  | readIn (start count : UInt64)

def FileCall.first : FileCall → UInt64
  | .readIn start _ => start
  | _ => 0

def FileCall.writes : FileCall → Bool
  | .writeBack _ => true
  | _ => false

/-- The turns of the loop. -/
def FileCall.turns : FileCall → ℕ
  | .fopen count => count.toNat
  | .writeBack count => count.toNat
  | .readIn start count => count.toNat - start.toNat

/-- The call in the file system. -/
def FileCall.result (call : FileCall) (g : Gfs) (fileName : CString) (buffer : UInt64) : Gfs :=
  match call with
  | .fopen count => Seaweed.fopen g fileName buffer count
  | .writeBack count => Seaweed.writeBack g fileName buffer count
  | .readIn start count => Seaweed.readIn g fileName buffer start count

/-- Each of them is such a loop. -/
lemma FileCall.result_eq (call : FileCall) (g : Gfs) (fileName : CString) (buffer : UInt64) :
    call.result g fileName buffer =
      g.fileTransfer fileName buffer call.first call.writes call.turns := by
  cases call <;> rfl

/-- The super block is not in the driver's memory. -/
def SuperBlockApart (port : HbaPort) (superBlock : UInt64) : Prop :=
  ∀ n, n < 0x200000 → superBlock + UInt64.ofNat n ∉ driverBytes port

/-- What is read of the super block is what the file system has there. -/
lemma Refines.superBlock_byte (h : Refines s g) (hapart : SuperBlockApart s.port g.superBlock)
    (hn : n < 0x200000) :
    s.gfs.mem (g.superBlock + UInt64.ofNat n) = g.mem (g.superBlock + UInt64.ofNat n) :=
  h.mem (hapart n hn)

lemma Refines.inodeLookUp_eq (h : Refines s g) (hapart : SuperBlockApart s.port g.superBlock)
    (hreads : ∀ n ∈ inodeLookUpReads g fileName, n < 0x200000) :
    inodeLookUp s.gfs fileName = inodeLookUp g fileName :=
  inodeLookUp_congr h.superBlock fun n hn => h.superBlock_byte hapart (hreads n hn)

/-- The sector of a file is read from its inode. -/
lemma Refines.fileSector_eq {index : ℕ} (h : Refines s g)
    (hapart : SuperBlockApart s.port g.superBlock) (hindex : index < 69888) (i : UInt64) :
    fileSector index s.gfs i = fileSector index g i := by
  have hinode : s.gfs.inode index = g.inode index := by rw [inode_eq, inode_eq, h.superBlock]
  have hblock : s.gfs.blockNumber index = g.blockNumber index := by
    rw [Gfs.blockNumber, Gfs.blockNumber, hinode]
    refine congrArg UInt32.ofNat (load_congr fun k hk => ?_)
    have hoffset : g.inode index + 20 + UInt64.ofNat k
        = g.superBlock + UInt64.ofNat (inodeOffset index (20 + k)) := by
      rw [← inode_add, UInt64.ofNat_add, UInt64.add_assoc]
      rfl
    rw [hoffset]
    exact h.superBlock_byte hapart (by rw [inodeOffset, sizeofInode]; omega)
  rw [fileSector, fileSector, hblock]

/-- Look-up and loop do on the driver what they do in the file system, when the sectors of the file
have 32-bit numbers. -/
theorem driverFile_refines (h : Refines s g) (hbuffer : OwnBuffer s.port buffer n)
    (hapart : SuperBlockApart s.port g.superBlock)
    (hreads : ∀ m ∈ inodeLookUpReads g fileName, m < 0x200000)
    (hfew : (g.inodeCount - g.unallocatedInode).toNat ≤ 69888)
    (hstart : ∀ i, i < n → (fileSector (inodeLookUp g fileName) (g.transferSectors
      (fileSector (inodeLookUp g fileName)) buffer start w i) (start + UInt64.ofNat i)).toNat
        < 2 ^ 32) :
    ∃ s', driverFile s fileName buffer start w n = some s' ∧
      Refines s' (g.fileTransfer fileName buffer start w n) := by
  rw [driverFile, Gfs.fileTransfer, h.inodeLookUp_eq hapart hreads]
  rcases firstIndex_cases (fun i => strcmp g.mem (g.inode i) fileName.bytes == 0)
    (g.inodeCount - g.unallocatedInode).toNat with ⟨i, hi, hlt, _⟩ | ⟨hnone, _⟩
  · have hlookUp : inodeLookUp g fileName = i := hi
    rw [hlookUp] at hstart ⊢
    rw [if_neg (by omega), if_neg (by omega)]
    obtain ⟨s', hcall, _, hrefines⟩ := driverTransfers_refines h hbuffer
      (fun s' g' hclb hplace hsame j => hsame.fileSector_eq
        (fun m hm => by rw [driverBytes_congr hclb, hplace]; exact hapart m hm) (by omega) j) hstart
    exact ⟨s', hcall, hrefines⟩
  · have hlookUp : inodeLookUp g fileName = -1 := hnone
    rw [hlookUp, if_pos rfl, if_pos rfl]
    exact ⟨s, rfl, h⟩

/-- **A file is read and written as the file system says.** -/
theorem fileCall_refines (call : FileCall) (h : Refines s g)
    (hbuffer : OwnBuffer s.port buffer call.turns)
    (hapart : SuperBlockApart s.port g.superBlock)
    (hreads : ∀ m ∈ inodeLookUpReads g fileName, m < 0x200000)
    (hfew : (g.inodeCount - g.unallocatedInode).toNat ≤ 69888)
    (hstart : ∀ i, i < call.turns → (fileSector (inodeLookUp g fileName) (g.transferSectors
      (fileSector (inodeLookUp g fileName)) buffer call.first call.writes i)
        (call.first + UInt64.ofNat i)).toNat < 2 ^ 32) :
    ∃ s', driverFile s fileName buffer call.first call.writes call.turns = some s' ∧
      Refines s' (call.result g fileName buffer) := by
  rw [call.result_eq]
  exact driverFile_refines h hbuffer hapart hreads hfew hstart

end Seaweed
