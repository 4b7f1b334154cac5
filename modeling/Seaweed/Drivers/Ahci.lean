import Seaweed.Library.FirstFit
import Seaweed.Library.Records
import Seaweed.Mm.KHeap

/-!
# Commands for a SATA drive (`kernel/drivers/ahci.c`)

A port has a list of 32 command headers, and each header has the address of a command table, with a
command FIS for the drive and the addresses of the data.  `sataRW` looks for a slot that is free,
fills its header and its table, and hands the slot to the controller.

* `findCMD`, `sataRW`, `initSATAdevice` — the code, up to where it waits for the controller.
* `FisH2D`, `Prdt` — what the drive and the controller read from a command table.
* `load_storeCommand` — they read what has been put there.
* **`sataRW_encodes_iff`** — the command asks for the sectors that it should exactly up to sector
  `2 ^ 32` and 8192 sectors.
-/

namespace Seaweed

open FirstFit Memory Records Words

/-! ## Ports -/

/-- The registers of a port that the driver uses. -/
structure HbaPort where
  clb : UInt32
  cmd : UInt32
  sact : UInt32
  ci : UInt32

def HBA_CMD_ST : UInt32 := 0x0001
def HBA_CMD_FRE : UInt32 := 0x0010

/-- Where the loop stops: at the first slot that is not busy. -/
def freeCMD (port : HbaPort) : ℕ :=
  stopIndex (fun i => (port.sact ||| port.ci) &&& ((1 : UInt32) <<< UInt32.ofNat i) == 0) 32

def findCMD (port : HbaPort) : UInt32 :=
  if freeCMD port < 32 then UInt32.ofNat (freeCMD port) else 0

/-- The registers while `sendCommand` waits for the command to be done. -/
def sendCommand (port : HbaPort) (CMDslot : UInt32) : HbaPort :=
  { port with
    cmd := ((port.cmd &&& ~~~HBA_CMD_ST) ||| HBA_CMD_FRE) ||| HBA_CMD_ST
    ci := (1 : UInt32) <<< CMDslot }

/-! ## Command headers -/

/-- `sizeof(hbaCMDhdr_t)`. -/
def sizeofCMDhdr : ℕ := 32

/-- The header of slot `i`. -/
def hbaCMDhdr (port : HbaPort) (i : UInt32) : UInt64 :=
  port.clb.toUInt64 + HIGH_VMA + UInt64.ofNat sizeofCMDhdr * i.toUInt64

/-- The fields `cfl` (five bits), `w` (bit 6) and `prdtl` of a header. -/
def fillHeader (mem : Mem) (hdr : UInt64) (w : Bool) : Mem :=
  let mem := storeBytes mem hdr [(mem hdr &&& 0xe0) ||| 5]
  let mem := storeBytes mem hdr [(mem hdr &&& 0xbf) ||| if w then 0x40 else 0]
  store mem (hdr + 2) 2 1

def ctba (mem : Mem) (hdr : UInt64) : UInt32 := UInt32.ofNat (load mem (hdr + 8) 4)

def ctbau (mem : Mem) (hdr : UInt64) : UInt32 := UInt32.ofNat (load mem (hdr + 12) 4)

/-! ## Command tables -/

/-- `fisH2D_t`; a bit-field `c` of one bit has `pmport` below it. -/
@[ext]
structure FisH2D where
  fisType : UInt8
  pmport : UInt8 := 0
  c : Bool
  command : UInt8
  featurel : UInt8 := 0
  lba0 : UInt8 := 0
  lba1 : UInt8 := 0
  lba2 : UInt8 := 0
  device : UInt8
  lba3 : UInt8 := 0
  lba4 : UInt8 := 0
  lba5 : UInt8 := 0
  featureh : UInt8 := 0
  countl : UInt8 := 0
  counth : UInt8 := 0
  icc : UInt8 := 0
  control : UInt8 := 0
  deriving DecidableEq

def FIS_REG_H2D : UInt8 := 0x27

/-- The bytes of a FIS, with `reserved1` at their end. -/
def FisH2D.bytes (f : FisH2D) : List UInt8 :=
  [f.fisType, (f.pmport &&& 0xf) ||| (if f.c then 0x80 else 0), f.command, f.featurel,
    f.lba0, f.lba1, f.lba2, f.device, f.lba3, f.lba4, f.lba5, f.featureh,
    f.countl, f.counth, f.icc, f.control, 0, 0, 0, 0]

/-- An entry of the table of physical regions: the fields `dba`, `dbau`, `dbc` (22 bits) and `i`
(bit 31). -/
structure Prdt where
  dba : UInt32
  dbau : UInt32 := 0
  dbc : UInt32
  i : Bool

/-- The fields are stored into memory that has just been cleared. -/
def storePrdt (mem : Mem) (a : UInt64) (p : Prdt) : Mem :=
  let mem := store mem a 4 p.dba.toNat
  let mem := store mem (a + 4) 4 p.dbau.toNat
  store mem (a + 12) 4 (p.dbc.toNat % 2 ^ 22 + if p.i then 2 ^ 31 else 0)

/-- `sizeof(hbaCommandTable_t)`. -/
def sizeofCommandTable : ℕ := 144

/-- A command table is cleared, and its `PRDT[0]` and `cfis` are filled. -/
def storeCommand (mem : Mem) (cmdtbl : UInt64) (p : Prdt) (f : FisH2D) : Mem :=
  let mem := storeBytes mem cmdtbl (List.replicate sizeofCommandTable 0)
  let mem := storePrdt mem (cmdtbl + 128) p
  storeBytes mem cmdtbl f.bytes

/-! ## The code -/

/-- What the controller finds: the registers and the memory, and the command table that has been
filled. -/
structure SataCommand where
  port : HbaPort
  mem : Mem
  cmdtbl : UInt64

/-- `w` is set for a write. -/
def sataFis (start : UInt64) (count : UInt32) (w : Bool) : FisH2D :=
  { fisType := FIS_REG_H2D
    c := true
    command := if w then 0x35 else 0x25
    lba0 := (start.toUInt32 &&& 0xff).toUInt8
    lba1 := ((start.toUInt32 &&& 0xff00) >>> 8).toUInt8
    lba2 := ((start.toUInt32 &&& 0xff0000) >>> 16).toUInt8
    device := (1 : UInt8) <<< 6
    lba3 := ((start.toUInt32 &&& 0xff000000) >>> 24).toUInt8
    lba4 := ((start >>> 32) &&& 0x0000ff00000000).toUInt8
    lba5 := (((start >>> 32) &&& 0x00ff0000000000) >>> 8).toUInt8
    countl := count.toUInt8
    counth := (count >>> 8).toUInt8 }

def sataPrdt (count : UInt32) (buffer : UInt64) : Prdt :=
  { dba := (buffer - HIGH_VMA).toUInt32
    dbc := count * 512 - 1
    i := true }

/-- The header of slot 0 is cleared, whichever slot has been found. -/
def sataRW (port : HbaPort) (mem : Mem) (start : UInt64) (count : UInt32) (buffer : UInt64)
    (w : Bool) : SataCommand :=
  let CMDslot := findCMD port
  let mem := storeBytes mem (port.clb.toUInt64 + HIGH_VMA) (List.replicate sizeofCMDhdr 0)
  let hdr := hbaCMDhdr port CMDslot
  let mem := fillHeader mem hdr w
  let cmdtbl := (ctba mem hdr).toUInt64 + HIGH_VMA
  { port := sendCommand port CMDslot
    mem := storeCommand mem cmdtbl (sataPrdt count buffer) (sataFis start count w)
    cmdtbl := cmdtbl }

/-- The command that identifies the drive; `identify` is the page for the answer. -/
def initSATAdevice (port : HbaPort) (mem : Mem) (identify : UInt64) : SataCommand :=
  let CMDslot := findCMD port
  let hdr := hbaCMDhdr port CMDslot
  let mem := fillHeader mem hdr false
  let cmdtbl := (ctba mem hdr).toUInt64 + HIGH_VMA
  { port := sendCommand port CMDslot
    mem := storeCommand mem cmdtbl { dba := identify.toUInt32, dbc := 511, i := true }
      { fisType := FIS_REG_H2D, c := true, command := 0xec, device := 0 }
    cmdtbl := cmdtbl }

/-! ## What is read from a command table -/

def loadFis (mem : Mem) (a : UInt64) : FisH2D where
  fisType := mem a
  pmport := mem (a + 1) &&& 0xf
  c := (mem (a + 1) &&& 0x80) != 0
  command := mem (a + 2)
  featurel := mem (a + 3)
  lba0 := mem (a + 4)
  lba1 := mem (a + 5)
  lba2 := mem (a + 6)
  device := mem (a + 7)
  lba3 := mem (a + 8)
  lba4 := mem (a + 9)
  lba5 := mem (a + 10)
  featureh := mem (a + 11)
  countl := mem (a + 12)
  counth := mem (a + 13)
  icc := mem (a + 14)
  control := mem (a + 15)

def loadPrdt (mem : Mem) (a : UInt64) : Prdt where
  dba := UInt32.ofNat (load mem a 4)
  dbau := UInt32.ofNat (load mem (a + 4) 4)
  dbc := UInt32.ofNat (load mem (a + 12) 4 % 2 ^ 22)
  i := (load mem (a + 12) 4).testBit 31

/-- The number of the first sector, from its six bytes. -/
def FisH2D.lba (f : FisH2D) : ℕ :=
  f.lba0.toNat + 2 ^ 8 * f.lba1.toNat + 2 ^ 16 * f.lba2.toNat + 2 ^ 24 * f.lba3.toNat +
    2 ^ 32 * f.lba4.toNat + 2 ^ 40 * f.lba5.toNat

/-- The number of sectors. -/
def FisH2D.count (f : FisH2D) : ℕ := f.countl.toNat + 2 ^ 8 * f.counth.toNat

variable {mem : Mem} {a x cmdtbl start start' buffer : UInt64} {count : UInt32} {w : Bool}
  {f : FisH2D} {p : Prdt} {port : HbaPort} {k n : ℕ}

lemma length_fisBytes (f : FisH2D) : f.bytes.length = 20 := rfl

/-- **A FIS is read back.** -/
theorem loadFis_storeBytes (hport : f.pmport = 0) : loadFis (storeBytes mem a f.bytes) a = f := by
  have hbyte : ∀ k v, f.bytes[k]? = some v → storeBytes mem a f.bytes (a + UInt64.ofNat k) = v :=
    fun k v hv => storeBytes_inside (by
      have := (List.getElem?_eq_some_iff.mp hv).1
      rw [length_fisBytes] at this
      omega) hv
  have hfirst : storeBytes mem a f.bytes a = f.fisType := by simpa using hbyte 0 _ rfl
  have hflags : storeBytes mem a f.bytes (a + 1) = if f.c then 0x80 else 0 := by
    refine (hbyte 1 _ rfl).trans ?_
    rw [hport]
    cases f.c <;> rfl
  refine FisH2D.ext hfirst ?_ ?_ (hbyte 2 _ rfl) (hbyte 3 _ rfl) (hbyte 4 _ rfl) (hbyte 5 _ rfl)
    (hbyte 6 _ rfl) (hbyte 7 _ rfl) (hbyte 8 _ rfl) (hbyte 9 _ rfl) (hbyte 10 _ rfl)
    (hbyte 11 _ rfl) (hbyte 12 _ rfl) (hbyte 13 _ rfl) (hbyte 14 _ rfl) (hbyte 15 _ rfl)
  · rw [loadFis, hflags, hport]
    cases f.c <;> rfl
  · rw [loadFis, hflags]
    cases f.c <;> rfl

/-- The region is read back, as far as its length fits. -/
lemma loadPrdt_storePrdt : loadPrdt (storePrdt mem a p) a
    = { p with dbc := UInt32.ofNat (p.dbc.toNat % 2 ^ 22) } := by
  have h4 : (4 : UInt64) = UInt64.ofNat 4 := rfl
  have h12 : (12 : UInt64) = UInt64.ofNat 12 := rfl
  have happ : ∀ i j : ℕ, i ≤ 12 → j ≤ 12 → i + 4 ≤ j ∨ j + 4 ≤ i →
      Apart (a + UInt64.ofNat i) 4 (a + UInt64.ofNat j) 4 :=
    fun i j hi hj h => apart_offsets a (by omega) (by omega) h
  have hdba : ∀ i, i = 4 ∨ i = 12 → Apart (a + UInt64.ofNat i) 4 a 4 := fun i hi => by
    simpa using happ i 0 (by omega) (by omega) (by omega)
  have hlt := p.dba.toNat_lt
  have hltu := p.dbau.toNat_lt
  have hlast : p.dbc.toNat % 2 ^ 22 + (if p.i then 2 ^ 31 else 0) <
      256 ^ 4 := by split_ifs <;> omega
  have hlength : (p.dbc.toNat % 2 ^ 22 + (if p.i then 2 ^ 31 else 0)) % 2 ^ 22
      = p.dbc.toNat % 2 ^ 22 := by
    split_ifs <;> omega
  have hflag : (p.dbc.toNat % 2 ^ 22 + (if p.i then 2 ^ 31 else 0)).testBit 31 = p.i := by
    rw [Nat.testBit_eq_decide_div_mod_eq]
    cases p.i <;> simp <;> omega
  simp only [loadPrdt, storePrdt, h4, h12]
  rw [load_store_apart (hdba 12 (by omega)), load_store_apart (hdba 4 (by omega)),
    load_store (by omega), load_store_apart (happ 12 4 (by omega) (by omega) (by omega)),
    load_store (by omega), load_store (by omega), Nat.mod_eq_of_lt hlast,
    Nat.mod_eq_of_lt (by omega), Nat.mod_eq_of_lt (by omega), hlength, hflag, UInt32.ofNat_toNat,
    UInt32.ofNat_toNat]

/-- The bytes of a region decide what is read. -/
lemma loadPrdt_congr {mem' : Mem}
    (h : ∀ k, k < 16 → mem (a + UInt64.ofNat k) = mem' (a + UInt64.ofNat k)) :
    loadPrdt mem a = loadPrdt mem' a := by
  have hload : ∀ i : ℕ, i ≤ 12 →
      load mem (a + UInt64.ofNat i) 4 = load mem' (a + UInt64.ofNat i) 4 :=
    fun i hi => load_congr fun j hj => by
      rw [UInt64.add_assoc, ← UInt64.ofNat_add]
      exact h (i + j) (by omega)
  have hfirst : load mem a 4 = load mem' a 4 := by simpa using hload 0 (by omega)
  have hsecond : load mem (a + 4) 4 = load mem' (a + 4) 4 := hload 4 (by omega)
  have hlast : load mem (a + 12) 4 = load mem' (a + 12) 4 := hload 12 (by omega)
  rw [loadPrdt, loadPrdt, hfirst, hsecond, hlast]

/-- The FIS ends before the region. -/
lemma loadPrdt_storeBytes (f : FisH2D) :
    loadPrdt (storeBytes mem cmdtbl f.bytes) (cmdtbl + 128) = loadPrdt mem (cmdtbl + 128) := by
  refine loadPrdt_congr fun k hk => storeBytes_outside ?_
  have haddr : cmdtbl + 128 + UInt64.ofNat k = cmdtbl + UInt64.ofNat (128 + k) := by
    rw [UInt64.ofNat_add, UInt64.add_assoc]
    rfl
  rw [length_fisBytes, haddr, toNat_add_ofNat_sub _ (by omega)]
  omega

/-- **What the drive and the controller read** is what has been put into the table. -/
theorem load_storeCommand (hport : f.pmport = 0) :
    loadFis (storeCommand mem cmdtbl p f) cmdtbl = f ∧
      loadPrdt (storeCommand mem cmdtbl p f) (cmdtbl + 128)
        = { p with dbc := UInt32.ofNat (p.dbc.toNat % 2 ^ 22) } :=
  ⟨loadFis_storeBytes hport, (loadPrdt_storeBytes f).trans loadPrdt_storePrdt⟩

/-! ## Sector numbers -/

/-- A byte that is cut out of a word with a mask. -/
lemma masked_byte {x m s : ℕ} (hm : ∀ i, i < 8 → m.testBit (s + i) = true) :
    ((x &&& m) >>> s) % 2 ^ 8 = x / 2 ^ s % 2 ^ 8 := by
  refine Nat.eq_of_testBit_eq fun i => ?_
  rw [← Nat.shiftRight_eq_div_pow, Nat.testBit_mod_two_pow, Nat.testBit_mod_two_pow,
    Nat.testBit_shiftRight, Nat.testBit_shiftRight, Nat.testBit_and]
  by_cases hi : i < 8
  · rw [hm i hi, Bool.and_true]
  · rw [decide_eq_false hi, Bool.false_and, Bool.false_and]

/-- A mask that has nothing in the byte. -/
lemma unmasked_byte {x m s : ℕ} (hm : ∀ i, i < 8 → m.testBit (s + i) = false) :
    ((x &&& m) >>> s) % 2 ^ 8 = 0 := by
  refine Nat.eq_of_testBit_eq fun i => ?_
  rw [Nat.testBit_mod_two_pow, Nat.testBit_shiftRight, Nat.testBit_and, Nat.zero_testBit]
  by_cases hi : i < 8
  · rw [hm i hi, Bool.and_false, Bool.and_false]
  · rw [decide_eq_false hi, Bool.false_and]

/-- The bytes of a sector number; the masks for the last two look above the 16 bits that are left
of it. -/
lemma lba_bytes (start : UInt64) (count : UInt32) (w : Bool) :
    (sataFis start count w).lba0.toNat = start.toNat % 2 ^ 8 ∧
      (sataFis start count w).lba1.toNat = start.toNat / 2 ^ 8 % 2 ^ 8 ∧
      (sataFis start count w).lba2.toNat = start.toNat / 2 ^ 16 % 2 ^ 8 ∧
      (sataFis start count w).lba3.toNat = start.toNat / 2 ^ 24 % 2 ^ 8 ∧
      (sataFis start count w).lba4.toNat = 0 ∧ (sataFis start count w).lba5.toNat = 0 := by
  have hlow : ∀ {m s : ℕ}, (∀ i, i < 8 → m.testBit (s + i) = true) →
      ((start.toNat % 2 ^ 32 &&& m) >>> s) % 2 ^ 8 = start.toNat % 2 ^ 32 / 2 ^ s % 2 ^ 8 :=
    masked_byte
  have h0 := hlow (m := 0xff) (s := 0) (by decide)
  have h1 := hlow (m := 0xff00) (s := 8) (by decide)
  have h2 := hlow (m := 0xff0000) (s := 16) (by decide)
  have h3 := hlow (m := 0xff000000) (s := 24) (by decide)
  have h4 := unmasked_byte (x := start.toNat >>> 32) (m := 0xff00000000) (s := 0) (by decide)
  have h5 := unmasked_byte (x := start.toNat >>> 32) (m := 0xff0000000000) (s := 8) (by decide)
  rw [Nat.shiftRight_zero] at h0 h4
  simp only [sataFis, UInt32.toNat_toUInt8, UInt64.toNat_toUInt8, UInt32.toNat_shiftRight,
    UInt64.toNat_shiftRight, UInt32.toNat_and, UInt64.toNat_and, UInt64.toNat_toUInt32,
    UInt32.reduceToNat, UInt64.reduceToNat, Nat.reduceMod]
  rw [h0, h1, h2, h3, h4, h5]
  refine ⟨?_, ?_, ?_, ?_, rfl, rfl⟩ <;> omega

/-- **Only the low 32 bits of the sector number are sent.** -/
theorem lba_sataFis (start : UInt64) (count : UInt32) (w : Bool) :
    (sataFis start count w).lba = start.toNat % 2 ^ 32 := by
  obtain ⟨h0, h1, h2, h3, h4, h5⟩ := lba_bytes start count w
  rw [FisH2D.lba, h0, h1, h2, h3, h4, h5]
  omega

lemma count_sataFis (start : UInt64) (count : UInt32) (w : Bool) :
    (sataFis start count w).count = count.toNat % 2 ^ 16 := by
  simp only [FisH2D.count, sataFis, UInt32.toNat_toUInt8, UInt32.toNat_shiftRight,
    UInt32.reduceToNat, Nat.reduceMod, Nat.shiftRight_eq_div_pow]
  omega

/-- The length of the region has 22 bits. -/
lemma dbc_sataPrdt (hpos : 1 ≤ count.toNat) (hcount : count.toNat ≤ 65535) :
    (sataPrdt count buffer).dbc.toNat = 512 * count.toNat - 1 := by
  simp only [sataPrdt, UInt32.toNat_sub, UInt32.toNat_mul, UInt32.reduceToNat]
  omega

/-! ## The command and the request -/

/-- The drive and the controller are asked for `count` sectors from `start` on, at `buffer`. -/
structure Encodes (s : SataCommand) (start : UInt64) (count : UInt32) (buffer : UInt64) (w : Bool) :
    Prop where
  lba : (loadFis s.mem s.cmdtbl).lba = start.toNat
  sectors : (loadFis s.mem s.cmdtbl).count = count.toNat
  bytes : (loadPrdt s.mem (s.cmdtbl + 128)).dbc.toNat + 1 = 512 * count.toNat
  address : (loadPrdt s.mem (s.cmdtbl + 128)).dba.toNat
    + 2 ^ 32 * (loadPrdt s.mem (s.cmdtbl + 128)).dbau.toNat = (buffer - HIGH_VMA).toNat
  command : (loadFis s.mem s.cmdtbl).command = if w then 0x35 else 0x25

/-- The buffer is in the direct map, which has the first 4 GiB. -/
def DirectMapped (buffer : UInt64) : Prop := (buffer - HIGH_VMA).toNat < 2 ^ 32

instance (buffer : UInt64) : Decidable (DirectMapped buffer) := inferInstanceAs (Decidable (_ < _))

/-- What is read from the command table of a call. -/
lemma load_sataRW (port : HbaPort) (mem : Mem) (start : UInt64) (count : UInt32) (buffer : UInt64)
    (w : Bool) :
    loadFis (sataRW port mem start count buffer w).mem
        (sataRW port mem start count buffer w).cmdtbl = sataFis start count w ∧
      loadPrdt (sataRW port mem start count buffer w).mem
        ((sataRW port mem start count buffer w).cmdtbl + 128) = { sataPrdt count buffer with
          dbc := UInt32.ofNat ((sataPrdt count buffer).dbc.toNat % 2 ^ 22) } :=
  load_storeCommand rfl

lemma encodes_sataRW (port : HbaPort) (mem : Mem) (start : UInt64) (w : Bool)
    (hpos : 1 ≤ count.toNat) (hcount : count.toNat ≤ 65535) (hbuffer : DirectMapped buffer) :
    Encodes (sataRW port mem start count buffer w) start count buffer w ↔
      start.toNat < 2 ^ 32 ∧ count.toNat ≤ 8192 := by
  obtain ⟨hfis, hprdt⟩ := load_sataRW port mem start count buffer w
  have hlba := lba_sataFis start count w
  have hsectors := count_sataFis start count w
  have hdbc : (sataPrdt count buffer).dbc.toNat = 512 * count.toNat - 1 := dbc_sataPrdt hpos hcount
  have hfield : (UInt32.ofNat ((sataPrdt count buffer).dbc.toNat % 2 ^ 22)).toNat
      = (512 * count.toNat - 1) % 2 ^ 22 := by
    rw [hdbc, UInt32.toNat_ofNat']
    omega
  constructor
  · intro h
    have hs := h.lba
    have hb := h.bytes
    rw [hfis, hlba] at hs
    rw [hprdt] at hb
    simp only [hfield] at hb
    omega
  · rintro ⟨hs, hc⟩
    refine ⟨?_, ?_, ?_, ?_, ?_⟩
    · rw [hfis, hlba]
      omega
    · rw [hfis, hsectors]
      omega
    · rw [hprdt]
      simp only [hfield]
      omega
    · rw [hprdt]
      simp only [sataPrdt, UInt64.toNat_toUInt32, UInt32.toNat_zero]
      rw [Nat.mod_eq_of_lt hbuffer]
      omega
    · rw [hfis, sataFis]

/-- **A command encodes the transfer exactly if the sector number has 32 bits and the length 22**,
and up to there different sectors have different commands. -/
theorem sataRW_encodes_iff (port : HbaPort) (mem : Mem) (start : UInt64) (count : UInt32)
    (buffer : UInt64) (w : Bool) (hpos : 1 ≤ count.toNat) (hcount : count.toNat ≤ 65535)
    (hbuffer : DirectMapped buffer) :
    (Encodes (sataRW port mem start count buffer w) start count buffer w ↔
      start.toNat < 2 ^ 32 ∧ count.toNat ≤ 8192) ∧
    ∀ start' : UInt64, start.toNat < 2 ^ 32 → start'.toNat < 2 ^ 32 → start ≠ start' →
      loadFis (sataRW port mem start count buffer w).mem
        (sataRW port mem start count buffer w).cmdtbl
        ≠ loadFis (sataRW port mem start' count buffer w).mem
          (sataRW port mem start' count buffer w).cmdtbl := by
  refine ⟨encodes_sataRW port mem start w hpos hcount hbuffer,
    fun start' hs hs' hne hsame => hne ?_⟩
  rw [(load_sataRW port mem start count buffer w).1, (load_sataRW port mem start' count buffer w).1]
    at hsame
  have hlba := congrArg FisH2D.lba hsame
  rw [lba_sataFis, lba_sataFis, Nat.mod_eq_of_lt hs, Nat.mod_eq_of_lt hs'] at hlba
  exact UInt64.toNat_inj.mp hlba

/-- A port whose slots are all free, with its list of headers at `0x8000`. -/
def idlePort : HbaPort := ⟨0x8000, 0, 0, 0⟩

/-- The super block is read sector by sector. -/
theorem sataRW_encodes_superBlock :
    (Encodes (sataRW idlePort (fun _ => 0) 0x4000 1 (HIGH_VMA + 0x200000) false) 0x4000 1
        (HIGH_VMA + 0x200000) false ↔ (0x4000 : UInt64).toNat < 2 ^ 32 ∧
          (1 : UInt32).toNat ≤ 8192) ∧
      ∀ start' : UInt64, (0x4000 : UInt64).toNat < 2 ^ 32 → start'.toNat < 2 ^ 32 →
        0x4000 ≠ start' →
        loadFis (sataRW idlePort (fun _ => 0) 0x4000 1 (HIGH_VMA + 0x200000) false).mem
            (sataRW idlePort (fun _ => 0) 0x4000 1 (HIGH_VMA + 0x200000) false).cmdtbl
          ≠ loadFis (sataRW idlePort (fun _ => 0) start' 1 (HIGH_VMA + 0x200000) false).mem
            (sataRW idlePort (fun _ => 0) start' 1 (HIGH_VMA + 0x200000) false).cmdtbl :=
  sataRW_encodes_iff idlePort _ 0x4000 1 _ false (by decide) (by decide) (by decide)

/-- Sector `2 ^ 32` is taken for sector 0. -/
theorem sataRW_sector2_32 :
    loadFis (sataRW idlePort (fun _ => 0) 0x100000000 1 (HIGH_VMA + 0x200000) true).mem
        (sataRW idlePort (fun _ => 0) 0x100000000 1 (HIGH_VMA + 0x200000) true).cmdtbl
      = loadFis (sataRW idlePort (fun _ => 0) 0 1 (HIGH_VMA + 0x200000) true).mem
        (sataRW idlePort (fun _ => 0) 0 1 (HIGH_VMA + 0x200000) true).cmdtbl ∧
    ¬Encodes (sataRW idlePort (fun _ => 0) 0x100000000 1 (HIGH_VMA + 0x200000) true) 0x100000000 1
      (HIGH_VMA + 0x200000) true := by
  refine ⟨?_, fun h => ?_⟩
  · rw [(load_sataRW _ _ _ _ _ _).1, (load_sataRW _ _ _ _ _ _).1]
    decide
  · have hlba := h.lba
    rw [(load_sataRW _ _ _ _ _ _).1] at hlba
    exact absurd hlba (by decide)

end Seaweed
