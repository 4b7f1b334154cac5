import Seaweed.Library.RootedTree
import Seaweed.Library.Words

/-!
# Enumerating the PCI bus (`kernel/drivers/pci.c`)

A scan of a bus looks at its 32 devices and their functions.  A bridge is not recorded: the bus
behind it is scanned at once, before the other functions of its device.

* `pciRead`, `checkDevice`, `pciScanBus` — the code; the configuration space is what the data port
  answers for each value of the address port.
* `Present`, `Leads` — the functions on a bus, and the buses behind its bridges.
* `Appends` — a call that comes back, with some records added to the array.
* **`pciScanBus_exact`** — where the bridges form a tree the scan comes back, with one record for
  every function that is present and not a bridge.
-/

namespace Seaweed

open RootedTree

/-! ## The code -/

/-- What port `0xcfc` answers after a value has been written to port `0xcf8`. -/
abbrev ConfigSpace := UInt32 → UInt32

/-- What `pciRead` writes to port `0xcf8`. -/
def configAddress (bus device func reg : UInt8) : UInt32 :=
  ((1 : UInt32) <<< 31) ||| (bus.toUInt32 <<< 16) ||| ((device.toUInt32 &&& 31) <<< 11) |||
    ((func.toUInt32 &&& 7) <<< 8) ||| (reg.toUInt32 &&& ~~~(3 : UInt32))

def pciRead (cfg : ConfigSpace) (bus device func reg : UInt8) : UInt32 :=
  cfg (configAddress bus device func reg)

/-- `pci_t`. -/
structure PciDevice where
  classCode : UInt8
  subclass : UInt8
  progIF : UInt8
  deviceID : UInt16
  vendorID : UInt16
  bus : UInt8
  device : UInt8
  function : UInt8
  deriving DecidableEq

/-- The globals.  `pciDevices` is what the pointer points to, as far as it can be addressed. -/
structure PciArray where
  pciDevices : ℕ → PciDevice
  totalDevices : ℕ
  maxSize : ℕ

/-- `krealloc` is what becomes of the array when it is reallocated with a new size. -/
def addPCIDevice (krealloc : (ℕ → PciDevice) → ℕ → ℕ → PciDevice) (newDevice : PciDevice)
    (s : PciArray) : PciArray :=
  let s :=
    if s.totalDevices > s.maxSize then
      { s with
        maxSize := s.maxSize + 10
        pciDevices := krealloc s.pciDevices (s.maxSize + 10) }
    else s
  { s with
    pciDevices := Function.update s.pciDevices s.totalDevices newDevice
    totalDevices := s.totalDevices + 1 }

def isBridge (cfg : ConfigSpace) (bus device function : UInt8) : Bool :=
  if ((pciRead cfg bus device function 0xC >>> 16).toUInt8 &&& ~~~((1 : UInt8) <<< 7)) != 1 ||
      (pciRead cfg bus device function 0x8 >>> 24).toUInt8 != 6 ||
      (pciRead cfg bus device function 0x8 >>> 16).toUInt8 != 4 then false
  else true

/-- The secondary bus of a bridge. -/
def secondaryBus (cfg : ConfigSpace) (bus device function : UInt8) : UInt8 :=
  (pciRead cfg bus device function 0x18 >>> 8).toUInt8

/-- The record of a function. -/
def newPCIDevice (cfg : ConfigSpace) (bus device function : UInt8) : PciDevice where
  classCode := (pciRead cfg bus device function 0x8 >>> 24).toUInt8
  subclass := (pciRead cfg bus device function 0x8 >>> 16).toUInt8
  progIF := (pciRead cfg bus device function 0x8 >>> 8).toUInt8
  deviceID := (pciRead cfg bus device function 0 >>> 16).toUInt16
  vendorID := (pciRead cfg bus device function 0).toUInt16
  bus := bus
  device := device
  function := function

section Scan

variable (cfg : ConfigSpace) (krealloc : (ℕ → PciDevice) → ℕ → ℕ → PciDevice)

/-- `scan` is the call of `pciScanBus`. -/
def checkDevice (scan : UInt8 → PciArray → Option PciArray) (bus device function : UInt8)
    (s : PciArray) : Option PciArray :=
  if isBridge cfg bus device function then scan (secondaryBus cfg bus device function) s
  else some (addPCIDevice krealloc (newPCIDevice cfg bus device function) s)

/-- The vendor is not `0xffff`. -/
def answers (bus device function : UInt8) : Bool :=
  (pciRead cfg bus device function 0).toUInt16 != 0xffff

def isMultifunction (bus device : UInt8) : Bool :=
  ((pciRead cfg bus device 0 0xc >>> 16).toUInt8 &&& ((1 : UInt8) <<< 7)) != 0

/-- The body of the loop over the devices of a bus. -/
def scanDevice (scan : UInt8 → PciArray → Option PciArray) (bus device : UInt8) (s : PciArray) :
    Option PciArray :=
  if answers cfg bus device 0 then do
    let s ← checkDevice cfg krealloc scan bus device 0 s
    if isMultifunction cfg bus device then
      (List.range' 1 7).foldlM (fun s function =>
        if answers cfg bus device (UInt8.ofNat function) then
          checkDevice cfg krealloc scan bus device (UInt8.ofNat function) s
        else some s) s
    else some s
  else some s

/-- `none` when more than `fuel` calls are nested. -/
def pciScanBus : (fuel : ℕ) → UInt8 → PciArray → Option PciArray
  | 0, _, _ => none
  | fuel + 1, bus, s =>
      (List.range 32).foldlM (fun s device =>
        scanDevice cfg krealloc (pciScanBus fuel) bus (UInt8.ofNat device) s) s

end Scan

/-! ## The functions on a bus -/

/-- A place for a function. -/
structure PciFunction where
  bus : UInt8
  device : UInt8
  function : UInt8
  deriving DecidableEq

namespace PciFunction

/-- There is something at that place: function 0 answers, and with the multifunction bit it is the
function itself that has to. -/
def present (cfg : ConfigSpace) (f : PciFunction) : Bool :=
  answers cfg f.bus f.device 0 && (f.function == 0 ||
    isMultifunction cfg f.bus f.device && answers cfg f.bus f.device f.function)

/-- A function that is present, of one of the 32 devices of its bus. -/
def Present (cfg : ConfigSpace) (f : PciFunction) : Prop :=
  f.device.toNat < 32 ∧ f.function.toNat < 8 ∧ f.present cfg = true

/-- The function is a PCI-to-PCI bridge. -/
def Bridge (cfg : ConfigSpace) (f : PciFunction) : Prop :=
  isBridge cfg f.bus f.device f.function = true

/-- The bus behind it, if it is a bridge. -/
def behind (cfg : ConfigSpace) (f : PciFunction) : UInt8 :=
  secondaryBus cfg f.bus f.device f.function

def record (cfg : ConfigSpace) (f : PciFunction) : PciDevice :=
  newPCIDevice cfg f.bus f.device f.function

end PciFunction

/-- A bridge on bus `a` leads to bus `b`. -/
def Leads (cfg : ConfigSpace) (a : UInt8) (f : PciFunction) (b : UInt8) : Prop :=
  f.bus = a ∧ f.Present cfg ∧ f.Bridge cfg ∧ f.behind cfg = b

/-- What a scan of bus `a` should record: the functions that are present and not a bridge, on `a`
and on the buses that its bridges lead to. -/
def Recorded (cfg : ConfigSpace) (a : UInt8) (r : PciDevice) : Prop :=
  ∃ f : PciFunction, Reach (Leads cfg) a f.bus ∧ f.Present cfg ∧ ¬ f.Bridge cfg ∧ r = f.record cfg

variable {cfg : ConfigSpace} {krealloc : (ℕ → PciDevice) → ℕ → ℕ → PciDevice} {f f' : PciFunction}
  {bus device : UInt8} {r : PciDevice} {new new' : List PciDevice} {sub : UInt8 → List PciDevice}
  {scan : UInt8 → PciArray → Option PciArray} {call call' : PciArray → Option PciArray}

/-- A record says which function it is of. -/
lemma record_inj (h : f.record cfg = f'.record cfg) : f = f' := by
  obtain ⟨bus, device, function⟩ := f
  obtain ⟨bus', device', function'⟩ := f'
  have hbus : bus = bus' := congrArg PciDevice.bus h
  have hdevice : device = device' := congrArg PciDevice.device h
  have hfunction : function = function' := congrArg PciDevice.function h
  rw [hbus, hdevice, hfunction]

/-- The functions of a device that are present, in the order in which a scan looks at them. -/
def deviceFunctions (cfg : ConfigSpace) (bus device : UInt8) : List PciFunction :=
  ((List.range 8).map fun n => ⟨bus, device, UInt8.ofNat n⟩).filter (PciFunction.present cfg)

/-- The functions on a bus. -/
def busFunctions (cfg : ConfigSpace) (bus : UInt8) : List PciFunction :=
  (List.range 32).flatMap fun n => deviceFunctions cfg bus (UInt8.ofNat n)

lemma toNat_ofNat_place {n : ℕ} (hn : n < 32) : (UInt8.ofNat n).toNat = n := by
  rw [UInt8.toNat_ofNat', Nat.mod_eq_of_lt (by omega)]

lemma ofNat_place_inj {n n' : ℕ} (hn : n < 32) (hn' : n' < 32)
    (h : UInt8.ofNat n = UInt8.ofNat n') : n = n' := by
  rw [← toNat_ofNat_place hn, h, toNat_ofNat_place hn']

lemma mem_deviceFunctions : f ∈ deviceFunctions cfg bus device ↔
    f.bus = bus ∧ f.device = device ∧ f.function.toNat < 8 ∧ f.present cfg = true := by
  rw [deviceFunctions, List.mem_filter, List.mem_map]
  constructor
  · rintro ⟨⟨n, hn, rfl⟩, hpresent⟩
    have hlt := List.mem_range.mp hn
    refine ⟨rfl, rfl, ?_, hpresent⟩
    rwa [toNat_ofNat_place (by omega)]
  · rintro ⟨rfl, rfl, hlt, hpresent⟩
    refine ⟨⟨f.function.toNat, List.mem_range.mpr hlt, ?_⟩, hpresent⟩
    rw [UInt8.ofNat_toNat]

lemma mem_busFunctions : f ∈ busFunctions cfg bus ↔ f.bus = bus ∧ f.Present cfg := by
  simp only [busFunctions, List.mem_flatMap, List.mem_range, mem_deviceFunctions]
  constructor
  · rintro ⟨n, hn, hbus, hdevice, hfunction, hpresent⟩
    refine ⟨hbus, ?_, hfunction, hpresent⟩
    rwa [hdevice, toNat_ofNat_place hn]
  · rintro ⟨hbus, hdevice, hfunction, hpresent⟩
    exact ⟨f.device.toNat, hdevice, hbus, UInt8.ofNat_toNat.symm, hfunction, hpresent⟩

lemma nodup_deviceFunctions (cfg : ConfigSpace) (bus device : UInt8) :
    (deviceFunctions cfg bus device).Nodup := by
  refine (List.Nodup.map_on ?_ List.nodup_range).filter _
  intro n hn n' hn' heq
  have hlt := List.mem_range.mp hn
  have hlt' := List.mem_range.mp hn'
  exact ofNat_place_inj (by omega) (by omega) (congrArg PciFunction.function heq)

lemma nodup_busFunctions (cfg : ConfigSpace) (bus : UInt8) : (busFunctions cfg bus).Nodup := by
  refine List.nodup_flatMap.mpr ⟨fun n _ => nodup_deviceFunctions .., ?_⟩
  refine List.nodup_range.pairwise_of_forall_ne ?_
  intro n hn n' hn' hne f hf hf'
  have hdevice := (mem_deviceFunctions.mp hf).2.1
  have hdevice' := (mem_deviceFunctions.mp hf').2.1
  exact hne (ofNat_place_inj (List.mem_range.mp hn) (List.mem_range.mp hn')
    (hdevice.symm.trans hdevice'))

/-! ## What a scan appends -/

/-- The entries of the array that are in use. -/
def PciArray.records (s : PciArray) : List PciDevice := (List.range s.totalDevices).map s.pciDevices

/-- The array has room: it keeps its entries when it is reallocated. -/
def KeepsEntries (krealloc : (ℕ → PciDevice) → ℕ → ℕ → PciDevice) : Prop :=
  ∀ entries size i, krealloc entries size i = entries i

/-- The call comes back, and has appended the records `new`. -/
def Appends (call : PciArray → Option PciArray) (new : List PciDevice) : Prop :=
  ∀ s, ∃ s', call s = some s' ∧ s'.records = s.records ++ new

lemma records_addPCIDevice (hroom : KeepsEntries krealloc) (newDevice : PciDevice) (s : PciArray) :
    (addPCIDevice krealloc newDevice s).records = s.records ++ [newDevice] := by
  have hsame : ∀ entries size, krealloc entries size = entries := fun entries size =>
    funext (hroom entries size)
  have hupdate : (addPCIDevice krealloc newDevice s).pciDevices =
      Function.update s.pciDevices s.totalDevices newDevice := by
    simp only [addPCIDevice]
    split_ifs
    · exact congrArg (Function.update · _ _) (hsame _ _)
    · rfl
  have htotal : (addPCIDevice krealloc newDevice s).totalDevices = s.totalDevices + 1 := by
    simp only [addPCIDevice]
    split_ifs <;> rfl
  rw [PciArray.records, hupdate, htotal, List.range_succ, List.map_append, List.map_singleton,
    Function.update_self]
  congr 1
  refine List.map_congr_left fun i hi => ?_
  rw [Function.update_of_ne (List.mem_range.mp hi).ne]

lemma appends_some : Appends some [] := fun s => ⟨s, rfl, (List.append_nil _).symm⟩

lemma Appends.bind (h : Appends call new) (h' : Appends call' new') :
    Appends (fun s => call s >>= call') (new ++ new') := by
  intro s
  obtain ⟨s₁, hcall, hrecords⟩ := h s
  obtain ⟨s₂, hcall', hrecords'⟩ := h' s₁
  refine ⟨s₂, ?_, by rw [hrecords', hrecords, List.append_assoc]⟩
  change call s >>= call' = some s₂
  rw [hcall]
  exact hcall'

/-- A loop appends what its turns append. -/
lemma appends_foldlM {α : Type} (body : PciArray → α → Option PciArray)
    (news : α → List PciDevice) : ∀ l : List α, (∀ x ∈ l, Appends (body · x) (news x)) →
      Appends (fun s => l.foldlM body s) (l.flatMap news)
  | [], _ => appends_some
  | x :: l, h => by
      have hrest := appends_foldlM body news l fun y hy => h y (List.mem_cons_of_mem x hy)
      exact (h x List.mem_cons_self).bind hrest

/-- What the scan of a bus appends for one of its functions: what is behind it, or its record. -/
def found (cfg : ConfigSpace) (sub : UInt8 → List PciDevice) (f : PciFunction) : List PciDevice :=
  if isBridge cfg f.bus f.device f.function then sub (f.behind cfg) else [f.record cfg]

lemma appends_checkDevice (hroom : KeepsEntries krealloc)
    (hsub : f.Bridge cfg → Appends (scan (f.behind cfg)) (sub (f.behind cfg))) :
    Appends (checkDevice cfg krealloc scan f.bus f.device f.function) (found cfg sub f) := by
  intro s
  rw [checkDevice, found]
  split_ifs with hbridge
  · exact hsub hbridge s
  · exact ⟨_, rfl, records_addPCIDevice hroom _ s⟩

/-- The functions from 1 on are there only with the multifunction bit. -/
lemma deviceFunctions_eq (h : answers cfg bus device 0 = true) : deviceFunctions cfg bus device =
    ⟨bus, device, 0⟩ :: ((List.range' 1 7).filter fun n =>
      isMultifunction cfg bus device && answers cfg bus device (UInt8.ofNat n)).map
        fun n => ⟨bus, device, UInt8.ofNat n⟩ := by
  have hrange : List.range 8 = 0 :: List.range' 1 7 := rfl
  have hfirst : PciFunction.present cfg ⟨bus, device, UInt8.ofNat 0⟩ = true := by
    rw [PciFunction.present, h]
    rfl
  rw [deviceFunctions, hrange, List.map_cons, List.filter_cons_of_pos hfirst, List.filter_map]
  congr 2
  refine List.filter_congr fun n hn => ?_
  obtain ⟨hpos, hlt⟩ := List.mem_range'_1.mp hn
  have hne : (UInt8.ofNat n == 0) = false := by
    refine beq_false_of_ne fun hzero => ?_
    have hn0 := congrArg UInt8.toNat hzero
    rw [toNat_ofNat_place (by omega), UInt8.toNat_zero] at hn0
    omega
  rw [Function.comp_apply, PciFunction.present, h, hne, Bool.true_and, Bool.false_or]

/-- Without an answer of function 0 there is nothing. -/
lemma deviceFunctions_nil (h : answers cfg bus device 0 = false) :
    deviceFunctions cfg bus device = [] := by
  refine List.eq_nil_iff_forall_not_mem.mpr fun f hf => ?_
  obtain ⟨rfl, rfl, -, hpresent⟩ := mem_deviceFunctions.mp hf
  rw [PciFunction.present, h, Bool.false_and] at hpresent
  exact Bool.noConfusion hpresent

lemma flatMap_filter {α β : Type} (l : List α) (p : α → Bool) (h : α → List β) :
    (l.filter p).flatMap h = l.flatMap fun x => if p x then h x else [] := by
  induction l with
  | nil => rfl
  | cons x l ih =>
      rw [List.filter_cons, List.flatMap_cons, ← ih]
      split_ifs <;> rfl

/-- One device. -/
lemma appends_scanDevice (hroom : KeepsEntries krealloc)
    (hsub : ∀ f ∈ deviceFunctions cfg bus device, f.Bridge cfg →
      Appends (scan (f.behind cfg)) (sub (f.behind cfg))) :
    Appends (scanDevice cfg krealloc scan bus device)
      ((deviceFunctions cfg bus device).flatMap (found cfg sub)) := by
  have hcheck : ∀ f ∈ deviceFunctions cfg bus device,
      Appends (checkDevice cfg krealloc scan bus device f.function) (found cfg sub f) := by
    intro f hf
    have happends := appends_checkDevice hroom (hsub f hf)
    obtain ⟨hbus, hdevice, -⟩ := mem_deviceFunctions.mp hf
    rwa [hbus, hdevice] at happends
  unfold scanDevice
  split_ifs with hanswers hmulti
  · -- function 0, and then a turn for each of the others
    rw [deviceFunctions_eq hanswers, hmulti] at hcheck ⊢
    rw [List.flatMap_cons, List.flatMap_map, flatMap_filter]
    refine (hcheck _ List.mem_cons_self).bind (appends_foldlM _ _ _ fun n hn => ?_)
    simp only [Bool.true_and]
    split_ifs with hn'
    · refine hcheck ⟨bus, device, UInt8.ofNat n⟩ (List.mem_cons_of_mem _ ?_)
      exact List.mem_map_of_mem (List.mem_filter.mpr ⟨hn, by rw [hn', Bool.true_and]⟩)
    · exact appends_some
  · rw [deviceFunctions_eq hanswers, Bool.eq_false_of_not_eq_true hmulti] at hcheck ⊢
    simp only [Bool.false_and, List.filter_false, List.map_nil] at hcheck ⊢
    rw [List.flatMap_cons]
    exact (hcheck _ List.mem_cons_self).bind appends_some
  · rw [deviceFunctions_nil (Bool.eq_false_of_not_eq_true hanswers)]
    exact appends_some

/-- **One bus**, if the calls for the buses behind its bridges append what is there. -/
lemma appends_pciScanBus {fuel : ℕ} (hroom : KeepsEntries krealloc)
    (hsub : ∀ f ∈ busFunctions cfg bus, f.Bridge cfg →
      Appends (pciScanBus cfg krealloc fuel (f.behind cfg)) (sub (f.behind cfg))) :
    Appends (pciScanBus cfg krealloc (fuel + 1) bus)
      ((busFunctions cfg bus).flatMap (found cfg sub)) := by
  rw [busFunctions, List.flatMap_assoc]
  exact appends_foldlM _ _ _ fun n hn => appends_scanDevice hroom fun f hf =>
    hsub f (List.mem_flatMap.mpr ⟨n, hn, hf⟩)

/-! ## The whole tree -/

/-- Exactly the records that a scan of bus `a` should make, and none twice. -/
structure ExactRecords (cfg : ConfigSpace) (a : UInt8) (new : List PciDevice) : Prop where
  nodup : new.Nodup
  mem_iff : ∀ r, r ∈ new ↔ Recorded cfg a r

/-- The records of a bus are those of its functions. -/
lemma recorded_iff : Recorded cfg bus r ↔ ∃ f ∈ busFunctions cfg bus,
    (f.Bridge cfg ∧ Recorded cfg (f.behind cfg) r) ∨ (¬ f.Bridge cfg ∧ r = f.record cfg) := by
  constructor
  · rintro ⟨f, hreach, hpresent, hbridge, rfl⟩
    rcases Relation.ReflTransGen.cases_head hreach with heq | ⟨b, ⟨e, hbus, he, hebridge, rfl⟩, hb⟩
    · exact ⟨f, mem_busFunctions.mpr ⟨heq.symm, hpresent⟩, Or.inr ⟨hbridge, rfl⟩⟩
    · exact ⟨e, mem_busFunctions.mpr ⟨hbus, he⟩, Or.inl ⟨hebridge, f, hb, hpresent, hbridge, rfl⟩⟩
  · rintro ⟨f, hf, ⟨hbridge, f', hreach, hpresent, hend, rfl⟩ | ⟨hbridge, rfl⟩⟩
    · obtain ⟨hbus, hf⟩ := mem_busFunctions.mp hf
      exact ⟨f', hreach.head ⟨f, hbus, hf, hbridge, rfl⟩, hpresent, hend, rfl⟩
    · obtain ⟨rfl, hpresent⟩ := mem_busFunctions.mp hf
      exact ⟨f, .refl, hpresent, hbridge, rfl⟩

lemma exactRecords_bus (htree : IsTree (Leads cfg) 0) (hbus : Reach (Leads cfg) 0 bus)
    (hsub : ∀ f ∈ busFunctions cfg bus, f.Bridge cfg →
      ExactRecords cfg (f.behind cfg) (sub (f.behind cfg))) :
    ExactRecords cfg bus ((busFunctions cfg bus).flatMap (found cfg sub)) := by
  have hfound : ∀ f ∈ busFunctions cfg bus, ∀ r, r ∈ found cfg sub f ↔
      (f.Bridge cfg ∧ Recorded cfg (f.behind cfg) r) ∨ (¬ f.Bridge cfg ∧ r = f.record cfg) := by
    intro f hf r
    rw [found]
    split_ifs with hbridge
    · rw [(hsub f hf hbridge).mem_iff]
      simp [PciFunction.Bridge, hbridge]
    · simp [PciFunction.Bridge, hbridge]
  constructor
  case mem_iff =>
    intro r
    rw [List.mem_flatMap, recorded_iff]
    exact exists_congr fun f => and_congr_right fun hf => hfound f hf r
  case nodup =>
    refine List.nodup_flatMap.mpr ⟨fun f hf => ?_, ?_⟩
    · rw [found]
      split_ifs with hbridge
      · exact (hsub f hf hbridge).nodup
      · exact List.nodup_singleton _
    · refine (nodup_busFunctions cfg bus).pairwise_of_forall_ne fun f hf f' hf' hne r hr hr' =>
        hne ?_
      obtain ⟨hon, hpresent⟩ := mem_busFunctions.mp hf
      obtain ⟨hon', hpresent'⟩ := mem_busFunctions.mp hf'
      rcases (hfound f hf r).mp hr with ⟨hbridge, e, hreach, _, _, rfl⟩ | ⟨hbridge, rfl⟩ <;>
        rcases (hfound f' hf' _).mp hr' with ⟨hbridge', e', hreach', _, _, hsame⟩ |
          ⟨hbridge', hsame⟩
      · -- both are bridges: nothing is behind both of them
        obtain rfl := record_inj hsame
        exact htree.subtrees_apart hbus ⟨hon, hpresent, hbridge, rfl⟩
          ⟨hon', hpresent', hbridge', rfl⟩ hreach hreach'
      · -- one is, and the other is not behind it
        obtain rfl := record_inj hsame
        rw [hon'] at hreach
        exact absurd hreach (htree.not_reach_parent hbus ⟨f, hon, hpresent, hbridge, rfl⟩)
      · obtain rfl := record_inj hsame
        rw [hon] at hreach'
        exact absurd hreach' (htree.not_reach_parent hbus ⟨f', hon', hpresent', hbridge', rfl⟩)
      · exact record_inj hsame

/-- **Enumeration is exact.**  Where each bus is behind one bridge and no bridge leads back, the
scan of bus 0 comes back, and has appended one record for each function that can be reached, is
present and is not a bridge, and no other. -/
theorem pciScanBus_exact (cfg : ConfigSpace)
    (krealloc : (ℕ → PciDevice) → ℕ → ℕ → PciDevice) (hroom : KeepsEntries krealloc)
    (htree : IsTree (Leads cfg) 0) :
    ∃ new, ExactRecords cfg 0 new ∧ ∃ n, ∀ fuel, n ≤ fuel →
      Appends (pciScanBus cfg krealloc fuel 0) new := by
  have hfinite : Finite UInt8 :=
    Finite.of_injective UInt8.toFin fun a b h => UInt8.toNat_inj.mp (congrArg Fin.val h)
  refine htree.induction (motive := fun bus => ∃ new, ExactRecords cfg bus new ∧ ∃ n, ∀ fuel,
    n ≤ fuel → Appends (pciScanBus cfg krealloc fuel bus) new) ?_ .refl
  intro bus hbus ih
  choose! sub hexact depth happends using ih
  have hstep : ∀ f ∈ busFunctions cfg bus, f.Bridge cfg → Step (Leads cfg) bus (f.behind cfg) := by
    intro f hf hbridge
    obtain ⟨hon, hpresent⟩ := mem_busFunctions.mp hf
    exact ⟨f, hon, hpresent, hbridge, rfl⟩
  obtain ⟨n, hn⟩ := Finite.bddAbove_range depth
  refine ⟨_, exactRecords_bus htree hbus fun f hf hbridge => hexact _ (hstep f hf hbridge), n + 1,
    fun fuel hfuel => ?_⟩
  obtain ⟨k, rfl⟩ : ∃ k, fuel = k + 1 := ⟨fuel - 1, by omega⟩
  refine appends_pciScanBus hroom fun f hf hbridge => ?_
  have hdepth : depth (f.behind cfg) ≤ n := hn ⟨_, rfl⟩
  exact happends _ (hstep f hf hbridge) _ (by omega)

/-! ## Two buses -/

lemma toNat_field (w : UInt32) {k : ℕ} (hk : k < 32) (h : 2 ^ k * w.toNat < 2 ^ 32) :
    (w <<< UInt32.ofNat k).toNat = 2 ^ k * w.toNat := by
  rw [UInt32.toNat_shiftLeft, UInt32.toNat_ofNat', Nat.mod_eq_of_lt (show k < 2 ^ 32 by omega),
    Nat.mod_eq_of_lt hk, Nat.shiftLeft_eq, Nat.mul_comm, Nat.mod_eq_of_lt h]

/-- The value written to the address port has a field for each argument. -/
lemma toNat_configAddress (bus device func reg : UInt8) :
    (configAddress bus device func reg).toNat = 2 ^ 31 + 2 ^ 16 * bus.toNat +
      2 ^ 11 * (device.toNat % 32) + 2 ^ 8 * (func.toNat % 8) + (reg.toNat - reg.toNat % 4) := by
  have hbus := bus.toNat_lt
  have hreg := reg.toNat_lt
  have hdevice : (device.toUInt32 &&& 31).toNat = device.toNat % 32 :=
    (UInt32.toNat_and ..).trans (Nat.and_two_pow_sub_one_eq_mod _ 5)
  have hfunc : (func.toUInt32 &&& 7).toNat = func.toNat % 8 :=
    (UInt32.toNat_and ..).trans (Nat.and_two_pow_sub_one_eq_mod _ 3)
  have hmask : (~~~(3 : UInt32)).toNat = 4294967292 := rfl
  have hlow : ∀ r, r < 256 → r &&& 4294967292 = r - r % 4 := by decide +kernel
  have hreg' : (reg.toUInt32 &&& ~~~(3 : UInt32)).toNat = reg.toNat - reg.toNat % 4 := by
    rw [UInt32.toNat_and, UInt8.toNat_toUInt32, hmask, hlow _ hreg]
  have htop : ((1 : UInt32) <<< 31).toNat = 2 ^ 31 * 1 := rfl
  have hbus' : (bus.toUInt32 <<< 16).toNat = 2 ^ 16 * bus.toNat :=
    toNat_field _ (k := 16) (by omega) (by rw [UInt8.toNat_toUInt32]; omega)
  have hdevice' :=
    toNat_field (device.toUInt32 &&& 31) (k := 11) (by omega) (by rw [hdevice]; omega)
  have hfunc' := toNat_field (func.toUInt32 &&& 7) (k := 8) (by omega) (by rw [hfunc]; omega)
  rw [hdevice, show UInt32.ofNat 11 = 11 from rfl] at hdevice'
  rw [hfunc, show UInt32.ofNat 8 = 8 from rfl] at hfunc'
  -- the fields do not overlap, so that the bitwise or is a sum
  have hsum : ∀ {i a b : ℕ}, b < 2 ^ i → 2 ^ i * a ||| b = 2 ^ i * a + b := fun hlt =>
    (Nat.two_pow_add_eq_or_of_lt hlt _).symm
  rw [configAddress, UInt32.toNat_or, UInt32.toNat_or, UInt32.toNat_or, UInt32.toNat_or, hreg',
    hfunc', hdevice', hbus', htop, Nat.or_assoc, Nat.or_assoc, Nat.or_assoc,
    hsum (i := 8) (b := reg.toNat - reg.toNat % 4) (by omega), hsum (i := 11) (by omega),
    hsum (i := 16) (by omega), hsum (i := 31) (by omega)]
  omega

/-- A bridge at device 1 of bus 0, and a network controller at device 0 of the bus behind it. -/
def twoBuses : ConfigSpace := fun address =>
  match (address.toNat - 2 ^ 31) / 2 ^ 8, address.toNat % 2 ^ 8 with
  | 0x008, 0x00 => 0x244e8086
  | 0x008, 0x08 => 0x06040000
  | 0x008, 0x0c => 0x00010000
  | 0x008, 0x18 => 0x00010100
  | 0x100, 0x00 => 0x100e8086
  | 0x100, 0x08 => 0x02000003
  | 0x100, 0x0c => 0
  | _, _ => 0xffffffff

lemma answers_twoBuses (h : answers twoBuses bus device 0 = true) (hdevice : device.toNat < 32) :
    (bus = 0 ∧ device = 1) ∨ (bus = 1 ∧ device = 0) := by
  have hbus := bus.toNat_lt
  have haddress := toNat_configAddress bus device 0 0
  rw [UInt8.toNat_zero] at haddress
  rw [answers, pciRead, twoBuses] at h
  split at h
  case h_1 hplace _ =>
    left
    refine ⟨UInt8.toNat_inj.mp ?_, UInt8.toNat_inj.mp ?_⟩
    · change _ = 0
      omega
    · change _ = 1
      omega
  case h_5 hplace _ =>
    right
    refine ⟨UInt8.toNat_inj.mp ?_, UInt8.toNat_inj.mp ?_⟩
    · change _ = 1
      omega
    · change _ = 0
      omega
  all_goals first | omega | exact absurd h (by decide)

/-- The bridge is the only one. -/
lemma leads_twoBuses {a b : UInt8} (h : Leads twoBuses a f b) : a = 0 ∧ f = ⟨0, 1, 0⟩ ∧ b = 1 := by
  obtain ⟨rfl, ⟨hdevice, hfunction, hpresent⟩, hbridge, rfl⟩ := h
  obtain ⟨bus, device, function⟩ := f
  rw [PciFunction.present, Bool.and_eq_true] at hpresent
  obtain ⟨hanswers, hkind⟩ := hpresent
  have hplace : (bus = 0 ∧ device = 1) ∨ (bus = 1 ∧ device = 0) := answers_twoBuses hanswers hdevice
  rcases hplace with ⟨rfl, rfl⟩ | ⟨rfl, rfl⟩
  · have hsingle : isMultifunction twoBuses 0 1 = false := by decide
    rw [hsingle, Bool.false_and, Bool.or_false, beq_iff_eq] at hkind
    subst hkind
    exact ⟨rfl, rfl, by decide⟩
  · have hsingle : isMultifunction twoBuses 1 0 = false := by decide
    rw [hsingle, Bool.false_and, Bool.or_false, beq_iff_eq] at hkind
    subst hkind
    exact absurd hbridge (by unfold PciFunction.Bridge; decide)

/-- The network controller is found behind the bridge. -/
theorem pciScanBus_exact_twoBuses : ∃ new, ExactRecords twoBuses 0 new ∧ ∃ n, ∀ fuel, n ≤ fuel →
    Appends (pciScanBus twoBuses (fun entries _ => entries) fuel 0) new := by
  refine pciScanBus_exact twoBuses _ (fun _ _ _ => rfl) ⟨?_, ?_⟩
  · intro a e _ hleads
    exact absurd (leads_twoBuses hleads).2.2 (by decide)
  · intro a e a' e' b _ _ hleads hleads'
    obtain ⟨rfl, rfl, -⟩ := leads_twoBuses hleads
    obtain ⟨rfl, rfl, -⟩ := leads_twoBuses hleads'
    exact ⟨rfl, rfl⟩

end Seaweed
