import Seaweed.Drivers.Pci
import Seaweed.Library.Records
import Seaweed.Mm.Krealloc

/-!
# The list of the devices (`kernel/drivers/pci.c`)

`initPCI` allocates an array of ten records, and `addPCIDevice` has it grow.  The array of `Pci` has
no end; here it is in memory, in blocks of the heap.

* `PciStore`, `initPCI`, `PciStore.addPCIDevice` — the code.
* `PciStore.Represents` — the array in memory holds what the array without end does.
* `PciStore.Represents.add` — as long as it does not grow, adding a device keeps that.
* `ListGrows` — all writes are inside the array, and in the end it holds what was added.
* **`addPCIDevice_grows_iff`** — it does for ten devices.
-/

namespace Seaweed

open Memory Records Words

/-! ## The code -/

/-- `sizeof(pci_t)`: there is a byte of padding before the identifiers, and one at the end. -/
def sizeofPci : ℕ := 12

/-- A structure is stored; its padding is left alone. -/
def storePci (mem : Mem) (a : UInt64) (d : PciDevice) : Mem :=
  storeBytes (storeBytes mem a [d.classCode, d.subclass, d.progIF]) (a + 4)
    [d.deviceID.toUInt8, (d.deviceID >>> 8).toUInt8, d.vendorID.toUInt8, (d.vendorID >>> 8).toUInt8,
      d.bus, d.device, d.function]

def loadPci (mem : Mem) (a : UInt64) : PciDevice where
  classCode := mem a
  subclass := mem (a + 1)
  progIF := mem (a + 2)
  deviceID := UInt16.ofNat (load mem (a + 4) 2)
  vendorID := UInt16.ofNat (load mem (a + 6) 2)
  bus := mem (a + 8)
  device := mem (a + 9)
  function := mem (a + 10)

/-- The bytes of the blocks that a call of `kmalloc` marks, which has returned `p`. -/
def allocatedBytes (p : Option UInt64) (size : UInt64) : ℕ :=
  if p.isSome then 32 * (ROUNDUP size 32).toNat else 0

/-- The globals and what they depend on.  `allocated` is the size of the array, which the code does
not know. -/
structure PciStore where
  pciDevices : UInt64
  allocated : ℕ
  totalDevices : ℕ
  maxSize : ℕ
  heap : Heap
  mem : Mem

/-- The first statement of `initPCI`. -/
def initPCI (heap : Heap) (mem : Mem) : PciStore where
  pciDevices := (kmalloc heap (UInt64.ofNat (sizeofPci * 10))).1.getD 0
  allocated :=
    allocatedBytes (kmalloc heap (UInt64.ofNat (sizeofPci * 10))).1 (UInt64.ofNat (sizeofPci * 10))
  totalDevices := 0
  maxSize := 10
  heap := (kmalloc heap (UInt64.ofNat (sizeofPci * 10))).2
  mem := mem

namespace PciStore

/-- `maxSize += 10; pciDevices = krealloc(pciDevices, maxSize);` -/
def realloc (s : PciStore) : PciStore :=
  let size := UInt64.ofNat (s.maxSize + 10)
  let grown := krealloc s.heap s.mem s.pciDevices size
  { s with
    pciDevices := grown.1.getD 0
    allocated := allocatedBytes grown.1 ((kfree s.heap s.pciDevices).1 + size)
    maxSize := s.maxSize + 10
    heap := grown.2.1
    mem := grown.2.2 }

/-- The array as it is when the record is written. -/
def grow (s : PciStore) : PciStore := if s.totalDevices > s.maxSize then s.realloc else s

def addPCIDevice (s : PciStore) (newDevice : PciDevice) : PciStore :=
  let s := s.grow
  { s with
    mem := storePci s.mem (element s.pciDevices sizeofPci s.totalDevices) newDevice
    totalDevices := s.totalDevices + 1 }

/-- One call after the other. -/
def addAll (s : PciStore) (devices : List PciDevice) : PciStore := devices.foldl addPCIDevice s

end PciStore

/-! ## What should hold -/

/-- In the calls for these devices every record is written inside the array, the count is the number
of calls, and afterwards the array holds the devices. -/
structure ListGrows (s : PciStore) (devices : List PciDevice) : Prop where
  inside : ∀ k, k < devices.length →
    sizeofPci * ((s.addAll (devices.take k)).grow.totalDevices + 1) ≤
      (s.addAll (devices.take k)).grow.allocated
  counts : ∀ k, k ≤ devices.length → (s.addAll (devices.take k)).totalDevices = k
  holds : ∀ (k : ℕ) d, devices[k]? = some d →
    loadPci (s.addAll devices).mem (element (s.addAll devices).pciDevices sizeofPci k) = d

variable {s : PciStore} {array : PciArray} {d : PciDevice} {devices : List PciDevice} {heap : Heap}
  {mem mem' : Mem} {a p : UInt64}

/-! ## A record in memory -/

/-- The bytes of a record decide what it is. -/
lemma loadPci_congr {b : UInt64}
    (h : ∀ k, k < sizeofPci → mem (a + UInt64.ofNat k) = mem' (b + UInt64.ofNat k)) :
    loadPci mem a = loadPci mem' b := by
  have hbyte : ∀ c, c < sizeofPci → mem (a + UInt64.ofNat c) = mem' (b + UInt64.ofNat c) := h
  have hword : ∀ c, c + 2 ≤ sizeofPci →
      load mem (a + UInt64.ofNat c) 2 = load mem' (b + UInt64.ofNat c) 2 := by
    intro c hc
    refine load_congr fun i hi => ?_
    rw [UInt64.add_assoc, UInt64.add_assoc, ← UInt64.ofNat_add]
    exact h (c + i) (by omega)
  rw [loadPci, loadPci, PciDevice.mk.injEq]
  refine ⟨?_, hbyte 1 (by decide), hbyte 2 (by decide), congrArg _ (hword 4 (by decide)),
    congrArg _ (hword 6 (by decide)), hbyte 8 (by decide), hbyte 9 (by decide),
    hbyte 10 (by decide)⟩
  simpa using hbyte 0 (by decide)

/-- Two bytes, put together again. -/
lemma ofNat_bytes (v : UInt16) :
    UInt16.ofNat (v.toUInt8.toNat + 256 * (v >>> 8).toUInt8.toNat) = v := by
  have hlt := v.toNat_lt
  have hshift : (v >>> 8).toNat = v.toNat / 256 := by
    rw [UInt16.toNat_shiftRight]
    exact Nat.shiftRight_eq_div_pow v.toNat 8
  rw [← UInt16.toNat_inj, UInt16.toNat_ofNat', UInt16.toNat_toUInt8, UInt16.toNat_toUInt8, hshift]
  omega

/-- **A record is read back.** -/
lemma loadPci_storePci (mem : Mem) (a : UInt64) (d : PciDevice) :
    loadPci (storePci mem a d) a = d := by
  have hupper : ∀ k v, k < 7 → [d.deviceID.toUInt8, (d.deviceID >>> 8).toUInt8, d.vendorID.toUInt8,
      (d.vendorID >>> 8).toUInt8, d.bus, d.device, d.function][k]? = some v →
      storePci mem a d (a + 4 + UInt64.ofNat k) = v := fun k v hk hv =>
    storeBytes_inside (by omega) hv
  have hlower : ∀ k v, k < 3 → [d.classCode, d.subclass, d.progIF][k]? = some v →
      storePci mem a d (a + UInt64.ofNat k) = v := by
    intro k v hk hv
    rw [storePci, storeBytes_outside, storeBytes_inside (by omega) hv]
    have hback : a + UInt64.ofNat k - (a + 4) = UInt64.ofNat k - 4 := by
      rw [UInt64.sub_eq_add_neg, UInt64.neg_add, UInt64.sub_eq_add_neg, ← UInt64.add_assoc,
        UInt64.add_comm a, UInt64.add_assoc (UInt64.ofNat k), ← UInt64.sub_eq_add_neg a,
        UInt64.sub_self, UInt64.add_zero, UInt64.sub_eq_add_neg]
    rw [hback, UInt64.toNat_sub, toNat_ofNat_of_lt (by omega)]
    simp only [UInt64.reduceToNat, List.length_cons, List.length_nil]
    omega
  have hplace : ∀ c k, a + UInt64.ofNat (4 + k) = c → a + 4 + UInt64.ofNat k = c := by
    rintro _ k rfl
    rw [UInt64.ofNat_add, UInt64.add_assoc]
    rfl
  have hword : ∀ c, load (storePci mem a d) c 2 =
      (storePci mem a d c).toNat + 256 * (storePci mem a d (c + 1)).toNat := fun c => by
    simp [load]
  have hnext : ∀ c, a + c + 1 = a + (c + 1) := fun c => UInt64.add_assoc ..
  have hfirst : storePci mem a d a = d.classCode := by simpa using hlower 0 _ (by decide) rfl
  rw [loadPci, hword, hword, hnext, hnext, ← hplace (a + 4) 0 rfl, ← hplace (a + (4 + 1)) 1 rfl,
    ← hplace (a + 6) 2 rfl, ← hplace (a + (6 + 1)) 3 rfl, ← hplace (a + 8) 4 rfl,
    ← hplace (a + 9) 5 rfl, ← hplace (a + 10) 6 rfl, hupper 0 _ (by decide) rfl,
    hupper 1 _ (by decide) rfl,
    hupper 2 _ (by decide) rfl, hupper 3 _ (by decide) rfl, hupper 4 _ (by decide) rfl,
    hupper 5 _ (by decide) rfl, hupper 6 _ (by decide) rfl, hfirst, ofNat_bytes, ofNat_bytes]
  have hsecond : storePci mem a d (a + 1) = d.subclass := hlower 1 _ (by decide) rfl
  have hthird : storePci mem a d (a + 2) = d.progIF := hlower 2 _ (by decide) rfl
  rw [hsecond, hthird]

/-- It is not seen outside. -/
lemma storePci_outside {x : UInt64} (h : sizeofPci ≤ (x - a).toNat) :
    storePci mem a d x = mem x := by
  have hsize : sizeofPci = 12 := rfl
  have hfour : (4 : UInt64) = UInt64.ofNat 4 := rfl
  rw [storePci, storeBytes_outside, storeBytes_outside]
  · simp only [List.length_cons, List.length_nil]
    omega
  · rw [hfour, toNat_sub_add_ofNat (by omega)]
    simp only [List.length_cons, List.length_nil]
    omega

/-! ## The array without end -/

/-- The array in memory holds what the other one does. -/
structure PciStore.Represents (s : PciStore) (array : PciArray) : Prop where
  total : s.totalDevices = array.totalDevices
  size : s.maxSize = array.maxSize
  entries : ∀ i, i < s.totalDevices →
    loadPci s.mem (element s.pciDevices sizeofPci i) = array.pciDevices i

/-- A call that does not reallocate leaves the array where it is. -/
lemma grow_eq (h : s.totalDevices ≤ s.maxSize) : s.grow = s := if_neg (Nat.not_lt.mpr h)

/-- **As long as it does not grow**, the array in memory does what the array without end does,
however that is reallocated. -/
lemma PciStore.Represents.add (h : s.Represents array) (hsize : s.totalDevices ≤ s.maxSize)
    (hsmall : s.totalDevices < 2 ^ 32) (krealloc : (ℕ → PciDevice) → ℕ → ℕ → PciDevice)
    (d : PciDevice) :
    (s.addPCIDevice d).Represents (Seaweed.addPCIDevice krealloc d array) := by
  have hgrow : ¬array.totalDevices > array.maxSize := by
    rw [← h.total, ← h.size]
    exact Nat.not_lt.mpr hsize
  have hrecord : sizeofPci = 12 := rfl
  rw [PciStore.addPCIDevice, grow_eq hsize, Seaweed.addPCIDevice, if_neg hgrow]
  constructor
  case total => exact congrArg (· + 1) h.total
  case size => exact h.size
  case entries =>
    intro i hi
    dsimp only at hi ⊢
    rw [← h.total]
    rcases Nat.lt_succ_iff_lt_or_eq.mp hi with hlt | rfl
    · rw [Function.update_of_ne hlt.ne, ← h.entries i hlt]
      refine loadPci_congr fun k hk => storePci_outside ?_
      have hne : ((s.totalDevices : ℕ) : ℤ) ≠ i := by omega
      exact element_apart (n := s.totalDevices) hne (by rw [Nat.abs_cast])
        (by rw [Nat.abs_cast]; omega)
        (by rw [hrecord]; omega) hk
    · rw [Function.update_self]
      exact loadPci_storePci _ _ d

/-- What is added to the array without end is in it, one device after the other. -/
lemma records_foldl (array : PciArray) (devices : List PciDevice) :
    (devices.foldl (fun array d => addPCIDevice (fun entries _ => entries) d array) array).records =
      array.records ++ devices := by
  induction devices generalizing array with
  | nil => exact (List.append_nil _).symm
  | cons d devices ih =>
      rw [List.foldl_cons, ih, records_addPCIDevice (fun _ _ _ => rfl), List.append_assoc]
      rfl

/-! ## Up to ten devices -/

/-- Ten records fit into four blocks, and eleven do not. -/
lemma allocated_initPCI (hmalloc : (kmalloc heap (UInt64.ofNat (sizeofPci * 10))).1 = some p) :
    (initPCI heap mem).allocated = 128 := by
  rw [initPCI, hmalloc]
  rfl

lemma addAll_concat (s : PciStore) (devices : List PciDevice) (d : PciDevice) :
    s.addAll (devices ++ [d]) = (s.addAll devices).addPCIDevice d := by
  rw [PciStore.addAll, List.foldl_append]
  rfl

/-- **The first calls**, eleven of them, leave the array where it is. -/
lemma addAll_keeps (s : PciStore) (hstart : s.totalDevices = 0) (hmax : s.maxSize = 10) :
    ∀ devices : List PciDevice, devices.length ≤ 11 →
      (s.addAll devices).pciDevices = s.pciDevices ∧ (s.addAll devices).allocated = s.allocated ∧
      (s.addAll devices).totalDevices = devices.length ∧ (s.addAll devices).maxSize = 10 := by
  intro devices
  induction devices using List.reverseRecOn with
  | nil => exact fun _ => ⟨rfl, rfl, hstart, hmax⟩
  | append_singleton devices d ih =>
      intro hlength
      rw [List.length_append, List.length_singleton] at hlength
      obtain ⟨hplace, hallocated, htotal, hsize⟩ := ih (by omega)
      rw [addAll_concat, PciStore.addPCIDevice, grow_eq (by omega), List.length_append,
        List.length_singleton]
      exact ⟨hplace, hallocated, congrArg (· + 1) htotal, hsize⟩

/-- They do to the array in memory what they do to the one without end. -/
lemma addAll_represents (h : s.Represents array) (hstart : s.totalDevices = 0)
    (hmax : s.maxSize = 10) :
    ∀ devices : List PciDevice, devices.length ≤ 11 → (s.addAll devices).Represents
      (devices.foldl (fun array d => addPCIDevice (fun entries _ => entries) d array) array) := by
  intro devices
  induction devices using List.reverseRecOn with
  | nil => exact fun _ => h
  | append_singleton devices d ih =>
      intro hlength
      rw [List.length_append, List.length_singleton] at hlength
      obtain ⟨_, _, htotal, hsize⟩ := addAll_keeps s hstart hmax devices (by omega)
      rw [addAll_concat, List.foldl_append]
      exact (ih (by omega)).add (by omega) (by omega) (fun entries _ => entries) d

lemma ListGrows.of_le (hmalloc : (kmalloc heap (UInt64.ofNat (sizeofPci * 10))).1 = some p)
    (hten : devices.length ≤ 10) : ListGrows (initPCI heap mem) devices := by
  have hrecord : sizeofPci = 12 := rfl
  have hkeeps := fun k => addAll_keeps (initPCI heap mem) rfl rfl (devices.take k)
    (by rw [List.length_take]; omega)
  constructor
  case inside =>
    intro k hk
    obtain ⟨_, hallocated, htotal, hsize⟩ := hkeeps k
    rw [List.length_take] at htotal
    rw [grow_eq (by omega), hallocated, allocated_initPCI hmalloc, htotal, hrecord]
    omega
  case counts =>
    intro k hk
    rw [(hkeeps k).2.2.1, List.length_take]
    omega
  case holds =>
    intro k d hd
    obtain ⟨hk, hget⟩ := List.getElem?_eq_some_iff.mp hd
    obtain ⟨_, _, htotal, _⟩ := addAll_keeps (initPCI heap mem) rfl rfl devices (by omega)
    have hempty : (initPCI heap mem).Represents ⟨fun _ => d, 0, 10⟩ :=
      ⟨rfl, rfl, fun i hi => absurd hi (Nat.not_lt_zero i)⟩
    have hrepresents := addAll_represents hempty rfl rfl devices (by omega)
    have hrecords := records_foldl ⟨fun _ => d, 0, 10⟩ devices
    rw [hrepresents.entries k (by omega)]
    have hentry := congrArg (·[k]?) hrecords
    rw [PciArray.records, ← hrepresents.total, htotal] at hentry
    simpa [PciArray.records, hk, hget] using hentry

lemma ListGrows.le_ten (h : ListGrows (initPCI heap mem) devices)
    (hmalloc : (kmalloc heap (UInt64.ofNat (sizeofPci * 10))).1 = some p) :
    devices.length ≤ 10 := by
  have hrecord : sizeofPci = 12 := rfl
  by_contra hmore
  obtain ⟨_, hallocated, htotal, hsize⟩ := addAll_keeps (initPCI heap mem) rfl rfl (devices.take 10)
    (by rw [List.length_take]; omega)
  rw [List.length_take] at htotal
  have hinside := h.inside 10 (by omega)
  rw [grow_eq (by omega), hallocated, allocated_initPCI hmalloc, htotal, hrecord] at hinside
  omega

/-- **The list is right exactly up to ten devices.**  The eleventh is written behind the array. -/
theorem addPCIDevice_grows_iff (heap : Heap) (mem : Mem) (devices : List PciDevice) (p : UInt64)
    (hmalloc : (kmalloc heap (UInt64.ofNat (sizeofPci * 10))).1 = some p) :
    ListGrows (initPCI heap mem) devices ↔ devices.length ≤ 10 :=
  ⟨fun h => h.le_ten hmalloc, fun hten => .of_le hmalloc hten⟩

/-- An empty heap at 1 MiB. -/
def emptyHeap : Heap := ⟨0x100000, 0, fun _ => 0, 0, fun _ => ⟨0, 0⟩⟩

lemma kmalloc_emptyHeap :
    (kmalloc emptyHeap (UInt64.ofNat (sizeofPci * 10))).1 = some (0x100000 + HIGH_VMA) := by
  decide +kernel

/-- Three devices, the host bridge, a network controller and a disk controller. -/
theorem addPCIDevice_three : ListGrows (initPCI emptyHeap fun _ => 0)
    [⟨6, 0, 0, 0x1237, 0x8086, 0, 0, 0⟩, ⟨2, 0, 0, 0x100e, 0x8086, 0, 3, 0⟩,
      ⟨1, 6, 1, 0x2922, 0x8086, 0, 31, 2⟩] :=
  (addPCIDevice_grows_iff _ _ _ _ kmalloc_emptyHeap).mpr (by decide)

/-- Eleven devices. -/
theorem addPCIDevice_eleven : ¬ListGrows (initPCI emptyHeap fun _ => 0)
    (List.replicate 11 ⟨6, 0, 0, 0x1237, 0x8086, 0, 0, 0⟩) :=
  fun h => absurd (h.le_ten kmalloc_emptyHeap) (by decide)

end Seaweed
