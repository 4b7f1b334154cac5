import Seaweed.Drivers.Pci

/-!
# The size of a BAR (`kernel/drivers/pci.c`)

A base address register holds an address, and in its four lower bits flags that cannot be written.
To find out how much there is at the address one writes all ones: the bits that stay 0 are below the
size.

* `PciPorts` — the two ports, with registers some of whose bits can be written.
* `getBAR` — the code.
* `HasBar` — the register is a BAR with a size, a base and flags.
* `getBAR_restores` — `getBAR` leaves every register as it was, whatever its writable bits are.
* **`getBAR_decodes_iff`** — it decodes the base and the size exactly if there are no flags.
-/

namespace Seaweed

/-! ## The code -/

/-- `address` is what has been written to port `0xcf8`; `writable` are the bits of a register that
can be written. -/
structure PciPorts where
  address : UInt32
  registers : UInt32 → UInt32
  writable : UInt32 → UInt32

namespace PciPorts

/-- `outd(0xcfc, data)`. -/
def outData (s : PciPorts) (data : UInt32) : PciPorts :=
  { s with
    registers := Function.update s.registers s.address
      (s.registers s.address &&& ~~~s.writable s.address ||| data &&& s.writable s.address) }

def pciRead (s : PciPorts) (bus device func reg : UInt8) : UInt32 × PciPorts :=
  let s := { s with address := configAddress bus device func reg }
  (s.registers s.address, s)

example (s : PciPorts) (bus device func reg : UInt8) :
    (s.pciRead bus device func reg).1 = Seaweed.pciRead s.registers bus device func reg := rfl

def pciWrite (s : PciPorts) (data : UInt32) (bus device func reg : UInt8) : PciPorts :=
  let s := { s with address := configAddress bus device func reg }
  s.outData data

end PciPorts

/-- `pciBar_t`. -/
structure PciBar where
  base : UInt32
  size : UInt32
  deriving DecidableEq

/-- The number of the register of a BAR. -/
def barReg (barNum : UInt64) : UInt8 := (0x10 + barNum * 4).toUInt8

def getBAR (s : PciPorts) (device : PciDevice) (barNum : UInt64) : PciBar × PciPorts :=
  let base := s.pciRead device.bus device.device device.function (barReg barNum)
  let s := base.2.pciWrite 0xffffffff device.bus device.device device.function (barReg barNum)
  let size := s.pciRead device.bus device.device device.function (barReg barNum)
  let s := size.2.pciWrite base.1 device.bus device.device device.function (barReg barNum)
  (⟨base.1, ~~~size.1 + 1⟩, s)

/-! ## What should hold -/

/-- What is written to port `0xcf8` for the BAR. -/
def barAddress (device : PciDevice) (barNum : UInt64) : UInt32 :=
  configAddress device.bus device.device device.function (barReg barNum)

/-- The register at `address` is a BAR of size `2 ^ k`: it holds a base, which is a multiple of the
size, and flags, and only the bits from the size on can be written. -/
structure HasBar (s : PciPorts) (address : UInt32) (k : ℕ) (base flags : UInt32) : Prop where
  sizes : 4 ≤ k ∧ k ≤ 31
  aligned : 2 ^ k ∣ base.toNat
  small : flags.toNat < 2 ^ 4
  holds : s.registers address = base ||| flags
  writable : s.writable address = UInt32.ofNat (2 ^ 32 - 2 ^ k)

/-- The base and the size are returned, and all registers are as before. -/
def Decodes (s : PciPorts) (device : PciDevice) (barNum : UInt64) (k : ℕ) (base : UInt32) : Prop :=
  (getBAR s device barNum).1 = ⟨base, UInt32.ofNat (2 ^ k)⟩ ∧
    (getBAR s device barNum).2.registers = s.registers

variable {s : PciPorts} {device : PciDevice} {barNum : UInt64} {k : ℕ} {address base flags : UInt32}

/-! ## Writable bits -/

/-- A write leaves the other bits alone, so that the next one finds them. -/
lemma write_again (old mask data data' : UInt32) :
    (old &&& ~~~mask ||| data &&& mask) &&& ~~~mask ||| data' &&& mask =
      old &&& ~~~mask ||| data' &&& mask := by
  rw [← UInt32.toBitVec_inj]
  ext i hi
  simp only [UInt32.toBitVec_or, UInt32.toBitVec_and, UInt32.toBitVec_not, BitVec.getElem_or,
    BitVec.getElem_and, BitVec.getElem_not]
  cases old.toBitVec[i] <;> cases mask.toBitVec[i] <;> simp

/-- Writing what is there changes nothing. -/
lemma write_back (old mask : UInt32) : old &&& ~~~mask ||| old &&& mask = old := by
  rw [← UInt32.toBitVec_inj]
  ext i hi
  simp only [UInt32.toBitVec_or, UInt32.toBitVec_and, UInt32.toBitVec_not, BitVec.getElem_or,
    BitVec.getElem_and, BitVec.getElem_not]
  cases old.toBitVec[i] <;> cases mask.toBitVec[i] <;> simp

/-- **The probe is undone**, whatever bits of the register can be written. -/
lemma getBAR_restores (s : PciPorts) (device : PciDevice) (barNum : UInt64) :
    (getBAR s device barNum).2.registers = s.registers := by
  simp only [getBAR, PciPorts.pciRead, PciPorts.pciWrite, PciPorts.outData, Function.update_self,
    Function.update_idem, write_again, write_back, Function.update_eq_self]

/-- What is returned: the register, and the two's complement of what the probe reads. -/
lemma getBAR_eq (s : PciPorts) (device : PciDevice) (barNum : UInt64) :
    (getBAR s device barNum).1 = ⟨s.registers (barAddress device barNum),
      ~~~(s.registers (barAddress device barNum) &&& ~~~s.writable (barAddress device barNum) |||
        0xffffffff &&& s.writable (barAddress device barNum)) + 1⟩ := by
  simp only [getBAR, PciPorts.pciRead, PciPorts.pciWrite, PciPorts.outData, Function.update_self]
  rfl

/-! ## A BAR -/

/-- The size has 32 bits, and there is room for the flags below it. -/
lemma HasBar.size (h : HasBar s address k base flags) : 2 ^ k ≤ 2 ^ 31 ∧ flags.toNat < 2 ^ k := by
  obtain ⟨hk, hk'⟩ := h.sizes
  have hleast : 2 ^ 4 ≤ 2 ^ k := Nat.pow_le_pow_right (by omega) hk
  exact ⟨Nat.pow_le_pow_right (by omega) hk', h.small.trans_le hleast⟩

/-- The flags are below the base. -/
lemma HasBar.toNat_holds (h : HasBar s address k base flags) :
    (s.registers address).toNat = base.toNat + flags.toNat := by
  obtain ⟨c, hc⟩ := h.aligned
  rw [h.holds, UInt32.toNat_or, hc, Nat.two_pow_add_eq_or_of_lt h.size.2]

/-- **What the probe reads:** the mask of the size, and the flags. -/
lemma HasBar.toNat_probe (h : HasBar s address k base flags) :
    (s.registers address &&& ~~~s.writable address ||| 0xffffffff &&& s.writable address).toNat =
      2 ^ 32 - 2 ^ k + flags.toNat := by
  obtain ⟨_, hk⟩ := h.sizes
  obtain ⟨c, hc⟩ := h.aligned
  obtain ⟨hsize, hflags⟩ := h.size
  have hpos : 0 < 2 ^ k := Nat.two_pow_pos k
  have hmask : (s.writable address).toNat = 2 ^ 32 - 2 ^ k := by
    rw [h.writable, UInt32.toNat_ofNat_of_lt' (by rw [UInt32.size]; omega)]
  have hother : (~~~s.writable address).toNat = 2 ^ k - 1 := by
    rw [UInt32.toNat_not, hmask, UInt32.size]
    omega
  have hkept : (s.registers address &&& ~~~s.writable address).toNat = flags.toNat := by
    rw [UInt32.toNat_and, hother, Nat.and_two_pow_sub_one_eq_mod, h.toNat_holds, hc,
      Nat.mul_add_mod, Nat.mod_eq_of_lt hflags]
  have hones : (0xffffffff &&& s.writable address).toNat = 2 ^ 32 - 2 ^ k := by
    have hall : (0xffffffff : UInt32).toNat = 2 ^ 32 - 1 := rfl
    rw [UInt32.toNat_and, Nat.and_comm, hall, Nat.and_two_pow_sub_one_eq_mod, hmask,
      Nat.mod_eq_of_lt]
    omega
  have hproduct : 2 ^ 32 - 2 ^ k = 2 ^ k * (2 ^ (32 - k) - 1) := by
    rw [Nat.mul_sub, ← Nat.pow_add, Nat.mul_one, Nat.add_sub_cancel' (by omega)]
  rw [UInt32.toNat_or, hkept, hones, hproduct, Nat.or_comm, Nat.two_pow_add_eq_or_of_lt hflags]

/-- **The base and the size are decoded exactly if there are no flags.** -/
theorem getBAR_decodes_iff (s : PciPorts) (device : PciDevice) (barNum : UInt64) (k : ℕ)
    (base flags : UInt32) (h : HasBar s (barAddress device barNum) k base flags) :
    Decodes s device barNum k base ↔ flags = 0 := by
  obtain ⟨hsize, hflags⟩ := h.size
  have hpos : 0 < 2 ^ k := Nat.two_pow_pos k
  rw [Decodes, getBAR_eq, and_iff_left (getBAR_restores s device barNum), PciBar.mk.injEq]
  constructor
  · rintro ⟨hbase, _⟩
    have hsum := h.toNat_holds
    rw [hbase] at hsum
    rw [← UInt32.toNat_inj, UInt32.toNat_zero]
    omega
  · rintro rfl
    constructor
    · rw [← UInt32.toNat_inj, h.toNat_holds]
      rfl
    · rw [← UInt32.toNat_inj, UInt32.toNat_add, UInt32.toNat_not, h.toNat_probe,
        UInt32.toNat_ofNat_of_lt' (by rw [UInt32.size]; omega), UInt32.size]
      simp only [UInt32.toNat_zero, UInt32.reduceToNat]
      omega

/-- The network controller at device 3 has 128 KiB at `0xfebc0000`, with these flags. -/
def networkBar (flags : UInt32) : PciPorts where
  address := 0
  registers := fun _ => 0xfebc0000 ||| flags
  writable := fun _ => 0xfffe0000

/-- Its record. -/
def networkDevice : PciDevice := ⟨2, 0, 0, 0x100e, 0x8086, 0, 3, 0⟩

lemma hasBar_networkBar {flags : UInt32} (hflags : flags.toNat < 2 ^ 4) :
    HasBar (networkBar flags) (barAddress networkDevice 0) 17 0xfebc0000 flags where
  sizes := by decide
  aligned := by decide
  small := hflags
  holds := rfl
  writable := rfl

theorem getBAR_plain : Decodes (networkBar 0) networkDevice 0 17 0xfebc0000 :=
  (getBAR_decodes_iff _ _ _ _ _ _ (hasBar_networkBar (by decide))).mpr rfl

/-- With the flag for prefetchable memory the size is 8 bytes short. -/
theorem getBAR_prefetchable : HasBar (networkBar 8) (barAddress networkDevice 0) 17 0xfebc0000 8 ∧
    ¬Decodes (networkBar 8) networkDevice 0 17 0xfebc0000 :=
  ⟨hasBar_networkBar (by decide), fun h => absurd h.1 (by decide)⟩

end Seaweed
