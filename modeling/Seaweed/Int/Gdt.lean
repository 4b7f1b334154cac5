import Seaweed.Library.Words

/-!
# Global descriptor tables (`int/gdt.c`)

Each core has a table of its own: four segments of code and data, and the descriptor of a task
state segment, which holds its address in four pieces.

* `Gdt`, `createNewGDT` — the data and the code.
* **`base_createNewGDT`** — the pieces make up the address again.
-/

namespace Seaweed

structure GdtEntry where
  limit : UInt16
  baseLow : UInt16
  baseMid : UInt8
  access : UInt8
  granularity : UInt8
  baseHigh : UInt8
  deriving Inhabited

structure GdtTSSentry where
  length : UInt16
  baseLow : UInt16
  baseMid : UInt8
  flags1 : UInt8
  flags2 : UInt8
  baseHigh : UInt8
  baseHigh32 : UInt32
  reserved : UInt32
  deriving Inhabited

structure GdtPtr where
  size : UInt16
  addr : UInt64
  deriving Inhabited

structure Gdt where
  gdtEntries : ℕ → GdtEntry
  tss : GdtTSSentry
  gdtPtr : GdtPtr
  deriving Inhabited

/-- `sizeof(gdt_t)`. -/
def gdtSize : UInt64 := 5 * 8 + 16 + 10

/-- A segment, whose base and limit do not matter. -/
def flatSegment (access granularity : UInt8) : GdtEntry := ⟨0, 0, 0, access, granularity, 0⟩

/-- `gdt` is the array of tables, which starts at `gdtAddr`. -/
def createNewGDT (gdt : UInt64 → Gdt) (gdtAddr core tssAddr : UInt64) : UInt64 → Gdt :=
  Function.update gdt core
    { gdtEntries := fun
        | 1 => flatSegment 0b10011010 0b00100000
        | 2 => flatSegment 0b10010010 0
        | 3 => flatSegment 0b11111101 0b10101111
        | 4 => flatSegment 0b11110011 0b11001111
        | i => (gdt core).gdtEntries i
      tss :=
        { length := 104
          baseLow := tssAddr.toUInt16
          baseMid := (tssAddr >>> 16).toUInt8
          flags1 := 0b10001001
          flags2 := 0
          baseHigh := (tssAddr >>> 24).toUInt8
          baseHigh32 := (tssAddr >>> 32).toUInt32
          reserved := (gdt core).tss.reserved }
      gdtPtr :=
        { size := (gdtSize - 10 - 1).toUInt16
          addr := gdtAddr + gdtSize * core } }

/-- The address that the processor reads from a descriptor. -/
def GdtTSSentry.base (e : GdtTSSentry) : UInt64 :=
  e.baseLow.toUInt64 + e.baseMid.toUInt64 <<< 16 + e.baseHigh.toUInt64 <<< 24 +
    e.baseHigh32.toUInt64 <<< 32

variable {gdt : UInt64 → Gdt} {gdtAddr core core' tssAddr : UInt64}

/-- **The descriptor holds the address.** -/
theorem base_createNewGDT :
    (createNewGDT gdt gdtAddr core tssAddr core).tss.base = tssAddr := by
  have haddr := tssAddr.toNat_lt
  rw [createNewGDT, Function.update_self, ← UInt64.toNat_inj]
  simp only [GdtTSSentry.base, UInt64.toUInt64_toUInt16, UInt64.toUInt64_toUInt8,
    UInt64.toUInt64_toUInt32, UInt64.toNat_add, UInt64.toNat_mod, UInt64.toNat_shiftLeft,
    UInt64.toNat_shiftRight, UInt64.reduceToNat, Nat.reduceMod, Nat.reducePow,
    Nat.shiftRight_eq_div_pow, Nat.shiftLeft_eq]
  omega

lemma createNewGDT_of_ne (h : core' ≠ core) :
    createNewGDT gdt gdtAddr core tssAddr core' = gdt core' := Function.update_of_ne h _ _

end Seaweed
