import Seaweed.Mm.Krealloc

/-!
# Task state segments (`int/tss.c`)

A table in memory of segments of 104 bytes each.  A segment holds the stack pointer for interrupts
from user mode, `rsp0`, four bytes after its start.

* `grabTSS`, `addNewTSS`, `createGenericTSS` — the code.
* `rsp0At` — the stack pointer in a segment of the table.
* **`rsp0At_createGenericTSS`** — while there is room a new segment leaves the others alone.
-/

namespace Seaweed

open Words Memory

/-- `sizeof(tss_t)`. -/
def tssSize : UInt64 := 104

/-- The globals of `tss.c`, and the memory and the heap they are in. -/
structure TssTable where
  mem : Mem
  heap : Heap
  tss : UInt64
  max : UInt64
  current : UInt64

def grabTSS (t : TssTable) (index : UInt64) : UInt64 := t.tss + tssSize * index

/-- `*addr = newTSS`, for a `newTSS` that is zero but for its `rsp0`. -/
def storeTSS (mem : Mem) (addr rsp0 : UInt64) : Mem :=
  store64 (store mem addr 104 0) (addr + 4) rsp0

def addNewTSS (t : TssTable) (rsp0 : UInt64) : TssTable :=
  let current := t.current + 1
  let t : TssTable :=
    if t.max < current then
      let r := krealloc t.heap t.mem t.tss (tssSize * 8)
      { t with tss := r.1.getD 0, heap := r.2.1, mem := r.2.2, max := t.max + 8 }
    else t
  { t with current := current, mem := storeTSS t.mem (t.tss + tssSize * (current - 1)) rsp0 }

def createGenericTSS (t : TssTable) (rsp0 : UInt64) : TssTable := addNewTSS t rsp0

/-! ## Segments -/

/-- Segment `i` of the table starts here. -/
def segment (tss : UInt64) (i : ℕ) : UInt64 := tss + UInt64.ofNat (104 * i)

/-- `tss[i].rsp0`. -/
def rsp0At (t : TssTable) (i : ℕ) : UInt64 := load64 t.mem (segment t.tss i + 4)

variable {t : TssTable} {mem : Mem} {tss v : UInt64} {i j : ℕ}

lemma segment_eq (tss index : UInt64) : tss + tssSize * index = segment tss index.toNat := by
  rw [segment, UInt64.ofNat_mul, UInt64.ofNat_toNat]
  rfl

/-- The place of `rsp0`, from the start of the table. -/
lemma segment_rsp0 (tss : UInt64) (i : ℕ) :
    segment tss i + 4 = tss + UInt64.ofNat (104 * i + 4) := by
  rw [segment, UInt64.ofNat_add, ← UInt64.add_assoc]
  rfl

/-- Writing one `rsp0` does not change another one. -/
lemma load64_rsp0 (hi : i < 2 ^ 32) (hj : j < 2 ^ 32) :
    load64 (store64 mem (segment tss i + 4) v) (segment tss j + 4) =
      if j = i then v else load64 mem (segment tss j + 4) := by
  split_ifs with heq
  · rw [heq, load64_store64]
  · rw [segment_rsp0, segment_rsp0, load64_store64_apart (apart_offsets tss (by omega) (by omega)
      (by omega))]

/-- Writing one segment does not change another one. -/
lemma load64_storeTSS (hi : i < 2 ^ 32) (hj : j < 2 ^ 32) :
    load64 (storeTSS mem (segment tss i) v) (segment tss j + 4) =
      if j = i then v else load64 mem (segment tss j + 4) := by
  rw [storeTSS, load64_rsp0 hi hj]
  split_ifs with heq
  · rfl
  · rw [segment_rsp0, segment, load64, load64, load_store_apart (apart_offsets tss (by omega)
      (by omega) (by omega))]

/-- The next segment is not one too many. -/
lemma not_max_lt (hroom : t.current < t.max) : ¬ t.max < t.current + 1 := by
  have hmax := t.max.toNat_lt
  rw [UInt64.lt_iff_toNat_lt] at hroom
  rw [UInt64.lt_iff_toNat_lt, toNat_add_one (by omega)]
  omega

/-- While there is room the table stays where it is. -/
lemma createGenericTSS_eq (hroom : t.current < t.max) :
    createGenericTSS t v = { t with
      current := t.current + 1
      mem := storeTSS t.mem (segment t.tss t.current.toNat) v } := by
  simp only [createGenericTSS, addNewTSS, if_neg (not_max_lt hroom), UInt64.add_sub_cancel,
    segment_eq]

/-- **A new segment** gets the stack pointer it is made for, and the others keep theirs. -/
theorem rsp0At_createGenericTSS (hroom : t.current < t.max) (hcurrent : t.current.toNat < 2 ^ 32)
    (hi : i < 2 ^ 32) : rsp0At (createGenericTSS t v) i =
      if i = t.current.toNat then v else rsp0At t i := by
  rw [createGenericTSS_eq hroom, rsp0At, load64_storeTSS hcurrent hi]
  rfl

end Seaweed
