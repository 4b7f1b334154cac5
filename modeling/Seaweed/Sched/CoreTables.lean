import Seaweed.Sched.Smp

/-!
# Descriptor tables for more and more cores (`int/gdt.c`, `int/tss.c`, `sched/smp.c`)

`initGDT` makes room for eight descriptor tables and for eight task state segments.  The first array
stays as it is, however many cores come up; the second one is reallocated for the ninth.  Well
before that, each core but the boot core has a descriptor that names the segment of the next one.

* `initGDT`, `CoreTables` — the code, and the cores that come up one after another.
* `ArrayWrite.Inside` — a write keeps to the array as it is allocated.
* `TablesSurvive` — all writes do, and the descriptors of the earlier cores are still good.
* **`tablesSurvive_iff`** — this is so for up to eight cores whose stacks, but for the boot core's,
  are all the same: for two, as a rule.
-/

namespace Seaweed

open FirstFit Words Memory

/-! ## The code -/

def initTSS (t : TssTable) : TssTable :=
  let r := kmalloc t.heap (tssSize * 8)
  { t with tss := r.1.getD 0, heap := r.2 }

/-- The array of descriptor tables is cleared. -/
def initGDT (s : SmpState) : SmpState :=
  let r := kmalloc s.table.heap (gdtSize * 8)
  { s with
    gdt := fun core => if core < 8 then default else s.gdt core
    gdtAddr := r.1.getD 0
    table := initTSS { s.table with heap := r.2 } }

/-! ## Writes -/

/-- A write of `length` bytes to an array, for which `kmalloc` was asked for `bytes` bytes. -/
structure ArrayWrite where
  array : UInt64
  bytes : UInt64
  addr : UInt64
  length : ℕ

/-- The write keeps to the blocks of the array. -/
def ArrayWrite.Inside (w : ArrayWrite) : Prop :=
  (w.addr - w.array).toNat + w.length ≤ 32 * (ROUNDUP w.bytes 32).toNat

/-- What an array has when `kmalloc` has returned `p`. -/
def granted (p : Option UInt64) (bytes : UInt64) : UInt64 := if p.isSome then bytes else 0

/-- The descriptor tables and segments, how many bytes each array has, and what has been written. -/
structure CoreTables where
  smp : SmpState
  gdtBytes : UInt64
  tssBytes : UInt64
  writes : List ArrayWrite

/-- The arrays of `initGDT`. -/
def firstTables (s : SmpState) : CoreTables :=
  let r := kmalloc s.table.heap (gdtSize * 8)
  let gdtBytes := granted r.1 (gdtSize * 8)
  { smp := initGDT s
    gdtBytes := gdtBytes
    tssBytes := granted (kmalloc r.2 (tssSize * 8)).1 (tssSize * 8)
    writes := [⟨r.1.getD 0, gdtBytes, r.1.getD 0, 528⟩] }

/-- How many bytes the segments have after `addNewTSS`. -/
def CoreTables.nextTssBytes (c : CoreTables) : UInt64 :=
  let t := c.smp.table
  if t.max < t.current + 1 then
    granted (krealloc t.heap t.mem t.tss (tssSize * 8)).1 ((kfree t.heap t.tss).1 + tssSize * 8)
  else c.tssBytes

/-- What `addNewTSS` writes: the copy of `krealloc`, and the segment. -/
def CoreTables.tssWrites (c : CoreTables) : List ArrayWrite :=
  let t := c.smp.table
  let tss := (addNewTSS t 0).tss
  (if t.max < t.current + 1 then [⟨tss, c.nextTssBytes, tss, 8 * (kfree t.heap t.tss).1.toNat⟩]
    else []) ++ [⟨tss, c.nextTssBytes, tss + tssSize * t.current, 104⟩]

/-- What `createNewGDT` writes: all but the first entry and the reserved field of the descriptor. -/
def CoreTables.gdtWrites (c : CoreTables) (core : UInt64) : List ArrayWrite :=
  let gdt := c.smp.gdtAddr
  [⟨gdt, c.gdtBytes, gdt + gdtSize * core + 8, 44⟩,
    ⟨gdt, c.gdtBytes, gdt + gdtSize * core + 56, 10⟩]

/-- A segment and a descriptor table for `core`. -/
def CoreTables.next (c : CoreTables) (smp : SmpState) (core : UInt64) : CoreTables :=
  { smp := smp
    gdtBytes := c.gdtBytes
    tssBytes := c.nextTssBytes
    writes := c.writes ++ c.tssWrites ++ c.gdtWrites core }

/-- What a core brings along: its local APIC's ID, and the page manager when it starts. -/
structure CoreStart where
  lapicID : UInt32
  pmm : Pmm

def CoreStart.stack (p : CoreStart) : UInt64 :=
  (physicalPageAlloc p.pmm 4).1 + 0x4000 + KERNEL_HIGH_VMA

def CoreTables.bringUp (c : CoreTables) (p : CoreStart) : CoreTables :=
  c.next (kernelMainSMP c.smp p.lapicID p.pmm) c.smp.cpuInfoIndex

/-- The boot core, and then the others. -/
def coreTables (s : SmpState) (stack : UInt64) (cores : List CoreStart) : CoreTables :=
  cores.foldl CoreTables.bringUp ((firstTables s).next (bootCore (initGDT s) stack) 0)

lemma coreTables_concat (s : SmpState) (stack : UInt64) (cores : List CoreStart) (p : CoreStart) :
    coreTables s stack (cores ++ [p]) = (coreTables s stack cores).bringUp p :=
  List.foldl_concat _ _ _ _

/-! ## The property -/

/-- The stacks of the cores, that of the boot core first. -/
def coreStacks (stack : UInt64) (cores : List CoreStart) : List UInt64 :=
  stack :: cores.map CoreStart.stack

lemma length_coreStacks (stack : UInt64) (cores : List CoreStart) :
    (coreStacks stack cores).length = cores.length + 1 := by
  rw [coreStacks, List.length_cons, List.length_map]

/-- The descriptor of core `k` names a segment of the array, and `rsp0` is `stack` there. -/
structure DescriptorGood (c : CoreTables) (k : ℕ) (stack : UInt64) : Prop where
  inside : ArrayWrite.Inside
    ⟨c.smp.table.tss, c.tssBytes, (c.smp.gdt (UInt64.ofNat k)).tss.base, 104⟩
  rsp0 : c.smp.rsp0 (UInt64.ofNat k) = stack

/-- All writes have been inside the arrays, and all cores but the last one have a good
descriptor. -/
structure TablesSurvive (s : SmpState) (stack : UInt64) (cores : List CoreStart) : Prop where
  inside : ∀ w ∈ (coreTables s stack cores).writes, w.Inside
  earlier : ∀ k v, k < cores.length → (coreStacks stack cores)[k]? = some v →
    DescriptorGood (coreTables s stack cores) k v

/-- Both calls of `kmalloc` return an array. -/
def ArraysAllocated (s : SmpState) : Prop :=
  (kmalloc s.table.heap (gdtSize * 8)).1.isSome ∧
    (kmalloc (kmalloc s.table.heap (gdtSize * 8)).2 (tssSize * 8)).1.isSome

variable {s : SmpState} {c : CoreTables} {stack v array : UInt64} {rsps : List UInt64}
  {cores : List CoreStart} {p : CoreStart} {i k n : ℕ}

/-! ## Up to eight cores -/

lemma SmpState.Initial.initGDT (h : s.Initial) : (initGDT s).Initial :=
  ⟨h.max, h.current, h.cpuInfoIndex, h.notSwitched⟩

/-- No segment has been made yet, so the first one fits. -/
lemma SmpState.Initial.room (h : s.Initial) : s.table.current < s.table.max := by
  rw [h.current, h.max]
  decide

lemma inside_offset (hoff : n < 2 ^ 64) (array bytes : UInt64) (length : ℕ) :
    ArrayWrite.Inside ⟨array, bytes, array + UInt64.ofNat n, length⟩ ↔
      n + length ≤ 32 * (ROUNDUP bytes 32).toNat := by
  rw [ArrayWrite.Inside, toNat_add_ofNat_sub array hoff]

lemma gdtEntry_eq (gdt core : UInt64) (k : ℕ) :
    gdt + gdtSize * core + UInt64.ofNat k = gdt + UInt64.ofNat (66 * core.toNat + k) := by
  have hsize : gdtSize = UInt64.ofNat 66 := rfl
  rw [UInt64.ofNat_add, UInt64.ofNat_mul, UInt64.ofNat_toNat, hsize, UInt64.add_assoc]

/-- The table of core `k` is inside the array of eight tables for the first eight cores. -/
lemma gdtWrites_inside (hbytes : c.gdtBytes = gdtSize * 8) {core : UInt64}
    (hcore : core.toNat < 2 ^ 32) :
    (∀ w ∈ c.gdtWrites core, w.Inside) ↔ core.toNat < 8 := by
  have hblocks : (ROUNDUP (gdtSize * 8) 32).toNat = 17 := rfl
  have h8 : (8 : UInt64) = UInt64.ofNat 8 := rfl
  have h56 : (56 : UInt64) = UInt64.ofNat 56 := rfl
  rw [CoreTables.gdtWrites, h8, h56, hbytes]
  simp only [gdtEntry_eq, List.forall_mem_cons, List.not_mem_nil, false_implies, implies_true,
    and_true]
  rw [inside_offset (by omega), inside_offset (by omega), hblocks]
  omega

/-- With room for another segment there is no reallocation. -/
lemma nextTssBytes_eq (hroom : c.smp.table.current < c.smp.table.max) :
    c.nextTssBytes = c.tssBytes := if_neg (not_max_lt hroom)

/-- Then the segment is all that is written. -/
lemma tssWrites_inside (hroom : c.smp.table.current < c.smp.table.max)
    (hbytes : c.tssBytes = tssSize * 8) (hcurrent : c.smp.table.current.toNat < 8) :
    ∀ w ∈ c.tssWrites, w.Inside := by
  have hblocks : (ROUNDUP (tssSize * 8) 32).toNat = 26 := rfl
  have htss : (addNewTSS c.smp.table 0).tss = c.smp.table.tss := by
    rw [← createGenericTSS, createGenericTSS_eq hroom]
  rw [CoreTables.tssWrites]
  simp only [if_neg (not_max_lt hroom), List.nil_append, List.forall_mem_singleton, htss,
    nextTssBytes_eq hroom, hbytes, segment_eq, segment]
  rw [inside_offset (by omega), hblocks]
  omega

/-- The cores with these stacks have come up, and there is room for all of them. -/
structure CoresUp (c : CoreTables) (rsps : List UInt64) : Prop where
  tables : TablesMatch c.smp
  index : c.smp.cpuInfoIndex.toNat = rsps.length
  rsp0 : ∀ i v, rsps[i]? = some v → rsp0At c.smp.table i = v
  gdtBytes : c.gdtBytes = gdtSize * 8
  tssBytes : c.tssBytes = tssSize * 8
  inside : ∀ w ∈ c.writes, w.Inside

namespace CoresUp

lemma firstCore (h0 : s.Initial) (harrays : ArraysAllocated s) (stack : UInt64) :
    CoresUp (coreTables s stack []) [stack] := by
  have hinit := h0.initGDT
  have hroom := hinit.room
  have hcurrent : (initGDT s).table.current.toNat < 8 := by
    rw [hinit.current]
    decide
  have hgdt : (firstTables s).gdtBytes = gdtSize * 8 := if_pos harrays.1
  have htss : (firstTables s).tssBytes = tssSize * 8 := if_pos harrays.2
  refine ⟨TablesMatch.bootCore hinit stack, ?_, ?_, hgdt, (nextTssBytes_eq hroom).trans htss, ?_⟩
  · change (initGDT s).cpuInfoIndex.toNat = 1
    rw [hinit.cpuInfoIndex]
    rfl
  · intro i v hv
    have hcurrent : (initGDT s).table.current.toNat = 0 := by rw [hinit.current]; rfl
    rw [List.getElem?_singleton, Option.ite_none_right_eq_some, Option.some.injEq] at hv
    obtain ⟨rfl, hstack⟩ := hv
    refine (rsp0At_createGenericTSS hroom (by omega) (by omega)).trans ?_
    rw [if_pos hcurrent.symm, hstack]
  · intro w hw
    simp only [coreTables, List.foldl_nil, CoreTables.next, List.mem_append] at hw
    rcases hw with (hfirst | hseg) | hdesc
    · have hbytes : w.bytes = gdtSize * 8 :=
        (congrArg ArrayWrite.bytes (List.mem_singleton.mp hfirst)).trans hgdt
      have hfields : w.addr = w.array ∧ w.length = 528 := by
        rw [List.mem_singleton.mp hfirst]
        exact ⟨rfl, rfl⟩
      rw [ArrayWrite.Inside, hbytes, hfields.1, hfields.2, UInt64.sub_self]
      decide
    · exact tssWrites_inside hroom htss hcurrent w hseg
    · exact (gdtWrites_inside hgdt (by decide)).mpr (by decide) w hdesc

lemma bringUp (h : CoresUp c rsps) (hlt : rsps.length < 8) (p : CoreStart) :
    CoresUp (c.bringUp p) (rsps ++ [p.stack]) := by
  have hindex : c.smp.cpuInfoIndex < 8 := by
    rw [UInt64.lt_iff_toNat_lt, h.index]
    exact hlt
  have hroom : c.smp.table.current < c.smp.table.max := by rwa [h.tables.current, h.tables.max]
  have hcurrent : c.smp.table.current.toNat = rsps.length := by rw [h.tables.current, h.index]
  refine ⟨h.tables.bringUp hindex _ _, ?_, ?_, h.gdtBytes, (nextTssBytes_eq hroom).trans h.tssBytes,
    ?_⟩
  · change (c.smp.cpuInfoIndex + 1).toNat = _
    rw [toNat_add_one (by rw [h.index]; omega), h.index, List.length_append, List.length_singleton]
  · intro i v hv
    have hi : i < rsps.length + 1 := by
      have := (List.getElem?_eq_some_iff.mp hv).1
      rwa [List.length_append, List.length_singleton] at this
    refine (rsp0At_createGenericTSS hroom (by omega) (by omega)).trans ?_
    rw [hcurrent]
    split_ifs with hlast
    · rw [hlast, List.getElem?_concat_length] at hv
      exact Option.some.inj hv
    · rw [List.getElem?_append_left (by omega)] at hv
      exact h.rsp0 i v hv
  · intro w hw
    simp only [CoreTables.bringUp, CoreTables.next, List.mem_append] at hw
    rcases hw with (hold | hseg) | hdesc
    · exact h.inside w hold
    · exact tssWrites_inside hroom h.tssBytes (by omega) w hseg
    · exact (gdtWrites_inside h.gdtBytes (by rw [h.index]; omega)).mpr
        (by rw [h.index]; exact hlt) w hdesc

/-- The first seven cores find room beside the boot core. -/
lemma run (h0 : s.Initial) (harrays : ArraysAllocated s) (stack : UInt64) (cores : List CoreStart)
    (hlen : cores.length < 8) : CoresUp (coreTables s stack cores) (coreStacks stack cores) := by
  induction cores using List.reverseRecOn with
  | nil => exact firstCore h0 harrays stack
  | append_singleton cores p ih =>
      rw [List.length_append, List.length_singleton] at hlen
      have hstep := (ih (by omega)).bringUp (by rw [length_coreStacks]; omega) p
      rwa [coreStacks, List.cons_append, ← List.map_singleton, ← List.map_append, ← coreStacks,
        ← coreTables_concat] at hstep

/-- A descriptor names a segment of the array, but that of the next core. -/
lemma descriptorGood_iff (h : CoresUp c rsps) (hle : rsps.length ≤ 8) (hk : k + 1 < rsps.length) :
    DescriptorGood c k v ↔ rsps[descriptorSlot k]? = some v := by
  have hcore : (UInt64.ofNat k).toNat = k := toNat_ofNat_of_lt (by omega)
  have hslot : descriptorSlot k < rsps.length := by
    rw [descriptorSlot]
    split_ifs <;> omega
  have hup : UInt64.ofNat k < c.smp.cpuInfoIndex := by
    rw [UInt64.lt_iff_toNat_lt, hcore, h.index]
    omega
  have hstack : c.smp.rsp0 (UInt64.ofNat k) = rsps[descriptorSlot k] := by
    rw [h.tables.rsp0_eq hup, hcore]
    exact h.rsp0 _ _ (List.getElem?_eq_getElem hslot)
  rw [List.getElem?_eq_getElem hslot, Option.some.injEq, ← hstack]
  refine ⟨DescriptorGood.rsp0, fun hv => ⟨?_, hv⟩⟩
  have hblocks : (ROUNDUP (tssSize * 8) 32).toNat = 26 := rfl
  rw [h.tables.descriptor _ hup, hcore, segment, inside_offset (by omega), h.tssBytes, hblocks]
  omega

end CoresUp

/-! ## Any number of cores -/

lemma writes_bringUp {w : ArrayWrite} (hw : w ∈ c.writes) (cores : List CoreStart) :
    w ∈ (cores.foldl CoreTables.bringUp c).writes := by
  induction cores generalizing c with
  | nil => exact hw
  | cons p cores ih => exact ih (List.mem_append_left _ (List.mem_append_left _ hw))

/-- There is nothing to write to where nothing has been granted. -/
lemma ArrayWrite.Inside.length_eq_zero {w : ArrayWrite} (h : w.Inside) (hbytes : w.bytes = 0) :
    w.length = 0 := by
  have hblocks : (ROUNDUP 0 32).toNat = 0 := rfl
  rw [ArrayWrite.Inside, hbytes, hblocks] at h
  omega

/-- Without an array the boot core writes somewhere else. -/
lemma TablesSurvive.arraysAllocated (h : TablesSurvive s stack cores) (h0 : s.Initial) :
    ArraysAllocated s := by
  have hinit := h0.initGDT
  have hroom := hinit.room
  have hboot : ∀ w, w ∈ (firstTables s).tssWrites ∨ w ∈ (firstTables s).gdtWrites 0 → w.Inside :=
    fun w hw => h.inside w (writes_bringUp (by
      simp only [CoreTables.next, List.mem_append]
      tauto) cores)
  constructor
  · by_contra hnone
    have hbytes : (firstTables s).gdtBytes = 0 := if_neg hnone
    have hzero : 44 = 0 := (hboot _ (Or.inr List.mem_cons_self)).length_eq_zero hbytes
    omega
  · by_contra hnone
    have hbytes : (firstTables s).nextTssBytes = 0 :=
      (nextTssBytes_eq hroom).trans (if_neg hnone)
    have hsegment := hboot _ (Or.inl (List.mem_append_right _ (List.mem_singleton_self _)))
    have hzero : 104 = 0 := hsegment.length_eq_zero hbytes
    omega

/-- The ninth core writes behind the array of descriptor tables. -/
lemma TablesSurvive.length_lt (h : TablesSurvive s stack cores) (h0 : s.Initial) :
    cores.length < 8 := by
  have harrays := h.arraysAllocated h0
  by_contra hlong
  obtain ⟨first, p, rest, hlen, rfl⟩ : ∃ first p rest, first.length = 7 ∧
      cores = first ++ p :: rest := by
    refine ⟨cores.take 7, cores[7], cores.drop 8, by rw [List.length_take]; omega, ?_⟩
    rw [List.getElem_cons_drop, List.take_append_drop]
  have hup := CoresUp.run h0 harrays stack first (by omega)
  have hcount : (coreStacks stack first).length = 8 := by
    rw [length_coreStacks, hlen]
  have hwrites : ∀ w ∈ (coreTables s stack first).gdtWrites
      (coreTables s stack first).smp.cpuInfoIndex, w.Inside := by
    intro w hw
    refine h.inside w ?_
    rw [coreTables, List.foldl_append, List.foldl_cons]
    exact writes_bringUp (List.mem_append_right _ hw) rest
  have hlt := (gdtWrites_inside hup.gdtBytes (by rw [hup.index]; omega)).mp hwrites
  rw [hup.index, hcount] at hlt
  omega

/-- **Descriptor tables for several cores** are good exactly if there are at most eight of them and
all but the boot core have the same stack. -/
theorem tablesSurvive_iff (s : SmpState) (h0 : s.Initial) (stack : UInt64)
    (cores : List CoreStart) : TablesSurvive s stack cores ↔
      ArraysAllocated s ∧ cores.length < 8 ∧ ∀ k, k + 1 < cores.length →
        (cores.map CoreStart.stack)[k]? = (cores.map CoreStart.stack)[k + 1]? := by
  constructor
  · intro h
    have harrays := h.arraysAllocated h0
    have hlen := h.length_lt h0
    have hup := CoresUp.run h0 harrays stack cores hlen
    have hcount := length_coreStacks stack cores
    refine ⟨harrays, hlen, fun k hk => ?_⟩
    have hcore : k < (cores.map CoreStart.stack).length := by rw [List.length_map]; omega
    have hgood := h.earlier (k + 1) _ hk (List.getElem?_eq_getElem (l := coreStacks stack cores)
      (by omega))
    rw [hup.descriptorGood_iff (by omega) (by omega)] at hgood
    rw [List.getElem?_eq_getElem hcore]
    exact hgood.symm
  · rintro ⟨harrays, hlen, hstacks⟩
    have hup := CoresUp.run h0 harrays stack cores hlen
    have hcount := length_coreStacks stack cores
    refine ⟨hup.inside, fun k v hk hv => ?_⟩
    rw [hup.descriptorGood_iff (by omega) (by omega)]
    cases k with
    | zero => exact hv
    | succ k => exact (hstacks k hk).symm.trans hv

/-! ## Two cores, and three -/

/-- A heap that nothing has been allocated from. -/
def bareSmp : SmpState :=
  { plainSmp with table := { plainSmp.table with
      heap :=
        { kHeapBegin := 0x124000
          kbitmapPtr := HIGH_VMA + 0x224000
          kbitmap := fun _ => 0
          allocationBitmapPtr := HIGH_VMA + 0x225000
          allocationBitmap := fun _ => ⟨0, 0⟩ } } }

lemma bareSmp_initial : bareSmp.Initial := ⟨rfl, rfl, rfl, fun _ => rfl⟩

lemma bareSmp_allocated : ArraysAllocated bareSmp := ⟨by decide +kernel, by decide +kernel⟩

theorem tablesSurvive_twoCores : TablesSurvive bareSmp 0x8000 [⟨1, takenPmm 1⟩] :=
  (tablesSurvive_iff bareSmp bareSmp_initial 0x8000 _).mpr
    ⟨bareSmp_allocated, by decide, fun k hk => absurd hk (by simp)⟩

/-- The descriptor of the second core names the segment of the third one. -/
theorem tablesSurvive_threeCores :
    ¬TablesSurvive bareSmp 0x8000 [⟨1, takenPmm 1⟩, ⟨2, takenPmm 2⟩] := by
  intro h
  have hup := CoresUp.run bareSmp_initial bareSmp_allocated 0x8000
    [⟨1, takenPmm 1⟩, ⟨2, takenPmm 2⟩] (by decide)
  have hgood := (hup.descriptorGood_iff (by decide) (by decide)).mp (h.earlier 1 _ (by decide) rfl)
  exact absurd hgood (by decide +kernel)

end Seaweed
