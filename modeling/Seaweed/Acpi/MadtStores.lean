import Seaweed.Acpi.Madt
import Seaweed.Library.Records

/-!
# Where parsing the MADT stores

Each of the five arrays has been allocated for 50 entries, a table may have any number of each type,
and the counts have eight bits.  Nothing compares one of these numbers with another.

* `madtInitStores` — the stores of the loop: which array, and which index.
* `StoresInside` — all of them are inside the arrays, and the counts are right.
* `countOf_addRecord` — an entry is counted once, with its type.
* **`madtInit_stores_iff`** — this is so exactly if no type that has an array occurs more than 50
  times.
* `madtMemory` — the table that consists of some entries.
-/

namespace Seaweed

open Memory Records Words

/-! ## The stores -/

/-- The types of entries that have an array. -/
def madtTypes : List UInt8 := [0, 1, 2, 4, 5]

/-- How many entries the arrays have been allocated for. -/
def madtCapacity : ℕ := 50

/-- The count that goes with the array of a type. -/
def MadtInfo.countOf (madtInfo : MadtInfo) (entryType : UInt8) : UInt8 :=
  if entryType = 0 then madtInfo.madtEntry0.count
  else if entryType = 1 then madtInfo.madtEntry1.count
  else if entryType = 2 then madtInfo.madtEntry2.count
  else if entryType = 4 then madtInfo.madtEntry4.count
  else if entryType = 5 then madtInfo.madtEntry5.count
  else 0

/-- The store of a turn: the array, and the index in it. -/
def madtSwitchStores (entryType : UInt8) (madtInfo : MadtInfo) : List (UInt8 × ℕ) :=
  if entryType ∈ madtTypes then [(entryType, (madtInfo.countOf entryType).toNat)] else []

/-- The stores of the turns between `fuel` tests of the condition. -/
def madtLoopStores (mem : Mem) (entries bound : UInt64) : (fuel : ℕ) → MadtInfo → UInt64 →
    List (UInt8 × ℕ)
  | 0, _, _ => []
  | fuel + 1, madtInfo, i =>
      if i < bound then
        let next := madtTurn mem entries madtInfo i
        madtSwitchStores (mem (entries + i)) madtInfo ++
          madtLoopStores mem entries bound fuel next.1 next.2
      else []

def madtInitStores (mem : Mem) (madt : UInt64) (madtInfo : MadtInfo) (fuel : ℕ) :
    List (UInt8 × ℕ) :=
  let madtInfo := { madtInfo with lapicAddr := load32 mem (madt + sizeofAcpihdr) }
  madtLoopStores mem (madt + (sizeofAcpihdr + 8))
    ((load32 mem (madt + 4)).toUInt64 - (sizeofAcpihdr + 4 + 4)) fuel madtInfo 0

/-- Every store is inside its array, and in the end the counts are the numbers of the entries. -/
structure StoresInside (mem : Mem) (madt : UInt64) (madtInfo₀ : MadtInfo) (rs : List MadtRecord) :
    Prop where
  index : ∀ fuel, ∀ p ∈ madtInitStores mem madt madtInfo₀ fuel, p.2 < madtCapacity
  counts : ∀ fuel madtInfo i, madtInit mem madt madtInfo₀ fuel = some (madtInfo, i) →
    ∀ entryType ∈ madtTypes, (madtInfo.countOf entryType).toNat = (ofType rs entryType).length

/-- No type that has an array occurs more often than the array has room for. -/
def ArraysSuffice (rs : List MadtRecord) : Prop :=
  ∀ entryType ∈ madtTypes, (ofType rs entryType).length ≤ madtCapacity

variable {mem : Mem} {a madt entries : UInt64} {r : MadtRecord} {rs : List MadtRecord}
  {madtInfo madtInfo₀ : MadtInfo} {entryType : UInt8} {p : UInt8 × ℕ} {fuel n k : ℕ}

/-! ## Counting -/

/-- **An entry is counted once, with its type.** -/
theorem countOf_addRecord (madtInfo : MadtInfo) (r : MadtRecord) (h : entryType ∈ madtTypes) :
    (addRecord madtInfo r).countOf entryType =
      if r.type = entryType then madtInfo.countOf entryType + 1
        else madtInfo.countOf entryType := by
  simp only [madtTypes, List.mem_cons, List.not_mem_nil, or_false] at h
  rw [addRecord_eq]
  rcases h with rfl | rfl | rfl | rfl | rfl
  all_goals exact apply_ite MadtArray.count _ _ _

lemma ofType_cons (r : MadtRecord) (rs : List MadtRecord) (entryType : UInt8) :
    ofType (r :: rs) entryType =
      if r.type = entryType then r :: ofType rs entryType else ofType rs entryType := by
  rw [ofType, List.filter_cons]
  split_ifs <;> simp_all [ofType]

/-- The stores for some entries, one after the other. -/
def recordStores : MadtInfo → List MadtRecord → List (UInt8 × ℕ)
  | _, [] => []
  | madtInfo, r :: rs => madtSwitchStores r.type madtInfo ++ recordStores (addRecord madtInfo r) rs

/-- While all types have room their entries are stored inside the arrays. -/
lemma recordStores_inside (hroom : ∀ entryType ∈ madtTypes,
      (madtInfo.countOf entryType).toNat + (ofType rs entryType).length ≤ madtCapacity) :
    (∀ p ∈ recordStores madtInfo rs, p.2 < madtCapacity) ∧
      ∀ entryType ∈ madtTypes, ((rs.foldl addRecord madtInfo).countOf entryType).toNat =
        (madtInfo.countOf entryType).toNat + (ofType rs entryType).length := by
  induction rs generalizing madtInfo with
  | nil => exact ⟨fun p hp => absurd hp List.not_mem_nil, fun _ _ => rfl⟩
  | cons r rs ih =>
      have hcapacity : madtCapacity = 50 := rfl
      have hcount : ∀ entryType ∈ madtTypes,
          ((addRecord madtInfo r).countOf entryType).toNat + (ofType rs entryType).length =
            (madtInfo.countOf entryType).toNat + (ofType (r :: rs) entryType).length := by
        intro entryType htype
        have hle := hroom entryType htype
        rw [countOf_addRecord madtInfo r htype, ofType_cons] at *
        split_ifs at hle ⊢
        · rw [List.length_cons] at hle ⊢
          have hone : (1 : UInt8).toNat = 1 := rfl
          rw [UInt8.toNat_add, hone, Nat.mod_eq_of_lt (by omega)]
          omega
        · rfl
      obtain ⟨hrest, hcounts⟩ := ih fun entryType htype => by
        rw [hcount entryType htype]
        exact hroom entryType htype
      refine ⟨?_, fun entryType htype => (hcounts entryType htype).trans (hcount entryType htype)⟩
      refine List.forall_mem_append.mpr ⟨?_, hrest⟩
      rw [madtSwitchStores]
      split_ifs with htype
      · refine List.forall_mem_singleton.mpr ?_
        have hle := hroom r.type htype
        rw [ofType_cons, if_pos rfl, List.length_cons] at hle
        exact Nat.lt_of_lt_of_le (Nat.lt_add_of_pos_right (Nat.succ_pos _)) hle
      · exact fun p hp => absurd hp List.not_mem_nil

/-- A type that has too many entries has one that is stored right behind its array. -/
lemma mem_recordStores (htype : entryType ∈ madtTypes)
    (hle : (madtInfo.countOf entryType).toNat ≤ madtCapacity)
    (hmany : madtCapacity < (madtInfo.countOf entryType).toNat + (ofType rs entryType).length) :
    (entryType, madtCapacity) ∈ recordStores madtInfo rs := by
  have hcapacity : madtCapacity = 50 := rfl
  induction rs generalizing madtInfo with
  | nil =>
      rw [ofType, List.filter_nil, List.length_nil] at hmany
      omega
  | cons r rs ih =>
      have hcount := countOf_addRecord madtInfo r htype
      rw [ofType_cons] at hmany
      rw [recordStores, List.mem_append]
      split_ifs at hcount hmany with hsame
      · rcases Nat.lt_or_eq_of_le hle with hlt | heq
        · have hone : (1 : UInt8).toNat = 1 := rfl
          have hnext : ((addRecord madtInfo r).countOf entryType).toNat
              = (madtInfo.countOf entryType).toNat + 1 := by
            rw [hcount, UInt8.toNat_add, hone, Nat.mod_eq_of_lt (by omega)]
          rw [List.length_cons] at hmany
          exact Or.inr (ih (by omega) (by omega))
        · left
          rw [hsame, madtSwitchStores, if_pos htype, heq]
          exact List.mem_singleton_self _
      · rw [← hcount] at hle hmany
        exact Or.inr (ih hle hmany)

/-! ## The loop -/

/-- **The stores of the loop** are those for the entries of the table. -/
lemma madtLoopStores_eq (rs : List MadtRecord) (madtInfo : MadtInfo) (n : ℕ)
    (htiles : Tiles mem (entries + UInt64.ofNat n) rs)
    (hsize : ∀ r ∈ rs, sizeofMadtEntry r.type ≤ r.data.length)
    (hlt : n + bodyLength rs < 2 ^ 64) :
    (∀ fuel, ∀ p ∈ madtLoopStores mem entries (UInt64.ofNat (n + bodyLength rs)) fuel madtInfo
        (UInt64.ofNat n), p ∈ recordStores madtInfo rs) ∧
      ∀ p ∈ recordStores madtInfo rs, p ∈ madtLoopStores mem entries
        (UInt64.ofNat (n + bodyLength rs)) rs.length madtInfo (UInt64.ofNat n) := by
  induction rs generalizing madtInfo n with
  | nil =>
      refine ⟨fun fuel p hp => ?_, fun p hp => absurd hp List.not_mem_nil⟩
      cases fuel with
      | zero => exact hp
      | succ fuel =>
          have hend : ¬UInt64.ofNat n < UInt64.ofNat (n + bodyLength []) := UInt64.lt_irrefl _
          rw [madtLoopStores, if_neg hend] at hp
          exact hp
  | cons r rs ih =>
      rw [bodyLength_cons, ← Nat.add_assoc] at hlt ⊢
      have hturn : ∀ fuel, madtLoopStores mem entries
          (UInt64.ofNat (n + r.length + bodyLength rs)) (fuel + 1) madtInfo (UInt64.ofNat n) =
          madtSwitchStores r.type madtInfo ++ madtLoopStores mem entries
            (UInt64.ofNat (n + r.length + bodyLength rs)) fuel (addRecord madtInfo r)
            (UInt64.ofNat (n + r.length)) := by
        intro fuel
        rw [madtLoopStores, if_pos (ofNat_lt_body r hlt),
          madtTurn_eq htiles.1 (hsize r List.mem_cons_self), htiles.1.type]
      obtain ⟨hsound, hcomplete⟩ := ih (addRecord madtInfo r) (n + r.length) htiles.next
        (fun r' hr' => hsize r' (List.mem_cons_of_mem r hr')) hlt
      refine ⟨fun fuel p hp => ?_, fun p hp => ?_⟩
      · cases fuel with
        | zero => exact absurd hp List.not_mem_nil
        | succ fuel =>
            rw [hturn] at hp
            exact List.mem_append.mpr ((List.mem_append.mp hp).imp_right (hsound fuel p))
      · rw [List.length_cons, hturn]
        exact List.mem_append.mpr ((List.mem_append.mp hp).imp_right (hcomplete p))

/-- The loop of a call, on a table that consists of entries. -/
lemma MadtTable.stores_eq (h : MadtTable mem madt rs)
    (hsize : ∀ r ∈ rs, sizeofMadtEntry r.type ≤ r.data.length) (madtInfo : MadtInfo) :
    (∀ fuel, ∀ p ∈ madtInitStores mem madt madtInfo fuel, p ∈ recordStores
        { madtInfo with lapicAddr := load32 mem (madt + sizeofAcpihdr) } rs) ∧
      ∀ p ∈ recordStores { madtInfo with lapicAddr := load32 mem (madt + sizeofAcpihdr) } rs,
        p ∈ madtInitStores mem madt madtInfo rs.length := by
  have hlt := (load32 mem (madt + 4)).toNat_lt
  have hlength := h.length
  have hloop := madtLoopStores_eq rs
    { madtInfo with lapicAddr := load32 mem (madt + sizeofAcpihdr) } 0 h.tiles_zero hsize (by omega)
  simp only [madtInitStores, h.bound_eq]
  rw [Nat.zero_add] at hloop
  exact hloop

lemma countOf_start (hempty : NothingCounted madtInfo) (lapicAddr : UInt32) :
    ∀ entryType ∈ madtTypes,
      (({ madtInfo with lapicAddr := lapicAddr } : MadtInfo).countOf entryType).toNat = 0 := by
  intro entryType h
  simp only [madtTypes, List.mem_cons, List.not_mem_nil, or_false] at h
  rcases h with rfl | rfl | rfl | rfl | rfl
  · exact congrArg UInt8.toNat hempty.madtEntry0
  · exact congrArg UInt8.toNat hempty.madtEntry1
  · exact congrArg UInt8.toNat hempty.madtEntry2
  · exact congrArg UInt8.toNat hempty.madtEntry4
  · exact congrArg UInt8.toNat hempty.madtEntry5

lemma ArraysSuffice.storesInside (h : ArraysSuffice rs) (htable : MadtTable mem madt rs)
    (hsize : ∀ r ∈ rs, sizeofMadtEntry r.type ≤ r.data.length) (hempty : NothingCounted madtInfo) :
    StoresInside mem madt madtInfo rs := by
  have hstart := countOf_start hempty (load32 mem (madt + sizeofAcpihdr))
  obtain ⟨hinside, hcounts⟩ := @recordStores_inside rs
    { madtInfo with lapicAddr := load32 mem (madt + sizeofAcpihdr) } fun entryType htype => by
      rw [hstart entryType htype, Nat.zero_add]
      exact h entryType htype
  refine ⟨fun fuel p hp => hinside p ((htable.stores_eq hsize madtInfo).1 fuel p hp), ?_⟩
  intro fuel madtInfo' i hcall entryType htype
  have hresult := htable.madtInit_eq_some hsize madtInfo
    (Nat.lt_of_succ_le (le_max_right fuel (rs.length + 1)))
  rw [madtInit] at hcall hresult
  rw [madtLoop_mono hcall (le_max_left ..), Option.some_inj, Prod.mk.injEq] at hresult
  rw [hresult.1, hcounts entryType htype, hstart entryType htype, Nat.zero_add]

lemma StoresInside.arraysSuffice (h : StoresInside mem madt madtInfo rs)
    (htable : MadtTable mem madt rs) (hsize : ∀ r ∈ rs, sizeofMadtEntry r.type ≤ r.data.length)
    (hempty : NothingCounted madtInfo) : ArraysSuffice rs := by
  intro entryType htype
  by_contra hmany
  have hstart := countOf_start hempty (load32 mem (madt + sizeofAcpihdr)) entryType htype
  have hstore := mem_recordStores htype (by rw [hstart]; exact Nat.zero_le _)
    (by rw [hstart, Nat.zero_add]; exact Nat.not_le.mp hmany)
  exact absurd (h.index _ _ ((htable.stores_eq hsize madtInfo).2 _ hstore)) (Nat.lt_irrefl _)

/-- **The arrays are not overrun exactly if no type that has one occurs more than 50 times.** -/
theorem madtInit_stores_iff (mem : Mem) (madt : UInt64) (rs : List MadtRecord)
    (madtInfo₀ : MadtInfo) (htable : MadtTable mem madt rs)
    (hsize : ∀ r ∈ rs, sizeofMadtEntry r.type ≤ r.data.length)
    (hempty : NothingCounted madtInfo₀) :
    StoresInside mem madt madtInfo₀ rs ↔ ArraysSuffice rs :=
  ⟨fun h => h.arraysSuffice htable hsize hempty, fun h => h.storesInside htable hsize hempty⟩

/-! ## Tables with given entries -/

namespace MadtRecord

/-- The bytes of an entry. -/
def bytes (r : MadtRecord) : List UInt8 := r.type :: UInt8.ofNat r.length :: r.data

lemma length_bytes (r : MadtRecord) : r.bytes.length = r.length := rfl

/-- An entry whose bytes are in memory. -/
lemma at_of_bytes (h : ∀ k v, r.bytes[k]? = some v → mem (a + UInt64.ofNat k) = v) :
    r.At mem a where
  type := by simpa using h 0 r.type rfl
  length := by
    have hshort : r.length < 2 ^ 8 := r.short
    have hsecond : mem (a + 1) = UInt8.ofNat r.length := h 1 _ rfl
    rw [hsecond, UInt8.toNat_ofNat', Nat.mod_eq_of_lt hshort]
  data := by
    intro k hk
    have hbyte := h (k + 2) _ (List.getElem?_eq_getElem hk)
    rw [Nat.add_comm, UInt64.ofNat_add, ← UInt64.add_assoc] at hbyte
    exact hbyte

end MadtRecord

lemma length_flatMap_bytes (rs : List MadtRecord) :
    (rs.flatMap MadtRecord.bytes).length = bodyLength rs := List.length_flatMap

/-- Entries whose bytes are in memory one after the other. -/
lemma tiles_of_bytes (h : ∀ k v, (rs.flatMap MadtRecord.bytes)[k]? = some v →
    mem (a + UInt64.ofNat k) = v) : Tiles mem a rs := by
  induction rs generalizing a with
  | nil => trivial
  | cons r rs ih =>
      rw [List.flatMap_cons] at h
      refine ⟨MadtRecord.at_of_bytes fun k v hv => h k v ?_, ih fun k v hv => ?_⟩
      · rw [List.getElem?_append_left (List.getElem?_eq_some_iff.mp hv).1, hv]
      · rw [UInt64.add_assoc, ← UInt64.ofNat_add]
        refine h _ v ?_
        rw [List.getElem?_append_right (by rw [MadtRecord.length_bytes]; omega),
          MadtRecord.length_bytes, Nat.add_sub_cancel_left, hv]

/-- A table at address 0, with these entries. -/
def madtMemory (rs : List MadtRecord) : Mem :=
  storeBytes (store (fun _ => 0) 4 4 (44 + bodyLength rs)) 44 (rs.flatMap MadtRecord.bytes)

/-- **A table that is made of entries consists of them.** -/
theorem madtTable_madtMemory (hlt : 44 + bodyLength rs < 2 ^ 32) :
    MadtTable (madtMemory rs) 0 rs := by
  constructor
  case length =>
    have hheader : load (madtMemory rs) 4 4 = (44 + bodyLength rs) % 256 ^ 4 := by
      rw [← load_store (m := fun _ => 0) (a := 4) (n := 4) (by omega)]
      refine load_congr fun k hk => storeBytes_outside ?_
      have hbefore : (4 : UInt64) + UInt64.ofNat k - 44 = UInt64.ofNat (2 ^ 64 - 40 + k) := by
        interval_cases k <;> rfl
      rw [length_flatMap_bytes, hbefore, toNat_ofNat_of_lt (by omega)]
      omega
    have hplace : (0 : UInt64) + 4 = 4 := rfl
    rw [hplace, load32, hheader, UInt32.toNat_ofNat']
    omega
  case tiles =>
    have hplace : (0 : UInt64) + 44 = 44 := rfl
    rw [hplace]
    refine tiles_of_bytes fun k v hv => storeBytes_inside ?_ hv
    have hk := (List.getElem?_eq_some_iff.mp hv).1
    rw [length_flatMap_bytes] at hk
    omega

lemma processor_short : [(0 : UInt8), 0, 1, 0, 0, 0].length + 2 < 256 := by decide

/-- A processor. -/
def processor : MadtRecord := ⟨0, [0, 0, 1, 0, 0, 0], processor_short⟩

lemma bodyLength_replicate (r : MadtRecord) (n : ℕ) :
    bodyLength (List.replicate n r) = n * r.length := by
  rw [bodyLength, List.map_replicate, List.sum_replicate, smul_eq_mul]

/-- As many processors as there is room for. -/
theorem madtInit_stores_fifty :
    StoresInside (madtMemory (List.replicate 50 processor)) 0 emptyMadtInfo
    (List.replicate 50 processor) ↔ ArraysSuffice (List.replicate 50 processor) :=
  madtInit_stores_iff _ 0 _ emptyMadtInfo
    (madtTable_madtMemory (by rw [bodyLength_replicate]; decide))
    (fun r hr => by rw [List.eq_of_mem_replicate hr]; decide) ⟨rfl, rfl, rfl, rfl, rfl⟩

/-- One processor more is stored behind the array. -/
theorem madtInit_stores_fiftyOne :
    MadtTable (madtMemory (List.replicate 51 processor)) 0 (List.replicate 51 processor) ∧
      ¬StoresInside (madtMemory (List.replicate 51 processor)) 0 emptyMadtInfo
        (List.replicate 51 processor) := by
  have htable : MadtTable (madtMemory (List.replicate 51 processor)) 0
      (List.replicate 51 processor) :=
    madtTable_madtMemory (by rw [bodyLength_replicate]; decide)
  refine ⟨htable, fun h => ?_⟩
  have hfew := h.arraysSuffice htable
    (fun r hr => by rw [List.eq_of_mem_replicate hr]; decide) ⟨rfl, rfl, rfl, rfl, rfl⟩ 0
      (by decide)
  exact absurd hfew (by decide)

end Seaweed
