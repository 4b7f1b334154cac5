import Seaweed.Library.Memory

/-!
# Parsing the MADT (`kernel/acpi/madt.c`)

The table has a header and then entries of different lengths, each of which begins with its type and
its length.  The index of the loop is moved on in three places: past these two bytes, by what is
left of the entry without one, which wraps around for an entry of two bytes, and by the loop itself.

* `madtTurn`, `madtInit` — the code.
* `MadtRecord`, `Tiles` — the entries of a table, one after the other.
* `madtTurn_eq` — a turn ends at the next entry.
* **`madtInit_collects`** — each of the five arrays gets the entries of its type, in their order.
-/

namespace Seaweed

open Words Memory

/-! ## The code -/

structure MadtEntry0 where
  acpiProcessorID : UInt8
  apicID : UInt8
  flags : UInt32

structure MadtEntry1 where
  ioapicID : UInt8
  reserved : UInt8
  ioapicAddr : UInt32
  gsiBase : UInt32

structure MadtEntry2 where
  busSrc : UInt8
  irqSrc : UInt8
  gsi : UInt32
  flags : UInt16

structure MadtEntry4 where
  acpiProcessorID : UInt8
  flags : UInt16
  lint : UInt8

structure MadtEntry5 where
  reserved : UInt16
  lapicOverride : UInt8

def load16 (mem : Mem) (a : UInt64) : UInt16 := UInt16.ofNat (load mem a 2)

def load32 (mem : Mem) (a : UInt64) : UInt32 := UInt32.ofNat (load mem a 4)

def loadMadtEntry0 (mem : Mem) (a : UInt64) : MadtEntry0 := ⟨mem a, mem (a + 1), load32 mem (a + 2)⟩

def loadMadtEntry1 (mem : Mem) (a : UInt64) : MadtEntry1 :=
  ⟨mem a, mem (a + 1), load32 mem (a + 2), load32 mem (a + 6)⟩

def loadMadtEntry2 (mem : Mem) (a : UInt64) : MadtEntry2 :=
  ⟨mem a, mem (a + 1), load32 mem (a + 2), load16 mem (a + 6)⟩

def loadMadtEntry4 (mem : Mem) (a : UInt64) : MadtEntry4 := ⟨mem a, load16 mem (a + 1), mem (a + 3)⟩

def loadMadtEntry5 (mem : Mem) (a : UInt64) : MadtEntry5 := ⟨load16 mem a, mem (a + 2)⟩

/-- The size of the structure of an entry, after its two first bytes. -/
def sizeofMadtEntry (entryType : UInt8) : ℕ :=
  if entryType = 0 then 6 else if entryType = 1 then 10 else if entryType = 2 then 8
  else if entryType = 4 then 4 else if entryType = 5 then 3 else 0

/-- One of the arrays: a pointer, as far as it can be addressed, and the count that goes with it. -/
structure MadtArray (α : Type) where
  entries : ℕ → α
  count : UInt8

/-- `entries[count++] = entry;` -/
def MadtArray.push {α : Type} (a : MadtArray α) (entry : α) : MadtArray α where
  entries := Function.update a.entries a.count.toNat entry
  count := a.count + 1

/-- `madtInfo_t`. -/
structure MadtInfo where
  madtEntry0 : MadtArray MadtEntry0
  madtEntry1 : MadtArray MadtEntry1
  madtEntry2 : MadtArray MadtEntry2
  madtEntry4 : MadtArray MadtEntry4
  madtEntry5 : MadtArray MadtEntry5
  lapicAddr : UInt32

/-- The `switch` over the type of an entry, whose structure is at `a`. -/
def madtSwitch (mem : Mem) (a : UInt64) (entryType : UInt8) (madtInfo : MadtInfo) : MadtInfo :=
  if entryType = 0 then
    { madtInfo with madtEntry0 := madtInfo.madtEntry0.push (loadMadtEntry0 mem a) }
  else if entryType = 1 then
    { madtInfo with madtEntry1 := madtInfo.madtEntry1.push (loadMadtEntry1 mem a) }
  else if entryType = 2 then
    { madtInfo with madtEntry2 := madtInfo.madtEntry2.push (loadMadtEntry2 mem a) }
  else if entryType = 4 then
    { madtInfo with madtEntry4 := madtInfo.madtEntry4.push (loadMadtEntry4 mem a) }
  else if entryType = 5 then
    { madtInfo with madtEntry5 := madtInfo.madtEntry5.push (loadMadtEntry5 mem a) }
  else madtInfo

/-- One turn of the loop, with the `i++` of the loop.  `entries` is the address of the entries. -/
def madtTurn (mem : Mem) (entries : UInt64) (madtInfo : MadtInfo) (i : UInt64) :
    MadtInfo × UInt64 :=
  let entryType := mem (entries + i)
  let i := i + 1
  let entrySize := mem (entries + i)
  let i := i + 1
  let madtInfo := madtSwitch mem (entries + i) entryType madtInfo
  let i := i + (entrySize.toUInt64 - 3)
  (madtInfo, i + 1)

/-- `none` when the loop has not ended after `fuel` tests of its condition. -/
def madtLoop (mem : Mem) (entries bound : UInt64) :
    (fuel : ℕ) → MadtInfo → UInt64 → Option (MadtInfo × UInt64)
  | 0, _, _ => none
  | fuel + 1, madtInfo, i =>
      if i < bound then
        let next := madtTurn mem entries madtInfo i
        madtLoop mem entries bound fuel next.1 next.2
      else some (madtInfo, i)

/-- `sizeof(acpihdr_t)`. -/
def sizeofAcpihdr : UInt64 := 36

/-- `madt` is what `findSDT` has returned.  `madtInfo` has counts of 0 and the arrays as `kmalloc`
has returned them; the index that the loop ends at is part of the result. -/
def madtInit (mem : Mem) (madt : UInt64) (madtInfo : MadtInfo) (fuel : ℕ) :
    Option (MadtInfo × UInt64) :=
  let madtInfo := { madtInfo with lapicAddr := load32 mem (madt + sizeofAcpihdr) }
  madtLoop mem (madt + (sizeofAcpihdr + 8))
    ((load32 mem (madt + 4)).toUInt64 - (sizeofAcpihdr + 4 + 4)) fuel madtInfo 0

/-! ## Tables -/

/-- An entry of a table: its type, and its bytes after the first two. -/
structure MadtRecord where
  type : UInt8
  data : List UInt8
  short : data.length + 2 < 256

namespace MadtRecord

/-- The length that the entry says it has. -/
def length (r : MadtRecord) : ℕ := r.data.length + 2

/-- The entry is in memory from `a` on. -/
structure At (r : MadtRecord) (mem : Mem) (a : UInt64) : Prop where
  type : mem a = r.type
  length : (mem (a + 1)).toNat = r.length
  data : ∀ k, (hk : k < r.data.length) → mem (a + 2 + UInt64.ofNat k) = r.data[k]

/-- The bytes after the first two, as a memory of their own. -/
def mem (r : MadtRecord) : Mem := fun x => r.data.getD x.toNat 0

end MadtRecord

/-- The entries lie one after the other from `a` on. -/
def Tiles (mem : Mem) (a : UInt64) : List MadtRecord → Prop
  | [] => True
  | r :: rs => r.At mem a ∧ Tiles mem (a + UInt64.ofNat r.length) rs

/-- How many bytes they take. -/
def bodyLength (rs : List MadtRecord) : ℕ := (rs.map MadtRecord.length).sum

/-- A table at `madt`, whose body consists of the entries `rs`. -/
structure MadtTable (mem : Mem) (madt : UInt64) (rs : List MadtRecord) : Prop where
  length : (load32 mem (madt + 4)).toNat = 44 + bodyLength rs
  tiles : Tiles mem (madt + 44) rs

/-- The arrays hold these entries, in this order and nothing else. -/
structure MadtArray.Holds {α : Type} (a a₀ : MadtArray α) (l : List α) : Prop where
  count : a.count.toNat = l.length
  entries : ∀ i, (hi : i < l.length) → a.entries i = l[i]
  rest : ∀ i, l.length ≤ i → a.entries i = a₀.entries i

/-- The entries of a type. -/
def ofType (rs : List MadtRecord) (entryType : UInt8) : List MadtRecord :=
  rs.filter fun r => r.type = entryType

/-- Each array holds the entries of its type. -/
structure Collects (madtInfo madtInfo₀ : MadtInfo) (rs : List MadtRecord) : Prop where
  madtEntry0 : madtInfo.madtEntry0.Holds madtInfo₀.madtEntry0
    ((ofType rs 0).map fun r => loadMadtEntry0 r.mem 0)
  madtEntry1 : madtInfo.madtEntry1.Holds madtInfo₀.madtEntry1
    ((ofType rs 1).map fun r => loadMadtEntry1 r.mem 0)
  madtEntry2 : madtInfo.madtEntry2.Holds madtInfo₀.madtEntry2
    ((ofType rs 2).map fun r => loadMadtEntry2 r.mem 0)
  madtEntry4 : madtInfo.madtEntry4.Holds madtInfo₀.madtEntry4
    ((ofType rs 4).map fun r => loadMadtEntry4 r.mem 0)
  madtEntry5 : madtInfo.madtEntry5.Holds madtInfo₀.madtEntry5
    ((ofType rs 5).map fun r => loadMadtEntry5 r.mem 0)

variable {mem mem' : Mem} {a b madt entries : UInt64} {r : MadtRecord} {rs : List MadtRecord}
  {madtInfo madtInfo₀ : MadtInfo} {entryType : UInt8} {n k : ℕ}

/-! ## One entry -/

/-- The bytes of a structure decide what is read inside it. -/
lemma load_inside (h : ∀ i, i < n → mem (a + UInt64.ofNat i) = mem' (b + UInt64.ofNat i)) {m : ℕ}
    (hk : k + m ≤ n) : load mem (a + UInt64.ofNat k) m = load mem' (b + UInt64.ofNat k) m := by
  refine load_congr fun i hi => ?_
  rw [UInt64.add_assoc, UInt64.add_assoc, ← UInt64.ofNat_add]
  exact h (k + i) (by omega)

lemma first_congr (h : ∀ i, i < n → mem (a + UInt64.ofNat i) = mem' (b + UInt64.ofNat i))
    (hn : 0 < n) : mem a = mem' b := by
  simpa using h 0 hn

lemma loadMadtEntry0_congr
    (h : ∀ i, i < 6 → mem (a + UInt64.ofNat i) = mem' (b + UInt64.ofNat i)) :
    loadMadtEntry0 mem a = loadMadtEntry0 mem' b := by
  have hsecond : mem (a + 1) = mem' (b + 1) := h 1 (by omega)
  have hflags : load32 mem (a + 2) = load32 mem' (b + 2) :=
    congrArg UInt32.ofNat (load_inside h (k := 2) (by omega))
  rw [loadMadtEntry0, loadMadtEntry0, first_congr h (by omega), hsecond, hflags]

lemma loadMadtEntry1_congr
    (h : ∀ i, i < 10 → mem (a + UInt64.ofNat i) = mem' (b + UInt64.ofNat i)) :
    loadMadtEntry1 mem a = loadMadtEntry1 mem' b := by
  have hsecond : mem (a + 1) = mem' (b + 1) := h 1 (by omega)
  have haddr : load32 mem (a + 2) = load32 mem' (b + 2) :=
    congrArg UInt32.ofNat (load_inside h (k := 2) (by omega))
  have hgsi : load32 mem (a + 6) = load32 mem' (b + 6) :=
    congrArg UInt32.ofNat (load_inside h (k := 6) (by omega))
  rw [loadMadtEntry1, loadMadtEntry1, first_congr h (by omega), hsecond, haddr, hgsi]

lemma loadMadtEntry2_congr
    (h : ∀ i, i < 8 → mem (a + UInt64.ofNat i) = mem' (b + UInt64.ofNat i)) :
    loadMadtEntry2 mem a = loadMadtEntry2 mem' b := by
  have hsecond : mem (a + 1) = mem' (b + 1) := h 1 (by omega)
  have hgsi : load32 mem (a + 2) = load32 mem' (b + 2) :=
    congrArg UInt32.ofNat (load_inside h (k := 2) (by omega))
  have hflags : load16 mem (a + 6) = load16 mem' (b + 6) :=
    congrArg UInt16.ofNat (load_inside h (k := 6) (by omega))
  rw [loadMadtEntry2, loadMadtEntry2, first_congr h (by omega), hsecond, hgsi, hflags]

lemma loadMadtEntry4_congr
    (h : ∀ i, i < 4 → mem (a + UInt64.ofNat i) = mem' (b + UInt64.ofNat i)) :
    loadMadtEntry4 mem a = loadMadtEntry4 mem' b := by
  have hflags : load16 mem (a + 1) = load16 mem' (b + 1) :=
    congrArg UInt16.ofNat (load_inside h (k := 1) (by omega))
  have hlint : mem (a + 3) = mem' (b + 3) := h 3 (by omega)
  rw [loadMadtEntry4, loadMadtEntry4, first_congr h (by omega), hflags, hlint]

lemma loadMadtEntry5_congr
    (h : ∀ i, i < 3 → mem (a + UInt64.ofNat i) = mem' (b + UInt64.ofNat i)) :
    loadMadtEntry5 mem a = loadMadtEntry5 mem' b := by
  have hreserved : load16 mem a = load16 mem' b := by
    simpa [load16] using congrArg UInt16.ofNat (load_inside h (k := 0) (m := 2) (by omega))
  have hoverride : mem (a + 2) = mem' (b + 2) := h 2 (by omega)
  rw [loadMadtEntry5, loadMadtEntry5, hreserved, hoverride]

/-- Only the bytes of the structure that the type stands for are read. -/
lemma madtSwitch_congr (h : ∀ i, i < sizeofMadtEntry entryType →
    mem (a + UInt64.ofNat i) = mem' (b + UInt64.ofNat i)) (madtInfo : MadtInfo) :
    madtSwitch mem a entryType madtInfo = madtSwitch mem' b entryType madtInfo := by
  unfold sizeofMadtEntry at h
  unfold madtSwitch
  split_ifs at h ⊢
  · rw [loadMadtEntry0_congr h]
  · rw [loadMadtEntry1_congr h]
  · rw [loadMadtEntry2_congr h]
  · rw [loadMadtEntry4_congr h]
  · rw [loadMadtEntry5_congr h]
  · rfl

/-- What an entry adds to the arrays. -/
def addRecord (madtInfo : MadtInfo) (r : MadtRecord) : MadtInfo :=
  madtSwitch r.mem 0 r.type madtInfo

/-- **A turn ends at the next entry**, and has added the one that it began at. -/
theorem madtTurn_eq (hr : r.At mem (entries + UInt64.ofNat n))
    (hsize : sizeofMadtEntry r.type ≤ r.data.length) (madtInfo : MadtInfo) :
    madtTurn mem entries madtInfo (UInt64.ofNat n) =
      (addRecord madtInfo r, UInt64.ofNat (n + r.length)) := by
  have hlength : mem (entries + (UInt64.ofNat n + 1)) = UInt8.ofNat r.length := by
    have hshort : r.length < 2 ^ 8 := r.short
    rw [← UInt64.add_assoc, ← UInt8.toNat_inj, hr.length, UInt8.toNat_ofNat',
      Nat.mod_eq_of_lt hshort]
  have hdata : ∀ k, k < sizeofMadtEntry r.type →
      mem (entries + (UInt64.ofNat n + 1 + 1) + UInt64.ofNat k) = r.mem (0 + UInt64.ofNat k) := by
    intro k hk
    have hshort := r.short
    have hk' : k < r.data.length := by omega
    have haddr : entries + (UInt64.ofNat n + 1 + 1) + UInt64.ofNat k =
        entries + UInt64.ofNat n + 2 + UInt64.ofNat k := by grind
    rw [haddr, hr.data k hk', MadtRecord.mem, UInt64.zero_add, toNat_ofNat_of_lt (by omega),
      List.getD_eq_getElem?_getD, List.getElem?_eq_getElem hk', Option.getD_some]
  have hnext : UInt64.ofNat n + 1 + 1 + ((UInt8.ofNat r.length).toUInt64 - 3) + 1 =
      UInt64.ofNat (n + r.length) := by
    have hshort : r.length < 2 ^ 8 := r.short
    have hsize : (UInt8.ofNat r.length).toUInt64 = UInt64.ofNat r.length := by
      rw [← UInt64.toNat_inj, UInt8.toNat_toUInt64, UInt8.toNat_ofNat', Nat.mod_eq_of_lt hshort,
        toNat_ofNat_of_lt (by omega)]
    -- past the two bytes, past the rest less one, and the `i++` of the loop
    rw [hsize, UInt64.ofNat_add]
    grind
  rw [madtTurn, hr.type, hlength, madtSwitch_congr hdata, hnext]
  rfl

/-! ## The loop -/

/-- With more fuel a loop that has ended ends in the same way. -/
lemma madtLoop_mono {bound i : UInt64} {fuel fuel' : ℕ} {result : MadtInfo × UInt64}
    (h : madtLoop mem entries bound fuel madtInfo i = some result) (hfuel : fuel ≤ fuel') :
    madtLoop mem entries bound fuel' madtInfo i = some result := by
  induction fuel generalizing fuel' madtInfo i with
  | zero => cases h
  | succ fuel ih =>
      obtain ⟨k, rfl⟩ : ∃ k, fuel' = k + 1 := ⟨fuel' - 1, by omega⟩
      rw [madtLoop] at h ⊢
      split_ifs at h ⊢
      · exact ih h (by omega)
      · exact h

lemma bodyLength_cons (r : MadtRecord) (rs : List MadtRecord) :
    bodyLength (r :: rs) = r.length + bodyLength rs := List.sum_cons

/-- The first entry begins inside the table. -/
lemma ofNat_lt_body (r : MadtRecord) (hlt : n + r.length + bodyLength rs < 2 ^ 64) :
    UInt64.ofNat n < UInt64.ofNat (n + r.length + bodyLength rs) := by
  have hpos : 0 < r.length := Nat.succ_pos _
  rw [UInt64.lt_iff_toNat_lt, toNat_ofNat_of_lt (by omega), toNat_ofNat_of_lt hlt]
  omega

/-- The other entries follow it. -/
lemma Tiles.next (h : Tiles mem (entries + UInt64.ofNat n) (r :: rs)) :
    Tiles mem (entries + UInt64.ofNat (n + r.length)) rs := by
  rw [UInt64.ofNat_add, ← UInt64.add_assoc]
  exact h.2

/-- **The loop** adds the entries one after the other, and ends where they do. -/
theorem madtLoop_eq (rs : List MadtRecord) (madtInfo : MadtInfo) (n : ℕ)
    (htiles : Tiles mem (entries + UInt64.ofNat n) rs)
    (hsize : ∀ r ∈ rs, sizeofMadtEntry r.type ≤ r.data.length)
    (hlt : n + bodyLength rs < 2 ^ 64) {fuel : ℕ} (hfuel : rs.length < fuel) :
    madtLoop mem entries (UInt64.ofNat (n + bodyLength rs)) fuel madtInfo (UInt64.ofNat n) =
      some (rs.foldl addRecord madtInfo, UInt64.ofNat (n + bodyLength rs)) := by
  induction rs generalizing madtInfo n fuel with
  | nil =>
      obtain ⟨fuel, rfl⟩ := Nat.exists_eq_succ_of_ne_zero (Nat.ne_of_gt (Nat.zero_lt_of_lt hfuel))
      exact if_neg (UInt64.lt_irrefl (UInt64.ofNat n))
  | cons r rs ih =>
      obtain ⟨fuel, rfl⟩ := Nat.exists_eq_succ_of_ne_zero (Nat.ne_of_gt (Nat.zero_lt_of_lt hfuel))
      rw [bodyLength_cons, ← Nat.add_assoc] at hlt ⊢
      rw [madtLoop, if_pos (ofNat_lt_body r hlt), madtTurn_eq htiles.1 (hsize r List.mem_cons_self)]
      exact ih _ _ htiles.next (fun r' hr' => hsize r' (List.mem_cons_of_mem r hr')) hlt
        (Nat.lt_of_succ_lt_succ hfuel)

/-! ## The arrays -/

@[simp] lemma MadtArray.entries_push {α : Type} (a : MadtArray α) (entry : α) :
    (a.push entry).entries = Function.update a.entries a.count.toNat entry := rfl

lemma MadtArray.Holds.push {α : Type} {a a₀ : MadtArray α} {l : List α} (h : a.Holds a₀ l)
    (hlt : l.length < 255) (entry : α) : (a.push entry).Holds a₀ (l ++ [entry]) where
  count := by
    rw [MadtArray.push, UInt8.toNat_add, h.count, List.length_append, List.length_singleton]
    exact Nat.mod_eq_of_lt (by show _ + 1 < _; omega)
  entries := by
    intro i hi
    rw [List.length_append, List.length_singleton] at hi
    rw [entries_push, h.count]
    rcases Nat.lt_or_ge i l.length with hlt | hge
    · rw [Function.update_of_ne hlt.ne, h.entries i hlt, List.getElem_append_left]
    · obtain rfl : i = l.length := by omega
      rw [Function.update_self, List.getElem_concat_length rfl]
  rest := by
    intro i hi
    rw [List.length_append, List.length_singleton] at hi
    rw [entries_push, h.count, Function.update_of_ne (by omega)]
    exact h.rest i (by omega)

/-- An array to which the entries of one type are added holds them in the end. -/
lemma holds_foldl {α : Type} (array : MadtInfo → MadtArray α) (decode : MadtRecord → α)
    (hadd : ∀ madtInfo r, array (addRecord madtInfo r) =
      if r.type = entryType then (array madtInfo).push (decode r) else array madtInfo)
    (rs : List MadtRecord) (madtInfo : MadtInfo) {a₀ : MadtArray α} {l : List α}
    (h : (array madtInfo).Holds a₀ l) (hlt : l.length + (ofType rs entryType).length ≤ 255) :
    (array (rs.foldl addRecord madtInfo)).Holds a₀ (l ++ (ofType rs entryType).map decode) := by
  induction rs generalizing madtInfo l with
  | nil => simpa [ofType] using h
  | cons r rs ih =>
      have hnext := hadd madtInfo r
      rw [List.foldl_cons]
      split_ifs at hnext with htype
      · have hcons : ofType (r :: rs) entryType = r :: ofType rs entryType :=
          List.filter_cons_of_pos (by simpa using htype)
        rw [hcons, List.length_cons] at hlt
        have hpush := h.push (by omega) (decode r)
        rw [← hnext] at hpush
        have hrest := ih _ hpush (by rw [List.length_append, List.length_singleton]; omega)
        rwa [hcons, List.map_cons, ← List.singleton_append, ← List.append_assoc]
      · have hcons : ofType (r :: rs) entryType = ofType rs entryType :=
          List.filter_cons_of_neg (by simpa using htype)
        rw [← hnext] at h
        rw [hcons] at hlt ⊢
        exact ih _ h hlt

/-- No type occurs more often than its array has room for. -/
def FewEntries (rs : List MadtRecord) : Prop := ∀ entryType, (ofType rs entryType).length ≤ 50

/-- `madtInfo` as it is before the call: nothing has been counted. -/
structure NothingCounted (madtInfo : MadtInfo) : Prop where
  madtEntry0 : madtInfo.madtEntry0.count = 0
  madtEntry1 : madtInfo.madtEntry1.count = 0
  madtEntry2 : madtInfo.madtEntry2.count = 0
  madtEntry4 : madtInfo.madtEntry4.count = 0
  madtEntry5 : madtInfo.madtEntry5.count = 0

/-- An array from which nothing has been counted gets the entries of its type. -/
lemma holds_ofType {α : Type} (array : MadtInfo → MadtArray α) (decode : MadtRecord → α)
    (hadd : ∀ madtInfo r, array (addRecord madtInfo r) =
      if r.type = entryType then (array madtInfo).push (decode r) else array madtInfo)
    (hfew : FewEntries rs) (hempty : (array madtInfo).count = 0) :
    (array (rs.foldl addRecord madtInfo)).Holds (array madtInfo)
      ((ofType rs entryType).map decode) := by
  have hstart : (array madtInfo).Holds (array madtInfo) [] :=
    ⟨by rw [hempty]; rfl, fun i hi => absurd hi (Nat.not_lt_zero i), fun _ _ => rfl⟩
  have hlength := hfew entryType
  exact holds_foldl array decode hadd rs madtInfo hstart (by rw [List.length_nil]; omega)

/-- **An entry is added to the array of its type**, and the other arrays stay. -/
lemma addRecord_eq (madtInfo : MadtInfo) (r : MadtRecord) : addRecord madtInfo r = {
    madtEntry0 := if r.type = 0 then madtInfo.madtEntry0.push (loadMadtEntry0 r.mem 0)
      else madtInfo.madtEntry0
    madtEntry1 := if r.type = 1 then madtInfo.madtEntry1.push (loadMadtEntry1 r.mem 0)
      else madtInfo.madtEntry1
    madtEntry2 := if r.type = 2 then madtInfo.madtEntry2.push (loadMadtEntry2 r.mem 0)
      else madtInfo.madtEntry2
    madtEntry4 := if r.type = 4 then madtInfo.madtEntry4.push (loadMadtEntry4 r.mem 0)
      else madtInfo.madtEntry4
    madtEntry5 := if r.type = 5 then madtInfo.madtEntry5.push (loadMadtEntry5 r.mem 0)
      else madtInfo.madtEntry5
    lapicAddr := madtInfo.lapicAddr } := by
  have hadded : addRecord madtInfo r = madtSwitch r.mem 0 r.type madtInfo := rfl
  by_cases h0 : r.type = 0
  · rw [hadded, h0]
    rfl
  by_cases h1 : r.type = 1
  · rw [hadded, h1]
    rfl
  by_cases h2 : r.type = 2
  · rw [hadded, h2]
    rfl
  by_cases h4 : r.type = 4
  · rw [hadded, h4]
    rfl
  by_cases h5 : r.type = 5
  · rw [hadded, h5]
    rfl
  simp only [hadded, madtSwitch, if_neg h0, if_neg h1, if_neg h2, if_neg h4, if_neg h5]

lemma collects_foldl (hfew : FewEntries rs) (hempty : NothingCounted madtInfo) :
    Collects (rs.foldl addRecord madtInfo) madtInfo rs where
  madtEntry0 := holds_ofType MadtInfo.madtEntry0 _
    (fun _ _ => congrArg MadtInfo.madtEntry0 (addRecord_eq _ _)) hfew hempty.madtEntry0
  madtEntry1 := holds_ofType MadtInfo.madtEntry1 _
    (fun _ _ => congrArg MadtInfo.madtEntry1 (addRecord_eq _ _)) hfew hempty.madtEntry1
  madtEntry2 := holds_ofType MadtInfo.madtEntry2 _
    (fun _ _ => congrArg MadtInfo.madtEntry2 (addRecord_eq _ _)) hfew hempty.madtEntry2
  madtEntry4 := holds_ofType MadtInfo.madtEntry4 _
    (fun _ _ => congrArg MadtInfo.madtEntry4 (addRecord_eq _ _)) hfew hempty.madtEntry4
  madtEntry5 := holds_ofType MadtInfo.madtEntry5 _
    (fun _ _ => congrArg MadtInfo.madtEntry5 (addRecord_eq _ _)) hfew hempty.madtEntry5

/-- The bound of the loop is the length of the body. -/
lemma MadtTable.bound_eq (h : MadtTable mem madt rs) :
    (load32 mem (madt + 4)).toUInt64 - (sizeofAcpihdr + 4 + 4) = UInt64.ofNat (bodyLength rs) := by
  have hlt := (load32 mem (madt + 4)).toNat_lt
  have hlength := h.length
  have hheader : (sizeofAcpihdr + 4 + 4).toNat = 44 := rfl
  rw [← UInt64.toNat_inj, UInt64.toNat_sub, hheader, UInt32.toNat_toUInt64, hlength,
    toNat_ofNat_of_lt (by omega)]
  omega

lemma MadtTable.tiles_zero (h : MadtTable mem madt rs) :
    Tiles mem (madt + (sizeofAcpihdr + 8) + UInt64.ofNat 0) rs := by
  have hplace : madt + (sizeofAcpihdr + 8) + UInt64.ofNat 0 = madt + 44 := UInt64.add_zero _
  rw [hplace]
  exact h.tiles

/-- A call adds the entries of the table one after the other. -/
lemma MadtTable.madtInit_eq_some (h : MadtTable mem madt rs)
    (hsize : ∀ r ∈ rs, sizeofMadtEntry r.type ≤ r.data.length) (madtInfo : MadtInfo) {fuel : ℕ}
    (hfuel : rs.length < fuel) : madtInit mem madt madtInfo fuel =
      some (rs.foldl addRecord { madtInfo with lapicAddr := load32 mem (madt + sizeofAcpihdr) },
        UInt64.ofNat (bodyLength rs)) := by
  have hlt := (load32 mem (madt + 4)).toNat_lt
  have hlength := h.length
  have hloop := madtLoop_eq rs { madtInfo with lapicAddr := load32 mem (madt + sizeofAcpihdr) } 0
    h.tiles_zero hsize (by omega) hfuel
  rw [madtInit, h.bound_eq]
  rw [Nat.zero_add] at hloop
  exact hloop

/-- **The MADT is parsed exactly.**  Of a table whose body consists of entries, each long enough for
the structure of its type, every array gets the entries of its own type, and the loop ends with the
body. -/
theorem madtInit_collects (mem : Mem) (madt : UInt64) (rs : List MadtRecord) (madtInfo₀ : MadtInfo)
    (htable : MadtTable mem madt rs) (hsize : ∀ r ∈ rs, sizeofMadtEntry r.type ≤ r.data.length)
    (hfew : FewEntries rs) (hempty : NothingCounted madtInfo₀) :
    ∃ madtInfo, Collects madtInfo madtInfo₀ rs ∧ ∃ n, ∀ fuel, n ≤ fuel →
      madtInit mem madt madtInfo₀ fuel = some (madtInfo, UInt64.ofNat (bodyLength rs)) := by
  have hcollects := @collects_foldl rs
    { madtInfo₀ with lapicAddr := load32 mem (madt + sizeofAcpihdr) } hfew
    ⟨hempty.madtEntry0, hempty.madtEntry1, hempty.madtEntry2, hempty.madtEntry4, hempty.madtEntry5⟩
  exact ⟨_, ⟨hcollects.madtEntry0, hcollects.madtEntry1, hcollects.madtEntry2,
    hcollects.madtEntry4, hcollects.madtEntry5⟩, rs.length + 1, fun fuel hfuel =>
      htable.madtInit_eq_some hsize madtInfo₀ hfuel⟩

/-- A processor, an entry of two bytes and of no type that is known, and another processor. -/
def twoProcessors : List MadtRecord :=
  [⟨0, [0, 0, 1, 0, 0, 0], by decide⟩, ⟨9, [], by decide⟩, ⟨0, [1, 1, 1, 0, 0, 0], by decide⟩]

/-- The bytes of that table, from address 0 on. -/
def twoProcessorsTable : Mem := fun x =>
  (([0, 0, 0, 0, 62, 0, 0, 0] ++ List.replicate 36 0 ++
    [0, 8, 0, 0, 1, 0, 0, 0, 9, 2, 0, 8, 1, 1, 1, 0, 0, 0]) : List UInt8).getD x.toNat 0

/-- Empty arrays. -/
def emptyMadtInfo : MadtInfo :=
  ⟨⟨fun _ => ⟨0, 0, 0⟩, 0⟩, ⟨fun _ => ⟨0, 0, 0, 0⟩, 0⟩, ⟨fun _ => ⟨0, 0, 0, 0⟩, 0⟩,
    ⟨fun _ => ⟨0, 0, 0⟩, 0⟩, ⟨fun _ => ⟨0, 0⟩, 0⟩, 0⟩

theorem madtInit_collects_twoProcessors : ∃ madtInfo,
    Collects madtInfo emptyMadtInfo twoProcessors ∧ ∃ n, ∀ fuel, n ≤ fuel →
      madtInit twoProcessorsTable 0 emptyMadtInfo fuel = some (madtInfo, 18) := by
  refine madtInit_collects twoProcessorsTable 0 twoProcessors emptyMadtInfo ⟨by decide, ?_⟩
    (by decide) (fun entryType => ?_) ⟨rfl, rfl, rfl, rfl, rfl⟩
  · exact ⟨⟨by decide, by decide, by decide⟩, ⟨by decide, by decide, by decide⟩,
      ⟨by decide, by decide, by decide⟩, trivial⟩
  · exact le_trans (List.length_filter_le ..) (by decide)

end Seaweed
