import Seaweed.Acpi.Madt
import Seaweed.Libk.String
import Seaweed.Library.SearchReads
import Seaweed.Mm.KHeap

/-!
# Finding a table (`kernel/acpi/rsdp.c`)

The root table has a header of 36 bytes and then pointers to the other tables: pointers of eight
bytes in the XSDT, and of four in the RSDT.  `findSDT` follows them until it has found the signature
that it was asked for.  It counts bytes where it should count pointers, which does no harm as long
as it finds something.

* `findSDT` — the code, with the pointers that it follows.
* `SearchesExactly` — it follows the pointers of the table, and returns the first match.
* `StopsInside` — there is a match, or nothing to look at.
* **`findSDT_iff`** — this is what it takes.
-/

namespace Seaweed

open FirstFit Memory Words

/-! ## The code -/

/-- The two kinds of root tables. -/
inductive RootTable
  | xsdt
  | rsdt
  deriving DecidableEq

/-- The size of a pointer. -/
def RootTable.width : RootTable → ℕ
  | .xsdt => 8
  | .rsdt => 4

/-- The globals `xsdt` and `rsdt`; 0 is `NULL`. -/
structure RootTables where
  xsdt : UInt64
  rsdt : UInt64

def RootTables.address (roots : RootTables) : RootTable → UInt64
  | .xsdt => roots.xsdt
  | .rsdt => roots.rsdt

/-- Four characters. -/
structure Signature where
  chars : List UInt8
  four : chars.length = 4

/-- `(acpihdr_t*)(acpiptr[i] + HIGH_VMA)`. -/
def acpihdr (mem : Mem) (roots : RootTables) (table : RootTable) (i : ℕ) : UInt64 :=
  UInt64.ofNat (load mem (roots.address table + sizeofAcpihdr + UInt64.ofNat (table.width * i))
    table.width) + HIGH_VMA

/-- The bound of a loop: `acpihdr.length - sizeof(acpihdr_t)`. -/
def sdtBound (mem : Mem) (roots : RootTables) (table : RootTable) : ℕ :=
  ((load32 mem (roots.address table + 4)).toUInt64 - sizeofAcpihdr).toNat

/-- `strncmp(acpihdr->signature, signature, 4) == 0`. -/
def sdtMatches (mem : Mem) (roots : RootTables) (signature : Signature) (table : RootTable)
    (i : ℕ) :
    Bool :=
  strncmp mem (acpihdr mem roots table i) signature.chars == 0

/-- One of the loops. -/
def searchSDT (mem : Mem) (roots : RootTables) (signature : Signature) (table : RootTable) :
    Option UInt64 :=
  if roots.address table = 0 then none
  else
    let i := stopIndex (sdtMatches mem roots signature table) (sdtBound mem roots table)
    if i < sdtBound mem roots table then some (acpihdr mem roots table i) else none

def findSDT (mem : Mem) (roots : RootTables) (signature : Signature) : UInt64 :=
  match searchSDT mem roots signature .xsdt with
  | some acpihdr => acpihdr
  | none =>
      match searchSDT mem roots signature .rsdt with
      | some acpihdr => acpihdr
      | none => 0

/-- The pointers that a loop follows. -/
def searchReads (mem : Mem) (roots : RootTables) (signature : Signature) (table : RootTable) :
    List (RootTable × ℕ) :=
  if roots.address table = 0 then []
  else (stopReads (sdtMatches mem roots signature table) (sdtBound mem roots table)).map (table, ·)

def findSDTReads (mem : Mem) (roots : RootTables) (signature : Signature) : List (RootTable × ℕ) :=
  searchReads mem roots signature .xsdt ++
    if (searchSDT mem roots signature .xsdt).isSome then []
    else searchReads mem roots signature .rsdt

/-! ## What should hold -/

/-- The root tables that there are have `count` pointers each. -/
def RootsHave (mem : Mem) (roots : RootTables) (count : RootTable → ℕ) : Prop :=
  ∀ table, roots.address table ≠ 0 →
    (load32 mem (roots.address table + 4)).toNat = 36 + table.width * count table

/-- The tables that a root table points to, if it is there. -/
def tableHeaders (mem : Mem) (roots : RootTables) (count : RootTable → ℕ) (table : RootTable) :
    List UInt64 :=
  if roots.address table = 0 then [] else (List.range (count table)).map (acpihdr mem roots table)

/-- The table at `a` begins with the signature. -/
def Carries (mem : Mem) (signature : Signature) (a : UInt64) : Prop :=
  ∀ k, k < 4 → signature.chars[k]? = some (mem (a + UInt64.ofNat k))

instance (mem : Mem) (signature : Signature) : DecidablePred (Carries mem signature) :=
  fun _ => Nat.decidableBallLT _ _

/-- Only pointers of the root tables are followed, and the result is the first table that has the
signature, or `NULL`. -/
structure SearchesExactly (mem : Mem) (roots : RootTables) (signature : Signature)
    (count : RootTable → ℕ) : Prop where
  inside : ∀ p ∈ findSDTReads mem roots signature, p.2 < count p.1
  result : findSDT mem roots signature =
    ((tableHeaders mem roots count .xsdt ++ tableHeaders mem roots count .rsdt).find?
      fun a => Carries mem signature a).getD 0

/-- One of the tables that a root table points to has the signature. -/
def SdtFound (mem : Mem) (roots : RootTables) (signature : Signature) (count : RootTable → ℕ)
    (table : RootTable) : Prop :=
  ∃ a ∈ tableHeaders mem roots count table, Carries mem signature a

/-- The XSDT leads to the signature, or has no pointers and the RSDT leads to it or has none. -/
def StopsInside (mem : Mem) (roots : RootTables) (signature : Signature) (count : RootTable → ℕ) :
    Prop :=
  SdtFound mem roots signature count .xsdt ∨
    tableHeaders mem roots count .xsdt = [] ∧
      (SdtFound mem roots signature count .rsdt ∨ tableHeaders mem roots count .rsdt = [])

variable {mem : Mem} {roots : RootTables} {signature : Signature} {count : RootTable → ℕ}
  {table : RootTable} {a : UInt64} {i : ℕ}

/-! ## One table -/

lemma carries_iff : Carries mem signature a ↔ strncmp mem a signature.chars = 0 := by
  have hfour := signature.four
  rw [strncmp_eq_zero_iff]
  constructor
  · intro h k v hv
    have hk := (List.getElem?_eq_some_iff.mp hv).1
    rw [h k (by omega), Option.some_inj] at hv
    exact hv
  · intro h k hk
    have hchar := List.getElem?_eq_getElem (l := signature.chars) (i := k) (by omega)
    rw [h k _ hchar, hchar]

lemma sdtMatches_iff :
    sdtMatches mem roots signature table i = true ↔
      Carries mem signature (acpihdr mem roots table i) := by
  rw [sdtMatches, beq_iff_eq, carries_iff]

lemma width_pos (table : RootTable) : 4 ≤ table.width := by
  cases table <;> decide

/-- The loops count bytes. -/
lemma sdtBound_eq (h : RootsHave mem roots count) (hthere : roots.address table ≠ 0) :
    sdtBound mem roots table = table.width * count table := by
  have hlength := h table hthere
  have hlt := (load32 mem (roots.address table + 4)).toNat_lt
  have hheader : sizeofAcpihdr.toNat = 36 := rfl
  rw [sdtBound, UInt64.toNat_sub, hheader, UInt32.toNat_toUInt64, hlength]
  omega

/-- **A search that finds something** stays inside, and finds the first one. -/
lemma SdtFound.search (hfound : SdtFound mem roots signature count table)
    (h : RootsHave mem roots count) :
    (∀ p ∈ searchReads mem roots signature table, p.2 < count p.1) ∧
      ∃ b, searchSDT mem roots signature table = some b ∧
        (tableHeaders mem roots count table).find? (fun a => Carries mem signature a) = some b := by
  have hwidth := width_pos table
  obtain ⟨a, ha, hcarries⟩ := hfound
  rw [tableHeaders] at ha
  split_ifs at ha with hzero
  · exact absurd ha List.not_mem_nil
  · obtain ⟨i, hi, rfl⟩ := List.mem_map.mp ha
    have hlt := List.mem_range.mp hi
    have hbound := sdtBound_eq h hzero
    have hle : count table ≤ table.width * count table := Nat.le_mul_of_pos_left _ (by omega)
    obtain ⟨hfirst, hstop⟩ := stopIndex_le (hlt.trans_le (hle.trans_eq hbound.symm))
      (sdtMatches_iff.mpr hcarries)
    have hinside : stopIndex (sdtMatches mem roots signature table) (sdtBound mem roots table)
        < count table := Nat.lt_of_le_of_lt hfirst hlt
    refine ⟨fun p hp => ?_, acpihdr mem roots table
      (stopIndex (sdtMatches mem roots signature table) (sdtBound mem roots table)), ?_, ?_⟩
    · rw [searchReads, if_neg hzero] at hp
      obtain ⟨j, hj, rfl⟩ := List.mem_map.mp hp
      exact Nat.lt_of_le_of_lt (mem_stopReads.mp hj).1 hinside
    · rw [searchSDT, if_neg hzero, if_pos (by omega)]
    · rw [tableHeaders, if_neg hzero, List.find?_map, Option.map_eq_some_iff]
      refine ⟨_, List.find?_range_eq_some.mpr ⟨?_, List.mem_range.mpr hinside, fun j hj => ?_⟩, rfl⟩
      · exact decide_eq_true (sdtMatches_iff.mp hstop)
      · have hbefore : sdtMatches mem roots signature table j = false := by
          rcases stopIndex_cases (sdtMatches mem roots signature table) (sdtBound mem roots table)
            with ⟨_, _, hnone⟩ | ⟨_, hnone⟩
          · exact hnone j hj
          · exact hnone j (by omega)
        simpa [← sdtMatches_iff] using hbefore

/-- A root table without pointers is not looked at. -/
lemma search_bare (hbare : tableHeaders mem roots count table = []) (h : RootsHave mem roots count)
    (signature : Signature) :
    searchReads mem roots signature table = [] ∧ searchSDT mem roots signature table = none := by
  rw [searchReads, searchSDT]
  split_ifs with hzero
  · exact ⟨rfl, rfl⟩
  · rw [tableHeaders, if_neg hzero, List.map_eq_nil_iff, List.range_eq_nil] at hbare
    have hbound : sdtBound mem roots table = 0 := by rw [sdtBound_eq h hzero, hbare, Nat.mul_zero]
    rw [hbound, stopReads, Nat.min_zero]
    exact ⟨rfl, rfl⟩

/-- **A search that finds nothing** goes on behind the last pointer. -/
lemma search_overruns (hnot : ¬SdtFound mem roots signature count table)
    (hpointers : tableHeaders mem roots count table ≠ []) (h : RootsHave mem roots count) :
    (table, count table) ∈ searchReads mem roots signature table := by
  have hwidth := width_pos table
  have hzero : roots.address table ≠ 0 := fun hzero =>
    hpointers (by rw [tableHeaders, if_pos hzero])
  rw [tableHeaders, if_neg hzero, Ne, List.map_eq_nil_iff, List.range_eq_nil] at hpointers
  have hpos : 0 < count table := Nat.pos_of_ne_zero hpointers
  have hmore : count table < table.width * count table :=
    lt_mul_of_one_lt_left hpos (by omega)
  have hnone : ∀ i, i < count table → sdtMatches mem roots signature table i = false := by
    intro i hi
    refine Bool.eq_false_of_not_eq_true fun hmatch => hnot ⟨_, ?_, sdtMatches_iff.mp hmatch⟩
    rw [tableHeaders, if_neg hzero]
    exact List.mem_map_of_mem (List.mem_range.mpr hi)
  rw [searchReads, if_neg hzero]
  refine List.mem_map.mpr ⟨_, mem_stopReads.mpr ⟨?_, by rwa [sdtBound_eq h hzero]⟩, rfl⟩
  rcases stopIndex_cases (sdtMatches mem roots signature table) (sdtBound mem roots table)
    with ⟨_, hstop, _⟩ | ⟨hend, _⟩
  · refine Nat.le_of_not_lt fun hlt => ?_
    rw [hnone _ hlt] at hstop
    cases hstop
  · rw [hend, sdtBound_eq h hzero]
    exact Nat.le_of_lt hmore

/-! ## Both tables -/

lemma StopsInside.searchesExactly (hstops : StopsInside mem roots signature count)
    (h : RootsHave mem roots count) : SearchesExactly mem roots signature count := by
  rcases hstops with hxsdt | ⟨hxsdt, hrsdt | hrsdt⟩
  · obtain ⟨hinside, b, hsearch, hfind⟩ := hxsdt.search h
    constructor
    case inside =>
      rw [findSDTReads, hsearch]
      simpa using hinside
    case result =>
      rw [findSDT, hsearch, List.find?_append, hfind]
      rfl
  · obtain ⟨hreads, hnone⟩ := search_bare hxsdt h signature
    obtain ⟨hinside, b, hsearch, hfind⟩ := hrsdt.search h
    constructor
    case inside =>
      rw [findSDTReads, hreads, hnone]
      simpa using hinside
    case result =>
      rw [findSDT, hnone, hsearch, hxsdt, List.nil_append, hfind]
      rfl
  · obtain ⟨hreads, hnone⟩ := search_bare hxsdt h signature
    obtain ⟨hreads', hnone'⟩ := search_bare hrsdt h signature
    constructor
    case inside =>
      rw [findSDTReads, hreads, hnone, hreads']
      simp
    case result =>
      rw [findSDT, hnone, hnone', hxsdt, hrsdt]
      rfl

lemma SearchesExactly.stopsInside (hexact : SearchesExactly mem roots signature count)
    (h : RootsHave mem roots count) : StopsInside mem roots signature count := by
  have hinside : ∀ table, (table, count table) ∉ findSDTReads mem roots signature :=
    fun table hread => absurd (hexact.inside _ hread) (Nat.lt_irrefl _)
  by_cases hxsdt : SdtFound mem roots signature count .xsdt
  · exact Or.inl hxsdt
  · have hbare : tableHeaders mem roots count .xsdt = [] := by
      by_contra hpointers
      exact hinside .xsdt (List.mem_append_left _ (search_overruns hxsdt hpointers h))
    obtain ⟨_, hnone⟩ := search_bare hbare h signature
    refine Or.inr ⟨hbare, ?_⟩
    by_contra hneither
    obtain ⟨hrsdt, hpointers⟩ := not_or.mp hneither
    refine hinside .rsdt (List.mem_append_right _ ?_)
    rw [hnone]
    exact search_overruns hrsdt hpointers h

/-- **A search is exact exactly if it finds something, or there is nothing to look at.** -/
theorem findSDT_iff (mem : Mem) (roots : RootTables) (signature : Signature)
    (count : RootTable → ℕ) (h : RootsHave mem roots count) :
    SearchesExactly mem roots signature count ↔ StopsInside mem roots signature count :=
  ⟨fun hexact => hexact.stopsInside h, fun hstops => hstops.searchesExactly h⟩

/-- An XSDT at 0x1000 with two pointers, to tables at 0x2000 and 0x3000 with the signatures `FACP`
and `APIC`. -/
def twoTablesMemory : Mem := fun a =>
  if a = 0x1004 then 52
  else if a = 0x1025 then 0x20
  else if a = 0x102d then 0x30
  else if a < HIGH_VMA + 0x3000 then ([70, 65, 67, 80][(a - (HIGH_VMA + 0x2000)).toNat]?).getD 0
  else ([65, 80, 73, 67][(a - (HIGH_VMA + 0x3000)).toNat]?).getD 0

def xsdtOnly : RootTables := ⟨0x1000, 0⟩

def twoPointers : RootTable → ℕ
  | .xsdt => 2
  | .rsdt => 0

lemma rootsHave_twoTables : RootsHave twoTablesMemory xsdtOnly twoPointers := by
  intro table hthere
  cases table with
  | xsdt => decide
  | rsdt => exact absurd rfl hthere

/-- The second of two tables is found. -/
theorem findSDT_apic :
    SearchesExactly twoTablesMemory xsdtOnly ⟨[65, 80, 73, 67], rfl⟩ twoPointers :=
  (findSDT_iff _ _ _ _ rootsHave_twoTables).mpr
    (Or.inl ⟨_, List.mem_cons_of_mem _ List.mem_cons_self, by decide⟩)

/-- An XSDT at 0x1000 with one pointer, to a table at 0x2000 with the signature `APIC`. -/
def oneTableMemory : Mem := fun a =>
  if a = 0x1004 then 44
  else if a = 0x1025 then 0x20
  else ([65, 80, 73, 67][(a - (HIGH_VMA + 0x2000)).toNat]?).getD 0

def onePointer : RootTable → ℕ
  | .xsdt => 1
  | .rsdt => 0

lemma rootsHave_oneTable : RootsHave oneTableMemory xsdtOnly onePointer := by
  intro table hthere
  cases table with
  | xsdt => decide
  | rsdt => exact absurd rfl hthere

/-- A search for `FACP` follows what is behind the pointer. -/
theorem findSDT_facp : RootsHave oneTableMemory xsdtOnly onePointer ∧
    ¬SearchesExactly oneTableMemory xsdtOnly ⟨[70, 65, 67, 80], rfl⟩ onePointer := by
  refine ⟨rootsHave_oneTable, fun hexact => ?_⟩
  rcases hexact.stopsInside rootsHave_oneTable with ⟨a, ha, hcarries⟩ | ⟨hbare, _⟩
  · obtain rfl := List.mem_singleton.mp ha
    exact absurd (hcarries 0 (by decide)) (by decide)
  · exact absurd hbare (List.cons_ne_nil _ _)

end Seaweed
