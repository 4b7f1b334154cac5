import Seaweed.Mm.SpaceMaps

/-!
# What a new address space maps

An address space should map its own pages and the kernel, and nothing else.  The entries that the
call does not write decide whether it does: those that look like entries are entries.

* `MapsExactly`, `SpaceExact` — what a new address space should be.
* `SpaceOk` — the flags are flags, the pages fit into one table, the tables are in the direct map,
  and no entry that the call does not write refers to anything.
* `SpaceOk.mapsExactly` — this is enough.
* **`addressSpace_exact`** — and it is needed, if the address space is to be exact whatever the rest
  of memory holds.
-/

namespace Seaweed

open FirstFit Words Transition Memory Paging

/-! ## What an address space should be -/

/-- What an address is translated to by the kernel's own root, as `initVMM` has written it, and the
tables below it. -/
def kernelTranslate (mem : Mem) (v : UInt64) : Option UInt64 :=
  match decode 3 (kernelWord (index 3 v)) with
  | none => none
  | some (.page a) => some (a + UInt64.ofNat (v.toNat % span 3))
  | some (.table t) => walk mem v 3 t

/-- The pages at `physical` are mapped from 0 on, the upper half is the kernel's, and there is
nothing else. -/
structure MapsExactly (mem : Mem) (root physical : UInt64) (size : ℕ) : Prop where
  owned : ∀ x : UInt64, x.toNat < size * 4096 → translate mem root x = some (physical + x)
  lower : ∀ v : UInt64, size * 4096 ≤ v.toNat → v.toNat < 2 ^ 47 → translate mem root v = none
  upper : ∀ v : UInt64, 2 ^ 64 - 2 ^ 47 ≤ v.toNat → translate mem root v = kernelTranslate mem v

/-- Byte `x` is in one of the frames of an address space of `size` pages. -/
def InFrames (f : SpaceFrames) (size : ℕ) (x : UInt64) : Prop :=
  InTables f x ∨ (f.physical.toNat / 4096 ≤ x.toNat / 4096 ∧
    x.toNat / 4096 < f.physical.toNat / 4096 + size)

/-- The call returns, the new address space is exact, and only its frames and its slot of the
directory have been written. -/
def SpaceExact (s : AddressSpaces) (size flags : UInt64) : Prop :=
  ∃ index s', createNewAddressSpace s size flags = some (index, s') ∧
    MapsExactly s'.mem (s'.pageDirectoryTables index).pml4 (spaceFrames s.pmm size).physical
      size.toNat ∧
    (∀ x, ¬InFrames (spaceFrames s.pmm size) size.toNat x → s'.mem x = s.mem x) ∧
    ∀ i, i ≠ index → s'.pageDirectoryTables i = s.pageDirectoryTables i

/-- The tables of an address space, with their levels. -/
def spaceTables (f : SpaceFrames) : List (ℕ × UInt64) :=
  [(3, f.pml4), (2, f.pml3), (1, f.pml2), (0, f.pml1)]

/-- No entry that the call leaves as it is refers to anything. -/
def NoStale (mem : Mem) (f : SpaceFrames) (size : ℕ) (flags : UInt64) : Prop :=
  ∀ table ∈ spaceTables f, ∀ j, j < 512 → written f size flags table.2 j = none →
    decode table.1 (entry mem table.2 j) = none

structure SpaceOk (mem : Mem) (f : SpaceFrames) (size : ℕ) (flags : UInt64) : Prop where
  present : bit flags 0 = true
  executable : bit flags 63 = false
  table : frameOf (f.pml1 ||| flags) = f.pml1
  pages : ∀ i, i < size → frameOf ((f.physical + UInt64.ofNat i * 0x1000) ||| flags)
    = f.physical + UInt64.ofNat i * 0x1000
  fits : size ≤ 512
  direct : f.pml1.toNat < 2 ^ 32
  clean : NoStale mem f size flags

variable {mem mem' : Mem} {f : SpaceFrames} {size flags v t : UInt64} {memory i j : ℕ}

/-! ## The entries of each table -/

lemma FramesInOrder.ne (h : FramesInOrder f size.toNat memory) :
    f.pml4 ≠ f.pml3 ∧ f.pml4 ≠ f.pml2 ∧ f.pml4 ≠ f.pml1 ∧ f.pml3 ≠ f.pml2 ∧ f.pml3 ≠ f.pml1 ∧
      f.pml2 ≠ f.pml1 := by
  obtain ⟨_, _, _, _, _, _, h43, h32, h21, _, _⟩ := h
  have hne : ∀ {a b : UInt64}, a.toNat < b.toNat → a ≠ b := fun hlt heq => by
    rw [heq] at hlt
    exact lt_irrefl _ hlt
  exact ⟨hne h43, hne (by omega), hne (by omega), hne h32, hne (by omega), hne h21⟩

lemma written_pml4 (h : FramesInOrder f size.toNat memory) : written f size.toNat flags f.pml4 j =
    if j = 0 then some (withKpageFlags f.pml3)
    else if j = 511 then some (withKpageFlags kpml3AddrHH)
    else if j = 256 then some (withKpageFlags kpml3Addr)
    else none := by
  obtain ⟨h43, h42, h41, _, _, _⟩ := h.ne
  simp [written, h43, h42, h41]

lemma written_pml3 (h : FramesInOrder f size.toNat memory) : written f size.toNat flags f.pml3 j =
    if j = 0 then some (withKpageFlags f.pml2) else none := by
  obtain ⟨h43, _, _, h32, h31, _⟩ := h.ne
  simp [written, h43.symm, h32, h31]

lemma written_pml2 (h : FramesInOrder f size.toNat memory) : written f size.toNat flags f.pml2 j =
    if j = 0 then some (f.pml1 ||| flags) else none := by
  obtain ⟨_, h42, _, h32, _, h21⟩ := h.ne
  simp [written, h42.symm, h32.symm, h21]

lemma written_pml1 (h : FramesInOrder f size.toNat memory) : written f size.toNat flags f.pml1 j =
    if j < size.toNat then some ((f.physical + UInt64.ofNat j * 0x1000) ||| flags) else none := by
  obtain ⟨_, _, h41, _, h31, h21⟩ := h.ne
  simp [written, h41.symm, h31.symm, h21.symm]

/-- A frame that is not one of the tables is not written. -/
lemma written_other (h4 : t ≠ f.pml4) (h3 : t ≠ f.pml3) (h2 : t ≠ f.pml2) (h1 : t ≠ f.pml1) :
    written f size.toNat flags t j = none := by
  simp [written, h4, h3, h2, h1]

/-! ## The bits of an entry -/

/-- On a page boundary the flags decide about the low bits. -/
lemma bit_low {a : UInt64} (ha : a.toNat % 4096 = 0) (hi : i < 12) :
    bit (a ||| flags) i = bit flags i := by
  have hzero : bit a i = false := by
    rw [bit, show a.toNat = 2 ^ 12 * (a.toNat / 4096) by omega, Nat.testBit_two_pow_mul]
    simp [hi]
  rw [bit_or, hzero, Bool.false_or]

/-- An address has no bit 63. -/
lemma bit_high {a : UInt64} (ha : a.toNat < 2 ^ 63) : bit (a ||| flags) 63 = bit flags 63 := by
  rw [bit_or, show bit a 63 = false from Nat.testBit_lt_two_pow ha, Bool.false_or]

lemma bit_small (hsmall : flags &&& ((1 : UInt64) <<< 7) = 0) : bit flags 7 = false := by
  have hbit := congrArg (fun w : UInt64 => w.toNat.testBit 7) hsmall
  have hseven : ((1 : UInt64) <<< 7).toNat.testBit 7 = true := by decide
  simp only [UInt64.toNat_and, Nat.testBit_and, hseven, Bool.and_true] at hbit
  simpa [bit] using hbit

/-! ## Walks from the new root -/

section Walks

variable (h : FramesInOrder f size.toNat memory) (hlow : f.pml1.toNat + 8 * size.toNat < 2 ^ 46)
include h hlow

lemma decode_pml4 : decode 3 (entry (builtTables mem f size flags) f.pml4 0)
    = some (.table f.pml3) := by
  obtain ⟨h4, h3, _, _⟩ := h.pageAligned (by omega)
  have hlt := h.lt43
  rw [entry_builtTables h hlow h4 (by omega) (Or.inr (by have := h.lt32; have := h.lt21; omega)),
    written_pml4 h, if_pos rfl]
  exact decode_withKpageFlags h3 (by decide)

lemma decode_pml3 : decode 2 (entry (builtTables mem f size flags) f.pml3 0)
    = some (.table f.pml2) := by
  obtain ⟨_, h3, h2, _⟩ := h.pageAligned (by omega)
  rw [entry_builtTables h hlow h3 (by omega) (Or.inr (by have := h.lt32; have := h.lt21; omega)),
    written_pml3 h, if_pos rfl]
  exact decode_withKpageFlags h2 (by decide)

lemma entry_pml2 : entry (builtTables mem f size flags) f.pml2 0 = f.pml1 ||| flags := by
  obtain ⟨_, _, h2, _⟩ := h.pageAligned (by omega)
  rw [entry_builtTables h hlow h2 (by omega) (Or.inr h.lt21), written_pml2 h, if_pos rfl]
  rfl

/-- Three indices lead straight down. -/
lemma walk_to_pml2 (h3 : index 3 v = 0) (h2 : index 2 v = 0) :
    walk (builtTables mem f size flags) v 4 f.pml4
      = walk (builtTables mem f size flags) v 2 f.pml2 := by
  rw [walk_table (by rw [h3]; exact decode_pml4 h hlow),
    walk_table (by rw [h2]; exact decode_pml3 h hlow)]

/-- The entry for the last table. -/
lemma decode_pml2 (hsmall : flags &&& ((1 : UInt64) <<< 7) = 0) (h0 : bit flags 0 = true)
    (h63 : bit flags 63 = false) : decode 1 (entry (builtTables mem f size flags) f.pml2 0)
    = some (.table (frameOf (f.pml1 ||| flags))) := by
  rw [entry_pml2 h hlow]
  exact decode_table (by rw [bit_low h.aligned1 (by omega), h0])
    (by rw [bit_high (by omega), h63])
    (by rw [bit_low h.aligned1 (by omega), bit_small hsmall]) (by decide)

variable (mem flags) in
/-- An entry of the last table that is written. -/
lemma entry_pml1 (hsize : size.toNat ≤ 512) (hi : i < size.toNat) :
    entry (builtTables mem f size flags) f.pml1 i
      = (f.physical + UInt64.ofNat i * 0x1000) ||| flags := by
  obtain ⟨_, _, _, h1⟩ := h.pageAligned (by omega)
  rw [entry_builtTables h hlow h1 (by omega) (Or.inl hsize), written_pml1 h, if_pos hi]
  rfl

end Walks

/-! ## The condition is enough -/

lemma SpaceOk.low (hok : SpaceOk mem f size.toNat flags) :
    f.pml1.toNat + 8 * size.toNat < 2 ^ 46 := by
  have hdirect := hok.direct
  have hfits := hok.fits
  omega

lemma pageAligned_spaceTables (h : FramesInOrder f size.toNat memory)
    (hlow : f.pml1.toNat < 2 ^ 46) {table : ℕ × UInt64} (ht : table ∈ spaceTables f) :
    PageAligned table.2 := by
  obtain ⟨h4, h3, h2, h1⟩ := h.pageAligned hlow
  simp only [spaceTables, List.mem_cons, List.not_mem_nil, or_false] at ht
  rcases ht with rfl | rfl | rfl | rfl <;> assumption

/-- What the call leaves as it is stays without a meaning. -/
lemma SpaceOk.decode_clean (hok : SpaceOk mem f size.toNat flags)
    (h : FramesInOrder f size.toNat memory) (table : ℕ × UInt64) (ht : table ∈ spaceTables f)
    (hj : j < 512) (hw : written f size.toNat flags table.2 j = none) :
    decode table.1 (entry (builtTables mem f size flags) table.2 j) = none := by
  have hlow := hok.low
  rw [entry_builtTables h hlow (pageAligned_spaceTables h (by omega) ht) hj (Or.inl hok.fits), hw]
  exact hok.clean table ht j hj hw

/-- A page and an offset in it. -/
lemma page_add_offset (v : UInt64) : UInt64.ofNat (v.toNat / 4096) * 0x1000
    + UInt64.ofNat (v.toNat % 4096) = v := by
  have hpage : (0x1000 : UInt64) = UInt64.ofNat 4096 := rfl
  rw [hpage, ← UInt64.ofNat_mul, ← UInt64.ofNat_add, Nat.mul_comm, Nat.div_add_mod,
    UInt64.ofNat_toNat]

/-- The flags on a page boundary make it a page. -/
lemma decode_page {a : UInt64} (ha : PageAligned a) (h0 : bit flags 0 = true)
    (h63 : bit flags 63 = false) : decode 0 (a ||| flags) = some (.page (frameOf (a ||| flags))) :=
  decode_lowest (by rw [bit_low ha.1 (by omega), h0])
    (by rw [bit_high (lt_trans ha.2 (by decide)), h63])

/-- The last table maps the pages. -/
lemma SpaceOk.walk_pages (hok : SpaceOk mem f size.toNat flags)
    (h : FramesInOrder f size.toNat memory) (hi : index 0 v < size.toNat) :
    walk (builtTables mem f size flags) v 1 f.pml1
      = some (f.physical + UInt64.ofNat (index 0 v) * 0x1000 + UInt64.ofNat (v.toNat % 4096)) := by
  have hpage := hok.pages _ hi
  have haligned := pageAligned_frameOf ((f.physical + UInt64.ofNat (index 0 v) * 0x1000) ||| flags)
  rw [hpage] at haligned
  have hentry := entry_pml1 mem flags h hok.low hok.fits hi
  have hdecode : decode 0 (entry (builtTables mem f size flags) f.pml1 (index 0 v))
      = some (.page (f.physical + UInt64.ofNat (index 0 v) * 0x1000)) := by
    rw [hentry, decode_page haligned hok.present hok.executable, hpage]
  exact walk_page hdecode

/-- Level by level: an index that is not 0 finds nothing in the lower half. -/
lemma SpaceOk.walk_lower (hok : SpaceOk mem f size.toNat flags)
    (h : FramesInOrder f size.toNat memory) (hsmall : flags &&& ((1 : UInt64) <<< 7) = 0)
    (hv : v.toNat < 2 ^ 47) : walk (builtTables mem f size flags) v 4 f.pml4 =
      if v.toNat < size.toNat * 4096 then some (f.physical + v) else none := by
  have hlow := hok.low
  have hfits := hok.fits
  have hindex3 : index 3 v = v.toNat / 2 ^ 39 % 512 := rfl
  have hindex2 : index 2 v = v.toNat / 2 ^ 30 % 512 := rfl
  have hindex1 : index 1 v = v.toNat / 2 ^ 21 % 512 := rfl
  have hindex0 : index 0 v = v.toNat / 2 ^ 12 % 512 := rfl
  by_cases h3 : index 3 v = 0
  · by_cases h2 : index 2 v = 0
    · rw [walk_to_pml2 h hlow h3 h2]
      by_cases h1 : index 1 v = 0
      · rw [walk_table (by rw [h1]; exact decode_pml2 h hlow hsmall hok.present hok.executable),
          hok.table]
        by_cases hown : v.toNat < size.toNat * 4096
        · have hi : index 0 v < size.toNat := by omega
          have hindex : index 0 v = v.toNat / 4096 := by omega
          rw [if_pos hown, hok.walk_pages h hi, UInt64.add_assoc, hindex, page_add_offset]
        · rw [if_neg hown]
          exact walk_none (hok.decode_clean h (0, f.pml1) (by simp [spaceTables])
            (index_lt 0 v) (by rw [written_pml1 h, if_neg (by omega)]))
      · rw [if_neg (by omega)]
        exact walk_none (hok.decode_clean h (1, f.pml2) (by simp [spaceTables])
          (index_lt 1 v) (by rw [written_pml2 h, if_neg h1]))
    · rw [if_neg (by omega), walk_table (by rw [h3]; exact decode_pml4 h hlow)]
      exact walk_none (hok.decode_clean h (2, f.pml3) (by simp [spaceTables])
        (index_lt 2 v) (by rw [written_pml3 h, if_neg h2]))
  · rw [if_neg (by omega)]
    exact walk_none (hok.decode_clean h (3, f.pml4) (by simp [spaceTables])
      (index_lt 3 v) (by rw [written_pml4 h, if_neg h3, if_neg (by omega), if_neg (by omega)]))

/-- The root's entries of the upper half refer to what the kernel's own do. -/
lemma SpaceOk.decode_upper (hok : SpaceOk mem f size.toNat flags)
    (h : FramesInOrder f size.toNat memory) (hj : j < 512) (hupper : 256 ≤ j) :
    decode 3 (entry (builtTables mem f size flags) f.pml4 j) = decode 3 (kernelWord j) := by
  have hlow := hok.low
  obtain ⟨h4, _, _, _⟩ := h.pageAligned (by omega)
  by_cases hkernel : j = 256 ∨ j = 511
  · rw [entry_builtTables h hlow h4 hj (Or.inl hok.fits), written_pml4 h, if_neg (by omega)]
    rcases hkernel with rfl | rfl <;> rfl
  · have hzero : kernelWord j = 0 := by
      rw [kernelWord, if_neg (by omega), if_neg (by omega), if_neg (by omega), if_neg (by omega),
        if_neg (by omega), if_neg (by omega)]
    rw [hzero, decode_zero]
    exact hok.decode_clean h (3, f.pml4) (by simp [spaceTables]) hj
      (by rw [written_pml4 h, if_neg (by omega), if_neg (by omega), if_neg (by omega)])

/-- **With the condition, the tables map what they should.** -/
theorem SpaceOk.mapsExactly (hok : SpaceOk mem f size.toNat flags)
    (h : FramesInOrder f size.toNat memory) (hsmall : flags &&& ((1 : UInt64) <<< 7) = 0) :
    MapsExactly (builtTables mem f size flags) f.pml4 f.physical size.toNat where
  owned x hx := by
    have hlow : x.toNat < 2 ^ 47 := by have := hok.fits; omega
    rw [translate_canonical (Or.inl hlow), hok.walk_lower h hsmall hlow, if_pos hx]
  lower v hv hlow := by
    rw [translate_canonical (Or.inl hlow), hok.walk_lower h hsmall hlow, if_neg (by omega)]
  upper v hv := by
    have hindex : index 3 v = v.toNat / 2 ^ 39 % 512 := rfl
    have hlt := v.toNat_lt
    rw [translate_canonical (Or.inr hv), walk, hok.decode_upper h (index_lt 3 v) (by omega)]
    unfold kernelTranslate
    rcases decode 3 (kernelWord (index 3 v)) with _ | _ | _ <;> rfl

/-! ## What the call does, in terms of the tables -/

variable {s : AddressSpaces}

/-- The call returns if its tables are in the direct map, and leaves the tables in memory. -/
theorem spaceExact_iff (hsmall : flags &&& ((1 : UInt64) <<< 7) = 0)
    (h : FramesInOrder (spaceFrames s.pmm size) size.toNat memory)
    (hlow : (spaceFrames s.pmm size).pml1.toNat + 8 * size.toNat < 2 ^ 46) :
    SpaceExact s size flags ↔
      (spaceFrames s.pmm size).pml1.toNat + 8 * (size.toNat - 1) < 2 ^ 32 ∧
      MapsExactly (builtTables s.mem (spaceFrames s.pmm size) size flags)
        (spaceFrames s.pmm size).pml4 (spaceFrames s.pmm size).physical size.toNat ∧
      ∀ x, ¬InFrames (spaceFrames s.pmm size) size.toNat x →
        builtTables s.mem (spaceFrames s.pmm size) size flags x = s.mem x := by
  rw [SpaceExact, createNewAddressSpace_small s size hsmall, buildTables_eq h hlow]
  constructor
  · rintro ⟨index, s', hcall, hmaps, hframes, _⟩
    split_ifs at hcall with hdirect
    · simp only [Option.map_some, Option.some_inj, Prod.mk.injEq] at hcall
      obtain ⟨rfl, rfl⟩ := hcall
      simp only [Function.update_self] at hmaps
      exact ⟨hdirect, hmaps, hframes⟩
    · cases hcall
  · rintro ⟨hdirect, hmaps, hframes⟩
    rw [if_pos hdirect]
    refine ⟨_, _, rfl, ?_, hframes, fun i hi => Function.update_of_ne hi _ _⟩
    simpa only [Function.update_self] using hmaps

/-! ## The condition is needed

What the other entries refer to can be any frame, so the rest of memory is chosen against the
address space: all zero, where an entry should lead on, and full of entries, where it should not. -/

/-- The tables are as they are in `mem`. -/
def SameTables (f : SpaceFrames) (mem mem' : Mem) : Prop := ∀ x, InTables f x → mem' x = mem x

instance (f : SpaceFrames) (x : UInt64) : Decidable (InTables f x) :=
  inferInstanceAs (Decidable (_ ∨ _ ∨ _ ∨ _))

/-- The tables, and the byte `c` everywhere else. -/
def overlay (f : SpaceFrames) (mem : Mem) (c : UInt8) : Mem := fun x =>
  if InTables f x then mem x else c

variable {c : UInt8}

lemma sameTables_overlay : SameTables f mem (overlay f mem c) := fun _ hx => if_pos hx

/-- Entry `j` of a table depends on the bytes of its frame. -/
lemma entry_congr (ht : PageAligned t) (hj : j < 512)
    (hbytes : ∀ x : UInt64, x.toNat / 4096 = t.toNat / 4096 → mem' x = mem x) :
    entry mem' t j = entry mem t j := by
  obtain ⟨hmod, hlt⟩ := ht
  have hload : load mem' (t + UInt64.ofNat (8 * j)) 8 = load mem (t + UInt64.ofNat (8 * j)) 8 := by
    refine load_congr fun i hi => hbytes _ ?_
    rw [UInt64.toNat_add, UInt64.toNat_add, toNat_ofNat_of_lt (by omega),
      toNat_ofNat_of_lt (by omega)]
    omega
  rw [entry, load64, hload, entry, load64]

/-- A frame that is not one of the tables holds the byte everywhere. -/
lemma entry_overlay (h : FramesInOrder f size.toNat memory) (ht : PageAligned t) (hj : j < 512)
    (h4 : t ≠ f.pml4) (h3 : t ≠ f.pml3) (h2 : t ≠ f.pml2) (h1 : t ≠ f.pml1) :
    entry (overlay f mem c) t j = entry (fun _ => c) t j := by
  have hne : ∀ a : UInt64, a.toNat % 4096 = 0 → t ≠ a → t.toNat / 4096 ≠ a.toNat / 4096 := by
    intro a ha hta hdiv
    have hmod := ht.1
    exact hta (UInt64.toNat_inj.mp (by omega))
  refine entry_congr ht hj fun x hx => if_neg ?_
  rw [InTables, hx]
  simp [hne _ h.aligned4 h4, hne _ h.aligned3 h3, hne _ h.aligned2 h2, hne _ h.aligned1 h1]

lemma entry_spaceTables (h : FramesInOrder f size.toNat memory) (hlow : f.pml1.toNat < 2 ^ 46)
    (hsame : SameTables f mem mem') {table : ℕ × UInt64} (ht : table ∈ spaceTables f)
    (hj : j < 512) : entry mem' table.2 j = entry mem table.2 j := by
  refine entry_congr (pageAligned_spaceTables h hlow ht) hj fun x hx => hsame x ?_
  simp only [spaceTables, List.mem_cons, List.not_mem_nil, or_false] at ht
  rcases ht with rfl | rfl | rfl | rfl <;> simp [InTables, hx]

variable (flags) in
/-- An address with flags is not below the address. -/
lemma le_frameOf_or {a : UInt64} (ha : PageAligned a) :
    a.toNat ≤ (frameOf (a ||| flags)).toNat := by
  obtain ⟨hmod, hlt⟩ := ha
  have hor : a.toNat ≤ (a ||| flags).toNat % 2 ^ 52 := by
    rw [UInt64.toNat_or, Nat.or_mod_two_pow, Nat.mod_eq_of_lt hlt]
    exact Nat.left_le_or
  rw [frameOf, toNat_ofNat_of_lt (by omega)]
  omega

lemma entry_zero (t : UInt64) (j : ℕ) : entry (fun _ => 0) t j = 0 := by
  simp [entry, load64, load]

/-- The word of eight ones. -/
lemma entry_ones (t : UInt64) (j : ℕ) : entry (fun _ => 1) t j = 0x0101010101010101 := by
  simp [entry, load64, load]

section Needed

variable (h : FramesInOrder f size.toNat memory) (hlow : f.pml1.toNat + 8 * size.toNat < 2 ^ 46)
  (hsmall : flags &&& ((1 : UInt64) <<< 7) = 0)
include h hlow

/-- The walk for an address of the first gibibyte. -/
lemma translate_first (hv : v.toNat < 2 ^ 30) : translate (builtTables mem f size flags) f.pml4 v
    = walk (builtTables mem f size flags) v 2 f.pml2 := by
  have hindex3 : index 3 v = v.toNat / 2 ^ 39 % 512 := rfl
  have hindex2 : index 2 v = v.toNat / 2 ^ 30 % 512 := rfl
  rw [translate_canonical (Or.inl (by omega)), walk_to_pml2 h hlow (by omega) (by omega)]

/-- The first page is mapped, so the entry for the last table is there. -/
lemma present_of_owned
    (howned : translate (builtTables mem f size flags) f.pml4 0 = some f.physical) :
    bit flags 0 = true ∧ bit flags 63 = false := by
  rw [translate_first h hlow (by decide)] at howned
  have hentry : decode 1 (entry (builtTables mem f size flags) f.pml2 (index 1 0)) ≠ none := by
    intro hnone
    rw [walk_none hnone] at howned
    cases howned
  rw [show index 1 0 = 0 from rfl, entry_pml2 h hlow] at hentry
  obtain ⟨h0, h63⟩ := decode_isSome hentry
  rw [bit_low h.aligned1 (by omega)] at h0
  rw [bit_high (by omega)] at h63
  exact ⟨h0, h63⟩

/-- With more pages than a table has entries, the page at 2 MiB needs an entry that is not
written. -/
lemma fits_of_owned (hclean : size.toNat ≤ 512 ∨ NoStale mem f size.toNat flags)
    (howned : 512 < size.toNat →
      translate (builtTables mem f size flags) f.pml4 0x200000 ≠ none) : size.toNat ≤ 512 := by
  by_contra hlarge
  have hstale := hclean.resolve_left hlarge
  refine howned (by omega) ?_
  obtain ⟨_, _, h2, _⟩ := h.pageAligned (by omega)
  rw [translate_first h hlow (by decide)]
  refine walk_none ?_
  rw [show index 1 0x200000 = 1 from rfl,
    entry_builtTables h hlow h2 (by omega) (Or.inr h.lt21), written_pml2 h, if_neg (by omega)]
  exact hstale (1, f.pml2) (by simp [spaceTables]) 1 (by omega)
    (by rw [written_pml2 h, if_neg (by omega)])

include hsmall

variable (mem) in
/-- Where the rest of memory is zero, the first page is found in no table but its own. -/
lemma table_of_owned (h0 : bit flags 0 = true) (h63 : bit flags 63 = false)
    (hsize : size.toNat ≤ 512)
    (howned : translate (builtTables (overlay f mem 0) f size flags) f.pml4 0 ≠ none) :
    frameOf (f.pml1 ||| flags) = f.pml1 := by
  by_contra hne
  refine howned ?_
  obtain ⟨_, _, _, h1⟩ := h.pageAligned (by omega)
  have halign := pageAligned_frameOf (f.pml1 ||| flags)
  have hle := le_frameOf_or flags h1
  -- it is above all of the tables
  have hother : ∀ a : UInt64, a.toNat < f.pml1.toNat → frameOf (f.pml1 ||| flags) ≠ a := by
    intro a ha heq
    rw [heq] at hle
    omega
  have h2 := hother f.pml2 h.lt21
  have h3 := hother f.pml3 (lt_trans h.lt32 h.lt21)
  have h4 := hother f.pml4 (lt_trans h.lt43 (lt_trans h.lt32 h.lt21))
  rw [translate_first h hlow (by decide),
    walk_table (show decode 1 (entry _ f.pml2 (index 1 0)) = _ from
      decode_pml2 h hlow hsmall h0 h63)]
  refine walk_none ?_
  rw [entry_builtTables h hlow halign (index_lt 0 0) (Or.inl hsize), written_other h4 h3 h2 hne,
    Option.getD_none, entry_overlay h halign (index_lt 0 0) h4 h3 h2 hne, entry_zero, decode_zero]

/-- A page of the address space is where its entry says. -/
lemma pages_of_owned (h0 : bit flags 0 = true) (h63 : bit flags 63 = false)
    (htable : frameOf (f.pml1 ||| flags) = f.pml1) (hsize : size.toNat ≤ 512)
    (howned : ∀ x : UInt64, x.toNat < size.toNat * 4096 →
      translate (builtTables mem f size flags) f.pml4 x = some (f.physical + x))
    (hi : i < size.toNat) : frameOf ((f.physical + UInt64.ofNat i * 0x1000) ||| flags)
      = f.physical + UInt64.ofNat i * 0x1000 := by
  have hx : (UInt64.ofNat (i * 4096)).toNat = i * 4096 := toNat_ofNat_of_lt (by omega)
  have hmul : UInt64.ofNat (i * 4096) = UInt64.ofNat i * 0x1000 := UInt64.ofNat_mul i 4096
  have hindex0 : index 0 (UInt64.ofNat (i * 4096)) = i := by
    rw [index, hx, show span 0 = 4096 from rfl]
    omega
  have hindex1 : index 1 (UInt64.ofNat (i * 4096)) = 0 := by
    rw [index, hx, show span 1 = 2 ^ 21 from rfl]
    omega
  have hoffset : (UInt64.ofNat (i * 4096)).toNat % span 0 = 0 := by
    rw [hx, show span 0 = 4096 from rfl, Nat.mul_mod_left]
  have hpage := howned (UInt64.ofNat (i * 4096)) (by omega)
  rw [translate_first h hlow (by omega), walk_table (by
    rw [hindex1]
    exact decode_pml2 h hlow hsmall h0 h63), htable] at hpage
  have hentry := entry_pml1 mem flags h hlow hsize hi
  rw [← hindex0] at hentry
  have hsome : decode 0 ((f.physical + UInt64.ofNat i * 0x1000) ||| flags) ≠ none := by
    intro hnone
    rw [walk_none (by rw [hentry, hindex0, hnone])] at hpage
    cases hpage
  obtain ⟨hbit0, hbit63⟩ := decode_isSome hsome
  rw [walk_page (by rw [hentry, hindex0]; exact decode_lowest hbit0 hbit63), hoffset, hmul] at hpage
  simpa using hpage

variable (mem) in
/-- Where the rest of memory is full of entries, entry 0 of every frame leads on. -/
lemma leads_overlay (h0 : bit flags 0 = true) (h63 : bit flags 63 = false)
    (hsize : size.toNat ≤ 512) (hphysical : f.physical.toNat < 2 ^ 52) (ht : PageAligned t) :
    bit (entry (builtTables (overlay f mem 1) f size flags) t 0) 0 = true ∧
      bit (entry (builtTables (overlay f mem 1) f size flags) t 0) 63 = false ∧
      bit (entry (builtTables (overlay f mem 1) f size flags) t 0) 7 = false := by
  obtain ⟨h4, h3, h2, h1⟩ := h.pageAligned (by omega)
  have hflags : ∀ a : UInt64, PageAligned a → bit (a ||| flags) 0 = true ∧
      bit (a ||| flags) 63 = false ∧ bit (a ||| flags) 7 = false := fun a ha =>
    ⟨by rw [bit_low ha.1 (by omega), h0], by rw [bit_high (lt_trans ha.2 (by decide)), h63],
      by rw [bit_low ha.1 (by omega), bit_small hsmall]⟩
  have hkernel : ∀ a : UInt64, PageAligned a → bit (withKpageFlags a) 0 = true ∧
      bit (withKpageFlags a) 63 = false ∧ bit (withKpageFlags a) 7 = false := by
    rintro a ⟨hmod, hlt⟩
    simp only [bit_withKpageFlags ⟨hmod, hlt⟩, decide_eq_true_eq, decide_eq_false_iff_not]
    omega
  rw [entry_builtTables h hlow ht (by omega) (Or.inl hsize)]
  by_cases ht4 : t = f.pml4
  · rw [ht4, written_pml4 h]
    exact hkernel _ h3
  by_cases ht3 : t = f.pml3
  · rw [ht3, written_pml3 h]
    exact hkernel _ h2
  by_cases ht2 : t = f.pml2
  · rw [ht2, written_pml2 h]
    exact hflags _ h1
  by_cases ht1 : t = f.pml1
  · rw [ht1, written_pml1 h, if_pos h.pos]
    have hfirst : f.physical + UInt64.ofNat 0 * 0x1000 = f.physical := by simp
    rw [hfirst]
    exact hflags _ ⟨h.alignedPages, hphysical⟩
  · rw [written_other ht4 ht3 ht2 ht1, Option.getD_none,
      entry_overlay h ht (by omega) ht4 ht3 ht2 ht1, entry_ones]
    decide

/-- An address with a single index that is not 0 finds the entry that it selects. -/
lemma walk_stale (h0 : bit flags 0 = true) (h63 : bit flags 63 = false)
    (htable : frameOf (f.pml1 ||| flags) = f.pml1) (hsize : size.toNat ≤ 512)
    (hphysical : f.physical.toNat < 2 ^ 52) {table : ℕ × UInt64} (ht : table ∈ spaceTables f)
    (hentry : decode table.1 (entry (builtTables (overlay f mem 1) f size flags) table.2
      (index table.1 v)) ≠ none)
    (hother : ∀ l, l < 4 → l ≠ table.1 → index l v = 0) :
    walk (builtTables (overlay f mem 1) f size flags) v 4 f.pml4 ≠ none := by
  have hlead := fun t ht =>
    leads_overlay (t := t) mem h hlow hsmall h0 h63 hsize hphysical ht
  simp only [spaceTables, List.mem_cons, List.not_mem_nil, or_false] at ht
  rcases ht with rfl | rfl | rfl | rfl
  · exact walk_entry_isSome hlead hentry fun l hl => hother l (by omega) (by omega)
  · rw [walk_table (by rw [hother 3 (by omega) (by simp)]; exact decode_pml4 h hlow)]
    exact walk_entry_isSome hlead hentry fun l hl => hother l (by omega) (by omega)
  · rw [walk_to_pml2 h hlow (hother 3 (by omega) (by simp)) (hother 2 (by omega) (by simp))]
    exact walk_entry_isSome hlead hentry fun l hl => hother l (by omega) (by omega)
  · rw [walk_to_pml2 h hlow (hother 3 (by omega) (by simp)) (hother 2 (by omega) (by simp)),
      walk_table (by
        rw [hother 1 (by omega) (by simp)]
        exact decode_pml2 h hlow hsmall h0 h63), htable]
    exact walk_entry_isSome hlead hentry fun l hl => hother l (by omega) (by omega)

/-- Where the rest of memory is full of entries, one entry too many maps an address too many. -/
lemma noStale_of_exact (h0 : bit flags 0 = true) (h63 : bit flags 63 = false)
    (htable : frameOf (f.pml1 ||| flags) = f.pml1) (hsize : size.toNat ≤ 512)
    (hphysical : f.physical.toNat < 2 ^ 52)
    (hexact : MapsExactly (builtTables (overlay f mem 1) f size flags) f.pml4 f.physical
      size.toNat) : NoStale mem f size.toNat flags := by
  intro table ht j hj hw
  by_contra hstale
  have hentry : decode table.1 (entry (builtTables (overlay f mem 1) f size flags) table.2 j)
      ≠ none := by
    rw [entry_builtTables h hlow (pageAligned_spaceTables h (by omega) ht) hj (Or.inl hsize), hw,
      Option.getD_none, entry_spaceTables h (by omega) sameTables_overlay ht hj]
    exact hstale
  have hreach : ∀ n : ℕ, n < 2 ^ 64 → n / span table.1 % 512 = j →
      (∀ l, l < 4 → l ≠ table.1 → n / span l % 512 = 0) →
      walk (builtTables (overlay f mem 1) f size flags) (UInt64.ofNat n) 4 f.pml4 ≠ none := by
    intro n hn hat hother
    have hnat := toNat_ofNat_of_lt hn
    refine walk_stale h hlow hsmall h0 h63 htable hsize hphysical ht ?_ fun l hl hne => by
      rw [index, hnat, hother l hl hne]
    rwa [index, hnat, hat]
  have hlower : ∀ n : ℕ, size.toNat * 4096 ≤ n → n < 2 ^ 47 →
      walk (builtTables (overlay f mem 1) f size flags) (UInt64.ofNat n) 4 f.pml4 = none := by
    intro n hn hlt
    have hnat : (UInt64.ofNat n).toNat = n := toNat_ofNat_of_lt (by omega)
    rw [← translate_canonical (Or.inl (by rw [hnat]; exact hlt))]
    exact hexact.lower _ (by rw [hnat]; exact hn) (by rw [hnat]; exact hlt)
  have hs0 : span 0 = 2 ^ 12 := rfl
  have hs1 : span 1 = 2 ^ 21 := rfl
  have hs2 : span 2 = 2 ^ 30 := rfl
  have hs3 : span 3 = 2 ^ 39 := rfl
  simp only [spaceTables, List.mem_cons, List.not_mem_nil, or_false] at ht
  rcases ht with rfl | rfl | rfl | rfl
  · rw [written_pml4 h] at hw
    split_ifs at hw with hj0 hj511 hj256
    rcases Nat.lt_or_ge j 256 with hlow' | hhigh
    · refine hreach (j * 2 ^ 39) (by omega) (by simp only [hs3]; omega) (fun l hl hne => ?_)
        (hlower _ (by omega) (by omega))
      interval_cases l <;> first | exact absurd rfl hne | (simp only [hs0, hs1, hs2]; omega)
    · -- the kernel's own root has no such entry
      have hkernel : kernelWord j = 0 := by
        rw [kernelWord, if_neg (by omega), if_neg (by omega), if_neg (by omega),
          if_neg (by omega), if_neg (by omega), if_neg (by omega)]
      have hnat : (UInt64.ofNat (2 ^ 64 - 2 ^ 48 + j * 2 ^ 39)).toNat
          = 2 ^ 64 - 2 ^ 48 + j * 2 ^ 39 := toNat_ofNat_of_lt (by omega)
      have hupper := hexact.upper (UInt64.ofNat (2 ^ 64 - 2 ^ 48 + j * 2 ^ 39)) (by omega)
      have hindex : index 3 (UInt64.ofNat (2 ^ 64 - 2 ^ 48 + j * 2 ^ 39)) = j := by
        rw [index, hnat, hs3]
        omega
      rw [translate_canonical (Or.inr (by omega)), kernelTranslate, hindex, hkernel,
        decode_zero] at hupper
      refine hreach (2 ^ 64 - 2 ^ 48 + j * 2 ^ 39) (by omega) (by simp only [hs3]; omega)
        (fun l hl hne => ?_) hupper
      interval_cases l <;> first | exact absurd rfl hne | (simp only [hs0, hs1, hs2]; omega)
  · rw [written_pml3 h] at hw
    split_ifs at hw with hj0
    refine hreach (j * 2 ^ 30) (by omega) (by simp only [hs2]; omega) (fun l hl hne => ?_)
      (hlower _ (by omega) (by omega))
    interval_cases l <;> first | exact absurd rfl hne | (simp only [hs0, hs1, hs3]; omega)
  · rw [written_pml2 h] at hw
    split_ifs at hw with hj0
    refine hreach (j * 2 ^ 21) (by omega) (by simp only [hs1]; omega) (fun l hl hne => ?_)
      (hlower _ (by omega) (by omega))
    interval_cases l <;> first | exact absurd rfl hne | (simp only [hs0, hs2, hs3]; omega)
  · rw [written_pml1 h] at hw
    split_ifs at hw with hjsize
    refine hreach (j * 2 ^ 12) (by omega) (by simp only [hs0]; omega) (fun l hl hne => ?_)
      (hlower _ (by omega) (by omega))
    interval_cases l <;> first | exact absurd rfl hne | (simp only [hs1, hs2, hs3]; omega)

end Needed

/-- **With the tables given and the rest of memory arbitrary, the condition is needed.** -/
theorem SpaceOk.of_exact (h : FramesInOrder f size.toNat memory)
    (hlow : f.pml1.toNat + 8 * size.toNat < 2 ^ 46)
    (hsmall : flags &&& ((1 : UInt64) <<< 7) = 0)
    (hclean : size.toNat ≤ 512 ∨ NoStale mem f size.toNat flags)
    (hdirect : f.pml1.toNat + 8 * (size.toNat - 1) < 2 ^ 32)
    (hexact : ∀ mem', SameTables f mem mem' →
      MapsExactly (builtTables mem' f size flags) f.pml4 f.physical size.toNat) :
    SpaceOk mem f size.toNat flags := by
  have hmem := hexact mem fun _ _ => rfl
  have hpos := h.pos
  have hfirst : ∀ mem', MapsExactly (builtTables mem' f size flags) f.pml4 f.physical size.toNat →
      translate (builtTables mem' f size flags) f.pml4 0 = some f.physical := by
    intro mem' hmaps
    have hzero : (0 : UInt64).toNat < size.toNat * 4096 := by rw [UInt64.toNat_zero]; omega
    simpa using hmaps.owned 0 hzero
  obtain ⟨h0, h63⟩ := present_of_owned h hlow (hfirst mem hmem)
  have hfits : size.toNat ≤ 512 := by
    refine fits_of_owned h hlow hclean fun hlarge => ?_
    have hx : (0x200000 : UInt64).toNat < size.toNat * 4096 := by
      rw [show (0x200000 : UInt64).toNat = 0x200000 from rfl]
      omega
    rw [hmem.owned _ hx]
    exact Option.some_ne_none _
  have htable : frameOf (f.pml1 ||| flags) = f.pml1 := by
    refine table_of_owned mem h hlow hsmall h0 h63 hfits ?_
    rw [hfirst _ (hexact _ sameTables_overlay)]
    exact Option.some_ne_none _
  have hpages : ∀ i, i < size.toNat →
      frameOf ((f.physical + UInt64.ofNat i * 0x1000) ||| flags)
        = f.physical + UInt64.ofNat i * 0x1000 :=
    fun i hi => pages_of_owned h hlow hsmall h0 h63 htable hfits hmem.owned hi
  have hphysical : f.physical.toNat < 2 ^ 52 := by
    have hpage := pageAligned_frameOf ((f.physical + UInt64.ofNat 0 * 0x1000) ||| flags)
    rw [hpages 0 hpos] at hpage
    simpa using hpage.2
  exact
  { present := h0
    executable := h63
    table := htable
    pages := hpages
    fits := hfits
    direct := by omega
    clean := noStale_of_exact h hlow hsmall h0 h63 htable hfits hphysical
      (hexact _ sameTables_overlay) }

/-- **An address space of 4 KiB pages is exact, whatever there is in memory besides its tables, if
the condition holds**; and, with less than 64 TiB of memory, only then, unless there are both more
than 512 pages and entries left over, which may then make up for the ones that are not written. -/
theorem addressSpace_exact (s : AddressSpaces) (size flags : UInt64)
    (hsmall : flags &&& ((1 : UInt64) <<< 7) = 0)
    (hallocs : AllocsSucceed (spaceFrames s.pmm size)) :
    (SpaceOk s.mem (spaceFrames s.pmm size) size.toNat flags →
      ∀ mem, SameTables (spaceFrames s.pmm size) s.mem mem →
        SpaceExact { s with mem := mem } size flags) ∧
    (s.pmm.totalDetectedMemory.toNat < 2 ^ 46 →
      (size.toNat ≤ 512 ∨ NoStale s.mem (spaceFrames s.pmm size) size.toNat flags) →
      (∀ mem, SameTables (spaceFrames s.pmm size) s.mem mem →
        SpaceExact { s with mem := mem } size flags) →
      SpaceOk s.mem (spaceFrames s.pmm size) size.toNat flags) := by
  have h := framesInOrder_spaceFrames hallocs
  constructor
  · intro hok mem hsame
    have hok' : SpaceOk mem (spaceFrames s.pmm size) size.toNat flags :=
      { hok with
        clean := fun table ht j hj hw => by
          rw [entry_spaceTables h (by have := hok.low; omega) hsame ht hj]
          exact hok.clean table ht j hj hw }
    have hdirect : (spaceFrames s.pmm size).pml1.toNat + 8 * (size.toNat - 1) < 2 ^ 32 := by
      have hlt := hok.direct
      have hfits := hok.fits
      have haligned := h.aligned1
      omega
    refine (spaceExact_iff (s := { s with mem := mem }) hsmall h hok.low).mpr
      ⟨hdirect, hok'.mapsExactly h hsmall, fun x hx => ?_⟩
    have hlow : (spaceFrames s.pmm size).pml1.toNat < 2 ^ 46 := by have := hok.low; omega
    exact builtTables_outside h hlow hok.fits fun htables => hx (Or.inl htables)
  · intro hmem hclean hexact
    have hlow : (spaceFrames s.pmm size).pml1.toNat + 8 * size.toNat < 2 ^ 46 := by
      have hlast := h.last
      have hlt := h.lt1
      have hpos := h.pos
      omega
    have hiff := fun mem => spaceExact_iff (s := { s with mem := mem }) hsmall h hlow
    have hself := (hiff s.mem).mp (hexact s.mem fun _ _ => rfl)
    exact SpaceOk.of_exact h hlow hsmall hclean hself.1 fun mem hsame =>
      ((hiff mem).mp (hexact mem hsame)).2.1

/-! ## Fresh and recycled frames -/

lemma spaceFrames_fresh : ((spaceFrames freshSpaces.pmm 2).pml4,
    (spaceFrames freshSpaces.pmm 2).pml3, (spaceFrames freshSpaces.pmm 2).pml2,
    (spaceFrames freshSpaces.pmm 2).pml1, (spaceFrames freshSpaces.pmm 2).physical)
    = (0x120000, 0x121000, 0x122000, 0x123000, 0x124000) := by
  decide +kernel

/-- Two pages in fresh frames. -/
theorem addressSpace_exact_twoPages :
    (∀ mem, SameTables (spaceFrames freshSpaces.pmm 2) freshSpaces.mem mem →
      SpaceExact { freshSpaces with mem := mem } 2 7) ∧
    SpaceOk freshSpaces.mem (spaceFrames freshSpaces.pmm 2) (2 : UInt64).toNat 7 := by
  have hframes := spaceFrames_fresh
  simp only [Prod.mk.injEq] at hframes
  obtain ⟨h4, h3, h2, h1, hp⟩ := hframes
  have hallocs : AllocsSucceed (spaceFrames freshSpaces.pmm 2) :=
    ⟨by rw [h4]; decide, by rw [h3]; decide, by rw [h2]; decide, by rw [h1]; decide,
      by rw [hp]; decide⟩
  have hok : SpaceOk freshSpaces.mem (spaceFrames freshSpaces.pmm 2) (2 : UInt64).toNat 7 :=
    { present := by decide
      executable := by decide
      table := by rw [h1]; decide
      pages := by rw [hp]; decide
      fits := by decide
      direct := by rw [h1]; decide
      clean := fun table _ j _ _ => by
        rw [show freshSpaces.mem = fun _ => 0 from rfl, entry_zero, decode_zero] }
  have hexact := (addressSpace_exact freshSpaces 2 7 (by decide) hallocs).1 hok
  exact ⟨hexact, (addressSpace_exact freshSpaces 2 7 (by decide) hallocs).2 (by decide)
    (Or.inl (by decide)) hexact⟩

/-- An address space of two pages has been there and is gone. -/
def recycledSpaces : AddressSpaces :=
  ((createNewAddressSpace freshSpaces 2 7).map fun r => freeAddressSpace r.2 r.1).getD freshSpaces

lemma spaceFrames_recycled : ((spaceFrames recycledSpaces.pmm 1).pml4,
    (spaceFrames recycledSpaces.pmm 1).pml3, (spaceFrames recycledSpaces.pmm 1).pml2,
    (spaceFrames recycledSpaces.pmm 1).pml1, (spaceFrames recycledSpaces.pmm 1).physical)
    = (0x120000, 0x121000, 0x122000, 0x123000, 0x126000) := by
  decide +kernel

/-- An address space of one page in recycled frames maps the second page of the old one as well. -/
theorem addressSpace_recycled : (createNewAddressSpace freshSpaces 2 7).isSome = true ∧
    AllocsSucceed (spaceFrames recycledSpaces.pmm 1) ∧ ¬SpaceExact recycledSpaces 1 7 := by
  have hframes := spaceFrames_recycled
  simp only [Prod.mk.injEq] at hframes
  obtain ⟨h4, h3, h2, h1, hp⟩ := hframes
  refine ⟨by decide +kernel, ⟨by rw [h4]; decide, by rw [h3]; decide, by rw [h2]; decide,
    by rw [h1]; decide, by rw [hp]; decide⟩, ?_⟩
  rintro ⟨index, s', hcall, hmaps, _⟩
  have hold : (createNewAddressSpace recycledSpaces 1 7).all fun r =>
      Paging.translate r.2.mem (r.2.pageDirectoryTables r.1).pml4 0x1000 == some 0x125000 := by
    decide +kernel
  rw [hcall] at hold
  have hnone := hmaps.lower 0x1000 (by decide) (by decide)
  simp [hnone] at hold

end Seaweed
