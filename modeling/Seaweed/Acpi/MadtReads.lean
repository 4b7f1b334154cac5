import Seaweed.Acpi.Madt
import Seaweed.Library.Agreement

/-!
# What parsing the MADT reads

The loop goes from entry to entry by the second byte of each, and the condition under which it goes
on looks only at where an entry begins.  An entry that says it has no bytes is parsed again and
again, and one that begins before the end of the table is read whole.

* `madtInitReads` — the bytes that the loop reads.
* `ParsesInside` — it ends, soon enough, and has read nothing but the table.
* `EntryAt`, `WellMade` — where the entries of a table begin, and what has to hold there.
* **`madtInit_inside_iff`** — this is what it takes.
-/

namespace Seaweed

open Agreement Memory Words

/-! ## The bytes that are read -/

/-- The length of the table, as its header has it. -/
def madtLength (mem : Mem) (madt : UInt64) : ℕ := (load32 mem (madt + 4)).toNat

/-- The two first bytes of an entry, and the structure that its type stands for. -/
def madtTurnReads (mem : Mem) (entries i : UInt64) : List UInt64 :=
  (entries + i) :: (entries + (i + 1)) ::
    bytesAt (entries + (i + 1 + 1)) (sizeofMadtEntry (mem (entries + i)))

/-- The reads of `fuel` tests of the condition, each of which reads the length of the table, and of
the turns between them. -/
def madtLoopReads (mem : Mem) (madt entries bound : UInt64) : (fuel : ℕ) → MadtInfo → UInt64 →
    List UInt64
  | 0, _, _ => []
  | fuel + 1, madtInfo, i =>
      bytesAt (madt + 4) 4 ++
        if i < bound then
          let next := madtTurn mem entries madtInfo i
          madtTurnReads mem entries i ++ madtLoopReads mem madt entries bound fuel next.1 next.2
        else []

def madtInitReads (mem : Mem) (madt : UInt64) (madtInfo : MadtInfo) (fuel : ℕ) : List UInt64 :=
  let madtInfo := { madtInfo with lapicAddr := load32 mem (madt + sizeofAcpihdr) }
  madtLoopReads mem madt (madt + (sizeofAcpihdr + 8))
    ((load32 mem (madt + 4)).toUInt64 - (sizeofAcpihdr + 4 + 4)) fuel madtInfo 0

/-- The loop ends after at most as many turns as the body of the table has bytes, and reads no byte
outside the table. -/
structure ParsesInside (mem : Mem) (madt : UInt64) (madtInfo : MadtInfo) : Prop where
  ends : (madtInit mem madt madtInfo (madtLength mem madt - 44 + 1)).isSome
  inside : ∀ fuel, ∀ x ∈ madtInitReads mem madt madtInfo fuel,
    (x - madt).toNat < madtLength mem madt

/-! ## Where the entries are -/

/-- An entry begins at byte `n` of a body of `body` bytes. -/
inductive EntryAt (mem : Mem) (entries : UInt64) (body : ℕ) : ℕ → Prop
  | first : EntryAt mem entries body 0
  | next {n : ℕ} : EntryAt mem entries body n → n < body →
      EntryAt mem entries body (n + (mem (entries + UInt64.ofNat (n + 1))).toNat)

/-- The entry at byte `n` has a length, and its first two bytes and the structure of its type end
with the body at the latest. -/
structure EntryFits (mem : Mem) (entries : UInt64) (body n : ℕ) : Prop where
  length : mem (entries + UInt64.ofNat (n + 1)) ≠ 0
  room : n + 2 + sizeofMadtEntry (mem (entries + UInt64.ofNat n)) ≤ body

/-- The table has its header, and all its entries fit. -/
structure WellMade (mem : Mem) (madt : UInt64) : Prop where
  header : 44 ≤ madtLength mem madt
  entries : ∀ n, EntryAt mem (madt + 44) (madtLength mem madt - 44) n →
    n < madtLength mem madt - 44 → EntryFits mem (madt + 44) (madtLength mem madt - 44) n

variable {mem : Mem} {madt entries x : UInt64} {madtInfo : MadtInfo} {body fuel n : ℕ}

/-! ## Turns -/

/-- A turn moves on by the length of the entry, whatever that is. -/
lemma madtTurn_next (mem : Mem) (entries : UInt64) (madtInfo : MadtInfo) (n : ℕ) :
    (madtTurn mem entries madtInfo (UInt64.ofNat n)).2
      = UInt64.ofNat (n + (mem (entries + UInt64.ofNat (n + 1))).toNat) := by
  have hsecond : UInt64.ofNat n + 1 = UInt64.ofNat (n + 1) := (UInt64.ofNat_add n 1).symm
  have hsize : ∀ b : UInt8, UInt64.ofNat b.toNat = b.toUInt64 := fun b => by
    rw [← UInt64.toNat_inj, UInt8.toNat_toUInt64,
      toNat_ofNat_of_lt (lt_trans b.toNat_lt (by omega))]
  rw [madtTurn, UInt64.ofNat_add, hsize, ← hsecond]
  grind

lemma madtTurnReads_eq (mem : Mem) (entries : UInt64) (n : ℕ) :
    madtTurnReads mem entries (UInt64.ofNat n) =
      (entries + UInt64.ofNat n) :: (entries + UInt64.ofNat (n + 1)) ::
        bytesAt (entries + UInt64.ofNat (n + 2))
          (sizeofMadtEntry (mem (entries + UInt64.ofNat n))) := by
  have hsecond : UInt64.ofNat n + 1 = UInt64.ofNat (n + 1) := (UInt64.ofNat_add n 1).symm
  have hthird : UInt64.ofNat (n + 1) + 1 = UInt64.ofNat (n + 2) := (UInt64.ofNat_add (n + 1) 1).symm
  rw [madtTurnReads, hsecond, hthird]

/-- The length has 32 bits. -/
lemma madtLength_lt (mem : Mem) (madt : UInt64) : madtLength mem madt < 2 ^ 32 :=
  (load32 mem (madt + 4)).toNat_lt

lemma madtBound_eq (h : 44 ≤ madtLength mem madt) :
    (load32 mem (madt + 4)).toUInt64 - (sizeofAcpihdr + 4 + 4)
      = UInt64.ofNat (madtLength mem madt - 44) := by
  have hlt := madtLength_lt mem madt
  have hheader : (sizeofAcpihdr + 4 + 4).toNat = 44 := rfl
  rw [madtLength] at *
  rw [← UInt64.toNat_inj, UInt64.toNat_sub, hheader, UInt32.toNat_toUInt64,
    toNat_ofNat_of_lt (by omega)]
  omega

lemma ofNat_lt_ofNat {a b : ℕ} (ha : a < 2 ^ 64) (hb : b < 2 ^ 64) :
    UInt64.ofNat a < UInt64.ofNat b ↔ a < b := by
  rw [UInt64.lt_iff_toNat_lt, toNat_ofNat_of_lt ha, toNat_ofNat_of_lt hb]

/-- How far a byte of the body is from the beginning of the table. -/
lemma toNat_body_sub (madt : UInt64) (hn : 44 + n < 2 ^ 64) :
    (madt + 44 + UInt64.ofNat n - madt).toNat = 44 + n := by
  have hoffset : madt + 44 + UInt64.ofNat n = madt + UInt64.ofNat (44 + n) := by
    rw [UInt64.ofNat_add, ← UInt64.add_assoc]
    rfl
  rw [hoffset, toNat_add_ofNat_sub _ hn]

/-! ## The condition is enough -/

/-- The loop moves on by one byte at least. -/
lemma madtLoop_ends
    (hfits : ∀ n, EntryAt mem entries body n → n < body → EntryFits mem entries body n)
    (hbody : body < 2 ^ 32) (hn : EntryAt mem entries body n) (hlt : n < 2 ^ 33)
    (hfuel : body ≤ n + fuel) (madtInfo : MadtInfo) :
    (madtLoop mem entries (UInt64.ofNat body) (fuel + 1) madtInfo (UInt64.ofNat n)).isSome := by
  induction fuel generalizing n madtInfo with
  | zero =>
      rw [madtLoop, if_neg (by rw [ofNat_lt_ofNat (by omega) (by omega)]; omega)]
      rfl
  | succ fuel ih =>
      rw [madtLoop]
      split_ifs with hinside
      · rw [ofNat_lt_ofNat (by omega) (by omega)] at hinside
        have hpos := (hfits n hn hinside).length
        have hbyte := (mem (entries + UInt64.ofNat (n + 1))).toNat_lt
        have hsize : (mem (entries + UInt64.ofNat (n + 1))).toNat ≠ 0 := fun hzero =>
          hpos (UInt8.toNat_inj.mp hzero)
        dsimp only
        rw [madtTurn_next]
        exact ih (hn.next hinside) (by omega) (by omega) _
      · rfl

/-- The bytes of an entry that fits. -/
lemma EntryFits.reads (h : EntryFits mem entries body n)
    (hx : x ∈ madtTurnReads mem entries (UInt64.ofNat n)) :
    ∃ k, k < body ∧ x = entries + UInt64.ofNat k := by
  have hroom := h.room
  rw [madtTurnReads_eq, List.mem_cons, List.mem_cons, mem_bytesAt] at hx
  rcases hx with rfl | rfl | ⟨k, hk, rfl⟩
  · exact ⟨n, by omega, rfl⟩
  · exact ⟨n + 1, by omega, rfl⟩
  · refine ⟨n + 2 + k, by omega, ?_⟩
    rw [UInt64.add_assoc, ← UInt64.ofNat_add]

lemma madtLoopReads_inside
    (hfits : ∀ n, EntryAt mem entries body n → n < body → EntryFits mem entries body n)
    (hbody : body < 2 ^ 32) (hn : EntryAt mem entries body n) (hlt : n < 2 ^ 33)
    (hx : x ∈ madtLoopReads mem madt entries (UInt64.ofNat body) fuel madtInfo (UInt64.ofNat n)) :
    x ∈ bytesAt (madt + 4) 4 ∨ ∃ k, k < body ∧ x = entries + UInt64.ofNat k := by
  induction fuel generalizing n madtInfo with
  | zero => exact absurd hx List.not_mem_nil
  | succ fuel ih =>
      rw [madtLoopReads] at hx
      rcases List.mem_append.mp hx with htest | hturn
      · exact Or.inl htest
      · split_ifs at hturn with hinside
        · rw [ofNat_lt_ofNat (by omega) (by omega)] at hinside
          have hbyte := (mem (entries + UInt64.ofNat (n + 1))).toNat_lt
          rcases List.mem_append.mp hturn with hentry | hrest
          · exact Or.inr ((hfits n hn hinside).reads hentry)
          · rw [madtTurn_next] at hrest
            exact ih (hn.next hinside) (by omega) hrest
        · exact absurd hturn List.not_mem_nil

lemma WellMade.parsesInside (h : WellMade mem madt) (madtInfo : MadtInfo) :
    ParsesInside mem madt madtInfo := by
  have hlt := madtLength_lt mem madt
  have hheader := h.header
  have hplace : madt + (sizeofAcpihdr + 8) = madt + 44 := rfl
  constructor
  case ends =>
    rw [madtInit, madtBound_eq hheader, hplace]
    exact madtLoop_ends h.entries (by omega) .first (by omega) (by omega) _
  case inside =>
    intro fuel x hx
    rw [madtInitReads, madtBound_eq hheader, hplace] at hx
    rcases madtLoopReads_inside h.entries (by omega) .first (by omega) hx with htest | ⟨k, hk, rfl⟩
    · obtain ⟨k, hk, rfl⟩ := mem_bytesAt.mp htest
      have hoffset : madt + 4 + UInt64.ofNat k = madt + UInt64.ofNat (4 + k) := by
        rw [UInt64.ofNat_add, ← UInt64.add_assoc]
        rfl
      rw [hoffset, toNat_add_ofNat_sub _ (by omega)]
      omega
    · rw [toNat_body_sub _ (by omega)]
      omega

/-! ## The condition is needed -/

/-- The loop gets to every entry, after some turns and with everything read on the way. -/
lemma EntryAt.reached (h : EntryAt mem entries body n) (hbody : body < 2 ^ 32) (madt : UInt64)
    (madtInfo : MadtInfo) :
    n < 2 ^ 33 ∧ ∃ turns madtInfo', ∀ fuel,
      madtLoop mem entries (UInt64.ofNat body) (turns + fuel) madtInfo 0
          = madtLoop mem entries (UInt64.ofNat body) fuel madtInfo' (UInt64.ofNat n) ∧
        ∀ x ∈ madtLoopReads mem madt entries (UInt64.ofNat body) fuel madtInfo' (UInt64.ofNat n),
          x ∈ madtLoopReads mem madt entries (UInt64.ofNat body) (turns + fuel) madtInfo 0 := by
  induction h with
  | first =>
      refine ⟨by omega, 0, madtInfo, fun fuel => ?_⟩
      rw [Nat.zero_add]
      exact ⟨rfl, fun x hx => hx⟩
  | next _ hinside ih =>
      rename_i n _
      obtain ⟨hlt, turns, madtInfo', hreached⟩ := ih
      have hbyte := (mem (entries + UInt64.ofNat (n + 1))).toNat_lt
      refine ⟨by omega, turns + 1, (madtTurn mem entries madtInfo' (UInt64.ofNat n)).1,
        fun fuel => ?_⟩
      obtain ⟨hloop, hreads⟩ := hreached (1 + fuel)
      have hcond : UInt64.ofNat n < UInt64.ofNat body := by
        rwa [ofNat_lt_ofNat (by omega) (by omega)]
      rw [Nat.add_comm 1 fuel] at hloop hreads
      have hfuel : turns + 1 + fuel = turns + (fuel + 1) := by omega
      rw [hfuel, ← madtTurn_next mem entries madtInfo']
      constructor
      · rw [hloop, madtLoop, if_pos hcond]
      · intro x hx
        refine hreads x ?_
        rw [madtLoopReads, if_pos hcond]
        exact List.mem_append_right _ (List.mem_append_right _ hx)

/-- An entry without a length is parsed for ever. -/
lemma madtLoop_zero (hzero : mem (entries + UInt64.ofNat (n + 1)) = 0)
    (hcond : UInt64.ofNat n < UInt64.ofNat body) (fuel : ℕ) (madtInfo : MadtInfo) :
    madtLoop mem entries (UInt64.ofNat body) fuel madtInfo (UInt64.ofNat n) = none := by
  induction fuel generalizing madtInfo with
  | zero => rfl
  | succ fuel ih =>
      rw [madtLoop, if_pos hcond]
      dsimp only
      rw [madtTurn_next, hzero]
      exact ih _

/-- Without a whole header the bound wraps around, and the first entry is read. -/
lemma ParsesInside.header (h : ParsesInside mem madt madtInfo) : 44 ≤ madtLength mem madt := by
  by_contra hshort
  have hbound : (0 : UInt64) < (load32 mem (madt + 4)).toUInt64 - (sizeofAcpihdr + 4 + 4) := by
    have hheader : (sizeofAcpihdr + 4 + 4).toNat = 44 := rfl
    rw [madtLength] at hshort
    rw [UInt64.lt_iff_toNat_lt, UInt64.toNat_sub, hheader, UInt32.toNat_toUInt64, UInt64.toNat_zero]
    omega
  have hfirst := h.inside 1 (madt + (sizeofAcpihdr + 8) + 0) (by
    rw [madtInitReads, madtLoopReads, if_pos hbound]
    exact List.mem_append_right _ (List.mem_append_left _ List.mem_cons_self))
  have hplace : madt + (sizeofAcpihdr + 8) + 0 = madt + UInt64.ofNat 44 := UInt64.add_zero _
  rw [hplace, toNat_add_ofNat_sub _ (by omega)] at hfirst
  exact hshort (Nat.le_of_lt hfirst)

lemma ParsesInside.wellMade (h : ParsesInside mem madt madtInfo) : WellMade mem madt := by
  have hlt := madtLength_lt mem madt
  have hheader := h.header
  refine ⟨hheader, fun n hn hinside => ?_⟩
  have hends := h.ends
  have hreads := h.inside
  have hplace : madt + (sizeofAcpihdr + 8) = madt + 44 := rfl
  simp only [madtInit, madtInitReads, madtBound_eq hheader, hplace] at hends hreads
  obtain ⟨hn', turns, madtInfo', hreached⟩ := hn.reached (by omega) madt
    { madtInfo with lapicAddr := load32 mem (madt + sizeofAcpihdr) }
  have hcond : UInt64.ofNat n < UInt64.ofNat (madtLength mem madt - 44) := by
    rwa [ofNat_lt_ofNat (by omega) (by omega)]
  have hturn : ∀ x ∈ madtTurnReads mem (madt + 44) (UInt64.ofNat n),
      (x - madt).toNat < madtLength mem madt := by
    intro x hx
    refine hreads (turns + 1) x ((hreached 1).2 x ?_)
    rw [madtLoopReads, if_pos hcond]
    exact List.mem_append_right _ (List.mem_append_left _ hx)
  have hbyte : ∀ k, madt + 44 + UInt64.ofNat (n + k) ∈
      madtTurnReads mem (madt + 44) (UInt64.ofNat n) →
      k < 2 ^ 32 → n + k < madtLength mem madt - 44 := by
    intro k hk hsmall
    have hread := hturn _ hk
    rw [toNat_body_sub _ (by omega)] at hread
    omega
  constructor
  case length =>
    intro hzero
    obtain ⟨result, hresult⟩ := Option.isSome_iff_exists.mp hends
    have hlater := madtLoop_mono hresult (Nat.le_add_left _ turns)
    rw [(hreached _).1, madtLoop_zero hzero hcond] at hlater
    cases hlater
  case room =>
    have hsecond : n + 1 < madtLength mem madt - 44 := by
      refine hbyte 1 ?_ (by omega)
      rw [madtTurnReads_eq]
      exact List.mem_cons_of_mem _ List.mem_cons_self
    generalize hsize : sizeofMadtEntry (mem (madt + 44 + UInt64.ofNat n)) = size
    rcases Nat.eq_zero_or_pos size with rfl | hpos
    · omega
    · have hle : size ≤ 10 := by
        rw [← hsize, sizeofMadtEntry]
        split_ifs <;> omega
      have hlast : n + (2 + (size - 1)) < madtLength mem madt - 44 := by
        refine hbyte (2 + (size - 1)) ?_ (by omega)
        rw [madtTurnReads_eq, hsize, ← Nat.add_assoc, UInt64.ofNat_add (n + 2), ← UInt64.add_assoc]
        exact List.mem_cons_of_mem _ (List.mem_cons_of_mem _ (add_mem_bytesAt (by omega)))
      omega

/-- **Parsing the MADT ends with the table exactly if the table has its header, and every entry has
a length and is inside.** -/
theorem madtInit_inside_iff (mem : Mem) (madt : UInt64) (madtInfo : MadtInfo) :
    ParsesInside mem madt madtInfo ↔ WellMade mem madt :=
  ⟨fun h => h.wellMade, fun h => h.parsesInside madtInfo⟩

/-- A table of 46 bytes, whose only entry says that it has none. -/
def zeroLengthTable : Mem := fun x => if x = 4 then 46 else if x = 44 then 9 else 0

/-- It is parsed for ever. -/
theorem madtInit_zeroLength : ¬ParsesInside zeroLengthTable 0 emptyMadtInfo := fun h =>
  (h.wellMade.entries 0 .first (by decide)).length rfl

end Seaweed
