import Seaweed.Libk.Output

/-!
# Backspace (`putchar` in `libk/output.c`)

A backspace moves the cursor one place back and draws a space there.  While it does, `isBack` keeps
the space from ending the line; but the flag is cleared only where the backspace stays in its line.

* `isBack_run` — `isBack` is set after a run whose last backspace was at the beginning of a line.
* `putchar_backspace` — a character, and then a backspace.
* `Undoes` — they cancel out.
* **`backspace_undoes_iff`** — they do exactly if `isBack` is clear and the character does not end
  its line.
-/

namespace Seaweed

open Words

/-! ## What should hold -/

/-- The codes from the space to the tilde. -/
def Printable (c : UInt8) : Prop := 32 ≤ c.toNat ∧ c.toNat ≤ 126

/-- The cursor is on the screen. -/
def CursorOnScreen (s : Terminal) : Prop :=
  s.terminalRow.toNat < s.width.toNat ∧ s.terminalColumn.toNat < s.height.toNat

/-- The cursor is in the bottom-right cell. -/
def AtCorner (s : Terminal) : Prop :=
  s.terminalRow.toNat + 8 = s.width.toNat ∧ s.terminalColumn.toNat + 8 = s.height.toNat

instance : DecidablePred Printable := fun _ => inferInstanceAs (Decidable (_ ∧ _))

instance : DecidablePred CursorOnScreen := fun _ => inferInstanceAs (Decidable (_ ∧ _))

instance : DecidablePred AtCorner := fun _ => inferInstanceAs (Decidable (_ ∧ _))

/-- What has been drawn last at the place is all background, in a font whose space is empty. -/
def BlankCell (s : Terminal) (x y : UInt64) : Prop :=
  ∃ cell, s.drawn.find? (fun cell => cell.x == x && cell.y == y) = some cell ∧
    ∀ font : UInt8 → ℕ → UInt8, (∀ i, i < 8 → font SPACE i = 0) →
      ∀ p ∈ renderChar font cell, p.colour = s.terminalBG

/-- After the character and a backspace the cursor and the flag are as before, and the cell is
blank. -/
structure Undoes (s : Terminal) (c : UInt8) : Prop where
  row : (putchar (putchar s c) BACKSPACE).terminalRow = s.terminalRow
  column : (putchar (putchar s c) BACKSPACE).terminalColumn = s.terminalColumn
  isBack : (putchar (putchar s c) BACKSPACE).isBack = s.isBack
  blank : BlankCell (putchar (putchar s c) BACKSPACE) s.terminalRow s.terminalColumn

variable {s : Terminal} {c : UInt8}

/-! ## The character -/

lemma putchar_printable (hc : Printable c) (s : Terminal) : putchar s c = putGlyph s c := by
  have hne : ∀ d : UInt8, d.toNat < 32 → c ≠ d := by
    rintro d hd rfl
    exact absurd hc.1 (by omega)
  rw [putchar, if_neg (hne _ (by decide)), if_neg (hne _ (by decide)), if_neg (hne _ (by decide))]

/-- A character that does not end its line. -/
lemma putGlyph_within (h : s.terminalRow + 8 ≠ s.width.toUInt64) (c : UInt8) : putGlyph s c =
    { s with
      drawn := ⟨s.terminalRow, s.terminalColumn, s.terminalFG, s.terminalBG, c⟩ :: s.drawn
      terminalRow := s.terminalRow + 8 } := by
  unfold putGlyph
  dsimp only
  rw [beq_false_of_ne h, Bool.false_and]
  rfl

/-- A character that ends its line, but not the screen. -/
lemma putGlyph_ends (h : s.terminalRow + 8 = s.width.toUInt64)
    (hcolumn : s.terminalColumn + 8 ≠ s.height.toUInt64) (hback : s.isBack = false) (c : UInt8) :
    putGlyph s c =
      { s with
        drawn := ⟨s.terminalRow, s.terminalColumn, s.terminalFG, s.terminalBG, c⟩ :: s.drawn
        terminalRow := 0
        terminalColumn := s.terminalColumn + 8 } := by
  unfold putGlyph
  dsimp only
  rw [h, hback, beq_self_eq_true, Bool.not_false, Bool.and_true, if_pos rfl,
    beq_false_of_ne hcolumn]
  rfl

/-- A space sets its pixels to the background. -/
lemma renderChar_space {font : UInt8 → ℕ → UInt8} (hfont : ∀ i, i < 8 → font SPACE i = 0)
    (x y : UInt64) (fg bg : UInt32) {p : Pixel} (hp : p ∈ renderChar font ⟨x, y, fg, bg, SPACE⟩) :
    p.colour = bg := by
  simp only [renderChar, List.mem_flatMap, List.mem_map, List.mem_range] at hp
  obtain ⟨i, hi, j, _, rfl⟩ := hp
  dsimp only
  rw [hfont i hi, UInt8.zero_shiftRight, UInt8.zero_and]
  rfl

/-! ## The backspace -/

/-- Inside a line the flag is cleared. -/
lemma backspace_within (h : s.terminalRow ≠ 0) : putchar s BACKSPACE =
    { s with
      drawn := ⟨s.terminalRow - 8, s.terminalColumn, s.terminalFG, s.terminalBG, SPACE⟩ :: s.drawn
      terminalRow := s.terminalRow - 8
      isBack := false } := by
  rw [putchar, if_neg (by decide), if_neg (by decide), if_pos rfl]
  dsimp only
  rw [if_neg h, putGlyph_isBack rfl]
  dsimp only
  rw [UInt64.add_sub_cancel]

/-- At the beginning of a line it stays set. -/
lemma backspace_start (h : s.terminalRow = 0) (hcolumn : s.terminalColumn ≠ 0) :
    putchar s BACKSPACE =
    { s with
      drawn :=
        ⟨s.width.toUInt64 - 8, s.terminalColumn - 8, s.terminalFG, s.terminalBG, SPACE⟩ :: s.drawn
      terminalRow := s.width.toUInt64 - 8
      terminalColumn := s.terminalColumn - 8
      isBack := true } := by
  rw [putchar, if_neg (by decide), if_neg (by decide), if_pos rfl]
  dsimp only
  rw [if_pos h, if_neg hcolumn, putGlyph_isBack rfl]
  dsimp only
  rw [UInt64.add_sub_cancel]

/-- At the beginning of the screen there is nothing to go back to. -/
lemma backspace_origin (h : s.terminalRow = 0) (hcolumn : s.terminalColumn = 0) :
    putchar s BACKSPACE = { s with isBack := true } := by
  rw [putchar, if_neg (by decide), if_neg (by decide), if_pos rfl]
  dsimp only
  rw [if_pos h, if_pos hcolumn]

/-! ## The flag in a run -/

/-- Only a backspace changes the flag. -/
lemma isBack_putchar (s : Terminal) (c : UInt8) :
    (putchar s c).isBack = if c = BACKSPACE then decide (s.terminalRow = 0) else s.isBack := by
  by_cases hback : c = BACKSPACE
  · rw [if_pos hback, hback]
    by_cases hrow : s.terminalRow = 0
    · rw [decide_eq_true hrow]
      by_cases hcolumn : s.terminalColumn = 0
      · rw [backspace_origin hrow hcolumn]
      · rw [backspace_start hrow hcolumn]
    · rw [backspace_within hrow, decide_eq_false hrow]
  · rw [if_neg hback, putchar, if_neg hback]
    split_ifs
    · rfl
    · exact (fields_putSpaces s TABSIZE).2.2
    · exact isBack_putGlyph s c

/-- Where a list is split, its last element is at the split or behind it. -/
lemma concat_eq_split {α : Type} {l before after : List α} {c b : α}
    (h : l ++ [c] = before ++ b :: after) :
    (after = [] ∧ l = before ∧ c = b) ∨ ∃ rest, after = rest ++ [c] ∧ l = before ++ b :: rest := by
  rcases List.eq_nil_or_concat' after with rfl | ⟨rest, last, rfl⟩
  · obtain ⟨hl, hc⟩ := List.append_inj' h rfl
    exact Or.inl ⟨rfl, hl, List.singleton_inj.mp hc⟩
  · rw [← List.cons_append, ← List.append_assoc] at h
    obtain ⟨hl, hc⟩ := List.append_inj' h rfl
    exact Or.inr ⟨rest, by rw [hc], hl⟩

/-- **After a run the flag is set** exactly if the last backspace was at the beginning of a line. -/
theorem isBack_run (h : s.isBack = false) (cs : List UInt8) : (cs.foldl putchar s).isBack = true ↔
    ∃ before after, cs = before ++ BACKSPACE :: after ∧ BACKSPACE ∉ after ∧
      (before.foldl putchar s).terminalRow = 0 := by
  induction cs using List.reverseRecOn with
  | nil => simp [h]
  | append_singleton cs c ih =>
      rw [List.foldl_append, List.foldl_cons, List.foldl_nil, isBack_putchar]
      split_ifs with hback
      · -- this backspace is the last one
        rw [decide_eq_true_eq]
        constructor
        · exact fun hrow => ⟨cs, [], by rw [hback], List.not_mem_nil, hrow⟩
        · rintro ⟨before, after, heq, hnone, hrow⟩
          rcases concat_eq_split heq with ⟨_, rfl, _⟩ | ⟨rest, rfl, _⟩
          · exact hrow
          · exact absurd (List.mem_append_right rest (List.mem_singleton.mpr hback.symm)) hnone
      · rw [ih]
        constructor
        · rintro ⟨before, after, rfl, hnone, hrow⟩
          refine ⟨before, after ++ [c], by rw [List.append_assoc, List.cons_append], ?_, hrow⟩
          rw [List.mem_append, List.mem_singleton, not_or]
          exact ⟨hnone, fun heq => hback heq.symm⟩
        · rintro ⟨before, after, heq, hnone, hrow⟩
          rcases concat_eq_split heq with ⟨_, _, hlast⟩ | ⟨rest, rfl, hcs⟩
          · exact absurd hlast hback
          · exact ⟨before, rest, hcs, fun hmem => hnone (List.mem_append_left _ hmem), hrow⟩

/-! ## One after the other -/

lemma add_eight_eq_iff {w : UInt64} {v : UInt32} (h : w.toNat < 2 ^ 32) :
    w + 8 = v.toUInt64 ↔ w.toNat + 8 = v.toNat := by
  rw [← UInt64.toNat_inj, toNat_add_eight h, UInt32.toNat_toUInt64]

lemma add_eight_ne_zero {w : UInt64} (h : w.toNat < 2 ^ 32) : w + 8 ≠ 0 := by
  intro hzero
  have hsum := congrArg UInt64.toNat hzero
  rw [toNat_add_eight h, UInt64.toNat_zero] at hsum
  omega

/-- **A character, and then a backspace.**  The cursor comes back and a space covers the character;
the flag is set if the character has ended its line, and clear otherwise. -/
lemma putchar_backspace (h : CursorOnScreen s) (hcorner : ¬AtCorner s) (hc : Printable c) :
    putchar (putchar s c) BACKSPACE =
      { s with
        drawn := ⟨s.terminalRow, s.terminalColumn, s.terminalFG, s.terminalBG, SPACE⟩ ::
          ⟨s.terminalRow, s.terminalColumn, s.terminalFG, s.terminalBG, c⟩ :: s.drawn
        isBack := !s.isBack && s.terminalRow.toNat + 8 == s.width.toNat } := by
  have hrow : s.terminalRow.toNat < 2 ^ 32 := h.1.trans s.width.toNat_lt
  have hcolumn : s.terminalColumn.toNat < 2 ^ 32 := h.2.trans s.height.toNat_lt
  rw [putchar_printable hc]
  by_cases hends : s.terminalRow.toNat + 8 = s.width.toNat
  · cases hback : s.isBack with
    | true =>
        -- the line is not left, so the backspace stays in it
        rw [putGlyph_isBack hback, backspace_within (add_eight_ne_zero hrow)]
        dsimp only
        rw [UInt64.add_sub_cancel]
        rfl
    | false =>
        have hend := (add_eight_eq_iff hrow).mpr hends
        have hlast : s.terminalColumn + 8 ≠ s.height.toUInt64 := fun heq =>
          hcorner ⟨hends, (add_eight_eq_iff hcolumn).mp heq⟩
        rw [putGlyph_ends hend hlast hback, backspace_start rfl (add_eight_ne_zero hcolumn)]
        dsimp only
        rw [← hend, UInt64.add_sub_cancel, UInt64.add_sub_cancel, hends, beq_self_eq_true]
        rfl
  · have hwithin : s.terminalRow + 8 ≠ s.width.toUInt64 := fun heq =>
      hends ((add_eight_eq_iff hrow).mp heq)
    rw [putGlyph_within hwithin, backspace_within (add_eight_ne_zero hrow)]
    dsimp only
    rw [UInt64.add_sub_cancel, beq_false_of_ne hends, Bool.and_false]

/-- **A backspace undoes a character** exactly if the flag was clear before and the character does
not end its line. -/
theorem backspace_undoes_iff (s : Terminal) (c : UInt8) (h : CursorOnScreen s)
    (hcorner : ¬AtCorner s) (hc : Printable c) :
    Undoes s c ↔ s.isBack = false ∧ s.terminalRow.toNat + 8 ≠ s.width.toNat := by
  have hafter := putchar_backspace h hcorner hc
  constructor
  · intro hundoes
    have hflag := hundoes.isBack
    rw [hafter] at hflag
    dsimp only at hflag
    cases hback : s.isBack with
    | true =>
        rw [hback] at hflag
        cases hflag
    | false =>
        rw [hback, Bool.not_false, Bool.true_and, beq_eq_false_iff_ne] at hflag
        exact ⟨rfl, hflag⟩
  · rintro ⟨hback, hends⟩
    constructor
    case row => rw [hafter]
    case column => rw [hafter]
    case isBack =>
      rw [hafter, hback]
      dsimp only
      rw [beq_false_of_ne hends, Bool.and_false]
    case blank =>
      rw [hafter]
      exact ⟨_, List.find?_cons_of_pos (by simp),
        fun font hfont p hp => renderChar_space hfont _ _ _ _ hp⟩

/-- At the beginning of the screen. -/
theorem backspace_undoes_letter : Undoes (initVESAtext 0xffffffff 0 640 480 fun _ => 0) 97 :=
  (backspace_undoes_iff _ _ (by decide) (by decide) (by decide)).mpr (by decide)

/-- After a backspace at the beginning of the screen the flag is not as before. -/
theorem backspace_undoes_afterBackspace :
    ¬Undoes ([BACKSPACE].foldl putchar (initVESAtext 0xffffffff 0 640 480 fun _ => 0)) 97 :=
  fun h => absurd h.isBack (by decide)

end Seaweed
