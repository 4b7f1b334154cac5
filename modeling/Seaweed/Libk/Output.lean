import Seaweed.Library.Runs
import Seaweed.Library.Words

/-!
# The terminal (`libk/output.c`, `drivers/vesa.c`)

`terminalRow` is the place in a line and `terminalColumn` the line, both in pixels.  Characters are
eight pixels wide and high.  The end of a line and the end of the screen are found by tests for
equality; `putchar` makes both of them after a character that is drawn, but none after a newline,
and the first one not while `isBack` is set.  A backspace at the beginning of a line leaves it set.

* `renderChar`, `putchar` — the code, with the list of the characters that are drawn.
* `OnScreen` — the cursor and everything that has been drawn are on the screen.
* `CursorOk` — the next character leads nowhere else.
* **`cursor_onScreen_iff`** — the cursor stays on the screen exactly if every character meets that
  condition when its turn comes.
-/

namespace Seaweed

open Words Transition

/-! ## The code -/

/-- A call of `setPixel`. -/
structure Pixel where
  x : UInt16
  y : UInt16
  colour : UInt32

/-- A call of `renderChar`. -/
structure Cell where
  x : UInt64
  y : UInt64
  fg : UInt32
  bg : UInt32
  c : UInt8

/-- The pixels that are set; the coordinates are cut off to 16 bits. -/
def renderChar (font : UInt8 → ℕ → UInt8) (cell : Cell) : List Pixel :=
  (List.range 8).flatMap fun i => (List.range 8).map fun j =>
    { x := (UInt64.ofNat j + cell.x).toUInt16
      y := (cell.y + UInt64.ofNat i).toUInt16
      colour := if (font cell.c i >>> UInt8.ofNat j) &&& 1 != 0 then cell.fg else cell.bg }

/-- The globals of the terminal, with the flag that `putchar` keeps and the calls of `renderChar`,
the last one first.  `referenceColumn` is what the pointer points to, as far as it can be
addressed. -/
structure Terminal where
  terminalRow : UInt64
  terminalColumn : UInt64
  terminalBG : UInt32
  terminalFG : UInt32
  height : UInt32
  width : UInt32
  referenceColumn : ℕ → UInt32
  isBack : Bool
  drawn : List Cell

/-- Everything else is as the loader has zeroed it; `referenceColumn` is as `kmalloc` returns it. -/
def initVESAtext (fg bg : UInt32) (x y : UInt64) (referenceColumn : ℕ → UInt32) : Terminal where
  terminalRow := 0
  terminalColumn := 0
  terminalBG := bg
  terminalFG := fg
  height := y.toUInt32
  width := x.toUInt32
  referenceColumn := referenceColumn
  isBack := false
  drawn := []

def TABSIZE : ℕ := 4

/-- The default branch of `putchar`. -/
def putGlyph (s : Terminal) (c : UInt8) : Terminal :=
  let s :=
    { s with drawn := ⟨s.terminalRow, s.terminalColumn, s.terminalFG, s.terminalBG, c⟩ :: s.drawn }
  let s := { s with terminalRow := s.terminalRow + 8 }
  if s.terminalRow == s.width.toUInt64 && !s.isBack then
    let s := { s with terminalRow := 0, terminalColumn := s.terminalColumn + 8 }
    if s.terminalColumn == s.height.toUInt64 then { s with terminalColumn := 0 } else s
  else s

def NEWLINE : UInt8 := 10

def TAB : UInt8 := 9

def BACKSPACE : UInt8 := 8

def SPACE : UInt8 := 32

/-- The calls that `putchar` makes of itself are for spaces, which are drawn. -/
def putchar (s : Terminal) (c : UInt8) : Terminal :=
  if c = NEWLINE then
    { s with
      referenceColumn := Function.update s.referenceColumn s.terminalRow.toNat
        s.terminalColumn.toUInt32
      terminalRow := 0
      terminalColumn := s.terminalColumn + 8 }
  else if c = TAB then
    (List.range TABSIZE).foldl (fun s _ => putGlyph s SPACE) s
  else if c = BACKSPACE then
    let s := { s with isBack := true }
    if s.terminalRow = 0 then
      if s.terminalColumn = 0 then s
      else
        let s := { s with terminalColumn := s.terminalColumn - 8, terminalRow := s.width.toUInt64 }
        let s := putGlyph { s with terminalRow := s.terminalRow - 8 } SPACE
        { s with terminalRow := s.terminalRow - 8 }
    else
      let s := putGlyph { s with terminalRow := s.terminalRow - 8 } SPACE
      { s with terminalRow := s.terminalRow - 8, isBack := false }
  else putGlyph s c

/-! ## What should hold -/

/-- The cell and its pixels are inside a screen of this size. -/
structure Cell.Inside (cell : Cell) (width height : UInt32) : Prop where
  x : cell.x.toNat + 8 ≤ width.toNat
  y : cell.y.toNat + 8 ≤ height.toNat
  pixels : ∀ font, ∀ p ∈ renderChar font cell,
    p.x.toNat < width.toNat ∧ p.y.toNat < height.toNat

/-- The cursor is at a cell of the screen, and so is everything that has been drawn. -/
structure OnScreen (s : Terminal) : Prop where
  row_mul : s.terminalRow.toNat % 8 = 0
  row_lt : s.terminalRow.toNat < s.width.toNat
  column_mul : s.terminalColumn.toNat % 8 = 0
  column_lt : s.terminalColumn.toNat < s.height.toNat
  drawn : ∀ cell ∈ s.drawn, cell.Inside s.width s.height

/-- A newline is not on the last line, and while `isBack` is set a character does not end its
line. -/
def CursorOk (s : Terminal) (c : UInt8) : Prop :=
  if c = NEWLINE then s.terminalColumn.toNat + 8 ≠ s.height.toNat
  else if c = TAB then s.isBack = true → s.terminalRow.toNat + 8 * TABSIZE < s.width.toNat
  else if c = BACKSPACE then True
  else s.isBack = true → s.terminalRow.toNat + 8 ≠ s.width.toNat

instance (s : Terminal) (c : UInt8) : Decidable (CursorOk s c) :=
  inferInstanceAs (Decidable (ite _ _ _))

/-- The screen is a whole number of cells wide and high. -/
def WholeCells (s : Terminal) : Prop := s.width.toNat % 8 = 0 ∧ s.height.toNat % 8 = 0

variable {s : Terminal} {c : UInt8} {cell : Cell} {width height : UInt32} {n : ℕ} {cs : List UInt8}

/-! ## Drawing -/

lemma toNat_cut (w : UInt64) : w.toUInt16.toNat ≤ w.toNat := by
  rw [UInt64.toNat_toUInt16]
  exact Nat.mod_le ..

lemma toNat_add_le (v w : UInt64) : (v + w).toNat ≤ v.toNat + w.toNat := by
  rw [UInt64.toNat_add]
  exact Nat.mod_le ..

/-- A cell inside the screen has its pixels inside the screen. -/
lemma inside_of_le (hx : cell.x.toNat + 8 ≤ width.toNat) (hy : cell.y.toNat + 8 ≤ height.toNat) :
    cell.Inside width height where
  x := hx
  y := hy
  pixels := by
    intro font p hp
    simp only [renderChar, List.mem_flatMap, List.mem_map, List.mem_range] at hp
    obtain ⟨i, hi, j, hj, rfl⟩ := hp
    have hcutx := toNat_cut (UInt64.ofNat j + cell.x)
    have hcuty := toNat_cut (cell.y + UInt64.ofNat i)
    have hsumx := toNat_add_le (UInt64.ofNat j) cell.x
    have hsumy := toNat_add_le cell.y (UInt64.ofNat i)
    rw [toNat_ofNat_of_lt (by omega)] at hsumx hsumy
    exact ⟨by dsimp only; omega, by dsimp only; omega⟩

/-- A multiple of eight below another one is eight below it at least. -/
lemma add_eight_le {a b : ℕ} (ha : a % 8 = 0) (hb : b % 8 = 0) (hlt : a < b) : a + 8 ≤ b := by omega

/-- A character is drawn at the cursor. -/
lemma OnScreen.draw (h : OnScreen s) (hcells : WholeCells s) (c : UInt8) :
    OnScreen { s with
      drawn := ⟨s.terminalRow, s.terminalColumn, s.terminalFG, s.terminalBG, c⟩ :: s.drawn } :=
  { h with
    drawn := List.forall_mem_cons.mpr ⟨inside_of_le (add_eight_le h.row_mul hcells.1 h.row_lt)
      (add_eight_le h.column_mul hcells.2 h.column_lt), h.drawn⟩ }

section Glyphs

variable (s c)

@[simp] lemma width_putGlyph : (putGlyph s c).width = s.width := by
  unfold putGlyph
  dsimp only
  split_ifs <;> rfl

@[simp] lemma height_putGlyph : (putGlyph s c).height = s.height := by
  unfold putGlyph
  dsimp only
  split_ifs <;> rfl

@[simp] lemma isBack_putGlyph : (putGlyph s c).isBack = s.isBack := by
  unfold putGlyph
  dsimp only
  split_ifs <;> rfl

end Glyphs

/-- While `isBack` is set the end of the line is not looked for. -/
lemma putGlyph_isBack (h : s.isBack = true) (c : UInt8) : putGlyph s c =
    { s with
      drawn := ⟨s.terminalRow, s.terminalColumn, s.terminalFG, s.terminalBG, c⟩ :: s.drawn
      terminalRow := s.terminalRow + 8 } := by
  unfold putGlyph
  dsimp only
  rw [h, Bool.not_true, Bool.and_false]
  rfl

lemma toNat_add_eight {w : UInt64} (h : w.toNat < 2 ^ 32) : (w + 8).toNat = w.toNat + 8 := by
  rw [UInt64.toNat_add]
  exact Nat.mod_eq_of_lt (by show _ + 8 < _; omega)

lemma beq_toUInt64 (w : UInt64) (v : UInt32) : (w == v.toUInt64) = true ↔ w.toNat = v.toNat := by
  rw [beq_iff_eq, ← UInt64.toNat_inj, UInt32.toNat_toUInt64]

/-- **A character that is drawn** leaves the cursor on the screen, unless it ends its line while
`isBack` is set. -/
theorem onScreen_putGlyph_iff (h : OnScreen s) (hcells : WholeCells s) (c : UInt8) :
    OnScreen (putGlyph s c) ↔ (s.isBack = true → s.terminalRow.toNat + 8 ≠ s.width.toNat) := by
  have hrow := toNat_add_eight (lt_trans h.row_lt s.width.toNat_lt)
  have hcolumn := toNat_add_eight (lt_trans h.column_lt s.height.toNat_lt)
  have hrow_le := add_eight_le h.row_mul hcells.1 h.row_lt
  have hcolumn_le := add_eight_le h.column_mul hcells.2 h.column_lt
  have hrow_mul := h.row_mul
  have hcolumn_mul := h.column_mul
  have hdrawn := (h.draw hcells c).drawn
  cases hback : s.isBack with
  | true =>
      rw [putGlyph_isBack hback]
      constructor
      · intro h' _ hend
        have hlt : (s.terminalRow + 8).toNat < s.width.toNat := h'.row_lt
        omega
      · intro hne
        have hne' := hne rfl
        exact ⟨by dsimp only; omega, by dsimp only; omega, h.column_mul, h.column_lt, hdrawn⟩
  | false =>
      refine iff_of_true ?_ fun hset => Bool.noConfusion hset
      unfold putGlyph
      dsimp only
      rw [hback, Bool.not_false, Bool.and_true]
      split_ifs with hline hscreen
      · exact ⟨rfl, Nat.zero_lt_of_lt h.row_lt, rfl, Nat.zero_lt_of_lt h.column_lt, hdrawn⟩
      · rw [beq_toUInt64] at hscreen
        exact ⟨rfl, Nat.zero_lt_of_lt h.row_lt, by dsimp only; omega, by dsimp only; omega, hdrawn⟩
      · rw [beq_toUInt64] at hline
        exact ⟨by dsimp only; omega, by dsimp only; omega, h.column_mul, h.column_lt, hdrawn⟩

/-! ## One character -/

/-- The spaces of a tab. -/
def putSpaces (s : Terminal) (n : ℕ) : Terminal :=
  (List.range n).foldl (fun s _ => putGlyph s SPACE) s

lemma putSpaces_succ (s : Terminal) (n : ℕ) :
    putSpaces s (n + 1) = putGlyph (putSpaces s n) SPACE := by
  rw [putSpaces, List.range_succ, List.foldl_append]
  rfl

lemma fields_putSpaces (s : Terminal) (n : ℕ) : (putSpaces s n).width = s.width ∧
    (putSpaces s n).height = s.height ∧ (putSpaces s n).isBack = s.isBack := by
  induction n with
  | zero => exact ⟨rfl, rfl, rfl⟩
  | succ n ih => rwa [putSpaces_succ, width_putGlyph, height_putGlyph, isBack_putGlyph]

/-- While `isBack` is set the spaces go on in the same line. -/
lemma terminalRow_putSpaces (h : s.isBack = true) (n : ℕ) :
    (putSpaces s n).terminalRow = s.terminalRow + UInt64.ofNat (8 * n) := by
  induction n with
  | zero => exact (UInt64.add_zero _).symm
  | succ n ih =>
      have hback : (putSpaces s n).isBack = true := (fields_putSpaces s n).2.2.trans h
      have hrow : (putSpaces s (n + 1)).terminalRow = (putSpaces s n).terminalRow + 8 := by
        rw [putSpaces_succ, putGlyph_isBack hback]
      rw [hrow, ih, Nat.mul_succ, UInt64.ofNat_add, UInt64.add_assoc]
      rfl

/-- `n` spaces. -/
lemma onScreen_putSpaces_iff (h : OnScreen s) (hcells : WholeCells s) (hn : n ≤ TABSIZE) :
    OnScreen (putSpaces s n) ↔
      (s.isBack = true → s.terminalRow.toNat + 8 * n < s.width.toNat) := by
  induction n with
  | zero => exact iff_of_true h fun _ => h.row_lt
  | succ n ih =>
      obtain ⟨hwidth, hheight, hback⟩ := fields_putSpaces s n
      have hcells' : WholeCells (putSpaces s n) := by rwa [WholeCells, hwidth, hheight]
      have hrow_lt := h.row_lt
      have hlt := s.width.toNat_lt
      have hrow : s.isBack = true → ∀ k, k ≤ TABSIZE →
          (putSpaces s k).terminalRow.toNat = s.terminalRow.toNat + 8 * k := by
        intro hset k hk
        have hk' : k ≤ 4 := hk
        rw [terminalRow_putSpaces hset, UInt64.toNat_add, toNat_ofNat_of_lt (by omega)]
        exact Nat.mod_eq_of_lt (by omega)
      rw [putSpaces_succ]
      constructor
      · intro h' hset
        have hend := h'.row_lt
        rw [width_putGlyph, hwidth, ← putSpaces_succ, hrow hset _ hn] at hend
        exact hend
      · intro hroom
        have hn' : OnScreen (putSpaces s n) := by
          refine (ih (by omega)).mpr fun hset => ?_
          have := hroom hset
          omega
        refine (onScreen_putGlyph_iff hn' hcells' SPACE).mpr fun hset => ?_
        rw [hback] at hset
        have := hroom hset
        rw [hrow hset n (by omega), hwidth]
        omega

/-- A newline, on any line but the last. -/
lemma onScreen_newline_iff (h : OnScreen s) (hcells : WholeCells s) :
    OnScreen (putchar s NEWLINE) ↔ s.terminalColumn.toNat + 8 ≠ s.height.toNat := by
  have hcolumn := toNat_add_eight (lt_trans h.column_lt s.height.toNat_lt)
  have hcolumn_le := add_eight_le h.column_mul hcells.2 h.column_lt
  have hcolumn_mul := h.column_mul
  rw [putchar, if_pos rfl]
  constructor
  · intro h' hend
    have hlt : (s.terminalColumn + 8).toNat < s.height.toNat := h'.column_lt
    omega
  · intro hne
    exact ⟨rfl, Nat.zero_lt_of_lt h.row_lt, by dsimp only; omega, by dsimp only; omega, h.drawn⟩

/-- A space drawn one place to the left with `isBack` set, and the cursor back on it. -/
lemma onScreen_back (h : OnScreen s) (hcells : WholeCells s) (hback : s.isBack = true) (b : Bool) :
    OnScreen { putGlyph s SPACE with
      terminalRow := (putGlyph s SPACE).terminalRow - 8
      isBack := b } := by
  rw [putGlyph_isBack hback]
  dsimp only
  rw [UInt64.add_sub_cancel]
  exact ⟨h.row_mul, h.row_lt, h.column_mul, h.column_lt, (h.draw hcells SPACE).drawn⟩

lemma toNat_sub_eight {w : UInt64} (h : 8 ≤ w.toNat) : (w - 8).toNat = w.toNat - 8 :=
  UInt64.toNat_sub_of_le w 8 (UInt64.le_iff_toNat_le.mpr h)

/-- A multiple of eight that is not zero. -/
lemma eight_le_toNat {w : UInt64} (hmul : w.toNat % 8 = 0) (hne : w ≠ 0) : 8 ≤ w.toNat := by
  have hne' : w.toNat ≠ 0 := fun h => hne (UInt64.toNat_inj.mp h)
  omega

/-- A backspace, always. -/
lemma onScreen_backspace (h : OnScreen s) (hcells : WholeCells s) :
    OnScreen (putchar s BACKSPACE) := by
  have hrow_lt := h.row_lt
  have hrow_mul := h.row_mul
  have hcolumn_lt := h.column_lt
  have hcolumn_mul := h.column_mul
  rw [putchar, if_neg (by decide), if_neg (by decide), if_pos rfl]
  dsimp only
  split_ifs with hrow hcolumn
  · exact ⟨hrow_mul, hrow_lt, hcolumn_mul, hcolumn_lt, h.drawn⟩
  · -- to the end of the line above
    have hcolumn_le := eight_le_toNat hcolumn_mul hcolumn
    have hwidth_le : 8 ≤ s.width.toNat := add_eight_le (a := 0) rfl hcells.1 (by omega)
    have hwidth : s.width.toUInt64.toNat = s.width.toNat := UInt32.toNat_toUInt64 _
    have hend := toNat_sub_eight (hwidth_le.trans_eq hwidth.symm)
    have hline := toNat_sub_eight hcolumn_le
    have hcells_width := hcells.1
    refine onScreen_back (s := { s with
      isBack := true
      terminalColumn := s.terminalColumn - 8
      terminalRow := s.width.toUInt64 - 8 }) ?_ hcells rfl _
    exact ⟨by dsimp only; omega, by dsimp only; omega, by dsimp only; omega, by dsimp only; omega,
      h.drawn⟩
  · -- one place to the left
    have hplace := toNat_sub_eight (eight_le_toNat hrow_mul hrow)
    refine onScreen_back (s := { s with
      isBack := true
      terminalRow := s.terminalRow - 8 }) ?_ hcells rfl _
    exact ⟨by dsimp only; omega, by dsimp only; omega, hcolumn_mul, hcolumn_lt, h.drawn⟩

/-- **One character** leaves the cursor on the screen exactly under the condition. -/
theorem onScreen_putchar_iff (h : OnScreen s) (hcells : WholeCells s) (c : UInt8) :
    OnScreen (putchar s c) ↔ CursorOk s c := by
  rw [CursorOk]
  split_ifs with hnewline htab hback
  · rw [hnewline]
    exact onScreen_newline_iff h hcells
  · have hspaces : putchar s c = putSpaces s TABSIZE := by
      rw [putchar, if_neg hnewline, if_pos htab, putSpaces]
    rw [hspaces]
    exact onScreen_putSpaces_iff h hcells le_rfl
  · rw [hback]
    exact iff_of_true (onScreen_backspace h hcells) trivial
  · rw [putchar, if_neg hnewline, if_neg htab, if_neg hback]
    exact onScreen_putGlyph_iff h hcells c

/-! ## Any text -/

/-- No character changes the size of the screen. -/
lemma size_putchar (s : Terminal) (c : UInt8) :
    (putchar s c).width = s.width ∧ (putchar s c).height = s.height := by
  unfold putchar
  split_ifs with hnewline htab hback
  · exact ⟨rfl, rfl⟩
  · obtain ⟨hwidth, hheight, -⟩ := fields_putSpaces s TABSIZE
    exact ⟨hwidth, hheight⟩
  · dsimp only
    split_ifs
    · exact ⟨rfl, rfl⟩
    · exact ⟨width_putGlyph .., height_putGlyph ..⟩
    · exact ⟨width_putGlyph .., height_putGlyph ..⟩
  · exact ⟨width_putGlyph .., height_putGlyph ..⟩

/-- From a cursor on the screen: induction on the text. -/
lemma prefixes_onScreen_iff (h : OnScreen s) (hcells : WholeCells s) :
    (∀ pre, pre <+: cs → OnScreen (pre.foldl putchar s)) ↔ Replays CursorOk putchar s cs := by
  induction cs generalizing s with
  | nil =>
      refine iff_of_true (fun pre hpre => ?_) trivial
      rw [List.prefix_nil.mp hpre]
      exact h
  | cons c cs ih =>
      obtain ⟨hwidth, hheight⟩ := size_putchar s c
      have hcells' : WholeCells (putchar s c) := by rwa [WholeCells, hwidth, hheight]
      constructor
      · intro hall
        have hfirst : OnScreen (putchar s c) := hall [c] (List.prefix_append [c] cs)
        refine ⟨(onScreen_putchar_iff h hcells c).mp hfirst, (ih hfirst hcells').mp ?_⟩
        intro pre hpre
        exact hall (c :: pre) (List.prefix_cons_inj c |>.mpr hpre)
      · rintro ⟨hfirst, hrest⟩ pre hpre
        rcases List.prefix_cons_iff.mp hpre with rfl | ⟨pre', rfl, hpre'⟩
        · exact h
        · have hnext := (onScreen_putchar_iff h hcells c).mpr hfirst
          exact (ih hnext hcells').mpr hrest pre' hpre'

/-- The cursor starts in the upper left corner. -/
lemma onScreen_initVESAtext {fg bg : UInt32} {x y : UInt64} {referenceColumn : ℕ → UInt32}
    (hwidth : 0 < x.toUInt32.toNat) (hheight : 0 < y.toUInt32.toNat) :
    OnScreen (initVESAtext fg bg x y referenceColumn) :=
  ⟨rfl, hwidth, rfl, hheight, fun _ hcell => absurd hcell List.not_mem_nil⟩

/-- **The cursor stays on the screen** while a text is printed, and everything is drawn on it,
exactly if every character finds the terminal in a state where it leads nowhere else. -/
theorem cursor_onScreen_iff (fg bg : UInt32) (x y : UInt64) (referenceColumn : ℕ → UInt32)
    (hwidth : 0 < x.toUInt32.toNat) (hheight : 0 < y.toUInt32.toNat)
    (hcells : WholeCells (initVESAtext fg bg x y referenceColumn)) (cs : List UInt8) :
    (∀ pre, pre <+: cs → OnScreen (pre.foldl putchar (initVESAtext fg bg x y referenceColumn))) ↔
      Replays CursorOk putchar (initVESAtext fg bg x y referenceColumn) cs :=
  prefixes_onScreen_iff (onScreen_initVESAtext hwidth hheight) hcells

/-- A tab, two letters, a backspace and a new line on the usual screen. -/
theorem cursor_onScreen_hello :
    OnScreen ([TAB, 104, 105, BACKSPACE, NEWLINE].foldl putchar
      (initVESAtext 0xffffffff 0 640 480 fun _ => 0)) :=
  (cursor_onScreen_iff 0xffffffff 0 640 480 (fun _ => 0) (by decide) (by decide) ⟨rfl, rfl⟩
    [TAB, 104, 105, BACKSPACE, NEWLINE]).mpr (by decide) _ (List.prefix_refl _)

/-- A newline on the last line leaves the screen. -/
theorem cursor_leaves_screen :
    ¬ ∀ pre, pre <+: List.replicate 60 NEWLINE →
      OnScreen (pre.foldl putchar (initVESAtext 0xffffffff 0 640 480 fun _ => 0)) := by
  intro hall
  have hlt := (hall _ (List.prefix_refl _)).column_lt
  revert hlt
  decide +kernel

end Seaweed
