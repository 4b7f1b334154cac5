import Seaweed.Library.TextGrid
import Seaweed.Drivers.Bmp
import Seaweed.Libk.Print
import Seaweed.Libk.Backspace

/-!
# What the screen shows (`libk/output.c`, `drivers/vesa.c`)

The calls of `renderChar` that `putchar` makes leave a picture in the frame buffer.  As long as no
character leads off the screen, it is the picture of a screen of text, on which characters,
newlines, tabs and backspaces do what they are for; the flag that `putchar` keeps does not matter.

* `typeChar` — a character on a screen of text.
* `Shows` — the terminal is at the same place, and has drawn last in each cell what is there.
* `shows_putchar` — one character keeps it so.
* **`kprintVS_shows`** — after any calls of `kprintVS` each pixel belongs to the character at its
  place.
-/

namespace Seaweed

open Transition Words

/-! ## The screen of text -/

/-- A character on a screen of text; a tab is four spaces. -/
def typeChar (g : TextGrid UInt8) (c : UInt8) : TextGrid UInt8 :=
  if c = NEWLINE then g.newline
  else if c = TAB then (List.range TABSIZE).foldl (fun g _ => g.put SPACE) g
  else if c = BACKSPACE then g.back SPACE
  else g.put c

/-- The place of a cell in pixels. -/
def cellAt (s : Terminal) (col row : ℕ) (c : UInt8) : Cell :=
  ⟨UInt64.ofNat (8 * col), UInt64.ofNat (8 * row), s.terminalFG, s.terminalBG, c⟩

/-- What has been drawn last in a cell. -/
def Terminal.lastCell (s : Terminal) (col row : ℕ) : Option Cell :=
  s.drawn.find? fun cell => cell.x.toNat = 8 * col ∧ cell.y.toNat = 8 * row

/-- The terminal is where the screen of text is. -/
structure Shows (s : Terminal) (g : TextGrid UInt8) : Prop where
  width : s.width.toNat = 8 * g.cols
  height : s.height.toNat = 8 * g.rows
  row : s.terminalRow.toNat = 8 * g.col
  column : s.terminalColumn.toNat = 8 * g.row
  cells : ∀ col row, col < g.cols → row < g.rows →
    s.lastCell col row = (g.cells col row).map (cellAt s col row)
  drawn : ∀ cell ∈ s.drawn, ∃ col row c, col < g.cols ∧ row < g.rows ∧ cell = cellAt s col row c

variable {s s' : Terminal} {g : TextGrid UInt8} {c : UInt8} {col row n : ℕ}

lemma Shows.onScreen (h : Shows s g) : s.terminalRow.toNat + 8 ≤ s.width.toNat ∧
    s.terminalColumn.toNat + 8 ≤ s.height.toNat := by
  have hcol := g.col_lt
  have hrow := g.row_lt
  rw [h.width, h.height, h.row, h.column]
  omega

/-! ## Drawing at the cursor -/

/-- A character drawn at the cursor. -/
def Terminal.draw (s : Terminal) (c : UInt8) : Terminal :=
  { s with drawn := ⟨s.terminalRow, s.terminalColumn, s.terminalFG, s.terminalBG, c⟩ :: s.drawn }

lemma Shows.draw (h : Shows s g) (c : UInt8) : Shows (s.draw c) (g.write c) := by
  have hw := s.width.toNat_lt
  have hh := s.height.toNat_lt
  have hon := h.onScreen
  have hwidth := h.width
  have hheight := h.height
  have hrow := h.row
  have hcolumn := h.column
  have hcell : (⟨s.terminalRow, s.terminalColumn, s.terminalFG, s.terminalBG, c⟩ : Cell) =
      cellAt s g.col g.row c := by
    rw [cellAt, ← hrow, ← hcolumn, UInt64.ofNat_toNat, UInt64.ofNat_toNat]
  refine ⟨h.width, h.height, h.row, h.column, fun col row hcol hrow' => ?_, ?_⟩
  · show List.find? _ (_ :: s.drawn) = _
    by_cases hplace : col = g.col ∧ row = g.row
    · rw [List.find?_cons_of_pos (by simp only [decide_eq_true_eq]; omega)]
      have hwrite : (g.write c).cells col row = some c := if_pos hplace
      rw [hwrite, hplace.1, hplace.2, hcell]
      rfl
    · rw [List.find?_cons_of_neg (by simp only [decide_eq_true_eq]; omega)]
      have hwrite : (g.write c).cells col row = g.cells col row := if_neg hplace
      rw [hwrite]
      exact h.cells col row hcol hrow'
  · exact List.forall_mem_cons.mpr ⟨⟨g.col, g.row, c, g.col_lt, g.row_lt, hcell⟩, h.drawn⟩

/-- The cursor somewhere else. -/
lemma Shows.move (h : Shows s g) {x y : UInt64} (hcol : col < g.cols) (hrow : row < g.rows)
    (hx : x.toNat = 8 * col) (hy : y.toNat = 8 * row) (referenceColumn : ℕ → UInt32) (b : Bool) :
    Shows
      { s with
        terminalRow := x
        terminalColumn := y
        referenceColumn := referenceColumn
        isBack := b }
      { g with col := col, row := row, col_lt := hcol, row_lt := hrow } :=
  ⟨h.width, h.height, hx, hy, h.cells, h.drawn⟩

/-! ## One character -/

/-- **A character that is drawn**, unless it ends its line while `isBack` is set. -/
theorem Shows.putGlyph (h : Shows s g)
    (hback : s.isBack = true → s.terminalRow.toNat + 8 ≠ s.width.toNat) (c : UInt8) :
    Shows (putGlyph s c) (g.put c) := by
  have hw := s.width.toNat_lt
  have hh := s.height.toNat_lt
  have hon := h.onScreen
  have hwidth := h.width
  have hheight := h.height
  have hrow := h.row
  have hcolumn := h.column
  have hrow8 := toNat_add_eight (w := s.terminalRow) (by omega)
  have hcolumn8 := toNat_add_eight (w := s.terminalColumn) (by omega)
  have hdraw := h.draw c
  unfold Seaweed.putGlyph
  dsimp only
  by_cases hend : s.terminalRow.toNat + 8 = s.width.toNat
  · -- the end of the line
    have hclear : s.isBack = false := by
      cases hset : s.isBack with
      | false => rfl
      | true => exact absurd hend (hback hset)
    have hline : (s.terminalRow + 8 == s.width.toUInt64) = true :=
      (beq_toUInt64 _ _).mpr (hrow8.trans hend)
    have hput : g.put c = (g.write c).newline := (g.write c).advance_ends (by
      show g.col + 1 = g.cols
      omega)
    rw [hline, hclear, Bool.not_false, Bool.and_true, if_pos rfl, hput]
    split_ifs with hscreen
    · rw [beq_toUInt64, hcolumn8] at hscreen
      have hnext : (g.write c).nextRow = 0 := if_neg (by show ¬g.row + 1 < g.rows; omega)
      exact hdraw.move (Nat.zero_lt_of_lt g.col_lt) (g.write c).nextRow_lt rfl (by rw [hnext]; rfl)
        s.referenceColumn false
    · rw [beq_toUInt64, hcolumn8] at hscreen
      have hnext : (g.write c).nextRow = g.row + 1 := if_pos (by show g.row + 1 < g.rows; omega)
      exact hdraw.move (Nat.zero_lt_of_lt g.col_lt) (g.write c).nextRow_lt rfl
        (by rw [hnext]; omega) s.referenceColumn false
  · have hline : (s.terminalRow + 8 == s.width.toUInt64) = false :=
      Bool.eq_false_iff.mpr fun heq => hend (by rw [beq_toUInt64, hrow8] at heq; exact heq)
    have hlt : (g.write c).col + 1 < (g.write c).cols := by
      show g.col + 1 < g.cols
      omega
    have hput : g.put c = _ := (g.write c).advance_within hlt
    rw [hline, Bool.false_and, if_neg Bool.false_ne_true, hput]
    exact hdraw.move hlt g.row_lt (by show _ = 8 * (g.col + 1); omega) hcolumn s.referenceColumn
      s.isBack

/-- A newline, on any line but the last. -/
lemma Shows.newline (h : Shows s g) (hlast : s.terminalColumn.toNat + 8 ≠ s.height.toNat) :
    Shows (putchar s NEWLINE) g.newline := by
  have hh := s.height.toNat_lt
  have hheight := h.height
  have hcolumn := h.column
  have hrow := g.row_lt
  have hcolumn8 := toNat_add_eight (w := s.terminalColumn) (by omega)
  have hnext : g.nextRow = g.row + 1 := if_pos (by omega)
  rw [putchar, if_pos rfl]
  exact h.move (Nat.zero_lt_of_lt g.col_lt) g.nextRow_lt rfl (by rw [hnext]; omega) _ s.isBack

/-- A backspace, always. -/
lemma Shows.backspace (h : Shows s g) : Shows (putchar s BACKSPACE) (g.back SPACE) := by
  have hw := s.width.toNat_lt
  have hh := s.height.toNat_lt
  have hwidth := h.width
  have hheight := h.height
  have hrow := h.row
  have hcolumn := h.column
  have hcol_lt := g.col_lt
  have hrow_lt := g.row_lt
  have hzero : ∀ (w : UInt64) (k : ℕ), w.toNat = 8 * k → (w = 0 ↔ k = 0) := by
    intro w k hk
    rw [← UInt64.toNat_inj, hk, UInt64.toNat_zero]
    omega
  have hrow0 := hzero _ _ hrow
  have hcolumn0 := hzero _ _ hcolumn
  rw [TextGrid.back]
  by_cases hstart : s.terminalRow = 0
  · by_cases horigin : s.terminalColumn = 0
    · rw [backspace_origin hstart horigin, if_pos ⟨hrow0.mp hstart, hcolumn0.mp horigin⟩]
      exact h.move g.col_lt g.row_lt hrow hcolumn s.referenceColumn true
    · -- to the end of the line above
      have habove : ¬g.row = 0 := mt hcolumn0.mpr horigin
      have hend : (s.width.toUInt64 - 8).toNat = 8 * (g.cols - 1) := by
        rw [toNat_sub_eight (by rw [UInt32.toNat_toUInt64]; omega), UInt32.toNat_toUInt64]
        omega
      have hline : (s.terminalColumn - 8).toNat = 8 * (g.row - 1) := by
        rw [toNat_sub_eight (by omega)]
        omega
      rw [backspace_start hstart horigin, if_neg (fun hcorner => habove hcorner.2),
        TextGrid.retreat, if_pos (hrow0.mp hstart), if_neg habove]
      exact (h.move (by omega) (by omega) hend hline s.referenceColumn true).draw SPACE
  · -- one place to the left
    have hinside : ¬g.col = 0 := mt hrow0.mpr hstart
    have hplace : (s.terminalRow - 8).toNat = 8 * (g.col - 1) := by
      rw [toNat_sub_eight (by omega)]
      omega
    rw [backspace_within hstart, if_neg (fun hcorner => hinside hcorner.1), TextGrid.retreat,
      if_neg hinside]
    exact (h.move (by omega) g.row_lt hplace hcolumn s.referenceColumn false).draw SPACE

/-- The spaces of a tab. -/
lemma Shows.spaces (h : Shows s g) (hn : n ≤ TABSIZE)
    (hroom : s.isBack = true → s.terminalRow.toNat + 8 * n < s.width.toNat) :
    Shows (putSpaces s n) ((List.range n).foldl (fun g _ => g.put SPACE) g) := by
  induction n with
  | zero => exact h
  | succ n ih =>
      obtain ⟨hwidth, _, hback⟩ := fields_putSpaces s n
      have hn' : n + 1 ≤ 4 := hn
      have hw := s.width.toNat_lt
      have hspaces := ih (by omega) fun hset => by have := hroom hset; omega
      rw [putSpaces_succ, List.range_succ, List.foldl_append, List.foldl_cons, List.foldl_nil]
      refine hspaces.putGlyph (fun hset => ?_) SPACE
      rw [hback] at hset
      have hlt := hroom hset
      rw [terminalRow_putSpaces hset, hwidth, UInt64.toNat_add, toNat_ofNat_of_lt (by omega)]
      omega

/-- **One character** that does not lead off the screen. -/
theorem shows_putchar (h : Shows s g) (hok : CursorOk s c) :
    Shows (putchar s c) (typeChar g c) := by
  rw [CursorOk] at hok
  rw [typeChar]
  split_ifs at hok ⊢ with hnewline htab hback
  · rw [hnewline]
    exact h.newline hok
  · have hspaces : putchar s c = putSpaces s TABSIZE := by
      rw [putchar, if_neg hnewline, if_pos htab, putSpaces]
    rw [hspaces]
    exact h.spaces le_rfl hok
  · rw [hback]
    exact h.backspace
  · rw [putchar, if_neg hnewline, if_neg htab, if_neg hback]
    exact h.putGlyph hok c

/-- A text. -/
lemma shows_text {cs : List UInt8} (h : Shows s g) (hok : Replays CursorOk putchar s cs) :
    Shows (cs.foldl putchar s) (cs.foldl typeChar g) := by
  induction cs generalizing s g with
  | nil => exact h
  | cons c cs ih => exact ih (shows_putchar h hok.1) hok.2

/-! ## Pixels -/

/-- The pixel in column `j` and line `i` of a character. -/
def glyphColour (font : UInt8 → ℕ → UInt8) (fg bg : UInt32) (c : UInt8) (i j : ℕ) : UInt32 :=
  if (font c i >>> UInt8.ofNat j) &&& 1 != 0 then fg else bg

/-- The calls of `setPixel`, the first one first. -/
def Terminal.pixels (s : Terminal) (font : UInt8 → ℕ → UInt8) : List Pixel :=
  s.drawn.reverse.flatMap (renderChar font)

variable {font : UInt8 → ℕ → UInt8} {cell : Cell} {p : Pixel} {pixels pixels' : List Pixel}
  {x y : ℕ}

lemma lastColour_append (pixels pixels' : List Pixel) (x y : ℕ) :
    lastColour (pixels ++ pixels') x y = (lastColour pixels' x y).or (lastColour pixels x y) := by
  rw [lastColour, List.reverse_append, List.find?_append, Option.map_or, lastColour, lastColour]

/-- The pixels of a cell whose coordinates are not cut off. -/
lemma mem_renderChar (hx : cell.x.toNat = 8 * col) (hy : cell.y.toNat = 8 * row)
    (hcol : 8 * col + 8 ≤ 2 ^ 16) (hrow : 8 * row + 8 ≤ 2 ^ 16) : p ∈ renderChar font cell ↔
      p.x.toNat / 8 = col ∧ p.y.toNat / 8 = row ∧
        p.colour = glyphColour font cell.fg cell.bg cell.c (p.y.toNat % 8) (p.x.toNat % 8) := by
  have htoX : ∀ j, j < 8 → (UInt64.ofNat j + cell.x).toUInt16.toNat = 8 * col + j := by
    intro j hj
    rw [UInt64.toNat_toUInt16, UInt64.toNat_add, toNat_ofNat_of_lt (by omega), hx]
    omega
  have htoY : ∀ i, i < 8 → (cell.y + UInt64.ofNat i).toUInt16.toNat = 8 * row + i := by
    intro i hi
    rw [UInt64.toNat_toUInt16, UInt64.toNat_add, toNat_ofNat_of_lt (by omega), hy]
    omega
  simp only [renderChar, List.mem_flatMap, List.mem_map, List.mem_range]
  constructor
  · rintro ⟨i, hi, j, hj, rfl⟩
    have hX := htoX j hj
    have hY := htoY i hi
    refine ⟨by dsimp only; omega, by dsimp only; omega, ?_⟩
    dsimp only
    rw [glyphColour, hX, hY, Nat.mul_add_mod, Nat.mul_add_mod, Nat.mod_eq_of_lt hi,
      Nat.mod_eq_of_lt hj]
  · rintro ⟨hX, hY, hcolour⟩
    refine ⟨p.y.toNat % 8, Nat.mod_lt _ (by decide), p.x.toNat % 8, Nat.mod_lt _ (by decide), ?_⟩
    have hpx : (UInt64.ofNat (p.x.toNat % 8) + cell.x).toUInt16 = p.x := by
      rw [← UInt16.toNat_inj, htoX _ (Nat.mod_lt _ (by decide))]
      omega
    have hpy : (cell.y + UInt64.ofNat (p.y.toNat % 8)).toUInt16 = p.y := by
      rw [← UInt16.toNat_inj, htoY _ (Nat.mod_lt _ (by decide))]
      omega
    rw [hpx, hpy, ← glyphColour, ← hcolour]

/-- A character sets each of its pixels, and no other. -/
lemma lastColour_renderChar (hx : cell.x.toNat = 8 * col) (hy : cell.y.toNat = 8 * row)
    (hcol : 8 * col + 8 ≤ 2 ^ 16) (hrow : 8 * row + 8 ≤ 2 ^ 16) :
    lastColour (renderChar font cell) x y =
      if x / 8 = col ∧ y / 8 = row
        then some (glyphColour font cell.fg cell.bg cell.c (y % 8) (x % 8))
      else none := by
  split_ifs with hplace
  · refine lastColour_eq ?_ fun p hp hpx hpy => ?_
    · have hX : (UInt16.ofNat x).toNat = x := UInt16.toNat_ofNat_of_lt (show _ < 2 ^ 16 by omega)
      have hY : (UInt16.ofNat y).toNat = y := UInt16.toNat_ofNat_of_lt (show _ < 2 ^ 16 by omega)
      refine
        ⟨⟨UInt16.ofNat x, UInt16.ofNat y, glyphColour font cell.fg cell.bg cell.c (y % 8) (x % 8)⟩,
        (mem_renderChar hx hy hcol hrow).mpr ?_, hX, hY⟩
      dsimp only
      rw [hX, hY]
      exact ⟨hplace.1, hplace.2, rfl⟩
    · rw [((mem_renderChar hx hy hcol hrow).mp hp).2.2, hpx, hpy]
  · rw [lastColour, List.find?_eq_none.mpr, Option.map_none]
    intro p hp
    obtain ⟨hpx, hpy, _⟩ := (mem_renderChar hx hy hcol hrow).mp (List.mem_reverse.mp hp)
    simp only [decide_eq_true_eq]
    rintro ⟨rfl, rfl⟩
    exact hplace ⟨hpx, hpy⟩

/-- The screen of text fits into the coordinates of `setPixel`. -/
structure FitsWords (g : TextGrid UInt8) : Prop where
  cols : 8 * g.cols ≤ 2 ^ 16
  rows : 8 * g.rows ≤ 2 ^ 16

/-- **A pixel has been set last for the cell it is in.** -/
lemma Shows.lastColour_eq (h : Shows s g) (hfits : FitsWords g) (hx : x / 8 < g.cols)
    (hy : y / 8 < g.rows) : lastColour (s.pixels font) x y =
      (g.cells (x / 8) (y / 8)).map fun c =>
        glyphColour font s.terminalFG s.terminalBG c (y % 8) (x % 8) := by
  have hcols := hfits.cols
  have hrows := hfits.rows
  have hdrawn : ∀ drawn : List Cell,
      (∀ cell ∈ drawn, ∃ col row c, col < g.cols ∧ row < g.rows ∧ cell = cellAt s col row c) →
      lastColour (drawn.reverse.flatMap (renderChar font)) x y =
        (drawn.find? fun cell => cell.x.toNat = 8 * (x / 8) ∧ cell.y.toNat = 8 * (y / 8)).map
          fun cell => glyphColour font cell.fg cell.bg cell.c (y % 8) (x % 8) := by
    intro drawn hcells
    induction drawn with
    | nil => rfl
    | cons cell drawn ih =>
        obtain ⟨⟨col, row, c, hcol, hrow, rfl⟩, hrest⟩ := List.forall_mem_cons.mp hcells
        have htoX : (cellAt s col row c).x.toNat = 8 * col := toNat_ofNat_of_lt (by omega)
        have htoY : (cellAt s col row c).y.toNat = 8 * row := toNat_ofNat_of_lt (by omega)
        rw [List.reverse_cons, List.flatMap_append, List.flatMap_singleton, lastColour_append,
          lastColour_renderChar htoX htoY (by omega) (by omega), ih hrest]
        by_cases hplace : x / 8 = col ∧ y / 8 = row
        · rw [if_pos hplace, List.find?_cons_of_pos (by simp only [decide_eq_true_eq]; omega)]
          rfl
        · rw [if_neg hplace, List.find?_cons_of_neg (by simp only [decide_eq_true_eq]; omega)]
          rfl
  rw [Terminal.pixels, hdrawn s.drawn h.drawn, ← Terminal.lastCell, h.cells _ _ hx hy,
    Option.map_map]
  rfl

/-! ## What is printed -/

/-- Calls of `kprintVS` one after the other. -/
def kprintCalls (calls : List (List Piece)) (s : Terminal) : Option Terminal :=
  calls.foldlM (fun s pieces => kprintVS (format pieces) (arguments pieces) s) s

/-- The frame buffer, after what was there. -/
def Terminal.frameBuffer (s : Terminal) (v : Vesa) (font : UInt8 → ℕ → UInt8) (mem : Memory.Mem) :
    Memory.Mem :=
  (s.pixels font).foldl (setPixel v) mem

/-- The expansions of the formats are printed. -/
lemma kprintCalls_eq (calls : List (List Piece))
    (hnonneg : ∀ pieces ∈ calls, ∀ v, .d v ∈ pieces → 0 ≤ v) (s : Terminal) :
    kprintCalls calls s = some ((calls.flatMap expansion).foldl putchar s) := by
  induction calls generalizing s with
  | nil => rfl
  | cons pieces calls ih =>
      obtain ⟨hfirst, hrest⟩ := List.forall_mem_cons.mp hnonneg
      have hemitted : pieces.flatMap Piece.emitted = expansion pieces :=
        List.flatMap_congr fun p hp => emitted_eq_expansion p fun v hd => hfirst v (hd ▸ hp)
      rw [kprintCalls, List.foldlM_cons, kprintVS_format, hemitted, List.flatMap_cons,
        List.foldl_append]
      exact ih hrest _

lemma colours_putGlyph (s : Terminal) (c : UInt8) : (putGlyph s c).terminalFG = s.terminalFG ∧
    (putGlyph s c).terminalBG = s.terminalBG := by
  unfold Seaweed.putGlyph
  dsimp only
  split_ifs <;> exact ⟨rfl, rfl⟩

/-- No character changes the colours. -/
lemma colours_putchar (s : Terminal) (c : UInt8) : (putchar s c).terminalFG = s.terminalFG ∧
    (putchar s c).terminalBG = s.terminalBG := by
  have hspaces : ∀ n, (putSpaces s n).terminalFG = s.terminalFG ∧
      (putSpaces s n).terminalBG = s.terminalBG := by
    intro n
    induction n with
    | zero => exact ⟨rfl, rfl⟩
    | succ n ih =>
        obtain ⟨hfg, hbg⟩ := colours_putGlyph (putSpaces s n) SPACE
        rw [putSpaces_succ, hfg, hbg]
        exact ih
  unfold putchar
  split_ifs with hnewline htab hback
  · exact ⟨rfl, rfl⟩
  · exact hspaces TABSIZE
  · dsimp only
    split_ifs
    · exact ⟨rfl, rfl⟩
    · exact colours_putGlyph _ _
    · exact colours_putGlyph _ _
  · exact colours_putGlyph _ _

/-- A text changes neither the colours nor the size. -/
lemma text_keeps (s : Terminal) (cs : List UInt8) : (cs.foldl putchar s).terminalFG = s.terminalFG ∧
    (cs.foldl putchar s).terminalBG = s.terminalBG ∧ (cs.foldl putchar s).width = s.width ∧
    (cs.foldl putchar s).height = s.height := by
  induction cs generalizing s with
  | nil => exact ⟨rfl, rfl, rfl, rfl⟩
  | cons c cs ih =>
      obtain ⟨hfg, hbg⟩ := colours_putchar s c
      obtain ⟨hwidth, hheight⟩ := size_putchar s c
      rw [List.foldl_cons, ← hfg, ← hbg, ← hwidth, ← hheight]
      exact ih _

/-- The terminal as `bootMain` sets it up for a screen. -/
def Vesa.terminal (v : Vesa) (fg bg : UInt32) (referenceColumn : ℕ → UInt32) : Terminal :=
  initVESAtext fg bg v.width.toUInt64 v.height.toUInt64 referenceColumn

lemma toNat_toUInt32 (w : UInt16) : w.toUInt64.toUInt32.toNat = w.toNat := by
  have hw := w.toNat_lt
  rw [UInt64.toNat_toUInt32, UInt16.toNat_toUInt64]
  omega

lemma shows_terminal (v : Vesa) (fg bg : UInt32) (referenceColumn : ℕ → UInt32) {cols rows : ℕ}
    (hcols : 0 < cols) (hrows : 0 < rows) (hwidth : v.width.toNat = 8 * cols)
    (hheight : v.height.toNat = 8 * rows) :
    Shows (v.terminal fg bg referenceColumn) (TextGrid.empty UInt8 cols rows hcols hrows) where
  width := (toNat_toUInt32 v.width).trans hwidth
  height := (toNat_toUInt32 v.height).trans hheight
  row := rfl
  column := rfl
  cells := fun _ _ _ _ => rfl
  drawn := fun _ hcell => absurd hcell List.not_mem_nil

/-- **What the screen shows.**  After any calls of `kprintVS` with no negative argument for a `%d`,
and no character that leads off the screen, each pixel of the frame buffer is that of the character
at its place in the text, and where there is none it is as it was before. -/
theorem kprintVS_shows (v : Vesa) (font : UInt8 → ℕ → UInt8) (mem : Memory.Mem) (fg bg : UInt32)
    (referenceColumn : ℕ → UInt32) (calls : List (List Piece)) (cols rows : ℕ) (hcols : 0 < cols)
    (hrows : 0 < rows) (hshows : v.Shows v.width.toNat) (hwidth : v.width.toNat = 8 * cols)
    (hheight : v.height.toNat = 8 * rows) (hnonneg : ∀ pieces ∈ calls, ∀ v, .d v ∈ pieces → 0 ≤ v)
    (hok : Replays CursorOk putchar (v.terminal fg bg referenceColumn) (calls.flatMap expansion)) :
    ∃ s, kprintCalls calls (v.terminal fg bg referenceColumn) = some s ∧
      ∀ x y : UInt16, x < v.width → y < v.height →
        grabColour v (s.frameBuffer v font mem) x y =
          match ((calls.flatMap expansion).foldl typeChar
            (TextGrid.empty UInt8 cols rows hcols hrows)).cells (x.toNat / 8) (y.toNat / 8) with
          | some c => glyphColour font fg bg c (y.toNat % 8) (x.toNat % 8)
          | none => grabColour v mem x y := by
  refine ⟨_, kprintCalls_eq calls hnonneg _, fun x y hx hy => ?_⟩
  rw [UInt16.lt_iff_toNat_lt] at hx hy
  have htext := shows_text
    (shows_terminal v fg bg referenceColumn hcols hrows hwidth hheight) hok
  obtain ⟨hfg, hbg, hw, hh⟩ :=
    text_keeps (v.terminal fg bg referenceColumn) (calls.flatMap expansion)
  have hlines := htext.width
  have hcolumns := htext.height
  rw [hw, show (v.terminal fg bg referenceColumn).width.toNat = _ from toNat_toUInt32 v.width]
    at hlines
  rw [hh, show (v.terminal fg bg referenceColumn).height.toNat = _ from toNat_toUInt32 v.height]
    at hcolumns
  have hvw := v.width.toNat_lt
  have hvh := v.height.toNat_lt
  have hpixels : ∀ p ∈ ((calls.flatMap expansion).foldl putchar
      (v.terminal fg bg referenceColumn)).pixels font, p.x.toNat < v.width.toNat := by
    intro p hp
    obtain ⟨cell, hcell, hp⟩ := List.mem_flatMap.mp hp
    obtain ⟨col, row, c, hcol, hrow, rfl⟩ := htext.drawn cell (List.mem_reverse.mp hcell)
    have hX : (cellAt ((calls.flatMap expansion).foldl putchar (v.terminal fg bg referenceColumn))
        col row c).x.toNat = 8 * col := toNat_ofNat_of_lt (by omega)
    have hY : (cellAt ((calls.flatMap expansion).foldl putchar (v.terminal fg bg referenceColumn))
        col row c).y.toNat = 8 * row := toNat_ofNat_of_lt (by omega)
    have hplace := (mem_renderChar hX hY (by omega) (by omega)).mp hp
    omega
  rw [Terminal.frameBuffer, grabColour_foldl hshows mem _ hpixels hx,
    htext.lastColour_eq ⟨by omega, by omega⟩ (by omega) (by omega), hfg, hbg]
  cases ((calls.flatMap expansion).foldl typeChar
    (TextGrid.empty UInt8 cols rows hcols hrows)).cells (x.toNat / 8) (y.toNat / 8) <;> rfl

/-- `Hi` on one line and `!` on the next. -/
def hiCalls : List (List Piece) :=
  [[.s ⟨[72, 105], by simp⟩, .literal NEWLINE (by decide)], [.literal 33 (by decide)]]

/-- In a font whose lines are the codes of the characters, line 2 of the `!` has its first pixel
set, and the cell next to it is as it was. -/
theorem kprintVS_shows_hi : ∃ s, kprintCalls hiCalls (bmpScreen.terminal 0xffffffff 0 fun _ => 0) =
      some s ∧
    grabColour bmpScreen (s.frameBuffer bmpScreen (fun c _ => c) fun _ => 7) 0 10 = 0xffffffff ∧
    grabColour bmpScreen (s.frameBuffer bmpScreen (fun c _ => c) fun _ => 7) 8 10 = 0x07070707 := by
  obtain ⟨s, hs, hpixel⟩ := kprintVS_shows bmpScreen (fun c _ => c) (fun _ => 7) 0xffffffff 0
    (fun _ => 0) hiCalls 128 96 (by decide) (by decide) ⟨rfl, by decide⟩ rfl rfl
    (by simp [hiCalls]) (by decide)
  refine ⟨s, hs, (hpixel 0 10 (by decide) (by decide)).trans ?_,
    (hpixel 8 10 (by decide) (by decide)).trans ?_⟩ <;> decide

end Seaweed
