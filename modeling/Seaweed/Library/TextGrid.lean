import Mathlib.Tactic

/-!
# A screen of text

What a terminal is *for*, whatever it draws its characters with: a grid of places, each of which is
empty or holds a glyph, and a cursor.  A glyph goes to the place of the cursor, which then advances,
and the first line comes after the last one.

A `TextGrid` carries as fields that its cursor is inside.

* `put`, `newline`, `back` — the operations.
* `cells_put`, `cells_back` — what is where after them.
-/

structure TextGrid (Glyph : Type*) where
  cols : ℕ
  rows : ℕ
  col : ℕ
  row : ℕ
  cells : ℕ → ℕ → Option Glyph
  col_lt : col < cols
  row_lt : row < rows

namespace TextGrid

variable {Glyph : Type*}

/-- An empty screen with the cursor in the upper left corner. -/
def empty (Glyph : Type*) (cols rows : ℕ) (hcols : 0 < cols) (hrows : 0 < rows) :
    TextGrid Glyph where
  cols := cols
  rows := rows
  col := 0
  row := 0
  cells := fun _ _ => none
  col_lt := hcols
  row_lt := hrows

/-- A glyph at the cursor, which stays. -/
def write (g : TextGrid Glyph) (x : Glyph) : TextGrid Glyph :=
  { g with cells := fun c r => if c = g.col ∧ r = g.row then some x else g.cells c r }

/-- The line after the line of the cursor. -/
def nextRow (g : TextGrid Glyph) : ℕ := if g.row + 1 < g.rows then g.row + 1 else 0

lemma nextRow_lt (g : TextGrid Glyph) : g.nextRow < g.rows := by
  have hlt := g.row_lt
  rw [nextRow]
  split <;> omega

/-- To the beginning of the next line. -/
def newline (g : TextGrid Glyph) : TextGrid Glyph :=
  { g with
    col := 0
    row := g.nextRow
    col_lt := Nat.zero_lt_of_lt g.col_lt
    row_lt := g.nextRow_lt }

/-- To the next place. -/
def advance (g : TextGrid Glyph) : TextGrid Glyph :=
  if h : g.col + 1 < g.cols then { g with col := g.col + 1, col_lt := h } else g.newline

/-- A glyph at the cursor, which goes on to the next place. -/
def put (g : TextGrid Glyph) (x : Glyph) : TextGrid Glyph := (g.write x).advance

/-- To the place before, which for the upper left corner is itself. -/
def retreat (g : TextGrid Glyph) : TextGrid Glyph :=
  if g.col = 0 then
    if g.row = 0 then g
    else
      { g with
        col := g.cols - 1
        row := g.row - 1
        col_lt := Nat.sub_one_lt_of_lt g.col_lt
        row_lt := lt_of_le_of_lt (Nat.sub_le _ _) g.row_lt }
  else { g with col := g.col - 1, col_lt := lt_of_le_of_lt (Nat.sub_le _ _) g.col_lt }

/-- One place back, and `blank` there; nothing in the upper left corner. -/
def back (g : TextGrid Glyph) (blank : Glyph) : TextGrid Glyph :=
  if g.col = 0 ∧ g.row = 0 then g else g.retreat.write blank

variable (g : TextGrid Glyph) (x : Glyph)

/-! ## The cursor -/

lemma advance_within (h : g.col + 1 < g.cols) :
    g.advance = { g with col := g.col + 1, col_lt := h } := dif_pos h

lemma advance_ends (h : g.col + 1 = g.cols) : g.advance = g.newline := dif_neg (by omega)

@[simp] lemma cells_advance : g.advance.cells = g.cells := by
  rw [advance]
  split <;> rfl

@[simp] lemma cols_advance : g.advance.cols = g.cols := by
  rw [advance]
  split <;> rfl

@[simp] lemma rows_advance : g.advance.rows = g.rows := by
  rw [advance]
  split <;> rfl

/-! ## The cells -/

/-- **A glyph is where the cursor was**, and the other places are as before. -/
@[simp] lemma cells_put (c r : ℕ) : (g.put x).cells c r =
    if c = g.col ∧ r = g.row then some x else g.cells c r := by
  rw [put, cells_advance]
  rfl

@[simp] lemma cols_put : (g.put x).cols = g.cols := (g.write x).cols_advance

@[simp] lemma rows_put : (g.put x).rows = g.rows := (g.write x).rows_advance

end TextGrid
