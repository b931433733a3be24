/-
  Boxes and lanes: the geometry of a 26x26 box in a maze of 32x32 cells.

  An actor is safe where its box covers open cells only (`BoxClear`).  A unit step keeps a clear box
  clear in two situations, and `Permits` names them:

  * the box is inside one cell and the neighbour cell it steps towards is open;
  * the box lies across two cells and the step runs along them.

  In both the offset ACROSS the step is at most 6, so the box never straddles a cell corner.  Two
  facts about the table itself come from running through its 300 cells: open cells are interior
  (`maze_interior`), and every open cell keeps an open neighbour when any one side is forbidden
  (`maze_no_dead_end`).
-/
import Lab8.Wall
import Lab8.Tables

namespace Lab8

/-! ## Open cells -/

/-- Cell `(row, col)` exists and its wall bit is 0. -/
def isOpen (row col : Nat) : Bool := decide (row < 15) && (decide (col < 20) && !mazeBit row col)

/-- Open cells are away from the border of the array. -/
theorem maze_interior : ∀ row < 15, ∀ col < 20, isOpen row col = true →
    1 ≤ row ∧ row ≤ 9 ∧ 1 ≤ col ∧ col ≤ 18 := by decide

/-- **No dead ends**: an open cell has two open neighbours at least, so one is left when any one
    side is forbidden. -/
theorem maze_no_dead_end : ∀ row < 15, ∀ col < 20, isOpen row col = true →
    (isOpen row (col - 1) || isOpen row (col + 1) || isOpen (row - 1) col) &&
    (isOpen row (col - 1) || isOpen row (col + 1) || isOpen (row + 1) col) &&
    (isOpen row (col - 1) || isOpen (row - 1) col || isOpen (row + 1) col) &&
    (isOpen row (col + 1) || isOpen (row - 1) col || isOpen (row + 1) col) = true := by decide

theorem isOpen_lt {row col : Nat} (h : isOpen row col = true) : row < 15 ∧ col < 20 := by
  simp only [isOpen, Bool.and_eq_true, decide_eq_true_eq] at h
  exact ⟨h.1, h.2.1⟩

theorem isOpen_interior {row col : Nat} (h : isOpen row col = true) :
    1 ≤ row ∧ row ≤ 9 ∧ 1 ≤ col ∧ col ≤ 18 :=
  maze_interior row (isOpen_lt h).1 col (isOpen_lt h).2 h

/-- The sensors' view of the loaded maze. -/
def mazeWall (T : Tables) : Int → Int → Bool := wallRead T.wallOut mazeTable

/-- The wall bit of a cell in range, as read through the loaded array. -/
theorem mazeWall_eq (T : Tables) {row col : Nat} (hr : row < 15) (hc : col < 20) :
    mazeWall T row col = !isOpen row col := by
  rw [mazeWall, wallRead_maze T.wallOut hr hc]
  simp [isOpen, hr, hc]

/-! ## Clear boxes -/

/-- Every pixel of the box at `(x, y)` lies on an open cell. -/
def BoxClear (x y : Nat) : Prop :=
  ∀ px py, x ≤ px → px ≤ x + 25 → y ≤ py → py ≤ y + 25 → isOpen (py / 32) (px / 32) = true

/-- The corner of a clear box is on an interior cell, so the box is far from both ends of a 10-bit
    coordinate. -/
theorem BoxClear.interior {x y : Nat} (h : BoxClear x y) :
    1 ≤ y / 32 ∧ (y + 25) / 32 ≤ 9 ∧ 1 ≤ x / 32 ∧ (x + 25) / 32 ≤ 18 := by
  have h1 := isOpen_interior (h x y (by omega) (by omega) (by omega) (by omega))
  have h2 := isOpen_interior (h (x + 25) (y + 25) (by omega) (by omega) (by omega) (by omega))
  omega

theorem BoxClear.corner {x y : Nat} (h : BoxClear x y) : isOpen (y / 32) (x / 32) = true :=
  h x y (Nat.le_refl x) (by omega) (Nat.le_refl y) (by omega)

/-- A step to the left. -/
theorem BoxClear.left {x y : Nat} (h : BoxClear x y) (hy : y % 32 ≤ 6)
    (hopen : x % 32 ≤ 6 → isOpen (y / 32) (x / 32 - 1) = true) : BoxClear (x - 1) y := by
  intro px py h1 h2 h3 h4
  rcases Nat.lt_or_ge px x with hlt | hge
  · have hpy : py / 32 = y / 32 := by omega
    -- the new column of pixels is in the same cell, unless the box stood at offset 0
    by_cases h0 : x % 32 = 0
    · have hpx : px / 32 = x / 32 - 1 := by have := h.interior; omega
      rw [hpy, hpx]; exact hopen (by omega)
    · have hpx : px / 32 = x / 32 := by omega
      rw [hpy, hpx]; exact h.corner
  · exact h px py hge (by omega) h3 h4

/-- A step to the right. -/
theorem BoxClear.right {x y : Nat} (h : BoxClear x y) (hy : y % 32 ≤ 6)
    (hopen : x % 32 ≤ 6 → isOpen (y / 32) (x / 32 + 1) = true) : BoxClear (x + 1) y := by
  intro px py h1 h2 h3 h4
  rcases Nat.lt_or_ge px (x + 26) with hlt | hge
  · exact h px py (by omega) (by omega) h3 h4
  · have hpy : py / 32 = y / 32 := by omega
    by_cases h6 : x % 32 = 6
    · have hpx : px / 32 = x / 32 + 1 := by omega
      rw [hpy, hpx]; exact hopen (by omega)
    · have hpx : px / 32 = (x + 25) / 32 := by omega
      rw [hpx]; exact h (x + 25) py (by omega) (by omega) h3 h4

/-- A step up. -/
theorem BoxClear.up {x y : Nat} (h : BoxClear x y) (hx : x % 32 ≤ 6)
    (hopen : y % 32 ≤ 6 → isOpen (y / 32 - 1) (x / 32) = true) : BoxClear x (y - 1) := by
  intro px py h1 h2 h3 h4
  rcases Nat.lt_or_ge py y with hlt | hge
  · have hpx : px / 32 = x / 32 := by omega
    by_cases h0 : y % 32 = 0
    · have hpy : py / 32 = y / 32 - 1 := by have := h.interior; omega
      rw [hpy, hpx]; exact hopen (by omega)
    · have hpy : py / 32 = y / 32 := by omega
      rw [hpy, hpx]; exact h.corner
  · exact h px py h1 h2 hge (by omega)

/-- A step down. -/
theorem BoxClear.down {x y : Nat} (h : BoxClear x y) (hx : x % 32 ≤ 6)
    (hopen : y % 32 ≤ 6 → isOpen (y / 32 + 1) (x / 32) = true) : BoxClear x (y + 1) := by
  intro px py h1 h2 h3 h4
  rcases Nat.lt_or_ge py (y + 26) with hlt | hge
  · exact h px py h1 h2 (by omega) (by omega)
  · have hpx : px / 32 = x / 32 := by omega
    by_cases h6 : y % 32 = 6
    · have hpy : py / 32 = y / 32 + 1 := by omega
      rw [hpy, hpx]; exact hopen (by omega)
    · have hpy : py / 32 = (y + 25) / 32 := by omega
      rw [hpy]; exact h px (y + 25) h1 h2 (by omega) (by omega)

end Lab8
