/-
  `wall.sv`: the maze table and the wall sensors of the four actors.

  `reg [19:0] wall[0:14]` is rewritten with the same constants at every Clk, so after one tick it
  holds `mazeTable` whatever it held before.  The four `always_comb` blocks (Pac-Man, Blue, Red,
  Green) are one block with the actor's exported position as its parameter: `sense`.

  A sensor looks at the four neighbour cells only when the 26x26 box lies inside one 32x32 cell;
  otherwise all four wall bits read 1 and `inside_block` reads 0.
-/
import Lab8.Actor

namespace Lab8

/-! ## The array -/

/-- `reg [19:0] wall[0:14]`: bit `col` of word `row`. -/
abbrev WallArr := Fin 15 → Fin 20 → Bool

/-- Columns of row `row` named in the `if` of that row's `for` loop. -/
def wallListed (row i : Nat) : Bool :=
  match row with
  | 1 => i == 0 || i == 5 || i == 14 || i == 19
  | 2 => i == 1 || i == 4 || i == 6 || i == 13 || i == 15 || i == 18
  | 3 => i == 0 || i == 2 || i == 17 || i == 19
  | 4 => i == 1 || i == 3 || i == 6 || i == 8 || i == 9 || i == 10 || i == 11 || i == 13 ||
      i == 16 || i == 18
  | 5 => i == 0 || i == 7 || i == 12 || i == 19
  | 6 => i == 1 || i == 3 || i == 6 || i == 13 || i == 16 || i == 18
  | 7 => i == 0 || i == 2 || i == 17 || i == 19
  | 8 => i == 1 || i == 4 || i == 6 || i == 13 || i == 15 || i == 18
  | 9 => i == 0 || i == 5 || i == 14 || i == 19
  | _ => false

/-- The value the `always_ff` block loads: odd rows list their wall columns, even rows from 2 to 8
    their open ones, and rows 0 and 10 to 14 are solid. -/
def mazeBit (row i : Nat) : Bool :=
  match row with
  | 1 | 3 | 5 | 7 | 9 => wallListed row i
  | 2 | 4 | 6 | 8 => !wallListed row i
  | _ => true

/-- The whole array after a Clk. -/
def mazeTable : WallArr := fun row i => mazeBit row.val i.val

/-- `wall[row][col]` for `int` indices.  `out` is what a read outside the array returns: the
    language leaves it `x`, so the model leaves it open. -/
def wallRead (out : Int → Int → Bool) (w : WallArr) (row col : Int) : Bool :=
  if h : 0 ≤ row ∧ row < 15 ∧ 0 ≤ col ∧ col < 20 then
    w ⟨row.toNat, by omega⟩ ⟨col.toNat, by omega⟩
  else out row col

theorem wallRead_in (out : Int → Int → Bool) (w : WallArr) {row col : Nat} (hr : row < 15)
    (hc : col < 20) : wallRead out w row col = w ⟨row, hr⟩ ⟨col, hc⟩ := by
  rw [wallRead, dif_pos (by omega)]
  rfl

/-- A read of the loaded array, inside its range. -/
theorem wallRead_maze (out : Int → Int → Bool) {row col : Nat} (hr : row < 15) (hc : col < 20) :
    wallRead out mazeTable row col = mazeBit row col := wallRead_in out mazeTable hr hc

/-! ## The sensors -/

/-- `is_wall_up`, `is_wall_down`, `is_wall_right`, `is_wall_left` and `inside_block`. -/
structure Sensor where
  isWallUp : Bool
  isWallDown : Bool
  isWallRight : Bool
  isWallLeft : Bool
  insideBlock : Bool
  deriving DecidableEq, Repr

/-- `X_coordinate` and `Y_coordinate`. -/
def coordinate (z : BitVec 10) : Int := (z.toNat : Int) / 32

/-- `X_end` and `Y_end`: the sum is an `int`, it does not wrap at 10 bits. -/
def coordinateEnd (z : BitVec 10) : Int := ((z.toNat : Int) + 25) / 32

/-- The box at `(x, y)` lies inside one cell. -/
def inside (x y : BitVec 10) : Bool :=
  coordinate x - coordinateEnd x == 0 && coordinate y - coordinateEnd y == 0

/-- One `always_comb` block of `wall`, at an actor's exported position. -/
def sense (wall : Int → Int → Bool) (x y : BitVec 10) : Sensor :=
  if inside x y then
    { insideBlock := true
      isWallUp := wall (coordinate y - 1) (coordinate x)
      isWallDown := wall (coordinate y + 1) (coordinate x)
      isWallRight := wall (coordinate y) (coordinate x + 1)
      isWallLeft := wall (coordinate y) (coordinate x - 1) }
  else ⟨true, true, true, true, false⟩

theorem sense_outside {wall : Int → Int → Bool} {x y : BitVec 10} (h : inside x y = false) :
    sense wall x y = ⟨true, true, true, true, false⟩ := by
  rw [sense, h, if_neg Bool.false_ne_true]

/-- The box is inside one cell exactly when both offsets in the cell are at most 6. -/
theorem inside_iff (x y : BitVec 10) :
    inside x y = true ↔ x.toNat % 32 ≤ 6 ∧ y.toNat % 32 ≤ 6 := by
  unfold inside coordinate coordinateEnd
  rw [Bool.and_eq_true, beq_iff_eq, beq_iff_eq]
  omega

/-- `is_wall = wall[DrawY>>5][DrawX>>5]`, the bit the color mapper draws. -/
def isWall (wall : Int → Int → Bool) (drawX drawY : BitVec 10) : Bool :=
  wall (drawY >>> 5).toNat (drawX >>> 5).toNat

end Lab8
