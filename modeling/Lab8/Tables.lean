/-
  The memories that `$readmemh` fills and nothing writes afterwards.

  `Tables` gathers them: the pellet map and score that Reset restores (`food_temp`, `score_temp`),
  the sprite ROMs and the font ROM.  The sprite memories have 676 words behind a 10-bit address;
  they are functions of the whole address, and what they return past word 675 is left open, as the
  language leaves it.  The three `…Out` fields say the same of the wall array, of the pellet map
  and of a bit select on a font row.  Every theorem holds for all values of all of them.
-/

namespace Lab8

/-- The constant tables, and what reads outside an array return. -/
structure Tables where
  /-- `food_temp`: `false` is a pellet, `true` is none. -/
  foodTemp : Fin 220 → Bool
  /-- `score_temp[0]`. -/
  scoreTemp : BitVec 8
  pacManLeftMem : BitVec 10 → BitVec 24
  pacManDownMem : BitVec 10 → BitVec 24
  pacManFMem : BitVec 10 → BitVec 24
  redEvilMem : BitVec 10 → BitVec 24
  greenEvilMem : BitVec 10 → BitVec 24
  blueEvilMem : BitVec 10 → BitVec 24
  /-- `ROM` of `font_rom`: 128 glyphs of 16 rows. -/
  fontRom : BitVec 11 → BitVec 8
  /-- `wall[row][col]` outside the 15x20 array. -/
  wallOut : Int → Int → Bool
  /-- `food[address]` from address 220 on. -/
  foodOut : Nat → Bool
  /-- `text_data[i]` for an 11-bit index from 8 on. -/
  textOut : BitVec 8 → BitVec 11 → Bool
  deriving Inhabited

/-! ## The shipped pellet map -/

/-- `sprite_bytes/food.txt`, twenty words a row. -/
def foodTxtRows : List (List Nat) :=
  [[1, 1, 1, 1, 1, 1, 1, 1, 1, 1, 1, 1, 1, 1, 1, 1, 1, 1, 1, 1],
   [1, 0, 0, 0, 0, 1, 0, 0, 0, 0, 0, 0, 0, 0, 1, 0, 0, 0, 0, 1],
   [1, 0, 1, 1, 0, 1, 0, 1, 1, 1, 1, 1, 1, 0, 1, 0, 1, 1, 0, 1],
   [1, 0, 1, 0, 0, 0, 0, 0, 0, 0, 0, 0, 0, 0, 0, 0, 0, 1, 0, 1],
   [1, 0, 1, 0, 1, 1, 0, 1, 1, 1, 1, 1, 1, 0, 1, 1, 0, 1, 0, 1],
   [1, 0, 0, 0, 0, 0, 0, 1, 1, 1, 1, 1, 1, 0, 0, 0, 0, 0, 0, 1],
   [1, 0, 1, 0, 1, 1, 0, 1, 1, 1, 1, 1, 1, 0, 1, 1, 0, 1, 0, 1],
   [1, 0, 1, 1, 1, 1, 1, 1, 1, 1, 1, 1, 1, 1, 1, 1, 1, 1, 0, 1],
   [1, 0, 1, 1, 0, 1, 0, 1, 1, 1, 1, 1, 1, 0, 1, 0, 1, 1, 0, 1],
   [1, 0, 0, 0, 0, 1, 0, 0, 0, 0, 0, 0, 0, 0, 1, 0, 0, 0, 0, 1],
   [1, 1, 1, 1, 1, 1, 1, 1, 1, 1, 1, 1, 1, 1, 1, 1, 1, 1, 1, 1]]

/-- The pellet map `$readmemh` loads into `food` and `food_temp`. -/
def foodTxt : Fin 220 → Bool := fun i => (foodTxtRows.getD (i.val / 20) []).getD (i.val % 20) 1 == 1

/-- `sprite_bytes/score.txt` starts with `00`. -/
def scoreTxt : BitVec 8 := 0

/-- Tables with the shipped pellet map and score; sprites and font are left blank. -/
def Tables.shipped : Tables := { (default : Tables) with foodTemp := foodTxt, scoreTemp := scoreTxt }

end Lab8
