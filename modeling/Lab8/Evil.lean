/-
  `red_evil.sv`, `green_evil.sv`, `blue_evil.sv`: the combinational halves of the three ghosts.

  Each module raises its own collision flag when its exported position and Pac-Man's differ by less
  than 7 on both axes, and then stops itself.  Otherwise it steers by its wall sensors:

  * Red keeps its direction while it is open, else tries the two sides in a fixed order; while its
    direction is `3'b111` it starts upwards WITHOUT looking at a sensor;
  * Green tries up, right, down, left and skips only the reverse of its direction;
  * Blue has no direction: it tries the sides that lead towards Pac-Man, then any open side.

  When no branch fires the old motion and direction are kept.
-/
import Lab8.Wall

namespace Lab8

/-- `Ball_X_Center`, `Ball_Y_Center` of `red_evil_move`. -/
def redEvilCenter : BitVec 10 × BitVec 10 := (320 - 16 - 16, 240 - 16 - 64)

/-- `Ball_X_Center`, `Ball_Y_Center` of `green_evil_move`. -/
def greenEvilCenter : BitVec 10 × BitVec 10 := (320 - 16 + 16 + 32, 240 - 16 - 64)

/-- `Ball_X_Center`, `Ball_Y_Center` of `blue_evil_move`. -/
def blueEvilCenter : BitVec 10 × BitVec 10 := (320 - 16 + 16, 240 - 16 - 64)

/-! ## Collision -/

/-- `(Diff_X < 7) && (Diff_Y < 7) && (Diff_X > -7) && (Diff_Y > -7)`. -/
def withinSeven (diffX diffY : Int) : Bool :=
  decide (diffX < 7) && decide (diffY < 7) && decide (diffX > -7) && decide (diffY > -7)

/-- `is_collision_red` and `is_collision_green`, of the ghost's and Pac-Man's exported positions. -/
def collides (ghost ball : BitVec 10 × BitVec 10) : Bool :=
  withinSeven (intDiff ghost.1 ball.1) (intDiff ghost.2 ball.2)

/-- `is_collision_blue`: its condition has one more, redundant, disjunct. -/
def collidesBlue (ghost ball : BitVec 10 × BitVec 10) : Bool :=
  (intDiff ghost.1 ball.1 == 0 && intDiff ghost.2 ball.2 == 0) ||
    withinSeven (intDiff ghost.1 ball.1) (intDiff ghost.2 ball.2)

theorem withinSeven_iff (dx dy : Int) :
    withinSeven dx dy = true ↔ (-7 < dx ∧ dx < 7) ∧ (-7 < dy ∧ dy < 7) := by
  simp only [withinSeven, Bool.and_eq_true, decide_eq_true_eq]
  omega

/-- The extra disjunct of Blue's test changes nothing. -/
theorem collidesBlue_eq (ghost ball : BitVec 10 × BitVec 10) :
    collidesBlue ghost ball = collides ghost ball := by
  rw [Bool.eq_iff_iff, collidesBlue, collides, Bool.or_eq_true, withinSeven_iff, Bool.and_eq_true,
    beq_iff_eq, beq_iff_eq]
  omega

/-! ## Red -/

/-- `red_evil_move`: next motion and direction. -/
def redEvilHeading (w : Sensor) (isCollisionRed : Bool) (h : Heading Direction) :
    Heading Direction :=
  if isCollisionRed then ⟨0, 0, h.currentDirection⟩
  else if h.currentDirection = 0b111 then ⟨0, ballStepInv, 0b011⟩
  else if h.currentDirection = 0b001 ∧ w.insideBlock = true then
    if w.isWallDown ≠ true then ⟨0, ballStep, 0b001⟩
    else if w.isWallRight ≠ true then ⟨ballStep, 0, 0b010⟩
    else if w.isWallLeft ≠ true then ⟨ballStepInv, 0, 0b000⟩
    else h
  else if h.currentDirection = 0b000 ∧ w.insideBlock = true then
    if w.isWallLeft ≠ true then ⟨ballStepInv, 0, 0b000⟩
    else if w.isWallDown ≠ true then ⟨0, ballStep, 0b001⟩
    else if w.isWallUp ≠ true then ⟨0, ballStepInv, 0b011⟩
    else h
  else if h.currentDirection = 0b010 ∧ w.insideBlock = true then
    if w.isWallRight ≠ true then ⟨ballStep, 0, 0b010⟩
    else if w.isWallDown ≠ true then ⟨0, ballStep, 0b001⟩
    else if w.isWallUp ≠ true then ⟨0, ballStepInv, 0b011⟩
    else h
  else if h.currentDirection = 0b011 ∧ w.insideBlock = true then
    if w.isWallUp ≠ true then ⟨0, ballStepInv, 0b011⟩
    else if w.isWallRight ≠ true then ⟨ballStep, 0, 0b010⟩
    else if w.isWallLeft ≠ true then ⟨ballStepInv, 0, 0b000⟩
    else h
  else h

/-! ## Green -/

/-- `green_evil_move`: next motion and direction. -/
def greenEvilHeading (w : Sensor) (isCollisionGreen : Bool) (h : Heading Direction) :
    Heading Direction :=
  if isCollisionGreen then ⟨0, 0, h.currentDirection⟩
  else if w.insideBlock = true ∧ w.isWallUp ≠ true ∧ h.currentDirection = 0b111 then
    ⟨0, ballStepInv, 0b011⟩
  else if w.insideBlock = true ∧ w.isWallUp ≠ true ∧ h.currentDirection ≠ 0b001 then
    ⟨0, ballStepInv, 0b011⟩
  else if w.insideBlock = true ∧ w.isWallRight ≠ true ∧ h.currentDirection ≠ 0b000 then
    ⟨ballStep, 0, 0b010⟩
  else if w.insideBlock = true ∧ w.isWallDown ≠ true ∧ h.currentDirection ≠ 0b011 then
    ⟨0, ballStep, 0b001⟩
  else if w.insideBlock = true ∧ w.isWallLeft ≠ true ∧ h.currentDirection ≠ 0b010 then
    ⟨ballStepInv, 0, 0b000⟩
  else h

/-! ## Blue -/

/-- `blue_evil_move`: next motion.  `diffX`, `diffY` are `Diff_X`, `Diff_Y`. -/
def blueEvilHeading (w : Sensor) (isCollisionBlue : Bool) (diffX diffY : Int) (h : Heading Unit) :
    Heading Unit :=
  if isCollisionBlue then ⟨0, 0, ()⟩
  else if w.insideBlock = true ∧ w.isWallRight ≠ true ∧ diffX < 0 then ⟨ballStep, 0, ()⟩
  else if w.insideBlock = true ∧ w.isWallLeft ≠ true ∧ diffX > 0 then ⟨ballStepInv, 0, ()⟩
  else if w.insideBlock = true ∧ w.isWallDown ≠ true ∧ diffY < 0 then ⟨0, ballStep, ()⟩
  else if w.insideBlock = true ∧ w.isWallUp ≠ true ∧ diffY > 0 then ⟨0, ballStepInv, ()⟩
  else if w.insideBlock = true ∧ w.isWallUp ≠ true then ⟨0, ballStepInv, ()⟩
  else if w.insideBlock = true ∧ w.isWallDown ≠ true then ⟨0, ballStep, ()⟩
  else if w.insideBlock = true ∧ w.isWallRight ≠ true then ⟨ballStep, 0, ()⟩
  else if w.insideBlock = true ∧ w.isWallLeft ≠ true then ⟨ballStepInv, 0, ()⟩
  else h

end Lab8
