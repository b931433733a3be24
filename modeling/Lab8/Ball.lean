/-
  `ball.sv`, module `pac_man`: the combinational half of Pac-Man.

  The next motion and direction (`pacManHeading`) follow the order of assignments in the
  `always_comb` block: the defaults, then the collision branch, then the key cascade A/S/D/W, then
  the wall stop, which reads the direction the key cascade has just chosen.  The pixel half
  (`isBall`, the two read addresses) works on the position REGISTER, not on the exported sum.
-/
import Lab8.Wall

namespace Lab8

/-- `Ball_X_Center`, `Ball_Y_Center`. -/
def pacManCenter : BitVec 10 × BitVec 10 := (320, 224)

/-- The key cascade: a key is taken only if the neighbour cell on its side is open. -/
def pacManKey (key : BitVec 8) (w : Sensor) (h : Heading Direction) : Heading Direction :=
  if key = 0x04 ∧ w.isWallLeft ≠ true then ⟨ballStepInv, 0, 0b000⟩
  else if key = 0x16 ∧ w.isWallDown ≠ true then ⟨0, ballStep, 0b001⟩
  else if key = 0x07 ∧ w.isWallRight ≠ true then ⟨ballStep, 0, 0b010⟩
  else if key = 0x1A ∧ w.isWallUp ≠ true then ⟨0, ballStepInv, 0b011⟩
  else h

/-- The wall stop: inside a block, a wall ahead clears the motion of that axis. -/
def pacManStop (w : Sensor) (h : Heading Direction) : Heading Direction :=
  if h.currentDirection ≠ 0b111 ∧ w.insideBlock = true then
    if (h.currentDirection = 0b000 ∧ w.isWallLeft = true) ∨
        (h.currentDirection = 0b010 ∧ w.isWallRight = true) then
      { h with ballXMotion := 0 }
    else if (h.currentDirection = 0b011 ∧ w.isWallUp = true) ∨
        (h.currentDirection = 0b001 ∧ w.isWallDown = true) then
      { h with ballYMotion := 0 }
    else h
  else h

/-- `Ball_X_Motion_in`, `Ball_Y_Motion_in` and `previous_direction`.  `collision` is the
    disjunction of the three collision inputs. -/
def pacManHeading (key : BitVec 8) (w : Sensor) (collision : Bool) (h : Heading Direction) :
    Heading Direction :=
  if collision then ⟨0, 0, 0b111⟩ else pacManStop w (pacManKey key w h)

/-- The four accepted keys `A`, `S`, `D`, `W` as one statement: the heading is a unit step whose
    side is open, or it is the old one. -/
theorem pacManKey_cases (key : BitVec 8) (w : Sensor) (h : Heading Direction) :
    (w.isWallLeft = false ∧ pacManKey key w h = ⟨ballStepInv, 0, 0b000⟩) ∨
    (w.isWallDown = false ∧ pacManKey key w h = ⟨0, ballStep, 0b001⟩) ∨
    (w.isWallRight = false ∧ pacManKey key w h = ⟨ballStep, 0, 0b010⟩) ∨
    (w.isWallUp = false ∧ pacManKey key w h = ⟨0, ballStepInv, 0b011⟩) ∨
    pacManKey key w h = h := by
  unfold pacManKey
  split
  · rename_i hk; exact Or.inl ⟨by simpa using hk.2, rfl⟩
  · split
    · rename_i hk; exact Or.inr (Or.inl ⟨by simpa using hk.2, rfl⟩)
    · split
      · rename_i hk; exact Or.inr (Or.inr (Or.inl ⟨by simpa using hk.2, rfl⟩))
      · split
        · rename_i hk; exact Or.inr (Or.inr (Or.inr (Or.inl ⟨by simpa using hk.2, rfl⟩)))
        · exact Or.inr (Or.inr (Or.inr (Or.inr rfl)))

/-! ## Pixels -/

/-- `DistX` or `DistY`: the pixel coordinate relative to the position register. -/
def dist (draw pos : BitVec 10) : Int := intDiff draw pos

/-- The pixel lies in the 26x26 box at the position register (`is_ball`, `is_red_evil`, …). -/
def onSprite (drawX drawY : BitVec 10) (pos : BitVec 10 × BitVec 10) : Bool :=
  decide (0 ≤ dist drawX pos.1) && decide (dist drawX pos.1 < ballSize) &&
    decide (0 ≤ dist drawY pos.2) && decide (dist drawY pos.2 < ballSize)

/-- `pac_man_cut_read_address` and the read addresses of the ghosts: `DistY*Size + DistX`
    truncated to 10 bits, `0` off the sprite. -/
def readAddress (drawX drawY : BitVec 10) (pos : BitVec 10 × BitVec 10) : BitVec 10 :=
  if onSprite drawX drawY pos then
    BitVec.ofInt 10 (dist drawY pos.2 * ballSize + dist drawX pos.1)
  else 0

/-- `pac_man_full_read_address_special`: the rotated address. -/
def readAddressSpecial (drawX drawY : BitVec 10) (pos : BitVec 10 × BitVec 10) : BitVec 10 :=
  if onSprite drawX drawY pos then
    BitVec.ofInt 10
      ((ballSize - dist drawY pos.2) * ballSize + (ballSize - dist drawX pos.1))
  else 0

/-- `is_ball`; the same comparison also drives `is_food_eaten`. -/
def isBall (drawX drawY : BitVec 10) {δ : Type} (p : Piece δ) : Bool := onSprite drawX drawY p.pos

theorem onSprite_iff (drawX drawY : BitVec 10) (pos : BitVec 10 × BitVec 10) :
    onSprite drawX drawY pos = true ↔
      (pos.1.toNat ≤ drawX.toNat ∧ drawX.toNat < pos.1.toNat + 26) ∧
      (pos.2.toNat ≤ drawY.toNat ∧ drawY.toNat < pos.2.toNat + 26) := by
  rw [onSprite, Bool.and_eq_true, Bool.and_eq_true, Bool.and_eq_true, decide_eq_true_eq,
    decide_eq_true_eq, decide_eq_true_eq, decide_eq_true_eq]
  unfold dist intDiff ballSize
  omega

end Lab8
