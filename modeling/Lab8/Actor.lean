/-
  The registers that `ball.sv`, `red_evil.sv`, `green_evil.sv` and `blue_evil.sv` have in common.

  Each of the four modules keeps a 10-bit position and a 10-bit motion per axis, three of them a
  3-bit `current_direction`, and each its own one-register edge detector on `frame_clk`.  The
  combinational half of a module computes `Ball_X_Pos_in = Ball_X_Pos + Ball_X_Motion` and the next
  motion and direction; what it exports as `*_X_Pos_out` is that SUM, not the register.

  The three layers below follow how much of this a definition needs:

  * `Heading δ` — motion and direction (`δ = BitVec 3`, or `Unit` for Blue, which has none);
  * `Piece δ`   — heading and position: all that the combinational logic reads;
  * `Mover δ`   — a piece and the edge detector: the whole register file of one module.
-/

namespace Lab8

/-! ## Registers -/

/-- `Ball_X_Motion`, `Ball_Y_Motion` and `current_direction`.  The same shape is used for their
    next values `Ball_X_Motion_in`, `Ball_Y_Motion_in` and `previous_direction`. -/
structure Heading (δ : Type) where
  ballXMotion : BitVec 10
  ballYMotion : BitVec 10
  currentDirection : δ
  deriving DecidableEq, Repr, Inhabited

/-- A heading together with `Ball_X_Pos` and `Ball_Y_Pos`. -/
structure Piece (δ : Type) extends Heading δ where
  ballXPos : BitVec 10
  ballYPos : BitVec 10
  deriving DecidableEq, Repr, Inhabited

/-- A piece together with `frame_clk_delayed`. -/
structure Mover (δ : Type) extends Piece δ where
  frameClkDelayed : Bool
  deriving DecidableEq, Repr, Inhabited

/-- The directions `3'b000`, `3'b001`, `3'b010`, `3'b011` (left, down, right, up) and `3'b111`. -/
abbrev Direction := BitVec 3

/-! ## Parameters -/

/-- `Ball_X_Step` and `Ball_Y_Step`. -/
def ballStep : BitVec 10 := 1

/-- `Ball_X_Step_inv` and `Ball_Y_Step_inv`: `~step + 1`. -/
def ballStepInv : BitVec 10 := ~~~ballStep + 1

/-- `Ball_Size`. -/
def ballSize : Int := 26

/-- An `int` difference of two 10-bit signals: the operands are widened to 32 bits before the
    subtraction, so nothing wraps and the sign is the true one. -/
def intDiff (a b : BitVec 10) : Int := (a.toNat : Int) - (b.toNat : Int)

variable {δ : Type}

/-! ## The combinational position -/

/-- `Ball_X_Pos_in`, which the module also exports as its `X_Pos_out`. -/
def Piece.ballXPosIn (p : Piece δ) : BitVec 10 := p.ballXPos + p.ballXMotion

/-- `Ball_Y_Pos_in`, which the module also exports as its `Y_Pos_out`. -/
def Piece.ballYPosIn (p : Piece δ) : BitVec 10 := p.ballYPos + p.ballYMotion

/-- The exported pair `(X_Pos_out, Y_Pos_out)`. -/
def Piece.posOut (p : Piece δ) : BitVec 10 × BitVec 10 := (p.ballXPosIn, p.ballYPosIn)

/-- The position registers. -/
def Piece.pos (p : Piece δ) : BitVec 10 × BitVec 10 := (p.ballXPos, p.ballYPos)

/-- The update `Ball_X_Pos <= Ball_X_Pos_in; …; current_direction <= previous_direction`. -/
def Piece.advance (p : Piece δ) (h : Heading δ) : Piece δ :=
  { h with ballXPos := p.ballXPosIn, ballYPos := p.ballYPosIn }

@[simp] theorem Piece.advance_pos (p : Piece δ) (h : Heading δ) :
    (p.advance h).pos = p.posOut := rfl

/-- A piece that stops keeps its exported position: the motion it loses is already applied. -/
theorem Piece.advance_stop (p : Piece δ) (d : δ) : (p.advance ⟨0, 0, d⟩).posOut = p.posOut := by
  simp [Piece.posOut, Piece.advance, Piece.ballXPosIn, Piece.ballYPosIn]

/-! ## The sequential half -/

/-- `frame_clk_rising_edge`. -/
def Mover.frameClkRisingEdge (frameClk : Bool) (m : Mover δ) : Bool :=
  frameClk && !m.frameClkDelayed

/-- The `always_ff` blocks of the three ghost modules.  `stop` is the branch they have and
    `pac_man` lacks: while another ghost's collision flag is up they move and halt on EVERY tick,
    edge or not. -/
def Mover.ghostClk (center : BitVec 10 × BitVec 10) (d₀ : δ) (reset stop frameClk : Bool)
    (next : Heading δ) (m : Mover δ) : Mover δ :=
  { (if reset then ⟨⟨0, 0, d₀⟩, center.1, center.2⟩
     else if stop then m.toPiece.advance ⟨0, 0, d₀⟩
     else if m.frameClkRisingEdge frameClk then m.toPiece.advance next
     else m.toPiece : Piece δ) with
    frameClkDelayed := frameClk }

/-- The `always_ff` blocks of `pac_man`. -/
def Mover.pacManClk (center : BitVec 10 × BitVec 10) (d₀ : δ) (reset frameClk : Bool)
    (next : Heading δ) (m : Mover δ) : Mover δ :=
  { (if reset then ⟨⟨0, 0, d₀⟩, center.1, center.2⟩
     else if m.frameClkRisingEdge frameClk then m.toPiece.advance next
     else m.toPiece : Piece δ) with
    frameClkDelayed := frameClk }

/-- `pac_man` clocks like a ghost that is never stopped, so facts about `ghostClk` cover it. -/
theorem Mover.pacManClk_eq (center : BitVec 10 × BitVec 10) (d₀ : δ) (reset frameClk : Bool)
    (next : Heading δ) (m : Mover δ) :
    m.pacManClk center d₀ reset frameClk next = m.ghostClk center d₀ reset false frameClk next := by
  simp [Mover.pacManClk, Mover.ghostClk]

@[simp] theorem Mover.ghostClk_reset (center : BitVec 10 × BitVec 10) (d₀ : δ)
    (stop frameClk : Bool) (next : Heading δ) (m : Mover δ) :
    (m.ghostClk center d₀ true stop frameClk next).toPiece = ⟨⟨0, 0, d₀⟩, center.1, center.2⟩ := rfl

/-- **What a tick can do to a piece** while Reset is low: halt it, move it, or nothing. -/
theorem Mover.ghostClk_cases (center : BitVec 10 × BitVec 10) (d₀ : δ) (stop frameClk : Bool)
    (next : Heading δ) (m : Mover δ) :
    (stop = true ∧ (m.ghostClk center d₀ false stop frameClk next).toPiece
        = m.toPiece.advance ⟨0, 0, d₀⟩) ∨
    (stop = false ∧ m.frameClkRisingEdge frameClk = true ∧
      (m.ghostClk center d₀ false stop frameClk next).toPiece = m.toPiece.advance next) ∨
    (stop = false ∧ m.frameClkRisingEdge frameClk = false ∧
      (m.ghostClk center d₀ false stop frameClk next).toPiece = m.toPiece) := by
  cases hs : stop with
  | true => exact Or.inl ⟨rfl, rfl⟩
  | false =>
    cases he : m.frameClkRisingEdge frameClk with
    | true => exact Or.inr (Or.inl ⟨rfl, rfl, by simp [Mover.ghostClk, he]⟩)
    | false => exact Or.inr (Or.inr ⟨rfl, rfl, by simp [Mover.ghostClk, he]⟩)

end Lab8
