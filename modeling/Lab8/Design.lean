/-
  `lab8.sv`: the composition of the game modules and the scan.

  * `Actors` — the four pieces.  All combinational logic between the modules (exported positions,
    collision flags, sensors, next headings) is a function of the pieces and the wall array.
  * `Board`  — everything clocked by Clk, driven by `ClkIn`: Reset, the key, `frame_clk` and the
    scan position are inputs of this level, so a fact about a board run holds for ANY scan.
  * `Design` — the board with `VGA_controller`, which ticks on the rising edges of `VGA_CLK`: a
    25 MHz clock in phase with the 50 MHz Clk, low at every second Clk.
-/
import Lab8.Ball
import Lab8.Evil
import Lab8.Food
import Lab8.Vga
import Lab8.Display

namespace Lab8

/-! ## The four actors -/

/-- The pieces of Pac-Man and the three ghosts. -/
structure Actors where
  pacMan : Piece Direction
  redEvil : Piece Direction
  greenEvil : Piece Direction
  blueEvil : Piece Unit
  deriving DecidableEq, Repr

/-- The pieces Reset loads. -/
def Actors.center : Actors where
  pacMan := ⟨⟨0, 0, 0b111⟩, pacManCenter.1, pacManCenter.2⟩
  redEvil := ⟨⟨0, 0, 0b111⟩, redEvilCenter.1, redEvilCenter.2⟩
  greenEvil := ⟨⟨0, 0, 0b111⟩, greenEvilCenter.1, greenEvilCenter.2⟩
  blueEvil := ⟨⟨0, 0, ()⟩, blueEvilCenter.1, blueEvilCenter.2⟩

/-- `is_collision_red`. -/
def Actors.isCollisionRed (a : Actors) : Bool := collides a.redEvil.posOut a.pacMan.posOut

/-- `is_collision_green`. -/
def Actors.isCollisionGreen (a : Actors) : Bool := collides a.greenEvil.posOut a.pacMan.posOut

/-- `is_collision_blue`. -/
def Actors.isCollisionBlue (a : Actors) : Bool := collidesBlue a.blueEvil.posOut a.pacMan.posOut

/-- At least one collision flag is up. -/
def Actors.collision (a : Actors) : Bool :=
  a.isCollisionRed || a.isCollisionBlue || a.isCollisionGreen

/-- The sensors of a piece, at its exported position. -/
def Piece.sensor {δ : Type} (wall : Int → Int → Bool) (p : Piece δ) : Sensor :=
  sense wall p.ballXPosIn p.ballYPosIn

/-- Next motion and direction of `pac_man`. -/
def Actors.pacManIn (wall : Int → Int → Bool) (key : BitVec 8) (a : Actors) : Heading Direction :=
  pacManHeading key (a.pacMan.sensor wall) a.collision a.pacMan.toHeading

/-- Next motion and direction of `red_evil_move`. -/
def Actors.redEvilIn (wall : Int → Int → Bool) (a : Actors) : Heading Direction :=
  redEvilHeading (a.redEvil.sensor wall) a.isCollisionRed a.redEvil.toHeading

/-- Next motion and direction of `green_evil_move`. -/
def Actors.greenEvilIn (wall : Int → Int → Bool) (a : Actors) : Heading Direction :=
  greenEvilHeading (a.greenEvil.sensor wall) a.isCollisionGreen a.greenEvil.toHeading

/-- Next motion of `blue_evil_move`. -/
def Actors.blueEvilIn (wall : Int → Int → Bool) (a : Actors) : Heading Unit :=
  blueEvilHeading (a.blueEvil.sensor wall) a.isCollisionBlue
    (intDiff a.blueEvil.ballXPosIn a.pacMan.ballXPosIn)
    (intDiff a.blueEvil.ballYPosIn a.pacMan.ballYPosIn) a.blueEvil.toHeading

/-! ## The board: everything on Clk -/

/-- What a Clk tick samples from outside the board. -/
structure ClkIn where
  reset : Bool
  key : BitVec 8
  frameClk : Bool
  drawX : BitVec 10
  drawY : BitVec 10

/-- The registers clocked by Clk. -/
structure Board where
  pacMan : Mover Direction
  redEvil : Mover Direction
  greenEvil : Mover Direction
  blueEvil : Mover Unit
  wall : WallArr
  food : FoodRegs
  sprites : SpriteRegs
  deriving Inhabited

/-- The four pieces of a board. -/
def Board.actors (b : Board) : Actors where
  pacMan := b.pacMan.toPiece
  redEvil := b.redEvil.toPiece
  greenEvil := b.greenEvil.toPiece
  blueEvil := b.blueEvil.toPiece

/-- `wall[row][col]` of a board. -/
def Board.wallRead (T : Tables) (b : Board) : Int → Int → Bool := Lab8.wallRead T.wallOut b.wall

/-- What the four sprite modules register. -/
def Actors.spriteWords (T : Tables) (drawX drawY : BitVec 10) (a : Actors) : SpriteRegs where
  pacManCutDataOut := pacManCut T a.pacMan.currentDirection (readAddress drawX drawY a.pacMan.pos)
    (readAddressSpecial drawX drawY a.pacMan.pos)
  redEvilDataOut := T.redEvilMem (readAddress drawX drawY a.redEvil.pos)
  greenEvilDataOut := T.greenEvilMem (readAddress drawX drawY a.greenEvil.pos)
  blueEvilDataOut := T.blueEvilMem (readAddress drawX drawY a.blueEvil.pos)

/-- One rising edge of Clk. -/
def Board.clk (T : Tables) (i : ClkIn) (b : Board) : Board where
  pacMan := b.pacMan.pacManClk pacManCenter 0b111 i.reset i.frameClk
    (b.actors.pacManIn (b.wallRead T) i.key)
  redEvil := b.redEvil.ghostClk redEvilCenter 0b111 i.reset
    (b.actors.isCollisionGreen || b.actors.isCollisionBlue) i.frameClk
    (b.actors.redEvilIn (b.wallRead T))
  greenEvil := b.greenEvil.ghostClk greenEvilCenter 0b111 i.reset
    (b.actors.isCollisionBlue || b.actors.isCollisionRed) i.frameClk
    (b.actors.greenEvilIn (b.wallRead T))
  blueEvil := b.blueEvil.ghostClk blueEvilCenter () i.reset
    (b.actors.isCollisionGreen || b.actors.isCollisionRed) i.frameClk
    (b.actors.blueEvilIn (b.wallRead T))
  wall := mazeTable
  food := b.food.clk T i.reset (isBall i.drawX i.drawY b.actors.pacMan) i.drawX i.drawY
    b.actors.pacMan.ballXPosIn b.actors.pacMan.ballYPosIn
  sprites := b.actors.spriteWords T i.drawX i.drawY

/-! ## The whole design -/

/-- What the environment drives: `Reset_h` and the keycode PIO. -/
structure DesignIn where
  reset : Bool
  key : BitVec 8

/-- The board, the scan, and the level of `VGA_CLK`. -/
structure Design where
  board : Board
  vga : VgaRegs
  vgaClk : Bool
  deriving Inhabited

/-- The board's inputs: `frame_clk` is `VGA_VS`, the scan position is the pair of counters. -/
def Design.clkIn (i : DesignIn) (d : Design) : ClkIn :=
  ⟨i.reset, i.key, d.vga.vgaVs, d.vga.hCounter, d.vga.vCounter⟩

/-- One rising edge of Clk.  When it finds `VGA_CLK` low, `VGA_CLK` rises with it. -/
def Design.clk (T : Tables) (i : DesignIn) (d : Design) : Design where
  board := d.board.clk T (d.clkIn i)
  vga := if d.vgaClk then d.vga else d.vga.clk i.reset
  vgaClk := !d.vgaClk

/-- `{VGA_R, VGA_G, VGA_B}`. -/
def Design.rgb (T : Tables) (d : Design) : BitVec 24 :=
  let a := d.board.actors
  let l := displayLetters d.board.food.score d.vga.hCounter d.vga.vCounter
  colorMapper T
    { isBall := isBall d.vga.hCounter d.vga.vCounter a.pacMan
      isRedEvil := isBall d.vga.hCounter d.vga.vCounter a.redEvil
      isGreenEvil := isBall d.vga.hCounter d.vga.vCounter a.greenEvil
      isBlueEvil := isBall d.vga.hCounter d.vga.vCounter a.blueEvil
      isWall := isWall (d.board.wallRead T) d.vga.hCounter d.vga.vCounter
      isFood := d.board.food.isFood
      collision := a.collision }
    d.board.sprites l (T.fontRom l.scoreAddr) d.vga.hCounter d.vga.vCounter

end Lab8
