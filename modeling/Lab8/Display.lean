/-
  `sprites.sv`, `display_letters.sv`, `Color_Mapper.sv`: from the scan position to a colour.

  The sprite modules register a ROM word at every Clk and have no Reset.  `display_letters` is one
  `if`/`else if` chain over 25 boxes of 8x16 pixels; every branch is the same up to its box, its
  character code and which of the three text flags it raises, so the chain is the list `glyphs`
  searched in source order.  (The stand-alone `if` in front of the chain assigns nothing that the
  chain, whose `else` is complete, does not assign again.)  `color_mapper` is a priority cascade.
-/
import Lab8.Ball
import Lab8.Tables

namespace Lab8

/-! ## Sprites -/

/-- `pac_man_cut_data_out`, `red_evil_data_out`, `green_evil_data_out`, `blue_evil_data_out`. -/
structure SpriteRegs where
  pacManCutDataOut : BitVec 24
  redEvilDataOut : BitVec 24
  greenEvilDataOut : BitVec 24
  blueEvilDataOut : BitVec 24
  deriving Inhabited

/-- The word `pac_man_cut` registers: left and down have a ROM each, right and up read the same two
    at the rotated address, anything else shows the closed mouth. -/
def pacManCut (T : Tables) (direction : Direction) (address special : BitVec 10) : BitVec 24 :=
  if direction = 0b000 then T.pacManLeftMem address
  else if direction = 0b001 then T.pacManDownMem address
  else if direction = 0b010 then T.pacManLeftMem special
  else if direction = 0b011 then T.pacManDownMem special
  else T.pacManFMem address

/-! ## Text -/

/-- The three flags a box can raise: score line, title, game over. -/
inductive TextKind where
  | scoreLetters
  | zoom
  | gameOver
  deriving DecidableEq, Repr

/-- One branch of the chain: an 8x16 box and the character drawn in it. -/
structure Glyph where
  kind : TextKind
  x : Nat
  y : Nat
  code : Nat
  deriving DecidableEq, Repr

/-- `score_tens_digit`: an 8-bit character code. -/
def scoreTensDigit (score : BitVec 8) : BitVec 8 := score / 10 + 0x30

/-- `score_unit_digit`: an 8-bit character code. -/
def scoreUnitDigit (score : BitVec 8) : BitVec 8 := score % 10 + 0x30

/-- `score_x_S + 8*i`, `score_y_S`. -/
def scoreGlyph (i code : Nat) : Glyph := ⟨.scoreLetters, 290 + 8 * i, 360, code⟩

/-- `score_x_P + 8*i`, `score_y_P`. -/
def titleGlyph (i code : Nat) : Glyph := ⟨.zoom, 310 + 8 * i, 380, code⟩

/-- `score_x_G + 8*i`, `score_y_G`. -/
def gameOverGlyph (i code : Nat) : Glyph := ⟨.gameOver, 300 + 8 * i, 420, code⟩

/-- The branches of the chain, in source order. -/
def glyphs (score : BitVec 8) : List Glyph :=
  [scoreGlyph 0 0x53, scoreGlyph 1 0x43, scoreGlyph 2 0x4f, scoreGlyph 3 0x52, scoreGlyph 4 0x45,
   scoreGlyph 5 0x10, scoreGlyph 6 (scoreTensDigit score).toNat,
   scoreGlyph 7 (scoreUnitDigit score).toNat, scoreGlyph 8 0x30, scoreGlyph 9 0x30,
   scoreGlyph 10 0x30,
   titleGlyph 0 0x50, titleGlyph 1 0x41, titleGlyph 2 0x43, titleGlyph 4 0x4D, titleGlyph 5 0x41,
   titleGlyph 6 0x4e,
   gameOverGlyph 0 0x47, gameOverGlyph 1 0x41, gameOverGlyph 2 0x4d, gameOverGlyph 3 0x45,
   gameOverGlyph 5 0x4f, gameOverGlyph 6 0x56, gameOverGlyph 7 0x45, gameOverGlyph 8 0x52]

/-- The condition of a branch. -/
def Glyph.covers (g : Glyph) (drawX drawY : BitVec 10) : Bool :=
  decide (g.x ≤ drawX.toNat) && decide (drawX.toNat < g.x + 8) &&
    decide (g.y ≤ drawY.toNat) && decide (drawY.toNat < g.y + 16)

/-- The outputs of `display_letters`. -/
structure Letters where
  isScoreAllLetters : Bool
  isZoom : Bool
  isGameOver : Bool
  scoreAddr : BitVec 11
  scoreX : BitVec 11
  deriving DecidableEq, Repr

/-- The body of a branch: `score_addr = DrawY - y + 16*code`, a 32-bit sum cut to 11 bits. -/
def Glyph.letters (g : Glyph) (drawY : BitVec 10) : Letters where
  isScoreAllLetters := decide (g.kind = .scoreLetters)
  isZoom := decide (g.kind = .zoom)
  isGameOver := decide (g.kind = .gameOver)
  scoreAddr := BitVec.ofInt 11 ((drawY.toNat : Int) - g.y + 16 * g.code)
  scoreX := BitVec.ofNat 11 g.x

/-- `display_letters`. -/
def displayLetters (score : BitVec 8) (drawX drawY : BitVec 10) : Letters :=
  match (glyphs score).find? (fun g => g.covers drawX drawY) with
  | some g => g.letters drawY
  | none => ⟨false, false, false, 0, 0⟩

/-- `text_data[score_x - DrawX]`: the index is an 11-bit difference, so a negative one wraps and
    selects outside the 8-bit row. -/
def textBit (T : Tables) (textData : BitVec 8) (scoreX : BitVec 11) (drawX : BitVec 10) : Bool :=
  let index := scoreX - drawX.setWidth 11
  if index.toNat < 8 then textData.getLsbD index.toNat else T.textOut textData index

/-! ## Colour -/

/-- The inputs of `color_mapper` other than the sprite words and the pixel. -/
structure PixelFlags where
  isBall : Bool
  isRedEvil : Bool
  isGreenEvil : Bool
  isBlueEvil : Bool
  isWall : Bool
  isFood : Bool
  collision : Bool

/-- `color_mapper`: `{Red, Green, Blue}` as one 24-bit word. -/
def colorMapper (T : Tables) (p : PixelFlags) (s : SpriteRegs) (l : Letters) (textData : BitVec 8)
    (drawX drawY : BitVec 10) : BitVec 24 :=
  if p.isBall then s.pacManCutDataOut
  else if p.isRedEvil then s.redEvilDataOut
  else if p.isGreenEvil then s.greenEvilDataOut
  else if p.isBlueEvil then s.blueEvilDataOut
  else if p.isWall && decide (drawY < 352) then 0x0000ff
  else if p.isFood == false && decide (drawY < 352) then 0xffffff
  else if l.isScoreAllLetters && textBit T textData l.scoreX drawX then 0xffffff
  else if l.isZoom && textBit T textData l.scoreX drawX then 0xffff00
  else if l.isGameOver && textBit T textData l.scoreX drawX && p.collision then 0xff0000
  else 0x000000

end Lab8
