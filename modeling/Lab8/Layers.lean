/-
  The layers of the picture do not overlap.

  `color_mapper` is a cascade: a sprite hides a wall, a wall hides a pellet, and all of them hide the
  text.  Maze safety speaks of the exported positions, but a sprite is drawn at the position
  REGISTER, one motion behind.

  1. `Board.Stands` — the boxes at the registers cover open cells only: a register is loaded with the
     exported position of a Clk before, or with the starting place.
  2. `Board.Stands.open_of_sprite` — so a pixel of a sprite lies on an open cell of the maze.
  3. `layers_apart` — hence every wall pixel is blue, and what is shown below the maze depends on the
     score, the flags and the font alone.
-/
import Lab8.Align

namespace Lab8

variable {δ : Type}

/-! ## Boxes at the registers -/

/-- The box at the position register covers open cells only. -/
def Piece.Stands (p : Piece δ) : Prop := BoxClear p.ballXPos.toNat p.ballYPos.toNat

/-- The four boxes that are drawn. -/
structure Board.Stands (b : Board) : Prop where
  pacMan : b.pacMan.toPiece.Stands
  redEvil : b.redEvil.toPiece.Stands
  greenEvil : b.greenEvil.toPiece.Stands
  blueEvil : b.blueEvil.toPiece.Stands

/-- A safe piece without motion stands where it is exported. -/
theorem Piece.Safe.stands_of_rest {p : Piece δ} (hs : p.Safe) (hr : p.AtRest) : p.Stands := by
  have hclear := hs.clear
  rw [Piece.AtRest, Piece.posOut, Piece.pos, Prod.mk.injEq] at hr
  rw [hr.1, hr.2] at hclear
  exact hclear

/-- A tick with Reset low loads the exported position or nothing. -/
theorem Mover.ghostClk_stands {m : Mover δ} (hsafe : m.toPiece.Safe) (hs : m.toPiece.Stands)
    (center : BitVec 10 × BitVec 10) (d₀ : δ) (stop frameClk : Bool) (next : Heading δ) :
    (m.ghostClk center d₀ false stop frameClk next).toPiece.Stands := by
  rcases m.ghostClk_cases center d₀ stop frameClk next with ⟨_, h⟩ | ⟨_, _, h⟩ | ⟨_, _, h⟩
  · rw [h]; exact hsafe.clear
  · rw [h]; exact hsafe.clear
  · rw [h]; exact hs

theorem Board.Stands.reset (T : Tables) {i : ClkIn} (b : Board) (hr : i.reset = true) :
    (b.clk T i).Stands := by
  have hsafe := Board.Safe.reset T b hr
  have ha := b.clk_actors_reset T hr
  refine ⟨hsafe.pacMan.stands_of_rest ?_, hsafe.redEvil.stands_of_rest ?_,
    hsafe.greenEvil.stands_of_rest ?_, hsafe.blueEvil.stands_of_rest ?_⟩
  · rw [show (b.clk T i).pacMan.toPiece = Actors.center.pacMan from congrArg Actors.pacMan ha]
    rfl
  · rw [show (b.clk T i).redEvil.toPiece = Actors.center.redEvil from congrArg Actors.redEvil ha]
    rfl
  · rw [show (b.clk T i).greenEvil.toPiece = Actors.center.greenEvil from
      congrArg Actors.greenEvil ha]
    rfl
  · rw [show (b.clk T i).blueEvil.toPiece = Actors.center.blueEvil from congrArg Actors.blueEvil ha]
    rfl

/-- **The step**, Reset or not. -/
theorem Board.Stands.clk {b : Board} (h : b.Stands) (hs : b.Safe) (T : Tables) (i : ClkIn) :
    (b.clk T i).Stands := by
  cases hr : i.reset with
  | true => exact Board.Stands.reset T b hr
  | false =>
    refine ⟨?_, ?_, ?_, ?_⟩
    · show (b.pacMan.pacManClk _ _ i.reset _ _).toPiece.Stands
      rw [Mover.pacManClk_eq, hr]
      exact Mover.ghostClk_stands hs.pacMan h.pacMan _ _ _ _ _
    · show (b.redEvil.ghostClk _ _ i.reset _ _ _).toPiece.Stands
      rw [hr]
      exact Mover.ghostClk_stands hs.redEvil h.redEvil _ _ _ _ _
    · show (b.greenEvil.ghostClk _ _ i.reset _ _ _).toPiece.Stands
      rw [hr]
      exact Mover.ghostClk_stands hs.greenEvil h.greenEvil _ _ _ _ _
    · show (b.blueEvil.ghostClk _ _ i.reset _ _ _).toPiece.Stands
      rw [hr]
      exact Mover.ghostClk_stands hs.blueEvil h.blueEvil _ _ _ _ _

/-- Every state of a run that starts with Reset, later Resets included. -/
theorem stands_run (T : Tables) (b : Board) {i : ClkIn} (hi : i.reset = true) (ins : Nat → ClkIn)
    (n : Nat) : (Clocked.run (Board.clk T) ins (b.clk T i) n).Stands := by
  induction n with
  | zero => exact Board.Stands.reset T b hi
  | succ n ih => exact ih.clk (safe_run T b hi ins n) T (ins n)

/-! ## A pixel of a sprite -/

/-- A pixel of the box lies on an open cell. -/
theorem Piece.Stands.open_of_isBall {p : Piece δ} (h : p.Stands) {drawX drawY : BitVec 10}
    (hp : isBall drawX drawY p = true) : isOpen (drawY.toNat / 32) (drawX.toNat / 32) = true := by
  rw [isBall, onSprite_iff] at hp
  simp only [Piece.pos] at hp
  exact h drawX.toNat drawY.toNat (by omega) (by omega) (by omega) (by omega)

/-- The pixel is in the box of one of the four pieces. -/
def Actors.covers (drawX drawY : BitVec 10) (a : Actors) : Bool :=
  isBall drawX drawY a.pacMan || isBall drawX drawY a.redEvil || isBall drawX drawY a.greenEvil ||
    isBall drawX drawY a.blueEvil

theorem Actors.covers_eq_false {drawX drawY : BitVec 10} {a : Actors} :
    a.covers drawX drawY = false ↔ isBall drawX drawY a.pacMan = false ∧
      isBall drawX drawY a.redEvil = false ∧ isBall drawX drawY a.greenEvil = false ∧
      isBall drawX drawY a.blueEvil = false := by
  rw [Actors.covers, Bool.or_eq_false_iff, Bool.or_eq_false_iff, Bool.or_eq_false_iff, and_assoc,
    and_assoc]

/-- **A pixel of a sprite lies on an open cell.** -/
theorem Board.Stands.open_of_sprite {b : Board} (h : b.Stands) {drawX drawY : BitVec 10}
    (hp : b.actors.covers drawX drawY = true) :
    isOpen (drawY.toNat / 32) (drawX.toNat / 32) = true := by
  rw [Actors.covers, Bool.or_eq_true, Bool.or_eq_true, Bool.or_eq_true] at hp
  rcases hp with ((hp | hp) | hp) | hp
  · exact h.pacMan.open_of_isBall hp
  · exact h.redEvil.open_of_isBall hp
  · exact h.greenEvil.open_of_isBall hp
  · exact h.blueEvil.open_of_isBall hp

/-- The wall bit of a pixel in range, in a loaded board. -/
theorem Board.isWall_eq (T : Tables) {b : Board} (hw : b.wall = mazeTable) {drawX drawY : BitVec 10}
    (hx : drawX.toNat < 640) (hy : drawY.toNat < 480) :
    isWall (b.wallRead T) drawX drawY = !isOpen (drawY.toNat / 32) (drawX.toNat / 32) := by
  have hcell : ∀ z : BitVec 10, (z >>> 5).toNat = z.toNat / 32 := by
    intro z
    rw [BitVec.toNat_ushiftRight, Nat.shiftRight_eq_div_pow]
  rw [isWall, hcell, hcell, Board.wallRead, hw]
  exact mazeWall_eq T (by omega) (by omega)

/-! ## The text -/

/-- What is shown below the maze: a lit pixel of a box has the colour of its text, GAME OVER only
    with a flag up. -/
def textPixel (T : Tables) (score : BitVec 8) (collision : Bool) (drawX drawY : BitVec 10) :
    BitVec 24 :=
  match (glyphs score).find? (fun g => g.covers drawX drawY) with
  | some g =>
    if textBit T (g.row T drawY) (BitVec.ofNat 11 g.x) drawX &&
        (collision || decide (g.kind ≠ .gameOver)) then g.kind.color
    else 0x000000
  | none => 0x000000

/-- **`color_mapper` below the maze**, with no sprite on the pixel. -/
theorem colorMapper_below (T : Tables) {p : PixelFlags} (s : SpriteRegs) (score : BitVec 8)
    (drawX : BitVec 10) {drawY : BitVec 10} (hball : p.isBall = false) (hred : p.isRedEvil = false)
    (hgreen : p.isGreenEvil = false) (hblue : p.isBlueEvil = false) (hy : 352 ≤ drawY.toNat) :
    colorMapper T p s (displayLetters score drawX drawY)
        (T.fontRom (displayLetters score drawX drawY).scoreAddr) drawX drawY =
      textPixel T score p.collision drawX drawY := by
  have hlow : decide (drawY < 352) = false := by
    apply decide_eq_false
    rw [BitVec.lt_def]
    exact Nat.not_lt.mpr hy
  unfold colorMapper textPixel displayLetters
  rw [hball, hred, hgreen, hblue, hlow, Bool.and_false, Bool.and_false]
  cases hf : (glyphs score).find? (fun g => g.covers drawX drawY) with
  | none => rfl
  | some g =>
    -- the row of the box is the one at `score_addr`
    have hmem := List.mem_of_find?_eq_some hf
    have hin : g.covers drawX drawY = true :=
      List.find?_some (p := fun g : Glyph => g.covers drawX drawY) hf
    have haddr := Glyph.scoreAddr_toNat (glyphs_bounds score g hmem).2.2.2
      ((g.covers_iff drawX drawY).mp hin).2
    have hrow : T.fontRom (g.letters drawY).scoreAddr = g.row T drawY := by
      rw [Glyph.row, ← haddr, BitVec.ofNat_toNat, BitVec.setWidth_eq]
    simp only [hrow]
    unfold Glyph.letters
    generalize textBit T (g.row T drawY) (BitVec.ofNat 11 g.x) drawX = lit
    cases hk : g.kind with
    | scoreLetters => cases lit <;> cases p.collision <;> rfl
    | zoom => cases lit <;> cases p.collision <;> rfl
    | gameOver => cases lit <;> cases p.collision <;> rfl

/-! ## The layers -/

/-- With no sprite on the pixel a wall is blue. -/
theorem Design.rgb_wall {T : Tables} {d : Design} (hw : d.board.wall = mazeTable)
    (hs : d.board.actors.covers d.vga.hCounter d.vga.vCounter = false)
    (hx : d.vga.hCounter.toNat < 640) (hy : d.vga.vCounter.toNat < 352)
    (hwall : isOpen (d.vga.vCounter.toNat / 32) (d.vga.hCounter.toNat / 32) = false) :
    d.rgb T = 0x0000ff := by
  obtain ⟨hball, hred, hgreen, hblue⟩ := Actors.covers_eq_false.mp hs
  have hrow : decide (d.vga.vCounter < 352) = true := decide_eq_true hy
  have hbit := Board.isWall_eq T hw hx (by omega : d.vga.vCounter.toNat < 480)
  rw [hwall] at hbit
  unfold Design.rgb colorMapper
  simp only [hball, hred, hgreen, hblue, hbit, hrow, Bool.false_eq_true, if_false, Bool.not_false,
    Bool.and_self, if_true]

/-- With no sprite on the pixel the text is shown as it is. -/
theorem Design.rgb_below {T : Tables} {d : Design}
    (hs : d.board.actors.covers d.vga.hCounter d.vga.vCounter = false)
    (hy : 352 ≤ d.vga.vCounter.toNat) : d.rgb T =
      textPixel T d.board.food.score d.board.actors.collision d.vga.hCounter d.vga.vCounter := by
  obtain ⟨hball, hred, hgreen, hblue⟩ := Actors.covers_eq_false.mp hs
  exact colorMapper_below T _ _ _ hball hred hgreen hblue hy

/-- **The layers do not overlap.**  In every run of the design that starts with Reset, for any keys
    and any later Resets, at every Clk with the scan on `(x, y)`:
    (1) if a sprite is drawn there, the pixel lies on an open cell of the maze;
    (2) on a pixel of a wall cell the colour is that of the walls;
    (3) below the maze the colour is that of the text, whatever the actors do. -/
theorem layers_apart (T : Tables) (d : Design) (i : DesignIn) (hi : i.reset = true)
    (ins : Nat → DesignIn) (n : Nat) :
    let s := Clocked.run (Design.clk T) ins (d.clk T i) n
    let x := s.vga.hCounter
    let y := s.vga.vCounter
    (s.board.actors.covers x y = true → isOpen (y.toNat / 32) (x.toNat / 32) = true) ∧
    (x.toNat < 640 → y.toNat < 352 → mazeBit (y.toNat / 32) (x.toNat / 32) = true →
      s.rgb T = 0x0000ff) ∧
    (352 ≤ y.toNat → s.rgb T = textPixel T s.board.food.score s.board.actors.collision x y) := by
  intro s x y
  have hboard : s.board = Clocked.run (Board.clk T)
      (fun k => (Clocked.run (Design.clk T) ins (d.clk T i) k).clkIn (ins k))
      (d.board.clk T (d.clkIn i)) n := Design.board_run T (d.clk T i) ins n
  have hsafe : s.board.Safe := by
    rw [hboard]
    exact safe_run T d.board (i := d.clkIn i) hi _ n
  have hstands : s.board.Stands := by
    rw [hboard]
    exact stands_run T d.board (i := d.clkIn i) hi _ n
  refine ⟨hstands.open_of_sprite, ?_, ?_⟩
  · intro hx hy hwall
    have hclosed : isOpen (y.toNat / 32) (x.toNat / 32) = false := by
      rw [isOpen, hwall, Bool.not_true, Bool.and_false, Bool.and_false]
    refine Design.rgb_wall hsafe.wall ?_ hx hy hclosed
    cases hs : s.board.actors.covers x y with
    | false => rfl
    | true => exact absurd (hclosed.symm.trans (hstands.open_of_sprite hs)) Bool.false_ne_true
  · intro hy
    refine Design.rgb_below ?_ hy
    cases hs : s.board.actors.covers x y with
    | false => rfl
    | true =>
      -- open cells end at row 9
      have hrow := isOpen_interior (hstands.open_of_sprite hs)
      omega

/-- Three Clks after Reset, in the wall above the maze. -/
theorem layers_apart_three :
    (Clocked.run (Design.clk .shipped) (fun _ => ⟨false, 0x1A⟩)
      (Design.clk .shipped ⟨true, 0⟩ default) 3).rgb .shipped = 0x0000ff :=
  (layers_apart .shipped default ⟨true, 0⟩ rfl (fun _ => ⟨false, 0x1A⟩) 3).2.1 (by decide)
    (by decide) (by decide)

end Lab8
