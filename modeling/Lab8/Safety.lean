/-
  Maze safety: no actor ever leaves the open cells.

  `Board.Safe` puts the four piece invariants of `Lab8.Steering` together and adds what ties them to
  the rest of the board.  Red needs the most: it starts upwards WITHOUT looking at a sensor when its
  direction is `3'b111`.  That direction is found only at the start, where the cell above is open,
  or while another ghost's flag keeps Red halted (`Actors.RedKnows`), and such a flag never falls
  (`Board.clk_frozen`).  The invariant survives every tick, Reset or not, so it holds at every Clk
  of every run that starts with Reset.
-/
import Lab8.Steering
import Lab8.Frame

namespace Lab8

variable {δ : Type}

/-! ## The board invariant -/

/-- A piece at rest inside an open cell is safe. -/
theorem Piece.Safe.rest {x y : BitVec 10} (hin : inside x y = true)
    (ho : isOpen (y.toNat / 32) (x.toNat / 32) = true) (d : δ) :
    (⟨⟨0, 0, d⟩, x, y⟩ : Piece δ).Safe := by
  have h6 := (inside_iff x y).mp hin
  have hX : (⟨⟨0, 0, d⟩, x, y⟩ : Piece δ).ballXPosIn = x := add_stay x
  have hY : (⟨⟨0, 0, d⟩, x, y⟩ : Piece δ).ballYPosIn = y := add_stay y
  refine ⟨?_, fun _ => Permits.stay, (Permits.stay : Permits 0 0 0 0).unit, ?_, ?_⟩
  · rw [hX, hY]
    intro px py h1 h2 h3 h4
    rw [show py / 32 = y.toNat / 32 by omega, show px / 32 = x.toNat / 32 by omega]
    exact ho
  · rw [hX]; exact moves_stay x
  · rw [hY]; exact moves_stay y

/-- A tick with Reset low keeps a piece safe if its next heading is permitted. -/
theorem Mover.ghostClk_safe {m : Mover δ} (hs : m.toPiece.Safe) (center : BitVec 10 × BitVec 10)
    (d₀ : δ) (stop frameClk : Bool) {next : Heading δ}
    (hp : stop = false →
      Permits m.ballXPosIn.toNat m.ballYPosIn.toNat next.ballXMotion next.ballYMotion) :
    (m.ghostClk center d₀ false stop frameClk next).toPiece.Safe := by
  rcases m.ghostClk_cases center d₀ stop frameClk next with ⟨_, h⟩ | ⟨hstop, _, h⟩ | ⟨_, _, h⟩
  · rw [h]; exact hs.advance Permits.stay
  · rw [h]; exact hs.advance (hp hstop)
  · rw [h]; exact hs

/-- Where Red's direction may be `3'b111`: at its start, or while another ghost's flag is up. -/
def Actors.RedKnows (a : Actors) : Prop :=
  IsSide a.redEvil.currentDirection ∨
    (a.redEvil.currentDirection = 0b111 ∧
      (a.redEvil.posOut = redEvilCenter ∨ a.isCollisionGreen = true ∨ a.isCollisionBlue = true))

/-- **The invariant of a run.** -/
structure Board.Safe (b : Board) : Prop where
  wall : b.wall = mazeTable
  pacMan : b.pacMan.toPiece.Safe
  agrees : b.pacMan.toHeading.Agrees
  redEvil : b.redEvil.toPiece.Safe
  knows : b.actors.RedKnows
  greenEvil : b.greenEvil.toPiece.Safe
  blueEvil : b.blueEvil.toPiece.Safe

/-- What Reset loads is safe. -/
theorem Board.Safe.reset (T : Tables) {i : ClkIn} (b : Board) (hr : i.reset = true) :
    (b.clk T i).Safe := by
  have ha := b.clk_actors_reset T hr
  have hp : (b.clk T i).pacMan.toPiece = Actors.center.pacMan := congrArg Actors.pacMan ha
  have hR : (b.clk T i).redEvil.toPiece = Actors.center.redEvil := congrArg Actors.redEvil ha
  have hG : (b.clk T i).greenEvil.toPiece = Actors.center.greenEvil := congrArg Actors.greenEvil ha
  have hB : (b.clk T i).blueEvil.toPiece = Actors.center.blueEvil := congrArg Actors.blueEvil ha
  refine ⟨rfl, ?_, ?_, ?_, ?_, ?_, ?_⟩
  · rw [hp]; exact Piece.Safe.rest (by decide) (by decide) _
  · rw [hp]; exact Or.inr rfl
  · rw [hR]; exact Piece.Safe.rest (by decide) (by decide) _
  · rw [ha]; exact Or.inr ⟨rfl, Or.inl (by decide)⟩
  · rw [hG]; exact Piece.Safe.rest (by decide) (by decide) _
  · rw [hB]; exact Piece.Safe.rest (by decide) (by decide) _

/-- Red's next heading is permitted, and its direction is a side unless Red has hit Pac-Man at its
    starting place, when no other flag is up. -/
theorem Actors.redEvilIn_permits (T : Tables) {a : Actors} (hs : a.redEvil.Safe)
    (hk : a.RedKnows) (hgreen : a.isCollisionGreen = false) (hblue : a.isCollisionBlue = false) :
    Permits a.redEvil.ballXPosIn.toNat a.redEvil.ballYPosIn.toNat
      (a.redEvilIn (mazeWall T)).ballXMotion (a.redEvilIn (mazeWall T)).ballYMotion ∧
    (IsSide (a.redEvilIn (mazeWall T)).currentDirection ∨
      (a.redEvilIn (mazeWall T) = ⟨0, 0, 0b111⟩ ∧ a.redEvil.posOut = redEvilCenter)) := by
  rcases hk with hside | ⟨h7, hwhere⟩
  · have h := redEvilHeading_permits T hs.clear hs.keep hside a.isCollisionRed
    exact ⟨h.1, Or.inl h.2⟩
  · have hcenter : a.redEvil.posOut = redEvilCenter := by
      rcases hwhere with h | h | h
      · exact h
      · rw [hgreen] at h; exact absurd h Bool.false_ne_true
      · rw [hblue] at h; exact absurd h Bool.false_ne_true
    cases hown : a.isCollisionRed with
    | true =>
      have he : a.redEvilIn (mazeWall T) = ⟨0, 0, 0b111⟩ := by
        rw [Actors.redEvilIn, hown, redEvilHeading, if_pos rfl, h7]
      rw [he]
      exact ⟨Permits.stay, Or.inr ⟨rfl, hcenter⟩⟩
    | false =>
      -- the blind first move: the cell above the starting cell is open
      have he : a.redEvilIn (mazeWall T) = ⟨0, ballStepInv, 0b011⟩ := by
        rw [Actors.redEvilIn, hown, redEvilHeading, if_neg Bool.false_ne_true, if_pos h7]
      have hx : a.redEvil.ballXPosIn = redEvilCenter.1 := congrArg Prod.fst hcenter
      have hy : a.redEvil.ballYPosIn = redEvilCenter.2 := congrArg Prod.snd hcenter
      rw [he, hx, hy]
      exact ⟨Permits.up (by decide) (fun _ => by decide), Or.inl (by decide)⟩

/-- `RedKnows` survives a tick with Reset low. -/
theorem Board.Safe.clk_knows {T : Tables} {i : ClkIn} {b : Board} (hs : b.Safe)
    (hr : i.reset = false) : (b.clk T i).actors.RedKnows := by
  have hw : b.wallRead T = mazeWall T := by rw [Board.wallRead, hs.wall, mazeWall]
  -- Red's piece after the tick, by what the tick did to it
  have hred : (b.clk T i).actors.redEvil = (b.redEvil.ghostClk redEvilCenter 0b111 false
      (b.actors.isCollisionGreen || b.actors.isCollisionBlue) i.frameClk
      (b.actors.redEvilIn (mazeWall T))).toPiece := by
    simp only [Board.actors, Board.clk, hr] at hw ⊢
    rw [hw]
  rcases b.redEvil.ghostClk_cases redEvilCenter 0b111
      (b.actors.isCollisionGreen || b.actors.isCollisionBlue) i.frameClk
      (b.actors.redEvilIn (mazeWall T)) with ⟨hstop, h⟩ | ⟨hstop, _, h⟩ | ⟨hstop, _, h⟩
  · -- halted: the flags that halted Red are frozen with everything else
    have hc : b.actors.collision = true := by
      rcases (Bool.or_eq_true_iff.mp hstop) with hg | hb
      · rw [Actors.collision, hg, Bool.or_true]
      · rw [Actors.collision, hb, Bool.or_true, Bool.true_or]
    have hfro := b.clk_frozen T hr hc
    refine Or.inr ⟨by rw [hred, h]; rfl, Or.inr ?_⟩
    have hg' : (b.clk T i).actors.isCollisionGreen = b.actors.isCollisionGreen :=
      congrArg Outputs.isCollisionGreen hfro
    have hb' : (b.clk T i).actors.isCollisionBlue = b.actors.isCollisionBlue :=
      congrArg Outputs.isCollisionBlue hfro
    rw [hg', hb']
    exact Bool.or_eq_true_iff.mp hstop
  · rw [Bool.or_eq_false_iff] at hstop
    rcases (b.actors.redEvilIn_permits T hs.redEvil hs.knows hstop.1 hstop.2).2 with hside | ⟨h7, hc⟩
    · exact Or.inl (by rw [hred, h]; exact hside)
    · refine Or.inr ⟨by rw [hred, h, h7]; rfl, Or.inl ?_⟩
      rw [hred, h, h7, Piece.advance_stop]
      exact hc
  · rw [Bool.or_eq_false_iff] at hstop
    rcases hs.knows with hside | ⟨h7, hwhere⟩
    · exact Or.inl (by rw [hred, h]; exact hside)
    · refine Or.inr ⟨by rw [hred, h]; exact h7, Or.inl ?_⟩
      rw [hred, h]
      rcases hwhere with hc | hg | hb
      · exact hc
      · rw [hstop.1] at hg; exact absurd hg Bool.false_ne_true
      · rw [hstop.2] at hb; exact absurd hb Bool.false_ne_true

/-- **The invariant survives every tick.** -/
theorem Board.Safe.clk {b : Board} (hs : b.Safe) (T : Tables) (i : ClkIn) : (b.clk T i).Safe := by
  cases hr : i.reset with
  | true => exact Board.Safe.reset T b hr
  | false =>
    have hw : b.wallRead T = mazeWall T := by rw [Board.wallRead, hs.wall, mazeWall]
    have hpac := pacManHeading_permits T hs.pacMan.clear hs.pacMan.keep hs.agrees i.key
      b.actors.collision
    have hpin : b.actors.pacManIn (b.wallRead T) i.key = pacManHeading i.key
        (sense (mazeWall T) b.pacMan.ballXPosIn b.pacMan.ballYPosIn) b.actors.collision
        b.pacMan.toHeading := by rw [hw]; rfl
    have hp : (b.clk T i).pacMan = b.pacMan.ghostClk pacManCenter 0b111 false false i.frameClk
        (b.actors.pacManIn (b.wallRead T) i.key) := by
      simp only [Board.clk, hr, Mover.pacManClk_eq]
    refine ⟨rfl, ?_, ?_, ?_, hs.clk_knows hr, ?_, ?_⟩
    · rw [hp, hpin]
      exact Mover.ghostClk_safe hs.pacMan _ _ _ _ (fun _ => hpac.1)
    · rw [hp]
      rcases b.pacMan.ghostClk_cases pacManCenter 0b111 false i.frameClk
          (b.actors.pacManIn (b.wallRead T) i.key) with ⟨h, _⟩ | ⟨_, _, h⟩ | ⟨_, _, h⟩
      · exact absurd h Bool.false_ne_true
      · rw [h, hpin]; exact hpac.2
      · rw [h]; exact hs.agrees
    · show (b.redEvil.ghostClk _ _ i.reset _ _ (b.actors.redEvilIn (b.wallRead T))).toPiece.Safe
      rw [hr, hw]
      apply Mover.ghostClk_safe hs.redEvil
      intro hstop
      rw [Bool.or_eq_false_iff] at hstop
      exact (b.actors.redEvilIn_permits T hs.redEvil hs.knows hstop.1 hstop.2).1
    · show (b.greenEvil.ghostClk _ _ i.reset _ _
        (b.actors.greenEvilIn (b.wallRead T))).toPiece.Safe
      rw [hr, hw]
      exact Mover.ghostClk_safe hs.greenEvil _ _ _ _
        (fun _ => greenEvilHeading_permits T hs.greenEvil.clear hs.greenEvil.keep _)
    · show (b.blueEvil.ghostClk _ _ i.reset _ _ (b.actors.blueEvilIn (b.wallRead T))).toPiece.Safe
      rw [hr, hw]
      exact Mover.ghostClk_safe hs.blueEvil _ _ _ _
        (fun _ => blueEvilHeading_permits T hs.blueEvil.clear hs.blueEvil.keep _ _ _)

/-- Every state of a run that starts with Reset is safe, later Resets included. -/
theorem safe_run (T : Tables) (b : Board) {i : ClkIn} (hi : i.reset = true) (ins : Nat → ClkIn)
    (n : Nat) : (Clocked.run (Board.clk T) ins (b.clk T i) n).Safe :=
  Clocked.run_inv (Board.Safe.reset T b hi) (fun n hs => hs.clk T (ins n)) n

/-! ## Maze safety, as the screen shows it -/

/-- A piece without its direction. -/
def Piece.body (p : Piece δ) : Piece Unit := ⟨p.toHeading.motion, p.ballXPos, p.ballYPos⟩

/-- The four actors, directions forgotten. -/
def Actors.bodies (a : Actors) : List (Piece Unit) :=
  [a.pacMan.body, a.redEvil.body, a.greenEvil.body, a.blueEvil]

/-- Every pixel of the 26x26 box at `(x, y)` lies on a cell of the array whose wall bit is 0. -/
def OnOpenCells (wall : WallArr) (x y : BitVec 10) : Prop :=
  ∀ px py, x.toNat ≤ px → px ≤ x.toNat + 25 → y.toNat ≤ py → py ≤ y.toNat + 25 →
    ∃ (hr : py / 32 < 15) (hc : px / 32 < 20), wall ⟨py / 32, hr⟩ ⟨px / 32, hc⟩ = false

/-- The four array indices a sensor uses are in range. -/
def SensorInRange (x y : BitVec 10) : Prop :=
  inside x y = true → 0 ≤ coordinate y - 1 ∧ coordinate y + 1 ≤ 14 ∧
    0 ≤ coordinate x - 1 ∧ coordinate x + 1 ≤ 19

theorem BoxClear.onOpenCells {x y : BitVec 10} (hc : BoxClear x.toNat y.toNat) :
    OnOpenCells mazeTable x y := by
  intro px py h1 h2 h3 h4
  have ho := hc px py h1 h2 h3 h4
  have hlt := isOpen_lt ho
  refine ⟨hlt.1, hlt.2, ?_⟩
  show mazeBit (py / 32) (px / 32) = false
  simpa [isOpen, hlt.1, hlt.2] using ho

theorem BoxClear.sensorInRange {x y : BitVec 10} (hc : BoxClear x.toNat y.toNat) :
    SensorInRange x y := by
  intro _
  have := hc.interior
  unfold coordinate
  omega

/-- Pac-Man's cell has an address in the pellet map. -/
theorem BoxClear.foodAddress_lt {x y : BitVec 10} (hc : BoxClear x.toNat y.toNat) :
    foodAddress x y < 220 := by
  have := hc.interior
  rw [foodAddress_eq]
  omega

theorem Board.Safe.bodies {b : Board} (hs : b.Safe) : ∀ p ∈ b.actors.bodies, p.Safe := by
  have body : ∀ {δ : Type} {p : Piece δ}, p.Safe → p.body.Safe := fun h =>
    ⟨h.clear, h.keep, h.unit, h.movesX, h.movesY⟩
  intro p hp
  simp only [Actors.bodies, List.mem_cons, List.not_mem_nil, or_false] at hp
  rcases hp with rfl | rfl | rfl | rfl
  · exact body hs.pacMan
  · exact body hs.redEvil
  · exact body hs.greenEvil
  · exact hs.blueEvil

/-- **Maze safety.**  In every run that starts with Reset, at every Clk, for each of the four
    actors: the box at the exported position covers only cells whose wall bit is 0, the exported
    sum did not wrap, and a sensor that looks at the array looks inside it; and the pellet address
    is below 220. -/
theorem maze_safety (T : Tables) (b : Board) (i : ClkIn) (hi : i.reset = true) (ins : Nat → ClkIn)
    (n : Nat) :
    (∀ p ∈ (Clocked.run (Board.clk T) ins (b.clk T i) n).actors.bodies,
      OnOpenCells (Clocked.run (Board.clk T) ins (b.clk T i) n).wall p.ballXPosIn p.ballYPosIn ∧
      Moves p.ballXPos p.ballXMotion p.ballXPosIn ∧ Moves p.ballYPos p.ballYMotion p.ballYPosIn ∧
      SensorInRange p.ballXPosIn p.ballYPosIn) ∧
    foodAddress (Clocked.run (Board.clk T) ins (b.clk T i) n).pacMan.ballXPosIn
      (Clocked.run (Board.clk T) ins (b.clk T i) n).pacMan.ballYPosIn < 220 := by
  have hs := safe_run T b hi ins n
  refine ⟨?_, hs.pacMan.clear.foodAddress_lt⟩
  intro p hp
  have h := hs.bodies p hp
  rw [hs.wall]
  exact ⟨h.clear.onOpenCells, h.movesX, h.movesY, h.clear.sensorInRange⟩

/-- `A` held, a frame edge every second Clk. -/
def leftward (n : Nat) : ClkIn := ⟨false, 0x04, n % 2 == 0, 0, 0⟩

/-- The board that plays it, from Reset on. -/
def leftwardBoard (n : Nat) : Board :=
  Clocked.run (Board.clk .shipped) leftward (Board.clk .shipped ⟨true, 0, false, 0, 0⟩ default) n

/-- A hundred frames of it. -/
theorem maze_safety_leftward :
    (∀ p ∈ (leftwardBoard 200).actors.bodies,
      OnOpenCells (leftwardBoard 200).wall p.ballXPosIn p.ballYPosIn ∧
      Moves p.ballXPos p.ballXMotion p.ballXPosIn ∧ Moves p.ballYPos p.ballYMotion p.ballYPosIn ∧
      SensorInRange p.ballXPosIn p.ballYPosIn) ∧
    foodAddress (leftwardBoard 200).pacMan.ballXPosIn (leftwardBoard 200).pacMan.ballYPosIn < 220 :=
  maze_safety .shipped default ⟨true, 0, false, 0, 0⟩ rfl leftward 200

end Lab8
