/-
  The screen shows the frame game.

  Between the game and the picture stand the scan, the registered layers of sprites and pellets, the
  detour of the position registers and a pellet map that changes in the middle of a frame.  A player
  sees none of this: a frame is the picture of a game state, and the game moves once a frame on the
  key sampled at its edge.

  1. `Game` — the frame game with its pellets: a frame clears the cell of Pac-Man's exported corner.
  2. `Design.food_run` — the pellet map Clk by Clk: the map the frame starts with until the scan
     comes to the first pixel of Pac-Man's box, the map it ends with from then on.
  3. `screen_refines` — every visible pixel of every frame has the colour of `Game.picture`.
  4. `picture_frozen` — after a collision there is one more picture, which is then shown for ever.
-/
import Lab8.Layers
import Lab8.Drawn

namespace Lab8

/-! ## The frame game with its pellets -/

/-- The four actors, and the pellet map the frame starts with. -/
structure Game where
  actors : Actors
  food : Fin 220 → Bool

/-- What Reset leaves. -/
def Game.start (T : Tables) : Game := ⟨.center, T.foodTemp⟩

/-- The pellet map the frame ends with: the cell of Pac-Man's exported corner is cleared. -/
def Game.swept (g : Game) : Fin 220 → Bool := foodClear g.food g.actors.pacMan.foodWriteAddress

/-- One frame. -/
def Game.step (T : Tables) (key : BitVec 8) (g : Game) : Game :=
  ⟨g.actors.frameStep (mazeWall T) key, g.swept⟩

/-- The game after one frame per key. -/
def gameRun (T : Tables) (keys : List (BitVec 8)) : Game :=
  Clocked.runList (Game.step T) (.start T) keys

theorem gameRun_concat (T : Tables) (keys : List (BitVec 8)) (key : BitVec 8) :
    gameRun T (keys ++ [key]) = (gameRun T keys).step T key := Clocked.runList_concat _ _ _ _

/-- The pellets do not act on the actors. -/
theorem gameRun_actors (T : Tables) (keys : List (BitVec 8)) :
    (gameRun T keys).actors = frameRun T keys := by
  induction keys using List.reverseRecOn with
  | nil => rfl
  | append_singleton keys key ih =>
    rw [gameRun_concat, frameRun, Clocked.runList_concat, ← frameRun, ← ih]
    rfl

/-- The pellet map in the middle of a frame. -/
def Game.foodAt (g : Game) (past : Bool) : Fin 220 → Bool := if past then g.swept else g.food

theorem foodClear_twice (food : Fin 220 → Bool) (address : Nat) :
    foodClear (foodClear food address) address = foodClear food address := by
  funext i
  unfold foodClear
  split
  · rfl
  · rfl

/-- Clearing the cell of the frame ends the frame, whenever it happens. -/
theorem Game.foodAt_clear (g : Game) (past : Bool) :
    foodClear (g.foodAt past) g.actors.pacMan.foodWriteAddress = g.swept := by
  cases past with
  | false => rfl
  | true => exact foodClear_twice _ _

/-! ## The pellet map Clk by Clk -/

/-- The scan has passed the first pixel of the box at `pos`, in the frame of Clk `n`. -/
def Passed (level : Bool) (n : Nat) (pos : BitVec 10 × BitVec 10) : Prop :=
  840000 * frameIndex level n + 1600 * pos.2.toNat + 2 * pos.1.toNat < Raster.phase level n

instance (level : Bool) (n : Nat) (pos : BitVec 10 × BitVec 10) : Decidable (Passed level n pos) :=
  inferInstanceAs (Decidable (_ < _))

/-- At an edge that ends a frame the whole box has been scanned. -/
theorem passed_of_pulse {level : Bool} {n : Nat} {pos : BitVec 10 × BitVec 10}
    (hn : Raster.phase level n % 840000 = 787200) (hx : pos.1.toNat ≤ 583)
    (hy : pos.2.toNat ≤ 295) : Passed level n pos := by
  unfold Passed frameIndex
  omega

/-- At the start of a frame none of it has. -/
theorem not_passed_start {level : Bool} {n : Nat} {pos : BitVec 10 × BitVec 10}
    (hn : framePulse level n ∨ Raster.phase level (n + 1) ≤ 2) (hy : 31 ≤ pos.2.toNat) :
    ¬ Passed level (n + 1) pos := by
  unfold Passed framePulse frameIndex at *
  rw [Raster.phase_succ] at *
  omega

/-- Where the scan is at Clk `n`. -/
theorem Design.scan_run {T : Tables} {d : Design} (hd : d.Released T) {ins : Nat → DesignIn}
    (hins : ∀ n, (ins n).reset = false) (n : Nat) :
    (Clocked.run (Design.clk T) ins d n).vga.hCounter.toNat = Raster.phase d.vgaClk n / 2 % 800 ∧
      (Clocked.run (Design.clk T) ins d n).vga.vCounter.toNat =
        Raster.phase d.vgaClk n / 2 / 800 % 525 := by
  rw [Design.vga_run T hd.vga hins n]
  exact scan_counters _

/-- The Clks that end pixel `(x, y)`. -/
theorem Design.pixel_run {T : Tables} {d : Design} (hd : d.Released T) {ins : Nat → DesignIn}
    (hins : ∀ n, (ins n).reset = false) {n : Nat} {x y : BitVec 10} (hx : x.toNat < 800)
    (hn : Raster.phase d.vgaClk n % 840000 = 2 * (x.toNat + 800 * y.toNat) + 1) :
    (Clocked.run (Design.clk T) ins d n).vgaClk = false ∧
      (Clocked.run (Design.clk T) ins d n).vga.hCounter = x ∧
      (Clocked.run (Design.clk T) ins d n).vga.vCounter = y := by
  obtain ⟨hcol, hrow⟩ := Design.scan_run hd hins n
  refine ⟨?_, BitVec.eq_of_toNat_eq (by omega), BitVec.eq_of_toNat_eq (by omega)⟩
  rw [Design.vgaClk_run, Raster.levelAt_eq, decide_eq_false_iff_not]
  omega

/-- Between two edges the scan passes the first pixel at the Clk that shows it. -/
theorem passed_succ {level : Bool} {n x y : Nat} (pos : BitVec 10 × BitVec 10)
    (hno : ¬ framePulse level n) (hx : x = Raster.phase level n / 2 % 800)
    (hy : y = Raster.phase level n / 2 / 800 % 525) (hpx : pos.1.toNat ≤ 583)
    (hpy : pos.2.toNat ≤ 295) :
    (Passed level n pos → Passed level (n + 1) pos) ∧
    (Passed level (n + 1) pos → Passed level n pos ∨ (x = pos.1.toNat ∧ y = pos.2.toNat)) ∧
    (pos.1.toNat ≤ x → pos.2.toNat ≤ y → y ≤ pos.2.toNat + 25 → Passed level (n + 1) pos) := by
  unfold Passed framePulse frameIndex at *
  rw [Raster.phase_succ] at *
  generalize Raster.phase level n = p at *
  refine ⟨?_, ?_, ?_⟩
  · omega
  · omega
  · omega

section Run

variable {T : Tables} {d : Design} {ins : Nat → DesignIn}

theorem Design.keys_succ (d : Design) (ins : Nat → DesignIn) (n : Nat) :
    d.keys ins (n + 1) =
      if framePulse d.vgaClk n then d.keys ins n ++ [(ins n).key] else d.keys ins n := by
  show (if decide (framePulse d.vgaClk n) = true then _ else _) = _
  simp only [decide_eq_true_eq]
  rfl

/-- Pac-Man's piece of a design run is that of the frame game. -/
theorem Design.pacMan_run (hd : d.Released T) (hins : ∀ n, (ins n).reset = false) (n : Nat) :
    (Clocked.run (Design.clk T) ins d n).board.pacMan.toPiece =
      (gameRun T (d.keys ins n)).actors.pacMan := by
  rw [gameRun_actors]
  exact (Design.mirrors_run hd hins n).2.pacMan

/-- Before the first edge clearing his cell changes nothing: it has no pellet. -/
theorem Design.food_start (hfood : T.foodTemp = foodTxt) (hd : d.Released T)
    (hins : ∀ n, (ins n).reset = false) {n : Nat} (hn : Raster.phase d.vgaClk n ≤ 2) :
    foodClear (Clocked.run (Design.clk T) ins d n).board.food.food
        (Clocked.run (Design.clk T) ins d n).board.pacMan.toPiece.foodWriteAddress =
      (Clocked.run (Design.clk T) ins d n).board.food.food := by
  have h0 : d.board.food.food = foodTxt := by
    obtain ⟨b, i, hi, hb⟩ := hd.board
    rw [hb, ← hfood]
    simp only [Board.clk, hi]
    rfl
  have haddr : (Clocked.run (Design.clk T) ins d n).board.pacMan.toPiece.foodWriteAddress = 150 :=
    Design.address_start hd hins hn
  have hcleared : (Clocked.run (Design.clk T) ins d n).board.food.food ⟨150, by decide⟩ = true := by
    apply (Design.sweep hd hins).keeps (Nat.zero_le n)
    rw [Clocked.run_zero, h0]
    decide
  funext i
  rw [haddr]
  unfold foodClear
  split
  · next h => rw [show i = ⟨150, by decide⟩ from Fin.ext h, hcleared]
  · rfl

/-- **The pellet map of a design run.** -/
theorem Design.food_run (hfood : T.foodTemp = foodTxt) (hd : d.Released T)
    (hins : ∀ n, (ins n).reset = false) (n : Nat) :
    (Clocked.run (Design.clk T) ins d n).board.food.food =
      (gameRun T (d.keys ins n)).foodAt
        (decide (Passed d.vgaClk n (gameRun T (d.keys ins n)).actors.pacMan.pos)) := by
  induction n with
  | zero =>
    have hno : ¬ Passed d.vgaClk 0 (gameRun T (d.keys ins 0)).actors.pacMan.pos := by
      have hphase := Raster.phase_zero_lt d.vgaClk
      have hy : (gameRun T (d.keys ins 0)).actors.pacMan.pos.2.toNat = 224 := rfl
      unfold Passed
      omega
    obtain ⟨b, i, hi, hb⟩ := hd.board
    rw [decide_eq_false hno, Clocked.run_zero, hb]
    simp only [Board.clk, hi]
    rfl
  | succ n ih =>
    have hpiece := Design.pacMan_run hd hins n
    have hbox := (Design.steady_run hd ins n).safe.pacMan.box_bounds
    have hstep : (Clocked.run (Design.clk T) ins d (n + 1)).board.food =
        (Clocked.run (Design.clk T) ins d n).board.food.clk T false
          (Clocked.run (Design.clk T) ins d n).isFoodEaten _ _ _ _ :=
      Design.clk_food T _ (hins n)
    by_cases hp : framePulse d.vgaClk n
    · -- an edge: the map stays, and it is the one the frame ends with
      have hnew := (Design.steady_run hd ins (n + 1)).safe.pacMan.box_bounds.2.1
      have hkeep : (Clocked.run (Design.clk T) ins d (n + 1)).board.food.food =
          (Clocked.run (Design.clk T) ins d n).board.food.food := by
        rw [hstep, Design.isFoodEaten_atEdge hd hins hp]
        rfl
      have hends : (Clocked.run (Design.clk T) ins d n).board.food.food =
          (gameRun T (d.keys ins n)).swept := by
        rw [← Game.foodAt_clear _ (decide (Passed d.vgaClk n
          (gameRun T (d.keys ins n)).actors.pacMan.pos)), ← ih, ← hpiece]
        rcases hp with h2 | hlast
        · exact (Design.food_start hfood hd hins (Nat.le_of_eq h2)).symm
        · rw [ih, ← hpiece, decide_eq_true (passed_of_pulse hlast hbox.1.2 hbox.2.2)]
          show _ = foodClear (Game.swept _) _
          rw [hpiece, Game.swept, foodClear_twice]
          rfl
      have hpiece' := Design.pacMan_run hd hins (n + 1)
      have hno : ¬ Passed d.vgaClk (n + 1)
          (gameRun T (d.keys ins (n + 1))).actors.pacMan.pos := by
        rw [← hpiece']
        exact not_passed_start (Or.inl hp) hnew
      rw [decide_eq_false hno, hkeep, hends, Design.keys_succ, if_pos hp, gameRun_concat]
      rfl
    · -- no edge: the cell is cleared while the scan is on the box
      obtain ⟨hx, hy⟩ := Design.scan_run hd hins n
      obtain ⟨hkeep, hpass, hin⟩ := passed_succ (gameRun T (d.keys ins n)).actors.pacMan.pos
        hp hx hy (by rw [← hpiece]; exact hbox.1.2) (by rw [← hpiece]; exact hbox.2.2)
      rw [Design.keys_succ, if_neg hp, hstep]
      cases heat : (Clocked.run (Design.clk T) ins d n).isFoodEaten with
      | true =>
        have hon := heat
        rw [Design.isFoodEaten, isBall, onSprite_iff, hpiece] at hon
        rw [decide_eq_true (hin hon.1.1 hon.2.1 (by omega))]
        show foodClear (Clocked.run (Design.clk T) ins d n).board.food.food
          (Clocked.run (Design.clk T) ins d n).board.pacMan.toPiece.foodWriteAddress = _
        rw [ih, hpiece, Game.foodAt_clear]
        rfl
      | false =>
        show (Clocked.run (Design.clk T) ins d n).board.food.food = _
        rw [ih]
        congr 1
        rw [decide_eq_decide]
        refine ⟨hkeep, fun h => (hpass h).resolve_right ?_⟩
        rintro ⟨hfx, hfy⟩
        -- on the first pixel of the box the pellet would be eaten
        have hon : (Clocked.run (Design.clk T) ins d n).isFoodEaten = true := by
          rw [Design.isFoodEaten, isBall, onSprite_iff, hpiece]
          omega
        exact Bool.false_ne_true (heat.symm.trans hon)

end Run

/-! ## The picture of a game state -/

/-- The word of the sprite on pixel `(x, y)`, Pac-Man's before the ghosts'. -/
def Actors.spriteAt (T : Tables) (a : Actors) (x y : BitVec 10) : Option (BitVec 24) :=
  if onSprite x y a.drawn.1 then
    some (pacManCut T a.pacMan.currentDirection (readAddress x y a.drawn.1)
      (readAddressSpecial x y a.drawn.1))
  else if onSprite x y a.drawn.2.1 then some (T.redEvilMem (readAddress x y a.drawn.2.1))
  else if onSprite x y a.drawn.2.2.1 then some (T.greenEvilMem (readAddress x y a.drawn.2.2.1))
  else if onSprite x y a.drawn.2.2.2 then some (T.blueEvilMem (readAddress x y a.drawn.2.2.2))
  else none

/-- The number of pellets eaten by the end of the frame. -/
def Game.score (T : Tables) (g : Game) : BitVec 8 :=
  BitVec.ofNat 8 (Latch.raised T.foodTemp g.swept).card

/-- Pixel `(x, y)` is scanned after the first pixel of the box at `pos`. -/
def scannedAfter (pos : BitVec 10 × BitVec 10) (x y : BitVec 10) : Bool :=
  decide (pos.2.toNat < y.toNat ∨ (pos.2.toNat = y.toNat ∧ pos.1.toNat < x.toNat))

/-- What lies under the sprites: the maze with the dots of its pellets, and the text below it. -/
def Game.ground (T : Tables) (g : Game) (x y : BitVec 10) : BitVec 24 :=
  if y.toNat < 352 then
    if isOpen (y.toNat / 32) (x.toNat / 32) then
      if (if inDot x y then
          foodRead T (g.foodAt (scannedAfter g.actors.pacMan.pos x y)) (foodAddress x y)
        else true) = false then 0xffffff
      else 0x000000
    else 0x0000ff
  else textPixel T (g.score T) g.actors.collision x y

/-- **The picture of a game state.** -/
def Game.picture (T : Tables) (g : Game) (x y : BitVec 10) : BitVec 24 :=
  (g.actors.spriteAt T x y).getD (g.ground T x y)

/-! ## The colour of a pixel -/

/-- What `color_mapper` makes of a design: the sprites over the ground. -/
def Design.ground (T : Tables) (d : Design) : BitVec 24 :=
  if d.vga.vCounter.toNat < 352 then
    if isOpen (d.vga.vCounter.toNat / 32) (d.vga.hCounter.toNat / 32) then
      if d.board.food.isFood = false then 0xffffff else 0x000000
    else 0x0000ff
  else textPixel T d.board.food.score d.board.actors.collision d.vga.hCounter d.vga.vCounter

/-- Off the sprites the ground is shown. -/
theorem Design.rgb_ground {T : Tables} {d : Design} (hw : d.board.wall = mazeTable)
    (hs : d.board.actors.covers d.vga.hCounter d.vga.vCounter = false)
    (hx : d.vga.hCounter.toNat < 640) : d.rgb T = d.ground T := by
  unfold Design.ground
  by_cases hy : d.vga.vCounter.toNat < 352
  · rw [if_pos hy]
    cases ho : isOpen (d.vga.vCounter.toNat / 32) (d.vga.hCounter.toNat / 32) with
    | false => rw [Design.rgb_wall hw hs hx hy ho, if_neg Bool.false_ne_true]
    | true =>
      obtain ⟨hball, hred, hgreen, hblue⟩ := Actors.covers_eq_false.mp hs
      have hbit := Board.isWall_eq T hw hx (by omega : d.vga.vCounter.toNat < 480)
      rw [ho] at hbit
      rw [if_pos rfl]
      exact Design.Uncovered.rgb ⟨hball, hred, hgreen, hblue, hbit⟩ hy
  · rw [if_neg hy]
    exact Design.rgb_below hs (Nat.le_of_not_lt hy)

/-- On a sprite its word is shown. -/
theorem Design.rgb_sprite {T : Tables} {d : Design}
    (hs : d.board.actors.covers d.vga.hCounter d.vga.vCounter = true) : d.rgb T =
      if isBall d.vga.hCounter d.vga.vCounter d.board.actors.pacMan then
        d.board.sprites.pacManCutDataOut
      else if isBall d.vga.hCounter d.vga.vCounter d.board.actors.redEvil then
        d.board.sprites.redEvilDataOut
      else if isBall d.vga.hCounter d.vga.vCounter d.board.actors.greenEvil then
        d.board.sprites.greenEvilDataOut
      else d.board.sprites.blueEvilDataOut := by
  rw [Actors.covers] at hs
  unfold Design.rgb colorMapper
  dsimp only
  split
  · rfl
  · next hball =>
    split
    · rfl
    · next hred =>
      split
      · rfl
      · next hgreen =>
        rw [Bool.not_eq_true] at hball hred hgreen
        rw [hball, hred, hgreen] at hs
        exact if_pos hs

/-- The four sprite words of a pixel, at the drawn positions. -/
def Actors.words (T : Tables) (a : Actors) (x y : BitVec 10) : SpriteRegs where
  pacManCutDataOut := pacManCut T a.pacMan.currentDirection (readAddress x y a.drawn.1)
    (readAddressSpecial x y a.drawn.1)
  redEvilDataOut := T.redEvilMem (readAddress x y a.drawn.2.1)
  greenEvilDataOut := T.greenEvilMem (readAddress x y a.drawn.2.2.1)
  blueEvilDataOut := T.blueEvilMem (readAddress x y a.drawn.2.2.2)

/-- Registers at the drawn positions are on a pixel where the drawn boxes are. -/
theorem Actors.isBall_drawn {a a' : Actors} (hpos : a.positions = a'.drawn) (x y : BitVec 10) :
    isBall x y a.pacMan = onSprite x y a'.drawn.1 ∧ isBall x y a.redEvil = onSprite x y a'.drawn.2.1 ∧
      isBall x y a.greenEvil = onSprite x y a'.drawn.2.2.1 ∧
      isBall x y a.blueEvil = onSprite x y a'.drawn.2.2.2 := by
  rw [← hpos]
  exact ⟨rfl, rfl, rfl, rfl⟩

/-- **The sprite layer**: on a sprite the design shows its word. -/
theorem Design.rgb_spriteAt {T : Tables} {d : Design} {a : Actors}
    (hpos : d.board.actors.positions = a.drawn)
    (hwords : d.board.sprites = a.words T d.vga.hCounter d.vga.vCounter)
    (hs : d.board.actors.covers d.vga.hCounter d.vga.vCounter = true) :
    a.spriteAt T d.vga.hCounter d.vga.vCounter = some (d.rgb T) := by
  obtain ⟨hball, hred, hgreen, hblue⟩ := Actors.isBall_drawn hpos d.vga.hCounter d.vga.vCounter
  rw [Design.rgb_sprite hs, hwords, hball, hred, hgreen]
  rw [Actors.covers, hball, hred, hgreen, hblue] at hs
  unfold Actors.spriteAt
  split
  · rfl
  · next h1 =>
    split
    · rfl
    · next h2 =>
      split
      · rfl
      · next h3 =>
        rw [Bool.not_eq_true] at h1 h2 h3
        rw [h1, h2, h3, Bool.false_or, Bool.false_or, Bool.false_or] at hs
        rw [if_pos hs]
        rfl

/-- Elsewhere there is no sprite. -/
theorem Actors.spriteAt_none (T : Tables) {a a' : Actors} (hpos : a.positions = a'.drawn)
    {x y : BitVec 10} (hs : a.covers x y = false) : a'.spriteAt T x y = none := by
  obtain ⟨hball, hred, hgreen, hblue⟩ := Actors.isBall_drawn hpos x y
  obtain ⟨h1, h2, h3, h4⟩ := Actors.covers_eq_false.mp hs
  rw [hball] at h1
  rw [hred] at h2
  rw [hgreen] at h3
  rw [hblue] at h4
  simp only [Actors.spriteAt, h1, h2, h3, h4, Bool.false_eq_true, if_false]

section Run

variable {T : Tables} {d : Design} {ins : Nat → DesignIn}

/-- A visible Clk that is no edge of `VGA_CLK` yet: the scan stands, and it has passed what comes
    before its pixel. -/
theorem Design.passed_iff (hd : d.Released T) (hins : ∀ n, (ins n).reset = false) {n : Nat}
    (hhigh : (Clocked.run (Design.clk T) ins d n).vgaClk = true)
    (hy : (Clocked.run (Design.clk T) ins d n).vga.vCounter.toNat < 480)
    (pos : BitVec 10 × BitVec 10) (hpx : pos.1.toNat ≤ 583) (hpy : pos.2.toNat ≤ 295) :
    decide (Passed d.vgaClk n pos) =
      scannedAfter pos (Clocked.run (Design.clk T) ins d n).vga.hCounter
        (Clocked.run (Design.clk T) ins d n).vga.vCounter := by
  obtain ⟨hcol, hrow⟩ := Design.scan_run hd hins n
  rw [Design.vgaClk_run, Raster.levelAt_eq, decide_eq_true_eq] at hhigh
  rw [scannedAfter, decide_eq_decide, hcol, hrow]
  rw [hrow] at hy
  unfold Passed frameIndex
  omega

/-- The sprite words of the next Clk. -/
theorem Design.sprites_run (hd : d.Released T) (hins : ∀ n, (ins n).reset = false) {n : Nat}
    (hrow : (Clocked.run (Design.clk T) ins d n).vga.vCounter.toNat < 480) :
    (Clocked.run (Design.clk T) ins d (n + 1)).board.sprites =
      (gameRun T (d.keys ins n)).actors.words T (Clocked.run (Design.clk T) ins d n).vga.hCounter
        (Clocked.run (Design.clk T) ins d n).vga.vCounter := by
  have hpos := Design.positions_run hd hins hrow
  have hdir : (Clocked.run (Design.clk T) ins d n).board.actors.pacMan.currentDirection =
      (gameRun T (d.keys ins n)).actors.pacMan.currentDirection :=
    congrArg (fun p => p.currentDirection) (Design.pacMan_run hd hins n)
  rw [Clocked.run_succ, (Design.clk_lookup T _ (hins n)).2, Actors.spriteWords, hdir, Actors.words,
    gameRun_actors, ← hpos]
  rfl

/-- The pixel of a sprite or of an open cell is below row 31, and no edge falls there. -/
theorem Design.not_pulse_row (hd : d.Released T) (hins : ∀ n, (ins n).reset = false) {n : Nat}
    (hlow : 31 ≤ (Clocked.run (Design.clk T) ins d n).vga.vCounter.toNat)
    (hrow : (Clocked.run (Design.clk T) ins d n).vga.vCounter.toNat < 480) :
    ¬ framePulse d.vgaClk n := by
  have hy := (Design.scan_run hd hins n).2
  unfold framePulse
  omega

/-- **The score below the maze** is that of the end of the frame. -/
theorem Design.score_run (hfood : T.foodTemp = foodTxt) (hscore : T.scoreTemp = scoreTxt)
    (hd : d.Released T) (hins : ∀ n, (ins n).reset = false) {n : Nat}
    (hlow : 352 ≤ (Clocked.run (Design.clk T) ins d n).vga.vCounter.toNat)
    (hrow : (Clocked.run (Design.clk T) ins d n).vga.vCounter.toNat < 480) :
    (Clocked.run (Design.clk T) ins d n).board.food.score =
      (gameRun T (d.keys ins n)).score T := by
  have hy := (Design.scan_run hd hins n).2
  have hbox := (Design.steady_run hd ins n).safe.pacMan.box_bounds
  have hmap := Design.food_run hfood hd hins n
  have hpast : Passed d.vgaClk n (gameRun T (d.keys ins n)).actors.pacMan.pos := by
    rw [← Design.pacMan_run hd hins n]
    show 840000 * frameIndex d.vgaClk n +
      1600 * (Clocked.run (Design.clk T) ins d n).board.pacMan.ballYPos.toNat +
        2 * (Clocked.run (Design.clk T) ins d n).board.pacMan.ballXPos.toNat < _
    unfold frameIndex
    omega
  rw [decide_eq_true hpast] at hmap
  -- the score counts the cells cleared, and below row 320 the frame has cleared its cell
  have hcounts : (Clocked.run (Design.clk T) ins d n).board.food.Counts T := by
    obtain ⟨b, i, hi, hb⟩ := hd.board
    rw [Design.board_run, hb]
    exact counts_run hscore b hi _ n
  have hcount := hcounts.score
  rw [hmap] at hcount
  apply BitVec.eq_of_toNat_eq
  rw [hcount, Game.score, BitVec.toNat_ofNat]
  refine (Nat.mod_eq_of_lt ?_).symm
  have hle := card_raised_lt T.foodTemp (gameRun T (d.keys ins n)).swept
  exact Nat.lt_trans hle (by decide)

/-- **The ground** at the `VGA_CLK` that ends its pixel. -/
theorem Design.ground_run (hfood : T.foodTemp = foodTxt) (hscore : T.scoreTemp = scoreTxt)
    (hd : d.Released T) (hins : ∀ n, (ins n).reset = false) {n : Nat}
    (hhigh : (Clocked.run (Design.clk T) ins d n).vgaClk = true)
    (hy : (Clocked.run (Design.clk T) ins d (n + 1)).vga.vCounter.toNat < 480)
    (hkeys : 31 ≤ (Clocked.run (Design.clk T) ins d (n + 1)).vga.vCounter.toNat →
      d.keys ins (n + 1) = d.keys ins n) :
    (Clocked.run (Design.clk T) ins d (n + 1)).ground T =
      (gameRun T (d.keys ins (n + 1))).ground T
        (Clocked.run (Design.clk T) ins d (n + 1)).vga.hCounter
        (Clocked.run (Design.clk T) ins d (n + 1)).vga.vCounter := by
  have hscan : (Clocked.run (Design.clk T) ins d (n + 1)).vga =
      (Clocked.run (Design.clk T) ins d n).vga := Design.clk_scan T (ins n) hhigh
  rw [Design.ground, Game.ground]
  by_cases hmaze : (Clocked.run (Design.clk T) ins d (n + 1)).vga.vCounter.toNat < 352
  · rw [if_pos hmaze, if_pos hmaze]
    cases ho : isOpen ((Clocked.run (Design.clk T) ins d (n + 1)).vga.vCounter.toNat / 32)
        ((Clocked.run (Design.clk T) ins d (n + 1)).vga.hCounter.toNat / 32) with
    | false => rfl
    | true =>
      -- open cells begin at row 32, so the pixel is not at an edge
      have hin := isOpen_interior ho
      have hsame := hkeys (by omega)
      have hbox := (Design.steady_run hd ins n).safe.pacMan.box_bounds
      have hpiece := Design.pacMan_run hd hins n
      have hpassed := Design.passed_iff hd hins hhigh (by rw [← hscan]; exact hy)
        (gameRun T (d.keys ins n)).actors.pacMan.pos
        (by rw [← hpiece]; exact hbox.1.2) (by rw [← hpiece]; exact hbox.2.2)
      have hlookup := (Design.clk_lookup T (Clocked.run (Design.clk T) ins d n) (hins n)).1
      rw [Design.food_run hfood hd hins n, hpassed, ← hscan, ← hsame] at hlookup
      rw [Clocked.run_succ, hlookup]
      rfl
  · obtain ⟨⟨_, ht⟩, -⟩ := Design.mirrors_run hd hins (n + 1)
    rw [if_neg hmaze, if_neg hmaze,
      Design.score_run hfood hscore hd hins (Nat.le_of_not_lt hmaze) hy, gameRun_actors,
      ← Actors.collision_congr ht.outputs]

/-- **The colour of a pixel** at the `VGA_CLK` that ends it. -/
theorem Design.rgb_run (hfood : T.foodTemp = foodTxt) (hscore : T.scoreTemp = scoreTxt)
    (hd : d.Released T) (hins : ∀ n, (ins n).reset = false) {n : Nat}
    (hedge : (Clocked.run (Design.clk T) ins d (n + 1)).vgaClk = false)
    (hx : (Clocked.run (Design.clk T) ins d (n + 1)).vga.hCounter.toNat < 640)
    (hy : (Clocked.run (Design.clk T) ins d (n + 1)).vga.vCounter.toNat < 480) :
    (Clocked.run (Design.clk T) ins d (n + 1)).rgb T =
      (gameRun T (d.keys ins (n + 1))).picture T
        (Clocked.run (Design.clk T) ins d (n + 1)).vga.hCounter
        (Clocked.run (Design.clk T) ins d (n + 1)).vga.vCounter := by
  have hhigh : (Clocked.run (Design.clk T) ins d n).vgaClk = true := by
    have h : (!(Clocked.run (Design.clk T) ins d n).vgaClk) = false := hedge
    simpa using h
  have hscan : (Clocked.run (Design.clk T) ins d (n + 1)).vga =
      (Clocked.run (Design.clk T) ins d n).vga := Design.clk_scan T (ins n) hhigh
  have hpos := Design.positions_run hd hins hy
  rw [← gameRun_actors] at hpos
  -- from row 31 on the key list is that of the Clk before
  have hkeys : 31 ≤ (Clocked.run (Design.clk T) ins d (n + 1)).vga.vCounter.toNat →
      d.keys ins (n + 1) = d.keys ins n := by
    intro hlow
    rw [hscan] at hlow hy
    rw [Design.keys_succ, if_neg (Design.not_pulse_row hd hins hlow hy)]
  cases hs : (Clocked.run (Design.clk T) ins d (n + 1)).board.actors.covers
      (Clocked.run (Design.clk T) ins d (n + 1)).vga.hCounter
      (Clocked.run (Design.clk T) ins d (n + 1)).vga.vCounter with
  | true =>
    have hstands : (Clocked.run (Design.clk T) ins d (n + 1)).board.Stands := by
      obtain ⟨b, i, hi, hb⟩ := hd.board
      rw [Design.board_run, hb]
      exact stands_run T b hi _ (n + 1)
    have hopen := isOpen_interior (hstands.open_of_sprite hs)
    have hwords := Design.sprites_run hd hins (n := n) (by rw [← hscan]; exact hy)
    rw [← hkeys (by omega), ← hscan] at hwords
    rw [Game.picture, Design.rgb_spriteAt hpos hwords hs, Option.getD_some]
  | false =>
    rw [Design.rgb_ground (Design.steady_run hd ins (n + 1)).safe.wall hs hx, Game.picture,
      Actors.spriteAt_none T hpos hs, Option.getD_none]
    exact Design.ground_run hfood hscore hd hins hhigh hy hkeys

end Run

/-- **The screen shows the frame game.**  With the shipped pellet map and score, after Reset was held
    over an edge of `VGA_CLK`, for every key waveform: at every edge of `VGA_CLK` that ends a visible
    pixel the colour is that of the picture of the game state after one frame per key sampled at a
    frame edge so far. -/
theorem screen_refines (T : Tables) (hfood : T.foodTemp = foodTxt) (hscore : T.scoreTemp = scoreTxt)
    (d : Design) (hd : d.Released T) (ins : Nat → DesignIn) (hins : ∀ n, (ins n).reset = false)
    (n : Nat) (hedge : (Clocked.run (Design.clk T) ins d (n + 1)).vgaClk = false)
    (hx : (Clocked.run (Design.clk T) ins d (n + 1)).vga.hCounter.toNat < 640)
    (hy : (Clocked.run (Design.clk T) ins d (n + 1)).vga.vCounter.toNat < 480) :
    (Clocked.run (Design.clk T) ins d (n + 1)).rgb T =
      (gameRun T (d.keys ins (n + 1))).picture T
        (Clocked.run (Design.clk T) ins d (n + 1)).vga.hCounter
        (Clocked.run (Design.clk T) ins d (n + 1)).vga.vCounter :=
  Design.rgb_run hfood hscore hd hins hedge hx hy

/-- `D` held from power-up on. -/
def holdD (_ : Nat) : DesignIn := ⟨false, 0x07⟩

theorem holdD_low (n : Nat) : (holdD n).reset = false := rfl

/-- The keys sampled up to a Clk after the first pulse. -/
theorem holdD_keys (T : Tables) {n : Nat} (hn : 2 ≤ n) :
    (Design.start T).keys holdD n = 0x07 :: List.replicate (frameIndex false n) 0x07 := by
  have hkey : ∀ k, (holdD k).key = 0x07 := fun _ => rfl
  have hkeys := sampled_pulses false (fun k _ => hkey k) (fun k _ => hkey k) n
  exact hkeys.trans (if_pos (Nat.lt_succ_of_le hn))

/-- The Clks that end pixel `(x, y)`. -/
theorem holdD_pixel (T : Tables) {n : Nat} {x y : BitVec 10} (hx : x.toNat < 800)
    (hn : (n + 1) % 840000 = 2 * (x.toNat + 800 * y.toNat) + 1) :
    (Clocked.run (Design.clk T) holdD (.start T) n).vgaClk = false ∧
      (Clocked.run (Design.clk T) holdD (.start T) n).vga.hCounter = x ∧
      (Clocked.run (Design.clk T) holdD (.start T) n).vga.vCounter = y :=
  Design.pixel_run (Design.start_released T) holdD_low hx hn

/-- In the second frame, on Pac-Man: he has moved by one pixel. -/
theorem screen_refines_held :
    onSprite 330 230 (gameRun .shipped [0x07, 0x07]).actors.drawn.1 = true ∧
    (Clocked.run (Design.clk .shipped) holdD (.start .shipped) (1208659 + 1)).rgb .shipped =
      (gameRun .shipped [0x07, 0x07]).picture .shipped 330 230 := by
  have hkeys : (Design.start .shipped).keys holdD (1208659 + 1) = [0x07, 0x07] :=
    holdD_keys .shipped (by decide)
  obtain ⟨hedge, hx, hy⟩ := holdD_pixel .shipped (n := 1208659 + 1) (x := 330) (y := 230)
    (by decide) (by decide)
  refine ⟨by decide +kernel, ?_⟩
  rw [screen_refines .shipped rfl rfl (.start .shipped) (Design.start_released .shipped) holdD
    holdD_low 1208659 hedge (by rw [hx]; decide) (by rw [hy]; decide), hx, hy, hkeys]

/-! ## After a collision -/

/-- A picture depends on Pac-Man's piece, the drawn positions, the flags and the pellets. -/
theorem Game.picture_congr (T : Tables) {g g' : Game} (hp : g.actors.pacMan = g'.actors.pacMan)
    (hdrawn : g.actors.drawn = g'.actors.drawn) (hc : g.actors.collision = g'.actors.collision)
    (hfood : g.food = g'.food) : g.picture T = g'.picture T := by
  have hswept : g.swept = g'.swept := by rw [Game.swept, Game.swept, hp, hfood]
  funext x y
  unfold Game.picture Actors.spriteAt Game.ground Game.foodAt Game.score
  rw [hp, hdrawn, hc, hswept, hfood]

/-- A piece that has just been halted is drawn where it is exported, stopped or not. -/
theorem Piece.drawn_halted {δ : Type} (stopped : Bool) (p : Piece δ) (d : δ) :
    (p.advance ⟨0, 0, d⟩).drawn stopped = p.posOut := by
  cases stopped with
  | false => rfl
  | true => exact p.advance_stop d

theorem Piece.advance_twice {δ : Type} (p : Piece δ) (d : δ) :
    (p.advance ⟨0, 0, d⟩).advance ⟨0, 0, d⟩ = p.advance ⟨0, 0, d⟩ := by
  simp [Piece.advance, Piece.ballXPosIn, Piece.ballYPosIn]

theorem Piece.foodWriteAddress_eq {δ : Type} (p : Piece δ) :
    p.foodWriteAddress = foodAddress p.posOut.1 p.posOut.2 := rfl

/-- A frame with a flag up leaves it up. -/
theorem Game.step_collision (T : Tables) (key : BitVec 8) (g : Game)
    (hc : g.actors.collision = true) : (g.step T key).actors.collision = true :=
  (Actors.collision_congr (g.actors.frameStep_frozen (mazeWall T) key hc)).trans hc

/-- After a frame with a flag up everything is drawn where it is exported. -/
theorem Actors.drawn_caught (wall : Int → Int → Bool) (key : BitVec 8) {a : Actors}
    (hc : a.collision = true) : (a.frameStep wall key).drawn =
      (a.outputs.ball, a.outputs.red, a.outputs.green, a.outputs.blue) := by
  rw [Actors.frameStep_caught wall key hc, Actors.drawn, Piece.drawn_halted, Piece.drawn_halted,
    Piece.drawn_halted]
  rfl

/-- **The picture after a collision does not change any more.** -/
theorem Game.step_still (T : Tables) (key key' : BitVec 8) (g : Game)
    (hc : g.actors.collision = true) :
    ((g.step T key).step T key').picture T = (g.step T key).picture T := by
  have hout : (g.step T key).actors.outputs = g.actors.outputs :=
    g.actors.frameStep_frozen (mazeWall T) key hc
  have hc' := g.step_collision T key hc
  have hball : (g.step T key).actors.pacMan.posOut = g.actors.pacMan.posOut :=
    congrArg Outputs.ball hout
  apply Game.picture_congr T
  · show ((g.step T key).actors.frameStep (mazeWall T) key').pacMan = _
    rw [Actors.frameStep_caught (mazeWall T) key' hc']
    show ((g.actors.frameStep (mazeWall T) key).pacMan).advance ⟨0, 0, 0b111⟩ =
      (g.actors.frameStep (mazeWall T) key).pacMan
    rw [Actors.frameStep_caught (mazeWall T) key hc]
    exact Piece.advance_twice _ _
  · show ((g.step T key).actors.frameStep (mazeWall T) key').drawn =
      (g.actors.frameStep (mazeWall T) key).drawn
    rw [Actors.drawn_caught (mazeWall T) key' hc', Actors.drawn_caught (mazeWall T) key hc, hout]
  · exact Actors.collision_congr (Actors.frameStep_frozen (mazeWall T) key' hc')
  · -- the cell of the frame has been cleared already
    show foodClear g.swept (g.step T key).actors.pacMan.foodWriteAddress = g.swept
    rw [Piece.foodWriteAddress_eq, hball, ← Piece.foodWriteAddress_eq, Game.swept, foodClear_twice]

/-- So all later pictures are one. -/
theorem Game.run_still (T : Tables) {g : Game} (hc : g.actors.collision = true) (key : BitVec 8)
    (keys : List (BitVec 8)) :
    (Clocked.runList (Game.step T) g (key :: keys)).picture T = (g.step T key).picture T := by
  induction keys generalizing g key with
  | nil => rfl
  | cons key' keys ih =>
    exact (ih (g.step_collision T key hc) key').trans (g.step_still T key key' hc)

/-- Nor does it matter which key was pressed last. -/
theorem Game.step_deaf (T : Tables) (key key' : BitVec 8) (g : Game)
    (hc : g.actors.collision = true) : g.step T key = g.step T key' := by
  rw [Game.step, Game.step, Actors.frameStep_caught (mazeWall T) key hc,
    Actors.frameStep_caught (mazeWall T) key' hc]

section Run

variable {T : Tables} {d : Design} {ins : Nat → DesignIn}

/-- The picture of every Clk from the first edge after a collision on. -/
theorem Design.picture_still (hd : d.Released T) (hins : ∀ n, (ins n).reset = false) {c p : Nat}
    (hc : (Clocked.run (Design.clk T) ins d c).board.actors.collision = true)
    (hp : ∃ e, c ≤ e ∧ e ≤ p ∧ (Clocked.run (Design.clk T) ins d e).atEdge = true) :
    (gameRun T (d.keys ins (p + 1))).picture T =
      ((gameRun T (d.keys ins c)).step T 0).picture T := by
  obtain ⟨e, hce, hep, hedge⟩ := hp
  rw [Design.atEdge_run hd hins] at hedge
  obtain ⟨later, hkeys, hne⟩ := Clocked.sampled_append
    (fun k => decide (framePulse d.vgaClk k)) (fun k => (ins k).key) (by omega : c ≤ p + 1)
  -- the frame game has collided as well
  obtain ⟨⟨_, ht⟩, -⟩ := Design.mirrors_run hd hins c
  have hcol : (gameRun T (d.keys ins c)).actors.collision = true := by
    rw [gameRun_actors, ← Actors.collision_congr ht.outputs, hc]
  cases later with
  | nil => exact absurd rfl (hne ⟨e, hce, Nat.lt_succ_of_le hep, hedge⟩)
  | cons key rest =>
    rw [show d.keys ins (p + 1) = d.keys ins c ++ key :: rest from hkeys, gameRun,
      Clocked.runList_append, ← gameRun, Game.run_still T hcol, Game.step_deaf T key 0 _ hcol]

/-- A frame later `VGA_CLK` has the same level and the scan shows the same pixel. -/
theorem Design.frame_later (hd : d.Released T) (hins : ∀ n, (ins n).reset = false) (p k : Nat) :
    (Clocked.run (Design.clk T) ins d (p + 840000 * k)).vgaClk =
        (Clocked.run (Design.clk T) ins d p).vgaClk ∧
      (Clocked.run (Design.clk T) ins d (p + 840000 * k)).vga.hCounter =
        (Clocked.run (Design.clk T) ins d p).vga.hCounter ∧
      (Clocked.run (Design.clk T) ins d (p + 840000 * k)).vga.vCounter =
        (Clocked.run (Design.clk T) ins d p).vga.vCounter := by
  have hphase : Raster.phase d.vgaClk (p + 840000 * k) = Raster.phase d.vgaClk p + 840000 * k := by
    unfold Raster.phase
    omega
  obtain ⟨hx, hy⟩ := Design.scan_run hd hins p
  obtain ⟨hx', hy'⟩ := Design.scan_run hd hins (p + 840000 * k)
  rw [hphase] at hx' hy'
  refine ⟨?_, BitVec.eq_of_toNat_eq (by omega), BitVec.eq_of_toNat_eq (by omega)⟩
  rw [Design.vgaClk_run, Design.vgaClk_run, Raster.levelAt_eq, Raster.levelAt_eq, hphase,
    decide_eq_decide]
  omega

end Run

/-- **The last picture.**  After a collision, from the first frame edge on, every visible pixel keeps
    its colour from frame to frame, whatever keys are pressed. -/
theorem picture_frozen (T : Tables) (hfood : T.foodTemp = foodTxt) (hscore : T.scoreTemp = scoreTxt)
    (d : Design) (hd : d.Released T) (ins : Nat → DesignIn) (hins : ∀ n, (ins n).reset = false)
    (c p : Nat) (hc : (Clocked.run (Design.clk T) ins d c).board.actors.collision = true)
    (hp : ∃ e, c ≤ e ∧ e ≤ p ∧ (Clocked.run (Design.clk T) ins d e).atEdge = true)
    (hedge : (Clocked.run (Design.clk T) ins d (p + 1)).vgaClk = false)
    (hx : (Clocked.run (Design.clk T) ins d (p + 1)).vga.hCounter.toNat < 640)
    (hy : (Clocked.run (Design.clk T) ins d (p + 1)).vga.vCounter.toNat < 480) (k : Nat) :
    (Clocked.run (Design.clk T) ins d (p + 1 + 840000 * k)).rgb T =
      (Clocked.run (Design.clk T) ins d (p + 1)).rgb T := by
  obtain ⟨hclk, hcol, hrow⟩ := Design.frame_later hd hins (p + 1) k
  have hlater : p + 1 + 840000 * k = p + 840000 * k + 1 := Nat.add_right_comm _ _ _
  have hq : ∃ e, c ≤ e ∧ e ≤ p + 840000 * k ∧ (Clocked.run (Design.clk T) ins d e).atEdge = true := by
    obtain ⟨e, hce, hep, he⟩ := hp
    exact ⟨e, hce, Nat.le_trans hep (Nat.le_add_right _ _), he⟩
  rw [Design.rgb_run hfood hscore hd hins hedge hx hy, Design.picture_still hd hins hc hp, ← hcol,
    ← hrow]
  rw [← hclk] at hedge
  rw [← hcol] at hx
  rw [← hrow] at hy
  rw [hlater] at hedge hx hy ⊢
  rw [Design.rgb_run hfood hscore hd hins hedge hx hy, Design.picture_still hd hins hc hq]

/-- Pac-Man is caught in frame 398. -/
theorem holdD_caught :
    (Clocked.run (Design.clk .shipped) holdD (.start .shipped) 336000000).board.actors.collision =
      true := by
  have hd := Design.start_released .shipped
  obtain ⟨⟨_, ht⟩, -⟩ := Design.mirrors_run hd holdD_low 336000000
  rw [Actors.collision_congr ht.outputs, holdD_keys .shipped (by decide)]
  decide +kernel

/-- The pixel at the origin, a frame later. -/
theorem picture_frozen_held :
    (Clocked.run (Design.clk .shipped) holdD (.start .shipped) (336839999 + 1 + 840000 * 1)).rgb
        .shipped =
      (Clocked.run (Design.clk .shipped) holdD (.start .shipped) (336839999 + 1)).rgb .shipped := by
  have hd := Design.start_released .shipped
  obtain ⟨hedge, hx, hy⟩ := holdD_pixel .shipped (n := 336839999 + 1) (x := 0) (y := 0)
    (by decide) (by decide)
  refine picture_frozen .shipped rfl rfl (.start .shipped) hd holdD holdD_low 336000000 336839999
    holdD_caught ⟨336787199, by decide, by decide, ?_⟩ hedge (by rw [hx]; decide)
    (by rw [hy]; decide) 1
  rw [Design.atEdge_run hd holdD_low]
  decide

end Lab8
