/-
  Reset forgets the past.

  Not every register is reset: the four `frame_clk_delayed`, `is_food`, `is_food_big_no_color` and
  the sprite words keep what they held.  A two-run argument shows that none of it is seen later.

  1. `Design.Fresh` is what Reset does establish once it was held over an edge of `VGA_CLK`.
  2. Two fresh designs tick alike (`Design.Fresh.clk_eq`): a cleared scan keeps `frame_clk` low, so
     the stale detectors report no edge, and every other stale register is overwritten.
  3. While a design is fresh the scan is at pixel (0, 0), which shows the maze's corner whatever
     the stale registers hold (`Design.Fresh.rgb`).
-/
import Lab8.Scan

namespace Lab8

/-! ## Ticks that do not read the stale registers -/

/-- With `frame_clk` low a tick of a ghost reads its piece only. -/
theorem Mover.ghostClk_congr {δ : Type} {m m' : Mover δ} (h : m.toPiece = m'.toPiece)
    (center : BitVec 10 × BitVec 10) (d₀ : δ) (reset stop : Bool) (next : Heading δ) :
    m.ghostClk center d₀ reset stop false next = m'.ghostClk center d₀ reset stop false next := by
  simp only [Mover.ghostClk, Mover.frameClkRisingEdge, Bool.false_and, h]

/-- With Reset low a tick of `food` reads the map and the score only. -/
theorem FoodRegs.clk_congr (T : Tables) {f f' : FoodRegs} (hf : f.food = f'.food)
    (hs : f.score = f'.score) (eaten : Bool) (drawX drawY ballX ballY : BitVec 10) :
    f.clk T false eaten drawX drawY ballX ballY = f'.clk T false eaten drawX drawY ballX ballY := by
  simp only [FoodRegs.clk, Bool.false_eq_true, if_false, hf, hs]

/-- With Reset and `frame_clk` low a tick of the board reads its actors, its wall array, the pellet
    map and the score. -/
theorem Board.clk_congr (T : Tables) {i : ClkIn} {b b' : Board} (hr : i.reset = false)
    (hclk : i.frameClk = false) (ha : b.actors = b'.actors) (hw : b.wall = b'.wall)
    (hf : b.food.food = b'.food.food) (hs : b.food.score = b'.food.score) :
    b.clk T i = b'.clk T i := by
  have hp : b.pacMan.toPiece = b'.pacMan.toPiece := congrArg Actors.pacMan ha
  have hR : b.redEvil.toPiece = b'.redEvil.toPiece := congrArg Actors.redEvil ha
  have hG : b.greenEvil.toPiece = b'.greenEvil.toPiece := congrArg Actors.greenEvil ha
  have hB : b.blueEvil.toPiece = b'.blueEvil.toPiece := congrArg Actors.blueEvil ha
  have hwall : b.wallRead T = b'.wallRead T := by rw [Board.wallRead, Board.wallRead, hw]
  simp only [Board.clk, Mover.pacManClk_eq, hr, hclk, ha, hwall]
  rw [Mover.ghostClk_congr hp, Mover.ghostClk_congr hR, Mover.ghostClk_congr hG,
    Mover.ghostClk_congr hB, FoodRegs.clk_congr T hf hs]

/-! ## What Reset establishes -/

/-- **Fresh**: the scan is cleared, the actors are at their starting positions, the maze is loaded,
    and map and score are restored. -/
structure Design.Fresh (T : Tables) (d : Design) : Prop where
  vga : d.vga = VgaRegs.cleared
  actors : d.board.actors = Actors.center
  wall : d.board.wall = mazeTable
  food : d.board.food.food = T.foodTemp
  score : d.board.food.score = T.scoreTemp

/-- A tick with Reset high makes a design fresh once its scan is cleared. -/
theorem Design.Fresh.reset {T : Tables} {i : DesignIn} {d : Design} (hr : i.reset = true)
    (hv : (d.clk T i).vga = VgaRegs.cleared) : (d.clk T i).Fresh T where
  vga := hv
  actors := d.board.clk_actors_reset T hr
  wall := rfl
  food := by
    show (d.board.food.clk T i.reset _ _ _ _ _).food = T.foodTemp
    rw [hr]
    rfl
  score := by
    show (d.board.food.clk T i.reset _ _ _ _ _).score = T.scoreTemp
    rw [hr]
    rfl

theorem Design.Released.fresh {T : Tables} {d : Design} (h : d.Released T) : d.Fresh T := by
  have hv := h.vga
  obtain ⟨d₀, hold, r, hreset, _, rfl⟩ := h
  exact Design.Fresh.reset (hreset r (Nat.le_refl r)) hv

/-- **Two fresh designs in phase become equal with the first tick that has Reset low.** -/
theorem Design.Fresh.clk_eq {T : Tables} {i : DesignIn} {d e : Design} (hd : d.Fresh T)
    (he : e.Fresh T) (hclk : d.vgaClk = e.vgaClk) (hr : i.reset = false) :
    d.clk T i = e.clk T i := by
  have hin : d.clkIn i = e.clkIn i := by rw [Design.clkIn, Design.clkIn, hd.vga, he.vga]
  have hlow : (e.clkIn i).frameClk = false := by
    show e.vga.vgaVs = false
    rw [he.vga]
    rfl
  have hboard : d.board.clk T (e.clkIn i) = e.board.clk T (e.clkIn i) :=
    Board.clk_congr T hr hlow (hd.actors.trans he.actors.symm) (hd.wall.trans he.wall.symm)
      (hd.food.trans he.food.symm) (hd.score.trans he.score.symm)
  simp only [Design.clk, hin, hboard, hclk, hd.vga, he.vga]

/-! ## The two-run relation -/

/-- Equal, or both fresh and in phase. -/
def Design.Alike (T : Tables) (d e : Design) : Prop :=
  d = e ∨ (d.Fresh T ∧ e.Fresh T ∧ d.vgaClk = e.vgaClk)

/-- A common tick keeps two designs alike, Reset or not. -/
theorem Design.Alike.clk {T : Tables} {d e : Design} (h : d.Alike T e) (i : DesignIn) :
    (d.clk T i).Alike T (e.clk T i) := by
  rcases h with rfl | ⟨hd, he, hclk⟩
  · exact Or.inl rfl
  · cases hr : i.reset with
    | false => exact Or.inl (hd.clk_eq he hclk hr)
    | true =>
      refine Or.inr ⟨Design.Fresh.reset hr (Design.clk_cleared T hr (Or.inr hd.vga)),
        Design.Fresh.reset hr (Design.clk_cleared T hr (Or.inr he.vga)), ?_⟩
      show (!d.vgaClk) = !e.vgaClk
      rw [hclk]

/-! ## What is seen -/

/-- A fresh design shows the maze's corner. -/
theorem Design.Fresh.rgb {T : Tables} {d : Design} (h : d.Fresh T) : d.rgb T = 0x0000ff := by
  have hx : d.vga.hCounter = 0 := by rw [h.vga]; rfl
  have hy : d.vga.vCounter = 0 := by rw [h.vga]; rfl
  have hwall : isWall (d.board.wallRead T) 0 0 = true := by
    rw [Board.wallRead, h.wall]
    exact wallRead_maze T.wallOut (by decide) (by decide)
  have hp : isBall 0 0 Actors.center.pacMan = false := by decide
  have hR : isBall 0 0 Actors.center.redEvil = false := by decide
  have hG : isBall 0 0 Actors.center.greenEvil = false := by decide
  have hB : isBall 0 0 Actors.center.blueEvil = false := by decide
  rw [Design.rgb, hx, hy]
  simp only [h.actors, hp, hR, hG, hB, hwall, colorMapper, Bool.false_eq_true, if_false,
    Bool.true_and]
  exact if_pos (by decide)

/-- What can be seen of a design at a Clk: positions and flags, pellet map and score, counters and
    sync outputs, and the colour. -/
structure Seen where
  outputs : Outputs
  food : Fin 220 → Bool
  score : BitVec 8
  vga : VgaRegs
  rgb : BitVec 24

/-- The observation of a design. -/
def Design.seen (T : Tables) (d : Design) : Seen :=
  ⟨d.board.actors.outputs, d.board.food.food, d.board.food.score, d.vga, d.rgb T⟩

/-- Designs that are alike cannot be told apart. -/
theorem Design.Alike.seen {T : Tables} {d e : Design} (h : d.Alike T e) : d.seen T = e.seen T := by
  rcases h with rfl | ⟨hd, he, _⟩
  · rfl
  · rw [Design.seen, Design.seen, hd.actors, he.actors, hd.food, he.food, hd.score, he.score,
      hd.vga, he.vga, hd.rgb, he.rgb]

/-- **Reset forgets the past.**  Take any two designs with `VGA_CLK` in phase, and hold Reset in
    both for `r + 1` Clks with whatever keys, over an edge of `VGA_CLK`.  From then on, for every
    common input waveform, the two are seen alike at every Clk: positions, flags, pellet map, score,
    counters, sync outputs and colour. -/
theorem reset_forgets (T : Tables) (d e : Design) (hphase : d.vgaClk = e.vgaClk)
    (hold hold' : Nat → DesignIn) (r : Nat) (hr : ∀ k, k ≤ r → (hold k).reset = true)
    (hr' : ∀ k, k ≤ r → (hold' k).reset = true)
    (hedge : ∃ k, k ≤ r ∧ Raster.levelAt d.vgaClk k = false) (ins : Nat → DesignIn) (n : Nat) :
    (Clocked.run (Design.clk T) ins (Clocked.run (Design.clk T) hold d (r + 1)) n).seen T =
      (Clocked.run (Design.clk T) ins (Clocked.run (Design.clk T) hold' e (r + 1)) n).seen T := by
  obtain ⟨k, hk, hlow⟩ := hedge
  have hd : (Clocked.run (Design.clk T) hold d (r + 1)).Released T :=
    ⟨d, hold, r, hr, ⟨k, hk, by rw [Design.vgaClk_run, hlow]⟩, rfl⟩
  have he : (Clocked.run (Design.clk T) hold' e (r + 1)).Released T :=
    ⟨e, hold', r, hr', ⟨k, hk, by rw [Design.vgaClk_run, ← hphase, hlow]⟩, rfl⟩
  have hclk : (Clocked.run (Design.clk T) hold d (r + 1)).vgaClk =
      (Clocked.run (Design.clk T) hold' e (r + 1)).vgaClk := by
    rw [Design.vgaClk_run, Design.vgaClk_run, hphase]
  have hrun : Design.Alike T
      (Clocked.run (Design.clk T) ins (Clocked.run (Design.clk T) hold d (r + 1)) n)
      (Clocked.run (Design.clk T) ins (Clocked.run (Design.clk T) hold' e (r + 1)) n) :=
    Clocked.run_rel (R := Design.Alike T) (Or.inr ⟨hd.fresh, he.fresh, hclk⟩)
      (fun n _ _ h => h.clk (ins n)) n
  exact hrun.seen

/-- A design with a collision in mid-frame against one at power-up. -/
theorem reset_forgets_midframe :
    (Clocked.run (Design.clk .shipped) (fun _ => ⟨false, 0x1A⟩)
        (Clocked.run (Design.clk .shipped) (fun _ => ⟨true, 0x04⟩)
          ⟨default, ⟨true, true, true, 300, 200⟩, false⟩ 2) 5).seen .shipped =
      (Clocked.run (Design.clk .shipped) (fun _ => ⟨false, 0x1A⟩)
        (Clocked.run (Design.clk .shipped) (fun _ => ⟨true, 0⟩) default 2) 5).seen .shipped :=
  reset_forgets .shipped ⟨default, ⟨true, true, true, 300, 200⟩, false⟩ default rfl
    (fun _ => ⟨true, 0x04⟩) (fun _ => ⟨true, 0⟩) 1 (fun _ _ => rfl) (fun _ _ => rfl)
    ⟨0, Nat.zero_le 1, rfl⟩ (fun _ => ⟨false, 0x1A⟩) 5

end Lab8
