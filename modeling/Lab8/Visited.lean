/-
  The eaten pellets are exactly the visited pellets.

  Eating is triggered where the scan meets Pac-Man's drawn box, which stands at the position
  REGISTER, and clears the cell of the exported position, one motion ahead.

  1. **The design is a scanned machine** (`Design.sweep`), so nothing unvisited is cleared and nothing
     visited is skipped; up to the first edge Pac-Man rests on his starting cell, which has no
     pellet (`Design.address_start`).
  2. **One pellet a frame** — after an edge the exported cell is the same up to the next one, and at
     the edge itself the scan is off the box.
-/
import Lab8.Sweep
import Lab8.Tearing

namespace Lab8

/-! ## One Clk of the pellet map -/

/-- `is_food_eaten`: the scan is on Pac-Man's drawn box. -/
def Design.isFoodEaten (d : Design) : Bool :=
  isBall d.vga.hCounter d.vga.vCounter d.board.pacMan.toPiece

/-- `food_write_address`: the cell of Pac-Man's exported corner. -/
def Design.foodWriteAddress (d : Design) : Nat :=
  foodAddress d.board.pacMan.ballXPosIn d.board.pacMan.ballYPosIn

theorem Design.clk_food (T : Tables) {i : DesignIn} (d : Design) (hr : i.reset = false) :
    (d.clk T i).board.food = d.board.food.clk T false d.isFoodEaten d.vga.hCounter d.vga.vCounter
      d.board.pacMan.ballXPosIn d.board.pacMan.ballYPosIn := by
  rw [← hr]
  rfl

/-- With Reset low and no edge Pac-Man's registers do not change. -/
theorem Board.clk_pacMan_idle (T : Tables) {i : ClkIn} {b : Board} (hr : i.reset = false)
    (he : b.pacMan.frameClkRisingEdge i.frameClk = false) :
    (b.clk T i).pacMan.toPiece = b.pacMan.toPiece := by
  simp only [Board.clk, hr, Mover.pacManClk, he]
  rfl

/-! ## The design is scanned -/

section Run

variable {T : Tables} {d : Design} {ins : Nat → DesignIn}

/-- The edge Pac-Man's module sees. -/
def Design.atEdge (d : Design) : Bool := d.board.pacMan.frameClkRisingEdge d.vga.vgaVs

theorem Design.atEdge_run (hd : d.Released T) (hins : ∀ n, (ins n).reset = false) (n : Nat) :
    (Clocked.run (Design.clk T) ins d n).atEdge = decide (framePulse d.vgaClk n) :=
  congrArg Prod.fst (Design.edges_run hd hins n)

/-- **The design is a scanned machine.** -/
theorem Design.sweep (hd : d.Released T) (hins : ∀ n, (ins n).reset = false) :
    Sweep T d.vgaClk (fun n => (Clocked.run (Design.clk T) ins d n).vga)
      (fun n => (Clocked.run (Design.clk T) ins d n).board.pacMan.toPiece)
      (fun n => (Clocked.run (Design.clk T) ins d n).board.food) where
  scans := Design.vga_run T hd.vga hins
  still n hno := by
    apply Board.clk_pacMan_idle T (hins n)
    have he := Design.atEdge_run hd hins n
    rw [decide_eq_false hno] at he
    exact he
  eats n := Design.clk_food T _ (hins n)
  safe n := (Design.steady_run hd ins n).safe.pacMan

/-- At an edge the scan is off the box: it is in row 0 or at the start of row 492. -/
theorem Design.isFoodEaten_atEdge (hd : d.Released T) (hins : ∀ n, (ins n).reset = false) {e : Nat}
    (he : framePulse d.vgaClk e) : (Clocked.run (Design.clk T) ins d e).isFoodEaten = false := by
  have hbox := (Design.steady_run hd ins e).safe.pacMan.box_bounds
  have hrow := (scan_counters (Raster.half d.vgaClk e)).2
  rw [← Design.vga_run T hd.vga hins e] at hrow
  rw [← Bool.not_eq_true, Design.isFoodEaten, isBall, onSprite_iff]
  unfold framePulse at he
  unfold Raster.row Raster.half at hrow
  simp only [Piece.pos]
  omega

/-- Up to the first edge Pac-Man rests on his starting cell. -/
theorem Design.address_start (hd : d.Released T) (hins : ∀ n, (ins n).reset = false) {m : Nat}
    (hm : Raster.phase d.vgaClk m ≤ 2) :
    (Clocked.run (Design.clk T) ins d m).foodWriteAddress = 150 := by
  have hsame : (Clocked.run (Design.clk T) ins d m).board.pacMan.toPiece = d.board.pacMan.toPiece :=
    (Design.sweep hd hins).between (Nat.zero_le m) (fun k _ hk => by
      unfold framePulse Raster.phase at *
      omega)
  obtain ⟨b, i, hi, hb⟩ := hd.board
  have hcenter : d.board.pacMan.toPiece = Actors.center.pacMan := by
    rw [hb]
    exact congrArg Actors.pacMan (b.clk_actors_reset T hi)
  show foodAddress (Clocked.run (Design.clk T) ins d m).board.pacMan.toPiece.ballXPosIn
    (Clocked.run (Design.clk T) ins d m).board.pacMan.toPiece.ballYPosIn = 150
  rw [hsame, hcenter]
  decide

/-- **One pellet a frame**: two cells cleared between two consecutive edges are the same cell. -/
theorem Design.cleared_unique (hd : d.Released T) (hins : ∀ n, (ins n).reset = false) {e e' : Nat}
    (hee : e < e') (he : framePulse d.vgaClk e) (hno : ∀ k, e < k → k < e' → ¬ framePulse d.vgaClk k)
    {c c' : Fin 220}
    (hc : c ∈ Latch.raised (Clocked.run (Design.clk T) ins d e).board.food.food
      (Clocked.run (Design.clk T) ins d e').board.food.food)
    (hc' : c' ∈ Latch.raised (Clocked.run (Design.clk T) ins d e).board.food.food
      (Clocked.run (Design.clk T) ins d e').board.food.food) : c = c' := by
  -- the exported cell from `e + 1` on; at `e` itself nothing is cleared
  have haddr : ∀ c : Fin 220,
      c ∈ Latch.raised (Clocked.run (Design.clk T) ins d e).board.food.food
        (Clocked.run (Design.clk T) ins d e').board.food.food →
      (Clocked.run (Design.clk T) ins d (e + 1)).foodWriteAddress = c.val := by
    intro c hc
    rw [Latch.mem_raised] at hc
    obtain ⟨n, hen, hne, heat, ha⟩ :=
      (Design.sweep hd hins).exists_clearing (Nat.le_of_lt hee) hc.1 hc.2
    have hlt : e < n := by
      rcases Nat.eq_or_lt_of_le hen with h | h
      · rw [← h] at heat
        exact absurd ((Design.isFoodEaten_atEdge hd hins he).symm.trans heat) Bool.false_ne_true
      · exact h
    have hsame := (Design.sweep hd hins).between hlt
      (fun k hk hkn => hno k hk (Nat.lt_trans hkn hne))
    rw [← ha]
    exact congrArg Piece.foodWriteAddress hsame.symm
  exact Fin.ext ((haddr c hc).symm.trans (haddr c' hc'))

/-- The score of a design run grows by the number of cells cleared. -/
theorem Design.score_between (hT : T.scoreTemp = 0) (hd : d.Released T)
    (hins : ∀ n, (ins n).reset = false) {m n : Nat} (hmn : m ≤ n) :
    (Clocked.run (Design.clk T) ins d n).board.food.score.toNat =
      (Clocked.run (Design.clk T) ins d m).board.food.score.toNat +
        (Latch.raised (Clocked.run (Design.clk T) ins d m).board.food.food
          (Clocked.run (Design.clk T) ins d n).board.food.food).card := by
  obtain ⟨b, i, hi, hb⟩ := hd.board
  rw [Design.board_run, Design.board_run, hb]
  exact (counted_between hT b hi _ hmn (fun k _ _ => hins k)).2

end Run

/-- The cell `(row, column)` of Pac-Man's exported corner. -/
def Design.corner (d : Design) : Nat × Nat :=
  (d.board.pacMan.ballYPosIn.toNat / 32, d.board.pacMan.ballXPosIn.toNat / 32)

/-- In a safe board the corner's cell and the write address name the same cell. -/
theorem Design.corner_iff {d : Design} (hs : d.board.Safe) (c : Fin 220) :
    d.corner = (c.val / 20, c.val % 20) ↔ d.foodWriteAddress = c.val := by
  have hin := hs.pacMan.clear.interior
  rw [Design.corner, Prod.mk.injEq, Design.foodWriteAddress, foodAddress_eq]
  omega

/-- **Eaten is visited.**  With the shipped pellet map, after Reset was held over an edge of
    `VGA_CLK`, for every key sequence:
    (1) at each frame edge the pellets eaten are exactly the initial pellets whose cell held
        Pac-Man's exported corner at some Clk since the release;
    (2) between two consecutive edges the score grows by at most one. -/
theorem eaten_iff_visited (T : Tables) (hfood : T.foodTemp = foodTxt)
    (hscore : T.scoreTemp = scoreTxt) (d : Design) (hd : d.Released T) (ins : Nat → DesignIn)
    (hins : ∀ n, (ins n).reset = false) :
    (∀ e, (Clocked.run (Design.clk T) ins d e).atEdge = true → ∀ c : Fin 220,
      (T.foodTemp c = false ∧
          (Clocked.run (Design.clk T) ins d e).board.food.food c = true) ↔
        (T.foodTemp c = false ∧ ∃ m, m ≤ e ∧
          (Clocked.run (Design.clk T) ins d m).corner = (c.val / 20, c.val % 20))) ∧
    (∀ e e', e < e' → (Clocked.run (Design.clk T) ins d e).atEdge = true →
      (∀ k, e < k → k < e' → (Clocked.run (Design.clk T) ins d k).atEdge = false) →
      (Clocked.run (Design.clk T) ins d e').board.food.score.toNat ≤
        (Clocked.run (Design.clk T) ins d e).board.food.score.toNat + 1) := by
  have hedge : ∀ n, (Clocked.run (Design.clk T) ins d n).atEdge = true ↔ framePulse d.vgaClk n := by
    intro n
    rw [Design.atEdge_run hd hins, decide_eq_true_eq]
  have hstart : d.board.food.food = T.foodTemp := by
    obtain ⟨b, i, hi, hb⟩ := hd.board
    rw [hb]
    simp only [Board.clk, hi]
    rfl
  constructor
  · intro e he c
    apply and_congr_right
    intro hpellet
    constructor
    · intro hc
      have hdown : (Clocked.run (Design.clk T) ins d 0).board.food.food c = false := by
        rw [Clocked.run_zero, hstart]
        exact hpellet
      obtain ⟨n, _, hne, _, ha⟩ :=
        (Design.sweep hd hins).exists_clearing (Nat.zero_le e) hdown hc
      exact ⟨n, Nat.le_of_lt hne,
        (Design.corner_iff (Design.steady_run hd ins n).safe c).mpr ha⟩
    · rintro ⟨m, hme, hm⟩
      rw [Design.corner_iff (Design.steady_run hd ins m).safe] at hm
      rcases Nat.lt_or_ge 2 (Raster.phase d.vgaClk m) with h | h
      · exact (Design.sweep hd hins).visited_cleared ((hedge e).mp he) hme h hm
      · -- the starting cell is no pellet
        rw [Design.address_start hd hins h] at hm
        have hc : c = ⟨150, by decide⟩ := Fin.ext hm.symm
        rw [hfood, hc] at hpellet
        exact absurd hpellet (by decide)
  · intro e e' hee he hno
    rw [Design.score_between hscore hd hins (Nat.le_of_lt hee)]
    apply Nat.add_le_add_left
    rw [Finset.card_le_one]
    intro c hc c' hc'
    refine Design.cleared_unique hd hins hee ((hedge e).mp he) ?_ hc hc'
    intro k hk hke
    rw [← hedge k, hno k hk hke]
    exact Bool.false_ne_true

/-- The first edge after power-up, and the cell above the starting cell. -/
theorem eaten_iff_visited_first :
    (Tables.shipped.foodTemp ⟨130, by decide⟩ = false ∧
        (Clocked.run (Design.clk .shipped) (fun _ => ⟨false, 0x1A⟩) (.start .shipped) 1).board.food.food
          ⟨130, by decide⟩ = true) ↔
      (Tables.shipped.foodTemp ⟨130, by decide⟩ = false ∧ ∃ m, m ≤ 1 ∧
        (Clocked.run (Design.clk .shipped) (fun _ => ⟨false, 0x1A⟩) (.start .shipped) m).corner =
          (130 / 20, 130 % 20)) :=
  (eaten_iff_visited .shipped rfl rfl (.start .shipped) (Design.start_released .shipped)
    (fun _ => ⟨false, 0x1A⟩) (fun _ => rfl)).1 1 (by decide) ⟨130, by decide⟩

end Lab8
