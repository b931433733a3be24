/-
  Where Pac-Man is when a pellet disappears.

  The dot is drawn at offsets 16 to 20 of its cell; the cell cleared is the one Pac-Man's exported
  top-left corner has just entered.  Entering to the right or down the corner is at offset 0 and the
  box lies over the dot; entering to the left or up it is at offset 31, and the box ends eleven
  pixels short of the dot.

  1. `Piece.entered_iff` — the geometry: after a step into another cell, contact is a matter of the
     direction alone.
  2. `Design.entered` — a pellet is cleared in the frame its cell is entered: had the corner been
     there before the frame's edge, the frame before would have cleared it.
  3. `contact_iff` — so a pellet disappears on contact exactly when Pac-Man goes right or down.
  4. `no_contact` — a run in which he goes up (`turnUp`).
-/
import Lab8.Visited
import Lab8.Motion

namespace Lab8

/-! ## The geometry of entering a cell -/

/-- The 26x26 box at `pos` has a pixel in common with the dot of cell `c`. -/
def Overlaps (pos : BitVec 10 × BitVec 10) (c : Fin 220) : Prop :=
  ∃ px py : Nat, (pos.1.toNat ≤ px ∧ px ≤ pos.1.toNat + 25) ∧
    (pos.2.toNat ≤ py ∧ py ≤ pos.2.toNat + 25) ∧
    (32 * (c.val % 20) + 16 ≤ px ∧ px ≤ 32 * (c.val % 20) + 20) ∧
    (32 * (c.val / 20) + 16 ≤ py ∧ py ≤ 32 * (c.val / 20) + 20)

/-- With its corner in the cell, the box meets the dot if the corner is at offset 20 at most. -/
theorem overlaps_iff {pos : BitVec 10 × BitVec 10} {c : Fin 220} (hx : pos.1.toNat < 640)
    (hc : foodAddress pos.1 pos.2 = c.val) :
    Overlaps pos c ↔ pos.1.toNat % 32 ≤ 20 ∧ pos.2.toNat % 32 ≤ 20 := by
  rw [foodAddress_eq] at hc
  constructor
  · rintro ⟨px, py, h1, h2, h3, h4⟩
    omega
  · rintro ⟨h1, h2⟩
    exact ⟨32 * (c.val % 20) + 20, 32 * (c.val / 20) + 20, by omega, by omega, by omega, by omega⟩

/-- A coordinate that steps down into another cell is at its last offset. -/
theorem enters_down {z z' : Nat} (h : z' + 1 = z) (hne : z / 32 ≠ z' / 32) : ¬ z' % 32 ≤ 20 := by
  omega

/-- A coordinate that steps up into another cell is at its first offset. -/
theorem enters_up {z z' : Nat} (h : z' = z + 1) (hne : z / 32 ≠ z' / 32) : z' % 32 ≤ 20 := by omega

/-- **Entering a cell.**  A piece whose exported corner is in another cell than its register meets
    the dot of that cell exactly when it goes right or down. -/
theorem Piece.entered_iff {wall : Int → Int → Bool} {p : Piece Direction} (hs : p.Safe)
    (hl : p.Lawful wall) {c : Fin 220} (hc : foodAddress p.ballXPosIn p.ballYPosIn = c.val)
    (hne : foodAddress p.ballXPos p.ballYPos ≠ c.val) :
    Overlaps p.posOut c ↔ p.currentDirection = 0b010 ∨ p.currentDirection = 0b001 := by
  -- the piece moves, so it moves along its direction
  have hmoves : (p.ballXMotion, p.ballYMotion) ≠ (0, 0) := by
    intro h0
    have hsame := Piece.posOut_of_still h0
    rw [Piece.posOut, Piece.pos, Prod.mk.injEq] at hsame
    rw [← hsame.1, ← hsame.2] at hne
    exact hne hc
  obtain ⟨hside, hm⟩ := hl.drives (fun h => hmoves (hl.rest h))
  rw [if_neg (fun hb => hmoves (by rw [hm, if_pos hb]))] at hm
  obtain ⟨hleft, hdown, hright, hup⟩ := hs.exports hm
  obtain ⟨hrow, hcol⟩ := hs.lane
  have hX : p.posOut.1.toNat < 640 := by
    have hin := hs.clear.interior
    show p.ballXPosIn.toNat < 640
    omega
  rw [overlaps_iff hX hc]
  show p.ballXPosIn.toNat % 32 ≤ 20 ∧ p.ballYPosIn.toNat % 32 ≤ 20 ↔ _
  -- only the coordinate that moves can change the cell
  rw [← hc, foodAddress_eq, foodAddress_eq] at hne
  have hneX : p.ballYPosIn = p.ballYPos → p.ballXPos.toNat / 32 ≠ p.ballXPosIn.toNat / 32 := by
    intro hy hx
    rw [hy, hx] at hne
    exact hne rfl
  have hneY : p.ballXPosIn = p.ballXPos → p.ballYPos.toNat / 32 ≠ p.ballYPosIn.toNat / 32 := by
    intro hx hy
    rw [hx, hy] at hne
    exact hne rfl
  rw [Prod.mk.injEq] at hm
  rcases hside with hd | hd | hd | hd
  · obtain ⟨hx, hy⟩ := hleft hd
    rw [hd]
    exact ⟨fun h => absurd h.1 (enters_down hx (hneX hy)), fun h => absurd h (by decide)⟩
  · obtain ⟨hy, hx⟩ := hdown hd
    have hlane := hcol (by rw [hm.2, hd]; decide)
    exact ⟨fun _ => Or.inr hd, fun _ => ⟨by omega, enters_up hy (hneY hx)⟩⟩
  · obtain ⟨hx, hy⟩ := hright hd
    have hlane := hrow (by rw [hm.1, hd]; decide)
    exact ⟨fun _ => Or.inl hd, fun _ => ⟨enters_up hx (hneX hy), by omega⟩⟩
  · obtain ⟨hy, hx⟩ := hup hd
    rw [hd]
    exact ⟨fun h => absurd h.2 (enters_down hy (hneY hx)), fun h => absurd h (by decide)⟩

/-! ## A pellet is cleared in the frame its cell is entered -/

section Run

variable {T : Tables} {d : Design} {ins : Nat → DesignIn}

/-- The board of a design run is driven. -/
theorem Design.driven_run (hd : d.Released T) (ins : Nat → DesignIn) (n : Nat) :
    (Clocked.run (Design.clk T) ins d n).board.Driven T := by
  obtain ⟨b, i, hi, hb⟩ := hd.board
  rw [Design.board_run, hb]
  exact Lab8.driven_run T b hi _ n

/-- **The register of a frame is the exported position at the frame's first edge.** -/
theorem Design.exists_edge (hd : d.Released T) (hins : ∀ n, (ins n).reset = false) {n : Nat}
    (hn : 2 < Raster.phase d.vgaClk n) : ∃ e, e < n ∧ framePulse d.vgaClk e ∧
      (Clocked.run (Design.clk T) ins d n).board.pacMan.toPiece.pos =
        (Clocked.run (Design.clk T) ins d e).board.pacMan.toPiece.posOut := by
  -- the last pulse before `n`
  obtain ⟨e, hen, he, hno⟩ : ∃ e, e < n ∧ framePulse d.vgaClk e ∧
      ∀ k, e + 1 ≤ k → k < n → ¬ framePulse d.vgaClk k := by
    have hlevel := Raster.phase_zero_lt d.vgaClk
    unfold framePulse Raster.phase at *
    generalize (if d.vgaClk = true then 0 else 1 : Nat) = s at *
    rcases Nat.lt_or_ge (n + s) 787201 with h | h
    · exact ⟨2 - s, by omega, by omega, fun k hk hkn => by omega⟩
    · exact ⟨(n + s + 52799) / 840000 * 840000 - 52800 - s, by omega, by omega,
        fun k hk hkn => by omega⟩
  refine ⟨e, hen, he, ?_⟩
  have hedge := Design.atEdge_run hd hins e
  rw [decide_eq_true he] at hedge
  have hclk : (Clocked.run (Design.clk T) ins d (e + 1)).board.pacMan.toPiece.pos =
      (Clocked.run (Design.clk T) ins d e).board.pacMan.toPiece.posOut := by
    have h := Board.clk_pacMan T (i := (Clocked.run (Design.clk T) ins d e).clkIn (ins e))
      (hins e) (Design.driven_run hd ins e).safe.wall
    exact congrArg Piece.pos (h.trans (if_pos hedge))
  rw [(Design.sweep hd hins).between hen hno]
  exact hclk

/-- **A pellet is cleared in the frame its cell is entered**: the register is in another cell. -/
theorem Design.entered (hfood : T.foodTemp = foodTxt) (hd : d.Released T)
    (hins : ∀ n, (ins n).reset = false) {n : Nat} {c : Fin 220}
    (hdown : (Clocked.run (Design.clk T) ins d n).board.food.food c = false)
    (hc : (Clocked.run (Design.clk T) ins d n).foodWriteAddress = c.val) :
    foodAddress (Clocked.run (Design.clk T) ins d n).board.pacMan.ballXPos
      (Clocked.run (Design.clk T) ins d n).board.pacMan.ballYPos ≠ c.val := by
  -- the starting cell is no pellet
  have hstart : c.val ≠ 150 := by
    intro h150
    have h0 : d.board.food.food = foodTxt := by
      obtain ⟨b, i, hi, hb⟩ := hd.board
      rw [hb, ← hfood]
      simp only [Board.clk, hi]
      rfl
    have hup : (Clocked.run (Design.clk T) ins d 0).board.food.food c = true := by
      rw [Clocked.run_zero, h0, show c = ⟨150, by decide⟩ from Fin.ext h150]
      decide
    rw [(Design.sweep hd hins).keeps (Nat.zero_le n) hup] at hdown
    exact absurd hdown.symm Bool.false_ne_true
  rcases Nat.lt_or_ge 2 (Raster.phase d.vgaClk n) with hn | hn
  · obtain ⟨e, hen, he, hpos⟩ := Design.exists_edge hd hins hn
    intro hsame
    have haddr : (Clocked.run (Design.clk T) ins d e).foodWriteAddress = c.val := by
      rw [Piece.pos, Piece.posOut, Prod.mk.injEq] at hpos
      rw [← hsame]
      show foodAddress (Clocked.run (Design.clk T) ins d e).board.pacMan.toPiece.ballXPosIn
        (Clocked.run (Design.clk T) ins d e).board.pacMan.toPiece.ballYPosIn = _
      rw [← hpos.1, ← hpos.2]
    rcases Nat.lt_or_ge 2 (Raster.phase d.vgaClk e) with h | h
    · -- the frame before has cleared the cell
      have hup := (Design.sweep hd hins).visited_cleared he (Nat.le_refl e) h haddr
      rw [(Design.sweep hd hins).keeps (Nat.le_of_lt hen) hup] at hdown
      exact absurd hdown.symm Bool.false_ne_true
    · exact hstart (haddr.symm.trans (Design.address_start hd hins h))
  · exact absurd (hc.symm.trans (Design.address_start hd hins hn)) hstart

end Run

/-- **When a pellet disappears on contact.**  With the shipped pellet map, after Reset was held over
    an edge of `VGA_CLK`, for every key sequence: at any Clk at which the pellet of a cell is
    cleared, Pac-Man's box at his exported position overlaps the dot of that cell if and only if his
    direction is right or down. -/
theorem contact_iff (T : Tables) (hfood : T.foodTemp = foodTxt) (d : Design) (hd : d.Released T)
    (ins : Nat → DesignIn) (hins : ∀ n, (ins n).reset = false) (n : Nat) (c : Fin 220)
    (hdown : (Clocked.run (Design.clk T) ins d n).board.food.food c = false)
    (hup : (Clocked.run (Design.clk T) ins d (n + 1)).board.food.food c = true) :
    Overlaps (Clocked.run (Design.clk T) ins d n).board.actors.outputs.ball c ↔
      (Clocked.run (Design.clk T) ins d n).board.pacMan.currentDirection = 0b010 ∨
        (Clocked.run (Design.clk T) ins d n).board.pacMan.currentDirection = 0b001 := by
  obtain ⟨_, hc⟩ := (Design.sweep hd hins).rises hdown hup
  have hdriven := Design.driven_run hd ins n
  exact Piece.entered_iff hdriven.safe.pacMan hdriven.lawful hc
    (Design.entered hfood hd hins hdown hc)

/-! ## A run that goes up -/

/-- **The outputs of a design run** are those of the frame game over the keys sampled at the
    pulses. -/
theorem Design.outputs_run {T : Tables} {d : Design} {ins : Nat → DesignIn} (hd : d.Released T)
    (hins : ∀ n, (ins n).reset = false) (n : Nat) :
    (Clocked.run (Design.clk T) ins d n).board.actors.outputs =
      (frameRun T (Clocked.sampled (fun k => decide (framePulse d.vgaClk k))
        (fun k => (ins k).key) n)).outputs := by
  obtain ⟨b, i, hi, hb⟩ := hd.board
  have hins' : ∀ k, ((Clocked.run (Design.clk T) ins d k).clkIn (ins k)).reset = false := hins
  have hrun := Lab8.outputs_run T b hi hins' n
  have hedge : frameEdge i.frameClk (fun k => (Clocked.run (Design.clk T) ins d k).clkIn (ins k)) =
      fun k => decide (framePulse d.vgaClk k) := by
    funext k
    have hsync := (tracks_run T b hi hins' k).synced.edges
      (Clocked.run (Design.clk T) ins d k).vga.vgaVs
    rw [← hb, ← Design.board_run, Design.edges_run hd hins k] at hsync
    exact (congrArg Prod.fst hsync).symm
  rw [← hb, ← Design.board_run, frameKeys, hedge] at hrun
  exact hrun

/-- `D` up to the first pulse, `W` from then on. -/
def turnUp (n : Nat) : DesignIn := ⟨false, if n < 4 then 0x07 else 0x1A⟩

theorem turnUp_low (n : Nat) : (turnUp n).reset = false := rfl

/-- The keys sampled up to a Clk after the first pulse. -/
theorem turnUp_sampled {n : Nat} (hn : 2 ≤ n) :
    Clocked.sampled (fun k => decide (framePulse false k)) (fun k => (turnUp k).key) n =
      0x07 :: List.replicate (frameIndex false n) 0x1A := by
  have hphase : ∀ k, Raster.phase false k = k + 1 := fun _ => rfl
  have hfirst : ∀ k, Raster.phase false k = 2 → (turnUp k).key = 0x07 := by
    intro k hk
    rw [hphase] at hk
    exact if_pos (by omega)
  have hrest : ∀ k, Raster.phase false k % 840000 = 787200 → (turnUp k).key = 0x1A := by
    intro k hk
    rw [hphase] at hk
    exact if_neg (by omega)
  rw [sampled_pulses false hfirst hrest]
  exact if_pos (Nat.lt_succ_of_le hn)

/-- Along row 7 to column 13, and one pixel up. -/
theorem turnUp_frames :
    (∀ k < 96, (frameRun .shipped (0x07 :: List.replicate k 0x1A)).outputs.ball =
      (321 + BitVec.ofNat 10 k, 224)) ∧
    (frameRun .shipped (0x07 :: List.replicate 96 0x1A)).outputs.ball = (416, 223) := by
  constructor
  · decide +kernel
  · decide +kernel

/-- His position in the run, frame by frame. -/
theorem turnUp_ball {n : Nat} (hn : 2 ≤ n) :
    (Clocked.run (Design.clk .shipped) turnUp (.start .shipped) n).board.actors.outputs.ball =
      (frameRun .shipped (0x07 :: List.replicate (frameIndex false n) 0x1A)).outputs.ball := by
  have hlevel : (Design.start .shipped).vgaClk = false := rfl
  rw [Design.outputs_run (Design.start_released .shipped) turnUp_low n, hlevel, turnUp_sampled hn]

/-- The cell that food clears is the one his exported corner is in. -/
theorem turnUp_address (n : Nat) :
    (Clocked.run (Design.clk .shipped) turnUp (.start .shipped) n).board.pacMan.foodWriteAddress =
      foodAddress
        (Clocked.run (Design.clk .shipped) turnUp (.start .shipped) n).board.actors.outputs.ball.1
        (Clocked.run (Design.clk .shipped) turnUp (.start .shipped) n).board.actors.outputs.ball.2 :=
  rfl

/-- Up to frame 96 he asks for that cell from one place only: he is in row 7 until then. -/
theorem turnUp_enters {n : Nat} (hn : n ≤ 81427199)
    (hc : (Clocked.run (Design.clk .shipped) turnUp (.start .shipped) n).board.pacMan.foodWriteAddress
      = 133) :
    (Clocked.run (Design.clk .shipped) turnUp (.start .shipped) n).board.actors.outputs.ball =
      (416, 223) := by
  rcases Nat.lt_or_ge n 2 with h | h
  · -- before the first frame he is on his starting cell
    have h150 := Design.address_start (Design.start_released .shipped) turnUp_low (m := n) (by
      show n + 1 ≤ 2
      omega)
    exact absurd (hc.symm.trans h150) (by decide)
  · rw [turnUp_address, turnUp_ball h] at hc
    rw [turnUp_ball h]
    have hframe : frameIndex false n ≤ 96 := by
      unfold frameIndex Raster.phase
      rw [if_neg Bool.false_ne_true]
      omega
    rcases Nat.lt_or_eq_of_le hframe with hlt | heq
    · -- in row 7 the address is that of another cell
      rw [turnUp_frames.1 _ hlt, foodAddress_eq] at hc
      exact absurd hc (by
        show (224 : BitVec 10).toNat / 32 * 20 + _ ≠ 133
        rw [show (224 : BitVec 10).toNat = 224 from rfl]
        omega)
    · rw [heq]
      exact turnUp_frames.2

/-- **The run clears the pellet in row 6 and column 13**, with the box one row above its cell's
    lower edge. -/
theorem turnUp_clears : ∃ n,
    (Clocked.run (Design.clk .shipped) turnUp (.start .shipped) n).board.food.food 133 = false ∧
    (Clocked.run (Design.clk .shipped) turnUp (.start .shipped) (n + 1)).board.food.food 133 =
      true ∧
    (Clocked.run (Design.clk .shipped) turnUp (.start .shipped) n).board.actors.outputs.ball =
      (416, 223) := by
  have hsweep := Design.sweep (Design.start_released .shipped) turnUp_low
  -- the frame of Clk 80640000 shows him in the cell, so the frame's edge finds it cleared
  have hcleared : (Clocked.run (Design.clk .shipped) turnUp (.start .shipped) 81427199).board.food.food
      133 = true := by
    refine hsweep.visited_cleared (m := 80640000) (by decide) (by decide) (by decide) ?_
    rw [turnUp_address, turnUp_ball (by decide), show frameIndex false 80640000 = 96 from by decide,
      turnUp_frames.2]
    decide
  obtain ⟨n, _, hn, hdown, hup⟩ := Clocked.exists_rise
    (f := fun n => (Clocked.run (Design.clk .shipped) turnUp (.start .shipped) n).board.food.food 133)
    (Nat.zero_le 81427199) (by decide) hcleared
  obtain ⟨_, hc⟩ := hsweep.rises hdown hup
  exact ⟨n, hdown, hup, turnUp_enters (Nat.le_of_lt hn) hc⟩

/-- **A pellet that disappears without contact.**  The box is at `(416, 223)`, the dot ends at row
    212. -/
theorem no_contact : ∃ n,
    (Clocked.run (Design.clk .shipped) turnUp (.start .shipped) n).board.food.food 133 = false ∧
    (Clocked.run (Design.clk .shipped) turnUp (.start .shipped) (n + 1)).board.food.food 133 =
      true ∧
    ¬ Overlaps
      (Clocked.run (Design.clk .shipped) turnUp (.start .shipped) n).board.actors.outputs.ball
      133 := by
  obtain ⟨n, hdown, hup, hpos⟩ := turnUp_clears
  refine ⟨n, hdown, hup, ?_⟩
  rw [hpos, overlaps_iff (by decide) (by decide)]
  decide

/-- In that run he goes neither right nor down when the pellet disappears. -/
theorem contact_iff_turnUp : ∃ n,
    ¬ ((Clocked.run (Design.clk .shipped) turnUp (.start .shipped) n).board.pacMan.currentDirection =
        0b010 ∨
      (Clocked.run (Design.clk .shipped) turnUp (.start .shipped) n).board.pacMan.currentDirection =
        0b001) := by
  obtain ⟨n, hdown, hup, hpos⟩ := turnUp_clears
  refine ⟨n, ?_⟩
  rw [← contact_iff .shipped rfl (.start .shipped) (Design.start_released .shipped) turnUp
    (fun _ => rfl) n 133 hdown hup, hpos, overlaps_iff (by decide) (by decide)]
  decide

end Lab8
