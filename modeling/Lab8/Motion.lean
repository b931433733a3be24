/-
  Pac-Man's motion law.

  Motion and direction are separate registers with different writers: an accepted key sets both, the
  wall stop clears one axis of the motion, a collision resets the direction to `3'b111`.  They never
  disagree (`Piece.Lawful`): with direction `3'b111` the motion is zero, and with any other the
  motion is the direction's unit vector, except that it is zero where the box stands in a cell
  whose neighbour on that side is a wall.

  1. `pacManStop_open`, `pacManStop_closed` — the wall stop in closed form, once motion and direction
     agree.
  2. `Piece.Lawful.pacManHeading` — the step lemma.  The sensors look at the exported position, which the
     same edge loads into the register; a piece that was blocked has not moved, so it is still
     blocked there.
  3. `motion_law` — every state of every run that starts with Reset.
-/
import Lab8.Safety

namespace Lab8

/-! ## The wall ahead -/

/-- The wall bit of the neighbour cell on the side of a direction. -/
def wallAhead (wall : Int → Int → Bool) (x y : BitVec 10) (d : Direction) : Bool :=
  if d = 0b000 then wall (coordinate y) (coordinate x - 1)
  else if d = 0b001 then wall (coordinate y + 1) (coordinate x)
  else if d = 0b010 then wall (coordinate y) (coordinate x + 1)
  else if d = 0b011 then wall (coordinate y - 1) (coordinate x)
  else false

/-- The box is inside one cell and the cell ahead is a wall. -/
def blocked (wall : Int → Int → Bool) (x y : BitVec 10) (d : Direction) : Bool :=
  inside x y && wallAhead wall x y d

/-- In the loaded maze the wall bits are the negated open bits. -/
theorem wallAhead_maze (T : Tables) {x y : BitVec 10} (hc : BoxClear x.toNat y.toNat)
    (hin : inside x y = true) (d : Direction) :
    wallAhead (mazeWall T) x y d = !(neighbours x.toNat y.toNat).side d := by
  have hs := sense_maze T hc hin
  rw [sense, hin, if_pos rfl, Neighbours.sensor, Sensor.mk.injEq] at hs
  obtain ⟨hu, hd, hr, hl, _⟩ := hs
  unfold wallAhead Neighbours.side
  rw [hl, hd, hr, hu]
  split
  · rfl
  · split
    · rfl
    · split
      · rfl
      · split
        · rfl
        · rfl

theorem blocked_maze (T : Tables) {x y : BitVec 10} (hc : BoxClear x.toNat y.toNat)
    (hin : inside x y = true) (d : Direction) :
    blocked (mazeWall T) x y d = !(neighbours x.toNat y.toNat).side d := by
  rw [blocked, hin, Bool.true_and, wallAhead_maze T hc hin]

theorem blocked_outside {wall : Int → Int → Bool} {x y : BitVec 10} (h : inside x y = false)
    (d : Direction) : blocked wall x y d = false := by
  rw [blocked, h, Bool.false_and]

/-! ## The wall stop in closed form -/

/-- With the side of the direction open nothing stops. -/
theorem pacManStop_open (n : Neighbours) {h : Heading Direction}
    (ho : n.side h.currentDirection = true) : pacManStop n.sensor h = h := by
  unfold Neighbours.side at ho
  unfold pacManStop
  split
  · split
    · rename_i hs
      rcases hs with ⟨hd, hw⟩ | ⟨hd, hw⟩
      · rw [if_pos hd] at ho
        rw [Neighbours.sensor, ho] at hw
        exact absurd hw Bool.false_ne_true
      · rw [hd] at ho
        rw [Neighbours.sensor, show n.right = true from ho] at hw
        exact absurd hw Bool.false_ne_true
    · split
      · rename_i hs
        rcases hs with ⟨hd, hw⟩ | ⟨hd, hw⟩
        · rw [hd] at ho
          rw [Neighbours.sensor, show n.up = true from ho] at hw
          exact absurd hw Bool.false_ne_true
        · rw [hd] at ho
          rw [Neighbours.sensor, show n.down = true from ho] at hw
          exact absurd hw Bool.false_ne_true
      · rfl
  · rfl

/-- At a wall ahead all motion is gone: along the other axis there was none. -/
theorem pacManStop_closed (n : Neighbours) {h : Heading Direction} (ha : h.Agrees)
    (hc : n.side h.currentDirection = false) :
    pacManStop n.sensor h = ⟨0, 0, h.currentDirection⟩ := by
  obtain ⟨hdir, hmot⟩ := pacManStop_inside n ha
  have h0 : ((pacManStop n.sensor h).ballXMotion, (pacManStop n.sensor h).ballYMotion) = (0, 0) := by
    rcases hmot with h0 | ⟨ho, _⟩
    · exact h0
    · rw [hc] at ho
      exact absurd ho Bool.false_ne_true
  rw [Prod.mk.injEq] at h0
  generalize pacManStop n.sensor h = s at *
  obtain ⟨mx, my, d⟩ := s
  simp only at hdir h0
  rw [h0.1, h0.2, hdir]

/-! ## The law of one piece -/

/-- **The motion law** of a heading, for a box at `(x, y)`. -/
structure Heading.Lawful (wall : Int → Int → Bool) (x y : BitVec 10) (h : Heading Direction) :
    Prop where
  /-- With direction `3'b111` there is no motion. -/
  rest : h.currentDirection = 0b111 → (h.ballXMotion, h.ballYMotion) = (0, 0)
  /-- With any other direction it is that of a side, and the motion is its unit vector unless the
      box is blocked. -/
  drives : h.currentDirection ≠ 0b111 → IsSide h.currentDirection ∧
    (h.ballXMotion, h.ballYMotion) =
      if blocked wall x y h.currentDirection then (0, 0) else unitOf h.currentDirection

/-- A piece is lawful at its position register. -/
def Piece.Lawful (wall : Int → Int → Bool) (p : Piece Direction) : Prop :=
  p.toHeading.Lawful wall p.ballXPos p.ballYPos

variable {wall : Int → Int → Bool}

/-- A lawful heading has motion and direction in agreement. -/
theorem Heading.Lawful.agrees {x y : BitVec 10} {h : Heading Direction} (hl : h.Lawful wall x y) :
    h.Agrees := by
  by_cases h7 : h.currentDirection = 0b111
  · exact Or.inr (hl.rest h7)
  · have hm := (hl.drives h7).2
    split at hm
    · exact Or.inr hm
    · exact Or.inl hm

/-- Halting is lawful. -/
theorem Heading.Lawful.halt (x y : BitVec 10) :
    (⟨0, 0, 0b111⟩ : Heading Direction).Lawful wall x y :=
  ⟨fun _ => rfl, fun h => absurd rfl h⟩

/-- A step towards a side that is not blocked is lawful. -/
theorem Heading.Lawful.step {x y : BitVec 10} {d : Direction} (hd : IsSide d)
    (hfree : blocked wall x y d = false) : (stepOf d).Lawful wall x y := by
  refine ⟨?_, ?_⟩
  · intro h7
    have h : d = 0b111 := h7
    rw [h] at hd
    exact absurd hd (by decide)
  · intro _
    refine ⟨hd, ?_⟩
    show unitOf d = if blocked wall x y d then (0, 0) else unitOf d
    rw [hfree, if_neg Bool.false_ne_true]

/-- A piece without motion exports its register. -/
theorem Piece.posOut_of_still {δ : Type} {p : Piece δ}
    (h : (p.ballXMotion, p.ballYMotion) = (0, 0)) : p.posOut = p.pos := by
  rw [Prod.mk.injEq] at h
  simp [Piece.posOut, Piece.pos, Piece.ballXPosIn, Piece.ballYPosIn, h.1, h.2]

/-- **Where it is not blocked at its exported position, a lawful piece moves along its direction.**
    Had it been blocked at its register it would not have moved, and would be blocked still. -/
theorem Piece.Lawful.free {p : Piece Direction} (hl : p.Lawful wall)
    (h7 : p.currentDirection ≠ 0b111)
    (hfree : blocked wall p.ballXPosIn p.ballYPosIn p.currentDirection = false) :
    (p.ballXMotion, p.ballYMotion) = unitOf p.currentDirection := by
  have hm := (hl.drives h7).2
  split at hm
  · rename_i hb
    have hsame := Piece.posOut_of_still hm
    rw [Piece.posOut, Piece.pos, Prod.mk.injEq] at hsame
    rw [hsame.1, hsame.2, hb] at hfree
    exact absurd hfree.symm Bool.false_ne_true
  · exact hm

/-- So the heading it has may be kept at its exported position. -/
theorem Piece.Lawful.keep {p : Piece Direction} (hl : p.Lawful wall)
    (hfree : blocked wall p.ballXPosIn p.ballYPosIn p.currentDirection = false) :
    p.toHeading.Lawful wall p.ballXPosIn p.ballYPosIn := by
  refine ⟨hl.rest, ?_⟩
  intro h7
  refine ⟨(hl.drives h7).1, ?_⟩
  rw [hfree, if_neg Bool.false_ne_true]
  exact hl.free h7 hfree

/-! ## The step -/

/-- Inside a cell a key is ignored or sets a step towards an open side. -/
theorem pacManKey_inside (key : BitVec 8) (n : Neighbours) (h : Heading Direction) :
    pacManKey key n.sensor h = h ∨
      ∃ d, IsSide d ∧ n.side d = true ∧ pacManKey key n.sensor h = stepOf d := by
  rcases pacManKey_cases key n.sensor h with ⟨hw, he⟩ | ⟨hw, he⟩ | ⟨hw, he⟩ | ⟨hw, he⟩ | he
  · exact Or.inr ⟨0b000, by decide, by simpa [Neighbours.sensor, Neighbours.side] using hw, he⟩
  · exact Or.inr ⟨0b001, by decide, by simpa [Neighbours.sensor, Neighbours.side] using hw, he⟩
  · exact Or.inr ⟨0b010, by decide, by simpa [Neighbours.sensor, Neighbours.side] using hw, he⟩
  · exact Or.inr ⟨0b011, by decide, by simpa [Neighbours.sensor, Neighbours.side] using hw, he⟩
  · exact Or.inl he

/-- Between cells no key is taken and nothing stops. -/
theorem pacManHeading_outside (key : BitVec 8) {x y : BitVec 10} (hin : inside x y = false)
    (h : Heading Direction) : pacManHeading key (sense wall x y) false h = h := by
  rw [sense_outside hin]
  simp [pacManHeading, pacManKey, pacManStop]

/-- **Pac-Man's logic chooses lawful headings** for the exported position. -/
theorem Piece.Lawful.pacManHeading (T : Tables) {p : Piece Direction}
    (hl : p.Lawful (mazeWall T)) (hs : p.Safe) (key : BitVec 8) (collision : Bool) :
    (Lab8.pacManHeading key (p.sensor (mazeWall T)) collision p.toHeading).Lawful (mazeWall T)
      p.ballXPosIn p.ballYPosIn := by
  cases collision with
  | true => exact Heading.Lawful.halt _ _
  | false =>
    cases hin : inside p.ballXPosIn p.ballYPosIn with
    | false =>
      rw [Piece.sensor, pacManHeading_outside key hin]
      exact hl.keep (blocked_outside hin _)
    | true =>
      rw [Piece.sensor, sense_maze T hs.clear hin, Lab8.pacManHeading, if_neg Bool.false_ne_true]
      generalize hn : neighbours p.ballXPosIn.toNat p.ballYPosIn.toNat = n
      have hblock : ∀ d, blocked (mazeWall T) p.ballXPosIn p.ballYPosIn d = !n.side d := by
        intro d
        rw [blocked_maze T hs.clear hin, hn]
      rcases pacManKey_inside key n p.toHeading with hk | ⟨d, hd, hopen, hk⟩
      · rw [hk]
        cases hside : n.side p.currentDirection with
        | true =>
          rw [pacManStop_open n hside]
          exact hl.keep (by rw [hblock, hside]; rfl)
        | false =>
          -- only the four directions have a side that can be closed
          have h7 : p.currentDirection ≠ 0b111 := by
            intro h7
            rw [h7] at hside
            have hopen : n.side 0b111 = true := rfl
            rw [hside] at hopen
            exact absurd hopen Bool.false_ne_true
          rw [pacManStop_closed n hl.agrees hside]
          refine ⟨fun h => absurd h h7, fun _ => ⟨(hl.drives h7).1, ?_⟩⟩
          show (0, 0) = if blocked _ _ _ p.currentDirection then (0, 0) else _
          rw [hblock, hside]
          rfl
      · rw [hk, pacManStop_open n hopen]
        exact Heading.Lawful.step hd (by rw [hblock, hopen]; rfl)

/-! ## Where a moving piece goes -/

/-- Across its motion a safe piece is at offset 6 at most: between cells by the invariant, inside
    one because it is inside. -/
theorem Piece.Safe.lane {δ : Type} {p : Piece δ} (hs : p.Safe) :
    (p.ballXMotion ≠ 0 → p.ballYPosIn.toNat % 32 ≤ 6) ∧
      (p.ballYMotion ≠ 0 → p.ballXPosIn.toNat % 32 ≤ 6) := by
  cases hin : inside p.ballXPosIn p.ballYPosIn with
  | true =>
    have h := (inside_iff _ _).mp hin
    exact ⟨fun _ => h.2, fun _ => h.1⟩
  | false =>
    have hp := hs.keep hin
    generalize p.ballXMotion = mx at hp
    generalize p.ballYMotion = my at hp
    cases hp with
    | stay => exact ⟨fun h => absurd rfl h, fun h => absurd rfl h⟩
    | left hy _ => exact ⟨fun _ => hy, fun h => absurd rfl h⟩
    | right hy _ => exact ⟨fun _ => hy, fun h => absurd rfl h⟩
    | up hx _ => exact ⟨fun h => absurd rfl h, fun _ => hx⟩
    | down hx _ => exact ⟨fun h => absurd rfl h, fun _ => hx⟩

/-- Where a safe piece exports itself, by the side its motion goes to. -/
theorem Piece.Safe.exports {δ : Type} {p : Piece δ} (hs : p.Safe) {d : Direction}
    (hm : (p.ballXMotion, p.ballYMotion) = unitOf d) :
    (d = 0b000 → p.ballXPosIn.toNat + 1 = p.ballXPos.toNat ∧ p.ballYPosIn = p.ballYPos) ∧
    (d = 0b001 → p.ballYPosIn.toNat = p.ballYPos.toNat + 1 ∧ p.ballXPosIn = p.ballXPos) ∧
    (d = 0b010 → p.ballXPosIn.toNat = p.ballXPos.toNat + 1 ∧ p.ballYPosIn = p.ballYPos) ∧
    (d = 0b011 → p.ballYPosIn.toNat + 1 = p.ballYPos.toNat ∧ p.ballXPosIn = p.ballXPos) := by
  have hx := hs.movesX
  have hy := hs.movesY
  rw [Prod.mk.injEq] at hm
  rw [Moves, hm.1] at hx
  rw [Moves, hm.2] at hy
  refine ⟨?_, ?_, ?_, ?_⟩
  · rintro rfl
    rw [show (unitOf 0b000).1.toInt = -1 from rfl] at hx
    rw [show (unitOf 0b000).2.toInt = 0 from rfl] at hy
    rw [← BitVec.toNat_inj]
    omega
  · rintro rfl
    rw [show (unitOf 0b001).1.toInt = 0 from rfl] at hx
    rw [show (unitOf 0b001).2.toInt = 1 from rfl] at hy
    rw [← BitVec.toNat_inj]
    omega
  · rintro rfl
    rw [show (unitOf 0b010).1.toInt = 1 from rfl] at hx
    rw [show (unitOf 0b010).2.toInt = 0 from rfl] at hy
    rw [← BitVec.toNat_inj]
    omega
  · rintro rfl
    rw [show (unitOf 0b011).1.toInt = 0 from rfl] at hx
    rw [show (unitOf 0b011).2.toInt = -1 from rfl] at hy
    rw [← BitVec.toNat_inj]
    omega

/-! ## Along a run -/

/-- A tick with Reset low drives Pac-Man at the edges of his detector and nowhere else. -/
theorem Board.clk_pacMan (T : Tables) {i : ClkIn} {b : Board} (hr : i.reset = false)
    (hw : b.wall = mazeTable) : (b.clk T i).pacMan.toPiece =
      if b.pacMan.frameClkRisingEdge i.frameClk then
        b.pacMan.toPiece.advance (pacManHeading i.key (b.pacMan.sensor (mazeWall T))
          b.actors.collision b.pacMan.toHeading)
      else b.pacMan.toPiece := by
  have hread : b.wallRead T = mazeWall T := by rw [Board.wallRead, hw, mazeWall]
  simp only [Board.clk, hr, Mover.pacManClk, hread]
  rfl

/-- Pac-Man's direction is `3'b111` only before his first step, or after a collision. -/
def Board.PacManKnows (b : Board) : Prop :=
  b.pacMan.currentDirection = 0b111 → b.pacMan.pos = pacManCenter ∨ b.actors.collision = true

/-- **The invariant**: the board is safe, and Pac-Man is lawful. -/
structure Board.Driven (T : Tables) (b : Board) : Prop where
  safe : b.Safe
  lawful : b.pacMan.toPiece.Lawful (mazeWall T)
  knows : b.PacManKnows

theorem Board.Driven.reset (T : Tables) {i : ClkIn} (b : Board) (hr : i.reset = true) :
    (b.clk T i).Driven T := by
  have hp : (b.clk T i).pacMan.toPiece = Actors.center.pacMan :=
    congrArg Actors.pacMan (b.clk_actors_reset T hr)
  refine ⟨Board.Safe.reset T b hr, ?_, fun _ => Or.inl ?_⟩
  · rw [hp]; exact Heading.Lawful.halt _ _
  · show (b.clk T i).pacMan.toPiece.pos = pacManCenter
    rw [hp]
    rfl

/-- A key sets a side, and the wall stop keeps the direction: only a collision sets `3'b111`. -/
theorem pacManHeading_direction (T : Tables) {p : Piece Direction} (hl : p.Lawful (mazeWall T))
    (hs : p.Safe) (key : BitVec 8)
    (h : (pacManHeading key (p.sensor (mazeWall T)) false p.toHeading).currentDirection = 0b111) :
    p.currentDirection = 0b111 := by
  cases hin : inside p.ballXPosIn p.ballYPosIn with
  | false =>
    rw [Piece.sensor, pacManHeading_outside key hin] at h
    exact h
  | true =>
    rw [Piece.sensor, sense_maze T hs.clear hin, pacManHeading, if_neg Bool.false_ne_true] at h
    rw [(pacManStop_inside _ (pacManKey_agrees key _ hl.agrees)).1] at h
    rcases pacManKey_inside key _ p.toHeading with hk | ⟨d, hd, _, hk⟩
    · rw [hk] at h
      exact h
    · rw [hk] at h
      exact absurd h hd.ne_none

/-- **The law survives every tick.** -/
theorem Board.Driven.clk {T : Tables} {b : Board} (h : b.Driven T) (i : ClkIn) :
    (b.clk T i).Driven T := by
  cases hr : i.reset with
  | true => exact Board.Driven.reset T b hr
  | false =>
    have hp := b.clk_pacMan T hr h.safe.wall
    refine ⟨h.safe.clk T i, ?_, ?_⟩
    · rw [hp]
      split
      · exact h.lawful.pacManHeading T h.safe.pacMan i.key _
      · exact h.lawful
    · intro h7
      cases hc : b.actors.collision with
      | true => exact Or.inr ((Actors.collision_congr (b.clk_frozen T hr hc)).trans hc)
      | false =>
        refine Or.inl ?_
        have h7' : (b.clk T i).pacMan.toPiece.currentDirection = 0b111 := h7
        show (b.clk T i).pacMan.toPiece.pos = pacManCenter
        rw [hp, hc] at h7' ⊢
        have hcenter : b.pacMan.currentDirection = 0b111 → b.pacMan.pos = pacManCenter := by
          intro hd
          rcases h.knows hd with hpos | hcol
          · exact hpos
          · rw [hc] at hcol
            exact absurd hcol Bool.false_ne_true
        split at h7'
        · rename_i he
          rw [if_pos he, Piece.advance_pos]
          have hd := pacManHeading_direction T h.lawful h.safe.pacMan i.key h7'
          rw [Piece.posOut_of_still (h.lawful.rest hd)]
          exact hcenter hd
        · rename_i he
          rw [if_neg he]
          exact hcenter h7'

/-- Every state of a run that starts with Reset is driven, later Resets included. -/
theorem driven_run (T : Tables) (b : Board) {i : ClkIn} (hi : i.reset = true) (ins : Nat → ClkIn)
    (n : Nat) : (Clocked.run (Board.clk T) ins (b.clk T i) n).Driven T :=
  Clocked.run_inv (Board.Driven.reset T b hi) (fun n h => h.clk (ins n)) n

/-- The unit vector of a side is not zero, and has a zero component. -/
theorem unitOf_side {d : Direction} (hd : IsSide d) :
    unitOf d ≠ (0, 0) ∧ ((unitOf d).1 = 0 ∨ (unitOf d).2 = 0) := by
  rcases hd with rfl | rfl | rfl | rfl <;> decide

/-- Off direction `3'b111` the motion is zero exactly when the box is blocked. -/
theorem Heading.Lawful.still_iff {wall : Int → Int → Bool} {x y : BitVec 10}
    {h : Heading Direction} (hl : h.Lawful wall x y) (h7 : h.currentDirection ≠ 0b111) :
    (h.ballXMotion, h.ballYMotion) = (0, 0) ↔ blocked wall x y h.currentDirection = true := by
  obtain ⟨hd, hm⟩ := hl.drives h7
  rw [hm]
  cases blocked wall x y h.currentDirection with
  | true => exact ⟨fun _ => rfl, fun _ => rfl⟩
  | false =>
    rw [if_neg Bool.false_ne_true]
    exact ⟨fun h0 => absurd h0 (unitOf_side hd).1, fun hb => absurd hb Bool.false_ne_true⟩

/-- A lawful piece never moves diagonally. -/
theorem Heading.Lawful.one_axis {wall : Int → Int → Bool} {x y : BitVec 10}
    {h : Heading Direction} (hl : h.Lawful wall x y) : h.ballXMotion = 0 ∨ h.ballYMotion = 0 := by
  by_cases h7 : h.currentDirection = 0b111
  · exact Or.inl (congrArg Prod.fst (hl.rest h7))
  · obtain ⟨hd, hm⟩ := hl.drives h7
    split at hm
    · exact Or.inl (congrArg Prod.fst hm)
    · rcases (unitOf_side hd).2 with h0 | h0
      · exact Or.inl ((congrArg Prod.fst hm).trans h0)
      · exact Or.inr ((congrArg Prod.snd hm).trans h0)

/-- Between cells and without a collision Pac-Man is moving: his starting place, where the direction
    is `3'b111`, is inside a cell. -/
theorem Board.Driven.moving {T : Tables} {b : Board} (h : b.Driven T)
    (hout : inside b.pacMan.ballXPos b.pacMan.ballYPos = false) (hc : b.actors.collision = false) :
    (b.pacMan.ballXMotion, b.pacMan.ballYMotion) ≠ (0, 0) := by
  intro h0
  by_cases h7 : b.pacMan.currentDirection = 0b111
  · rcases h.knows h7 with hpos | hcol
    · have hin : inside b.pacMan.ballXPos b.pacMan.ballYPos = true := by
        rw [show b.pacMan.ballXPos = pacManCenter.1 from congrArg Prod.fst hpos,
          show b.pacMan.ballYPos = pacManCenter.2 from congrArg Prod.snd hpos]
        decide
      rw [hout] at hin
      exact absurd hin Bool.false_ne_true
    · rw [hc] at hcol
      exact absurd hcol Bool.false_ne_true
  · have hb := (h.lawful.still_iff h7).mp h0
    rw [blocked_outside hout] at hb
    exact absurd hb Bool.false_ne_true

/-- **Pac-Man's motion law.**  In every state of every run that starts with Reset, for any keys, any
    frame clock and any later Resets:
    (1) with direction `3'b111` both motion components are zero;
    (2) with any other direction, that of a side, the motion is its unit vector, except that it is
        zero exactly when the box at the position register is inside one cell and the cell ahead is
        a wall;
    (3) at most one component of the motion is not zero;
    (4) between cells and without a collision the motion is not zero. -/
theorem motion_law (T : Tables) (b : Board) (i : ClkIn) (hi : i.reset = true) (ins : Nat → ClkIn)
    (n : Nat) :
    let b' := Clocked.run (Board.clk T) ins (b.clk T i) n
    let p := b'.pacMan.toPiece
    let ahead := inside p.ballXPos p.ballYPos = true ∧
      wallAhead (b'.wallRead T) p.ballXPos p.ballYPos p.currentDirection = true
    (p.currentDirection = 0b111 → (p.ballXMotion, p.ballYMotion) = (0, 0)) ∧
    (p.currentDirection ≠ 0b111 → IsSide p.currentDirection ∧
      (¬ ahead → (p.ballXMotion, p.ballYMotion) = unitOf p.currentDirection) ∧
      ((p.ballXMotion, p.ballYMotion) = (0, 0) ↔ ahead)) ∧
    (p.ballXMotion = 0 ∨ p.ballYMotion = 0) ∧
    (inside p.ballXPos p.ballYPos = false → b'.actors.collision = false →
      (p.ballXMotion, p.ballYMotion) ≠ (0, 0)) := by
  intro b' p ahead
  have h : b'.Driven T := driven_run T b hi ins n
  have hread : b'.wallRead T = mazeWall T := by rw [Board.wallRead, h.safe.wall, mazeWall]
  have hahead : blocked (mazeWall T) p.ballXPos p.ballYPos p.currentDirection = true ↔ ahead := by
    rw [blocked, Bool.and_eq_true, ← hread]
  refine ⟨h.lawful.rest, ?_, h.lawful.one_axis, h.moving⟩
  intro h7
  obtain ⟨hd, hm⟩ := h.lawful.drives h7
  refine ⟨hd, ?_, (h.lawful.still_iff h7).trans hahead⟩
  intro hno
  rw [if_neg (fun hb => hno (hahead.mp hb))] at hm
  exact hm

/-- In the third frame with `A` held he is between two cells and moves left. -/
theorem motion_law_leftward :
    (leftwardBoard 5).pacMan.currentDirection = 0b000 ∧
    ((leftwardBoard 5).pacMan.ballXMotion, (leftwardBoard 5).pacMan.ballYMotion) = unitOf 0b000 ∧
    ((leftwardBoard 5).pacMan.ballXMotion, (leftwardBoard 5).pacMan.ballYMotion) ≠ (0, 0) := by
  have hd : (leftwardBoard 5).pacMan.currentDirection = 0b000 := by decide +kernel
  have hout : inside (leftwardBoard 5).pacMan.ballXPos (leftwardBoard 5).pacMan.ballYPos = false := by
    decide +kernel
  have hc : (leftwardBoard 5).actors.collision = false := by decide +kernel
  obtain ⟨-, hside, -, hmoving⟩ :=
    motion_law .shipped default ⟨true, 0, false, 0, 0⟩ rfl leftward 5
  obtain ⟨-, hunit, -⟩ := hside (by rw [← leftwardBoard, hd]; decide)
  refine ⟨hd, hd ▸ hunit ?_, hmoving hout hc⟩
  rintro ⟨hin, -⟩
  exact Bool.false_ne_true (hout.symm.trans hin)

end Lab8
