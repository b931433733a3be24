/-
  Where the four pieces are drawn.

  The frame game (`Actors.frameStep`) fixes the exported positions of every frame, but the screen
  shows the REGISTERS, and between board and frame game these differ: a ghost that another ghost's
  flag stops takes its last step at once, Pac-Man and the ghost that caught him only at the next
  frame.

  1. `Mirrors` — Pac-Man's piece is always that of the frame game, and so is the piece of a ghost
     that no other ghost's flag stops.
  2. `Actors.drawn` — so the registers are a function of the frame state: a stopped ghost has reached
     its exported position before the first visible row (`Design.Steady.halted`).
-/
import Lab8.Contact

namespace Lab8

variable {δ : Type}

/-! ## The pieces themselves -/

/-- The pieces of a board agree with a frame state: Pac-Man's, and those of the ghosts that no other
    ghost's flag stops. -/
structure Mirrors (b : Board) (a : Actors) : Prop where
  pacMan : b.actors.pacMan = a.pacMan
  redEvil : (a.isCollisionGreen || a.isCollisionBlue) = false → b.actors.redEvil = a.redEvil
  greenEvil : (a.isCollisionBlue || a.isCollisionRed) = false → b.actors.greenEvil = a.greenEvil
  blueEvil : (a.isCollisionGreen || a.isCollisionRed) = false → b.actors.blueEvil = a.blueEvil

theorem Mirrors.of_eq {b : Board} {a : Actors} (h : b.actors = a) : Mirrors b a := by
  subst h
  exact ⟨rfl, fun _ => rfl, fun _ => rfl, fun _ => rfl⟩

/-- A ghost that is not stopped clocks like Pac-Man. -/
theorem Mover.ghostClk_free (center : BitVec 10 × BitVec 10) (d₀ : δ) (frameClk : Bool)
    (next : Heading δ) (m : Mover δ) : (m.ghostClk center d₀ false false frameClk next).toPiece =
      if m.frameClkRisingEdge frameClk then m.toPiece.advance next else m.toPiece := by
  rcases m.ghostClk_cases center d₀ false frameClk next with ⟨h, _⟩ | ⟨_, he, h⟩ | ⟨_, he, h⟩
  · exact absurd h Bool.false_ne_true
  · rw [h, if_pos he]
  · rw [h, if_neg (by rw [he]; exact Bool.false_ne_true)]

/-- A module that sees its flag up selects no motion. -/
theorem Actors.headings_up (wall : Int → Int → Bool) (key : BitVec 8) (a : Actors) :
    (a.collision = true → a.pacManIn wall key = ⟨0, 0, 0b111⟩) ∧
    (a.isCollisionRed = true → a.redEvilIn wall = ⟨0, 0, a.redEvil.currentDirection⟩) ∧
    (a.isCollisionGreen = true → a.greenEvilIn wall = ⟨0, 0, a.greenEvil.currentDirection⟩) ∧
    (a.isCollisionBlue = true → a.blueEvilIn wall = ⟨0, 0, ()⟩) := by
  refine ⟨?_, ?_, ?_, ?_⟩
  · intro h
    rw [Actors.pacManIn, pacManHeading, if_pos h]
  · intro h
    rw [Actors.redEvilIn, redEvilHeading, if_pos h]
  · intro h
    rw [Actors.greenEvilIn, greenEvilHeading, if_pos h]
  · intro h
    rw [Actors.blueEvilIn, blueEvilHeading, if_pos h]

/-- With a flag up a ghost that no other ghost's flag stops has raised its own. -/
theorem Actors.caught_by {a : Actors} (hc : a.collision = true) :
    ((a.isCollisionGreen || a.isCollisionBlue) = false → a.isCollisionRed = true) ∧
    ((a.isCollisionBlue || a.isCollisionRed) = false → a.isCollisionGreen = true) ∧
    ((a.isCollisionGreen || a.isCollisionRed) = false → a.isCollisionBlue = true) := by
  rw [Actors.collision] at hc
  cases hr : a.isCollisionRed <;> cases hg : a.isCollisionGreen <;> cases hb : a.isCollisionBlue <;>
    simp [hr, hg, hb] at hc ⊢

/-- **A tick with a flag up**: what is not stopped takes its halting step at an edge. -/
theorem Board.clk_caught (T : Tables) {i : ClkIn} {b : Board} {before : Bool} (hr : i.reset = false)
    (hs : b.Synced before) (hc : b.actors.collision = true) :
    (b.clk T i).actors.pacMan = (if i.frameClk && !before then
        b.actors.pacMan.advance ⟨0, 0, 0b111⟩ else b.actors.pacMan) ∧
    ((b.actors.isCollisionGreen || b.actors.isCollisionBlue) = false →
      (b.clk T i).actors.redEvil = if i.frameClk && !before then
        b.actors.redEvil.advance ⟨0, 0, b.actors.redEvil.currentDirection⟩ else b.actors.redEvil) ∧
    ((b.actors.isCollisionBlue || b.actors.isCollisionRed) = false →
      (b.clk T i).actors.greenEvil = if i.frameClk && !before then
        b.actors.greenEvil.advance ⟨0, 0, b.actors.greenEvil.currentDirection⟩
        else b.actors.greenEvil) ∧
    ((b.actors.isCollisionGreen || b.actors.isCollisionRed) = false →
      (b.clk T i).actors.blueEvil = if i.frameClk && !before then
        b.actors.blueEvil.advance ⟨0, 0, ()⟩ else b.actors.blueEvil) := by
  obtain ⟨hpac, hred, hgreen, hblue⟩ := b.actors.headings_up (b.wallRead T) i.key
  obtain ⟨hownR, hownG, hownB⟩ := Actors.caught_by hc
  have edge : ∀ {δ : Type} {m : Mover δ}, m.frameClkDelayed = before →
      m.frameClkRisingEdge i.frameClk = (i.frameClk && !before) := by
    intro δ m hm
    rw [Mover.frameClkRisingEdge, hm]
  refine ⟨?_, ?_, ?_, ?_⟩
  · show (b.pacMan.pacManClk _ _ i.reset _ _).toPiece = _
    rw [Mover.pacManClk_eq, hr, Mover.ghostClk_free, edge hs.pacMan, hpac hc]
    rfl
  · intro hstop
    show (b.redEvil.ghostClk _ _ i.reset _ _ _).toPiece = _
    rw [hr, hstop, Mover.ghostClk_free, edge hs.redEvil, hred (hownR hstop)]
    rfl
  · intro hstop
    show (b.greenEvil.ghostClk _ _ i.reset _ _ _).toPiece = _
    rw [hr, hstop, Mover.ghostClk_free, edge hs.greenEvil, hgreen (hownG hstop)]
    rfl
  · intro hstop
    show (b.blueEvil.ghostClk _ _ i.reset _ _ _).toPiece = _
    rw [hr, hstop, Mover.ghostClk_free, edge hs.blueEvil, hblue (hownB hstop)]
    rfl

/-- A frame with a flag up, of the frame game. -/
theorem Actors.frameStep_caught (wall : Int → Int → Bool) (key : BitVec 8) {a : Actors}
    (hc : a.collision = true) : a.frameStep wall key =
      ⟨a.pacMan.advance ⟨0, 0, 0b111⟩,
        a.redEvil.advance ⟨0, 0, (a.redEvilIn wall).currentDirection⟩,
        a.greenEvil.advance ⟨0, 0, (a.greenEvilIn wall).currentDirection⟩,
        a.blueEvil.advance ⟨0, 0, ()⟩⟩ := by
  have hhalt : ∀ {δ : Type} (h : Heading δ), a.orHalt h = ⟨0, 0, h.currentDirection⟩ := by
    intro δ h
    rw [Actors.orHalt, if_pos hc]
  rw [Actors.frameStep, hhalt, hhalt, hhalt, hhalt, (a.headings_up wall key).1 hc]

/-! ## One tick -/

/-- The flags of the two levels. -/
theorem Tracks.flags {before : Bool} {b : Board} {a : Actors} (h : Tracks before b a) :
    b.actors.isCollisionRed = a.isCollisionRed ∧ b.actors.isCollisionGreen = a.isCollisionGreen ∧
      b.actors.isCollisionBlue = a.isCollisionBlue :=
  ⟨congrArg Outputs.isCollisionRed h.outputs, congrArg Outputs.isCollisionGreen h.outputs,
    congrArg Outputs.isCollisionBlue h.outputs⟩

/-- A tick at a frame edge. -/
theorem Mirrors.edge {T : Tables} {i : ClkIn} {b : Board} {a : Actors} {before : Bool}
    (h : Mirrors b a) (ht : Tracks before b a) (hr : i.reset = false)
    (he : (i.frameClk && !before) = true) :
    Mirrors (b.clk T i) (a.frameStep (mazeWall T) i.key) := by
  have hcc : b.actors.collision = a.collision := Actors.collision_congr ht.outputs
  cases hc : a.collision with
  | false =>
    have hw : b.wallRead T = mazeWall T := by rw [Board.wallRead, ht.wall, mazeWall]
    apply Mirrors.of_eq
    rw [b.clk_actors T hr (by rw [hcc, hc]) ht.synced, if_pos he, hw, ht.actors hc]
  | true =>
    obtain ⟨hfr, hfg, hfb⟩ := ht.flags
    obtain ⟨hpac, hred, hgreen, hblue⟩ := Board.clk_caught T hr ht.synced (by rw [hcc, hc])
    rw [hfg, hfb, if_pos he] at hred
    rw [hfb, hfr, if_pos he] at hgreen
    rw [hfg, hfr, if_pos he] at hblue
    rw [if_pos he] at hpac
    obtain ⟨-, hinr, hing, -⟩ := a.headings_up (mazeWall T) i.key
    -- the flags of the next frame are those of this one
    have hout := a.frameStep_frozen (mazeWall T) i.key hc
    have hr' : (a.frameStep (mazeWall T) i.key).isCollisionRed = a.isCollisionRed :=
      congrArg Outputs.isCollisionRed hout
    have hg' : (a.frameStep (mazeWall T) i.key).isCollisionGreen = a.isCollisionGreen :=
      congrArg Outputs.isCollisionGreen hout
    have hb' : (a.frameStep (mazeWall T) i.key).isCollisionBlue = a.isCollisionBlue :=
      congrArg Outputs.isCollisionBlue hout
    obtain ⟨hownR, hownG, -⟩ := Actors.caught_by hc
    rw [a.frameStep_caught (mazeWall T) i.key hc] at hr' hg' hb' ⊢
    refine ⟨?_, ?_, ?_, ?_⟩
    · rw [hpac, h.pacMan]
    · intro hstop
      rw [hg', hb'] at hstop
      rw [hred hstop, h.redEvil hstop, hinr (hownR hstop)]
    · intro hstop
      rw [hb', hr'] at hstop
      rw [hgreen hstop, h.greenEvil hstop, hing (hownG hstop)]
    · intro hstop
      rw [hg', hr'] at hstop
      rw [hblue hstop, h.blueEvil hstop]

/-- Any other tick. -/
theorem Mirrors.idle {T : Tables} {i : ClkIn} {b : Board} {a : Actors} {before : Bool}
    (h : Mirrors b a) (ht : Tracks before b a) (hr : i.reset = false)
    (he : (i.frameClk && !before) = false) : Mirrors (b.clk T i) a := by
  have hcc : b.actors.collision = a.collision := Actors.collision_congr ht.outputs
  have hno : ¬ (i.frameClk && !before) = true := by
    rw [he]
    exact Bool.false_ne_true
  cases hc : a.collision with
  | false =>
    apply Mirrors.of_eq
    rw [b.clk_actors T hr (by rw [hcc, hc]) ht.synced, if_neg hno, ht.actors hc]
  | true =>
    obtain ⟨hfr, hfg, hfb⟩ := ht.flags
    obtain ⟨hpac, hred, hgreen, hblue⟩ := Board.clk_caught T hr ht.synced (by rw [hcc, hc])
    rw [hfg, hfb, if_neg hno] at hred
    rw [hfb, hfr, if_neg hno] at hgreen
    rw [hfg, hfr, if_neg hno] at hblue
    rw [if_neg hno] at hpac
    exact ⟨hpac.trans h.pacMan, fun hs => (hred hs).trans (h.redEvil hs),
      fun hs => (hgreen hs).trans (h.greenEvil hs), fun hs => (hblue hs).trans (h.blueEvil hs)⟩

/-- Every run after Reset mirrors the frame game over the keys sampled so far. -/
theorem mirrors_run (T : Tables) (b : Board) {i : ClkIn} (hi : i.reset = true) {ins : Nat → ClkIn}
    (hins : ∀ n, (ins n).reset = false) (n : Nat) :
    Mirrors (Clocked.run (Board.clk T) ins (b.clk T i) n)
      (frameRun T (frameKeys i.frameClk ins n)) := by
  refine (Clocked.run_sampled (R := fun n b a =>
    Tracks (Clocked.delayed i.frameClk (fun k => (ins k).frameClk) n) b a ∧ Mirrors b a)
    ⟨Tracks.start T b hi, Mirrors.of_eq (b.clk_actors_reset T hi)⟩ ?_ ?_ n).2
  · rintro n b a he ⟨ht, h⟩
    exact ⟨ht.edge (hins n) he, h.edge ht (hins n) he⟩
  · rintro n b a he ⟨ht, h⟩
    exact ⟨ht.idle (hins n) he, h.idle ht (hins n) he⟩

/-! ## The drawn positions -/

/-- Where a frame draws a ghost: at its register, or at the exported position if another ghost's
    flag stops it. -/
def Piece.drawn (stopped : Bool) (p : Piece δ) : BitVec 10 × BitVec 10 :=
  if stopped then p.posOut else p.pos

/-- **The four drawn positions** of a frame state. -/
def Actors.drawn (a : Actors) :
    (BitVec 10 × BitVec 10) × (BitVec 10 × BitVec 10) × (BitVec 10 × BitVec 10) ×
      (BitVec 10 × BitVec 10) :=
  (a.pacMan.pos, a.redEvil.drawn (a.isCollisionGreen || a.isCollisionBlue),
    a.greenEvil.drawn (a.isCollisionBlue || a.isCollisionRed),
    a.blueEvil.drawn (a.isCollisionGreen || a.isCollisionRed))

/-- One ghost: mirrored while it is free, at rest when it is stopped. -/
theorem Piece.drawn_eq {stopped : Bool} {p q : Piece δ} (hout : p.posOut = q.posOut)
    (hfree : stopped = false → p = q) (hrest : stopped = true → p.AtRest) :
    p.pos = q.drawn stopped := by
  cases stopped with
  | false => rw [hfree rfl]; rfl
  | true => exact (hrest rfl).symm.trans hout

/-- **The registers are the drawn positions**, once the stopped ghosts are at rest. -/
theorem Mirrors.positions {before : Bool} {b : Board} {a : Actors} (h : Mirrors b a)
    (ht : Tracks before b a) (hh : b.actors.Halted) : b.actors.positions = a.drawn := by
  obtain ⟨hfr, hfg, hfb⟩ := ht.flags
  obtain ⟨hrestR, hrestG, hrestB⟩ := hh
  rw [hfg, hfb] at hrestR
  rw [hfb, hfr] at hrestG
  rw [hfg, hfr] at hrestB
  have hR := Piece.drawn_eq (congrArg Outputs.red ht.outputs) h.redEvil hrestR
  have hG := Piece.drawn_eq (congrArg Outputs.green ht.outputs) h.greenEvil hrestG
  have hB := Piece.drawn_eq (congrArg Outputs.blue ht.outputs) h.blueEvil hrestB
  rw [Actors.positions, Actors.drawn, hR, hG, hB, h.pacMan]

/-! ## Runs of the design -/

/-- The keys sampled at the pulses before Clk `n`. -/
def Design.keys (d : Design) (ins : Nat → DesignIn) (n : Nat) : List (BitVec 8) :=
  Clocked.sampled (fun k => decide (framePulse d.vgaClk k)) (fun k => (ins k).key) n

section Run

variable {T : Tables} {d : Design} {ins : Nat → DesignIn}

/-- The board of a design run tracks and mirrors the frame game over the keys at the pulses. -/
theorem Design.mirrors_run (hd : d.Released T) (hins : ∀ n, (ins n).reset = false) (n : Nat) :
    (∃ before, Tracks before (Clocked.run (Design.clk T) ins d n).board
      (frameRun T (d.keys ins n))) ∧
    Mirrors (Clocked.run (Design.clk T) ins d n).board (frameRun T (d.keys ins n)) := by
  obtain ⟨b, i, hi, hb⟩ := hd.board
  have hins' : ∀ k, ((Clocked.run (Design.clk T) ins d k).clkIn (ins k)).reset = false := hins
  have htracks := Lab8.tracks_run T b hi hins' n
  have hmirrors := Lab8.mirrors_run T b hi hins' n
  -- the edges of the board run are the pulses
  have hedge : frameEdge i.frameClk (fun k => (Clocked.run (Design.clk T) ins d k).clkIn (ins k)) =
      fun k => decide (framePulse d.vgaClk k) := by
    funext k
    have hsync := (tracks_run T b hi hins' k).synced.edges
      (Clocked.run (Design.clk T) ins d k).vga.vgaVs
    rw [← hb, ← Design.board_run, Design.edges_run hd hins k] at hsync
    exact (congrArg Prod.fst hsync).symm
  rw [← hb, ← Design.board_run, frameKeys, hedge] at htracks hmirrors
  exact ⟨⟨_, htracks⟩, hmirrors⟩

/-- **In a visible row the registers are the drawn positions of the frame.** -/
theorem Design.positions_run (hd : d.Released T) (hins : ∀ n, (ins n).reset = false) {n : Nat}
    (hrow : (Clocked.run (Design.clk T) ins d n).vga.vCounter.toNat < 480) :
    (Clocked.run (Design.clk T) ins d n).board.actors.positions =
      (frameRun T (d.keys ins n)).drawn := by
  obtain ⟨⟨before, ht⟩, hm⟩ := Design.mirrors_run hd hins n
  refine hm.positions ht ((Design.steady_run hd ins n).halted.resolve_right ?_)
  intro h492
  rw [h492] at hrow
  exact absurd hrow (by decide)

end Run

end Lab8
