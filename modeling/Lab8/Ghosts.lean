/-
  Ghosts never stall and never move diagonally.

  Three cascades choose the ghosts' motions, and each may fall through to the motion it had.  What
  keeps them going is one fact per place:

  1. **Inside a cell** (`Board.Safe.ghostIn_inside`) — the cascade is a preference list with an open
     side on it, so the motion selected is the unit vector of an open side.  Red's blind first move
     is no exception: the cell above its starting place is open.
  2. **Between cells** (`Board.Safe.ghostIn_outside`) — the motion is kept.  It was selected inside
     a cell, so it is not zero: `Board.Lively` is the invariant.

  A collision is what stops a ghost.  The flag stays up (`Board.clk_frozen`), so a board with all
  flags down had them down before, and `Board.Lively` need not say anything about the others.
-/
import Lab8.Tunnel
import Lab8.Motion

namespace Lab8

/-! ## The three ghosts, uniformly -/

/-- The piece of a ghost, its direction forgotten. -/
def Actors.ghost (a : Actors) : Ghost → Piece Unit
  | .red => a.redEvil.body
  | .green => a.greenEvil.body
  | .blue => a.blueEvil

/-- The motion a ghost selects. -/
def Actors.ghostIn (wall : Int → Int → Bool) (a : Actors) : Ghost → Heading Unit
  | .red => (a.redEvilIn wall).motion
  | .green => (a.greenEvilIn wall).motion
  | .blue => a.blueEvilIn wall

/-- The exported position of a ghost is that of its piece. -/
theorem Actors.outputs_ghost (a : Actors) (g : Ghost) :
    a.outputs.ghost g = (a.ghost g).posOut := by
  cases g with
  | red => rfl
  | green => rfl
  | blue => rfl

theorem Board.Safe.ghost {b : Board} (hs : b.Safe) (g : Ghost) : (b.actors.ghost g).Safe := by
  apply hs.bodies
  cases g with
  | red => simp [Actors.bodies, Actors.ghost]
  | green => simp [Actors.bodies, Actors.ghost]
  | blue => simp [Actors.bodies, Actors.ghost]

/-- With no collision all three flags are down. -/
theorem Actors.flags_down {a : Actors} (hc : a.collision = false) :
    a.isCollisionRed = false ∧ a.isCollisionGreen = false ∧ a.isCollisionBlue = false := by
  rw [Actors.collision, Bool.or_eq_false_iff, Bool.or_eq_false_iff] at hc
  exact ⟨hc.1.1, hc.2, hc.1.2⟩

/-! ## What a ghost selects -/

theorem greenOrder_isSide : ∀ d : Direction, ∀ e ∈ greenOrder d, IsSide e := by decide

theorem blueOrder_isSide (diffX diffY : Int) : ∀ e ∈ blueOrder diffX diffY, IsSide e := by
  intro e he
  simp only [blueOrder, List.mem_append, List.mem_cons, List.not_mem_nil, or_false] at he
  have guarded : ∀ {c : Prop} [Decidable c] {d : Direction}, IsSide d →
      e ∈ (if c then [d] else []) → IsSide e := by
    intro c _ d hd hmem
    split at hmem
    · rw [List.mem_singleton.mp hmem]; exact hd
    · exact absurd hmem List.not_mem_nil
  rcases he with (((h | h) | h) | h) | h
  · exact guarded (by decide) h
  · exact guarded (by decide) h
  · exact guarded (by decide) h
  · exact guarded (by decide) h
  · rcases h with rfl | rfl | rfl | rfl <;> decide

/-- Where Red's direction is `3'b111` and no flag is up, Red is at its starting place. -/
theorem Board.Safe.red_start {b : Board} (hs : b.Safe) (hc : b.actors.collision = false)
    (h7 : ¬ IsSide b.actors.redEvil.currentDirection) :
    b.actors.redEvil.currentDirection = 0b111 ∧ b.actors.redEvil.posOut = redEvilCenter := by
  obtain ⟨_, hgreen, hblue⟩ := Actors.flags_down hc
  rcases hs.knows with hside | ⟨hd, hwhere⟩
  · exact absurd hside h7
  · refine ⟨hd, ?_⟩
    rcases hwhere with h | h | h
    · exact h
    · rw [hgreen] at h; exact absurd h Bool.false_ne_true
    · rw [hblue] at h; exact absurd h Bool.false_ne_true

/-- **Inside a cell a ghost selects the step to an open side.** -/
theorem Board.Safe.ghostIn_inside (T : Tables) {b : Board} (hs : b.Safe)
    (hc : b.actors.collision = false) (g : Ghost)
    (hin : inside (b.actors.ghost g).ballXPosIn (b.actors.ghost g).ballYPosIn = true) :
    ∃ d, IsSide d ∧ (neighbours (b.actors.ghost g).ballXPosIn.toNat
        (b.actors.ghost g).ballYPosIn.toNat).side d = true ∧
      b.actors.ghostIn (mazeWall T) g = (stepOf d).motion := by
  obtain ⟨hred, hgreen, hblue⟩ := Actors.flags_down hc
  cases g with
  | red =>
    by_cases hside : IsSide b.actors.redEvil.currentDirection
    · have h7 : b.actors.redEvil.currentDirection ≠ 0b111 := hside.ne_none
      obtain ⟨e, hmem, hopen, hfirst⟩ := Neighbours.first_open
        (h := b.actors.redEvil.toHeading) (hs.redEvil.clear.redOrder_open hside)
      refine ⟨e, redOrder_isSide _ e hmem, hopen, ?_⟩
      rw [Actors.ghostIn, Actors.redEvilIn, hred, Piece.sensor]
      exact congrArg Heading.motion
        ((congrArg (redEvilHeading · false b.actors.redEvil.toHeading)
          (sense_maze T hs.redEvil.clear hin)).trans ((redEvilHeading_inside _ h7).trans hfirst))
    · -- the blind first move
      obtain ⟨h7, hcenter⟩ := hs.red_start hc hside
      have hx : (b.actors.ghost .red).ballXPosIn = redEvilCenter.1 := congrArg Prod.fst hcenter
      have hy : (b.actors.ghost .red).ballYPosIn = redEvilCenter.2 := congrArg Prod.snd hcenter
      refine ⟨0b011, by decide, ?_, ?_⟩
      · rw [hx, hy]
        decide
      · rw [Actors.ghostIn, Actors.redEvilIn, hred, redEvilHeading, if_neg Bool.false_ne_true,
          if_pos h7]
        rfl
  | green =>
    obtain ⟨e, hmem, hopen, hfirst⟩ := Neighbours.first_open
      (h := b.actors.greenEvil.toHeading)
      (hs.greenEvil.clear.greenOrder_open b.actors.greenEvil.currentDirection)
    refine ⟨e, greenOrder_isSide _ e hmem, hopen, ?_⟩
    rw [Actors.ghostIn, Actors.greenEvilIn, hgreen, Piece.sensor]
    exact congrArg Heading.motion
      ((congrArg (greenEvilHeading · false b.actors.greenEvil.toHeading)
        (sense_maze T hs.greenEvil.clear hin)).trans
          ((greenEvilHeading_inside _ _).trans hfirst))
  | blue =>
    -- Blue has no direction to fall back on; any stands in for it in the list lookup
    obtain ⟨e, hmem, hopen, hfirst⟩ := Neighbours.first_open
      (h := ⟨b.actors.blueEvil.ballXMotion, b.actors.blueEvil.ballYMotion, 0b111⟩)
      (hs.blueEvil.clear.blueOrder_open
        (intDiff b.actors.blueEvil.ballXPosIn b.actors.pacMan.ballXPosIn)
        (intDiff b.actors.blueEvil.ballYPosIn b.actors.pacMan.ballYPosIn))
    refine ⟨e, blueOrder_isSide _ _ e hmem, hopen, ?_⟩
    rw [Actors.ghostIn, Actors.blueEvilIn, hblue, Piece.sensor]
    exact (congrArg (blueEvilHeading · false _ _ b.actors.blueEvil.toHeading)
      (sense_maze T hs.blueEvil.clear hin)).trans
        ((blueEvilHeading_inside _ _ _
          ⟨b.actors.blueEvil.ballXMotion, b.actors.blueEvil.ballYMotion, 0b111⟩).trans
            (congrArg Heading.motion hfirst))

/-- **Between cells a ghost keeps its motion.** -/
theorem Board.Safe.ghostIn_outside (T : Tables) {b : Board} (hs : b.Safe)
    (hc : b.actors.collision = false) (g : Ghost)
    (hout : inside (b.actors.ghost g).ballXPosIn (b.actors.ghost g).ballYPosIn = false) :
    b.actors.ghostIn (mazeWall T) g = (b.actors.ghost g).toHeading := by
  obtain ⟨hred, hgreen, hblue⟩ := Actors.flags_down hc
  cases g with
  | red =>
    by_cases hside : IsSide b.actors.redEvil.currentDirection
    · have h7 : b.actors.redEvil.currentDirection ≠ 0b111 := hside.ne_none
      have hsense : b.actors.redEvil.sensor (mazeWall T) = _ := sense_outside hout
      rw [Actors.ghostIn, Actors.redEvilIn, hred, hsense, redEvilHeading,
        if_neg Bool.false_ne_true, if_neg h7]
      simp only [Bool.false_eq_true, and_false, if_false]
      rfl
    · -- the starting place is inside a cell
      have hcenter := (hs.red_start hc hside).2
      have hx : (b.actors.ghost .red).ballXPosIn = redEvilCenter.1 := congrArg Prod.fst hcenter
      have hy : (b.actors.ghost .red).ballYPosIn = redEvilCenter.2 := congrArg Prod.snd hcenter
      rw [hx, hy] at hout
      exact absurd hout (by decide)
  | green =>
    have hsense : b.actors.greenEvil.sensor (mazeWall T) = _ := sense_outside hout
    rw [Actors.ghostIn, Actors.greenEvilIn, hgreen, hsense]
    simp only [greenEvilHeading, Bool.false_eq_true, false_and, if_false]
    rfl
  | blue =>
    have hsense : b.actors.blueEvil.sensor (mazeWall T) = _ := sense_outside hout
    rw [Actors.ghostIn, Actors.blueEvilIn, hblue, hsense]
    simp only [blueEvilHeading, Bool.false_eq_true, false_and, if_false]
    rfl

/-! ## Never zero -/

/-- The motion of a heading is not zero. -/
def Heading.Moving {δ : Type} (h : Heading δ) : Prop := (h.ballXMotion, h.ballYMotion) ≠ (0, 0)

/-- **The invariant**: while no flag is up, a ghost between cells moves. -/
def Board.Lively (b : Board) : Prop :=
  b.actors.collision = false → ∀ g,
    inside (b.actors.ghost g).ballXPosIn (b.actors.ghost g).ballYPosIn = false →
      (b.actors.ghost g).Moving

/-- A lively ghost selects a motion. -/
theorem Board.Lively.selects (T : Tables) {b : Board} (hl : b.Lively) (hs : b.Safe)
    (hc : b.actors.collision = false) (g : Ghost) : (b.actors.ghostIn (mazeWall T) g).Moving := by
  cases hin : inside (b.actors.ghost g).ballXPosIn (b.actors.ghost g).ballYPosIn with
  | true =>
    obtain ⟨d, hd, _, he⟩ := hs.ghostIn_inside T hc g hin
    rw [he]
    exact (unitOf_side hd).1
  | false =>
    rw [hs.ghostIn_outside T hc g hin]
    exact hl hc g hin

/-- The pieces Reset loads are inside cells. -/
theorem Board.Lively.reset (T : Tables) {i : ClkIn} (b : Board) (hr : i.reset = true) :
    (b.clk T i).Lively := by
  intro _ g hout
  rw [b.clk_actors_reset T hr] at hout
  have hin : ∀ g, inside (Actors.center.ghost g).ballXPosIn
      (Actors.center.ghost g).ballYPosIn = true := by
    intro g
    cases g with
    | red => decide
    | green => decide
    | blue => decide
  rw [hin g] at hout
  exact absurd hout.symm Bool.false_ne_true

/-- **What a tick with Reset low does to a ghost** when it leaves all flags down: at a frame edge
    the ghost advances by the motion selected, at any other tick it stays. -/
theorem Board.clk_ghost (T : Tables) {i : ClkIn} {b : Board} {before : Bool} (hs : b.Safe)
    (hr : i.reset = false) (hsync : b.Synced before)
    (hc : (b.clk T i).actors.collision = false) (g : Ghost) :
    b.actors.collision = false ∧ (b.clk T i).actors.ghost g =
      if i.frameClk && !before then
        (b.actors.ghost g).advance (b.actors.ghostIn (mazeWall T) g)
      else b.actors.ghost g := by
  have hread : b.wallRead T = mazeWall T := by rw [Board.wallRead, hs.wall, mazeWall]
  cases hb : b.actors.collision with
  | true =>
    -- a flag that was up is still up
    rw [Actors.collision_congr (b.clk_frozen T hr hb), hb] at hc
    exact absurd hc.symm Bool.false_ne_true
  | false =>
    refine ⟨rfl, ?_⟩
    rw [b.clk_actors T hr hb hsync, hread]
    have hkeep : ∀ {δ : Type} (h : Heading δ), b.actors.orHalt h = h := by
      intro δ h
      rw [Actors.orHalt, hb, if_neg Bool.false_ne_true]
    split
    · cases g with
      | red => simp only [Actors.ghost, Actors.ghostIn, Actors.frameStep, hkeep]; rfl
      | green => simp only [Actors.ghost, Actors.ghostIn, Actors.frameStep, hkeep]; rfl
      | blue => simp only [Actors.ghost, Actors.ghostIn, Actors.frameStep, hkeep]
    · rfl

/-- **The invariant survives every tick.** -/
theorem Board.Lively.clk {T : Tables} {b : Board} {before : Bool} (hl : b.Lively) (hs : b.Safe)
    (hsync : b.Synced before) (i : ClkIn) : (b.clk T i).Lively := by
  cases hr : i.reset with
  | true => exact Board.Lively.reset T b hr
  | false =>
    intro hc g hout
    obtain ⟨hb, hg⟩ := Board.clk_ghost T hs hr hsync hc g
    rw [hg] at hout ⊢
    split
    · exact hl.selects T hs hb g
    · rename_i he
      rw [if_neg he] at hout
      exact hl hb g hout

/-! ## Exactly one pixel -/

/-- The positions differ by one pixel along one axis and agree on the other. -/
def OnePixel (p q : BitVec 10 × BitVec 10) : Prop :=
  ((intDiff p.1 q.1).natAbs = 1 ∧ p.2 = q.2) ∨ (p.1 = q.1 ∧ (intDiff p.2 q.2).natAbs = 1)

/-- A safe piece that moves exports a position one pixel from its register. -/
theorem Piece.Safe.onePixel {δ : Type} {p : Piece δ} (hs : p.Safe) (hm : p.Moving) :
    OnePixel p.posOut p.pos := by
  have hx := hs.movesX
  have hy := hs.movesY
  have hzero : ∀ {m : BitVec 10}, m.toInt = 0 → m = 0 := by
    intro m h
    exact BitVec.toInt_inj.mp h
  have hne : ¬ (p.ballXMotion.toInt = 0 ∧ p.ballYMotion.toInt = 0) := by
    rintro ⟨h1, h2⟩
    apply hm
    rw [hzero h1, hzero h2]
  simp only [OnePixel, intDiff, Piece.posOut, Piece.pos, ← BitVec.toNat_inj]
  simp only [Moves] at hx hy
  rcases hs.unit with ⟨h0, h1⟩ | ⟨h0, h1⟩
  · exact Or.inr (by omega)
  · exact Or.inl (by omega)

/-- The state of a run that starts with Reset: safe, lively, and with its detectors in step. -/
theorem lively_run (T : Tables) (b : Board) {i : ClkIn} (hi : i.reset = true) (ins : Nat → ClkIn)
    (n : Nat) : (Clocked.run (Board.clk T) ins (b.clk T i) n).Lively ∧
      (Clocked.run (Board.clk T) ins (b.clk T i) n).Synced
        (Clocked.delayed i.frameClk (fun k => (ins k).frameClk) n) := by
  induction n with
  | zero => exact ⟨Board.Lively.reset T b hi, b.clk_synced T i⟩
  | succ n ih =>
    refine ⟨ih.1.clk (safe_run T b hi ins n) ih.2 (ins n), ?_⟩
    exact Board.clk_synced T (ins n) _

/-- **Ghosts never stall and never move diagonally.**  In every run that starts with Reset, for any
    keys, any frame clock and any later Resets, for each ghost:
    (1) a frame edge after which no collision flag is up has moved the exported position by exactly
        one pixel along exactly one axis;
    (2) in every state with no flag up, a ghost inside a cell selects the unit vector of a side
        whose cell has wall bit 0. -/
theorem ghosts_never_stall (T : Tables) (b : Board) (i : ClkIn) (hi : i.reset = true)
    (ins : Nat → ClkIn) (g : Ghost) (n : Nat) :
    let a := fun n => (Clocked.run (Board.clk T) ins (b.clk T i) n).actors
    let wall := (Clocked.run (Board.clk T) ins (b.clk T i) n).wallRead T
    (frameEdge i.frameClk ins n = true → (ins n).reset = false →
      (a (n + 1)).collision = false →
      OnePixel ((a (n + 1)).outputs.ghost g) ((a n).outputs.ghost g)) ∧
    ((a n).collision = false →
      inside ((a n).outputs.ghost g).1 ((a n).outputs.ghost g).2 = true →
      ∃ d, IsSide d ∧ (((a n).ghostIn wall g).ballXMotion, ((a n).ghostIn wall g).ballYMotion) =
          unitOf d ∧
        wallAhead wall ((a n).outputs.ghost g).1 ((a n).outputs.ghost g).2 d = false) := by
  intro a wall
  obtain ⟨hl, hsync⟩ := lively_run T b hi ins n
  have hs : (Clocked.run (Board.clk T) ins (b.clk T i) n).Safe := safe_run T b hi ins n
  have hwall : wall = mazeWall T := by
    show (Clocked.run (Board.clk T) ins (b.clk T i) n).wallRead T = mazeWall T
    rw [Board.wallRead, hs.wall, mazeWall]
  constructor
  · intro he hr hc
    have hs' : (Clocked.run (Board.clk T) ins (b.clk T i) (n + 1)).Safe :=
      safe_run T b hi ins (n + 1)
    obtain ⟨hb, hg⟩ := Board.clk_ghost T hs hr hsync hc g
    have hedge : ((ins n).frameClk &&
        !Clocked.delayed i.frameClk (fun k => (ins k).frameClk) n) = true := he
    rw [if_pos hedge] at hg
    have hmoved : ((a (n + 1)).ghost g).Moving := by
      show ((Board.clk T (ins n) _).actors.ghost g).Moving
      rw [hg]
      exact hl.selects T hs hb g
    have hpos : ((a (n + 1)).ghost g).pos = ((a n).ghost g).posOut := by
      show ((Board.clk T (ins n) _).actors.ghost g).pos = _
      rw [hg]
      rfl
    rw [Actors.outputs_ghost, Actors.outputs_ghost, ← hpos]
    exact (hs'.ghost g).onePixel hmoved
  · intro hc hin
    rw [Actors.outputs_ghost] at hin ⊢
    obtain ⟨d, hd, hopen, he⟩ := hs.ghostIn_inside T hc g hin
    refine ⟨d, hd, ?_, ?_⟩
    · have hsel : (a n).ghostIn wall g = (stepOf d).motion := by
        rw [hwall]
        exact he
      rw [hsel]
      rfl
    · rw [hwall]
      have hahead := wallAhead_maze T (hs.ghost g).clear hin d
      rw [hopen] at hahead
      exact hahead

/-- The first edge of a game with `W` held moves Red. -/
theorem ghosts_never_stall_first :
    OnePixel
      ((Clocked.run (Board.clk .shipped) (fun _ => ⟨false, 0x1A, true, 0, 0⟩)
        (Board.clk .shipped ⟨true, 0, false, 0, 0⟩ default) 1).actors.outputs.ghost .red)
      ((Clocked.run (Board.clk .shipped) (fun _ => ⟨false, 0x1A, true, 0, 0⟩)
        (Board.clk .shipped ⟨true, 0, false, 0, 0⟩ default) 0).actors.outputs.ghost .red) :=
  (ghosts_never_stall .shipped default ⟨true, 0, false, 0, 0⟩ rfl
    (fun _ => ⟨false, 0x1A, true, 0, 0⟩) .red 0).1 rfl rfl (by decide)

end Lab8
