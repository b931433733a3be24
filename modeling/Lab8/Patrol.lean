/-
  Red and Green patrol.

  Two of the three ghosts never look at Pac-Man: what `red_evil_move` and `green_evil_move` choose
  depends on their own sensors and direction, and Pac-Man appears in their collision flag only.
  Until that flag stops the game each of them is a machine without inputs, one step a frame, and
  such a machine goes round (`Orbit.Circuit`):

  1. `patrol_run` — up to a collision their pieces are a function of the number of frames alone.
  2. `redCircuit`, `greenCircuit` — from frame 59 Red goes round the ring of rows 3 to 7 and columns
     3 to 16, in 1064 frames; from frame 129 Green goes round rows 1 to 3 and columns 6 to 13, in
     552.  `redTrack`, `greenTrack` — and on their rounds they touch no cell off their rings, between
     two cells either.
  3. `patrol` — both facts about the board.
  4. `patrol_sweeps` — so nobody can stay in a cell of a ring: in the frame in which its ghost is in
     the cell the boxes meet.
-/
import Lab8.Walk
import Lab8.Ghosts
import Lab8.Lib.Orbit

namespace Lab8

/-! ## The machines -/

/-- A frame of `red_evil_move` with the flags down. -/
def Piece.redStep (wall : Int → Int → Bool) (p : Piece Direction) : Piece Direction :=
  p.advance (redEvilHeading (p.sensor wall) false p.toHeading)

/-- A frame of `green_evil_move` with the flags down. -/
def Piece.greenStep (wall : Int → Int → Bool) (p : Piece Direction) : Piece Direction :=
  p.advance (greenEvilHeading (p.sensor wall) false p.toHeading)

/-- Red after `k` frames. -/
def redPatrol (k : Nat) : Piece Direction :=
  (Piece.redStep (mazeWall .shipped))^[k] Actors.center.redEvil

/-- Green after `k` frames. -/
def greenPatrol (k : Nat) : Piece Direction :=
  (Piece.greenStep (mazeWall .shipped))^[k] Actors.center.greenEvil

/-- What lies outside the wall array does not matter to a box on open cells. -/
theorem sensor_congr {δ : Type} {p : Piece δ} (hs : p.Safe) (T T' : Tables) :
    p.sensor (mazeWall T) = p.sensor (mazeWall T') := by
  cases hin : inside p.ballXPosIn p.ballYPosIn with
  | true => rw [Piece.sensor, Piece.sensor, sense_maze T hs.clear hin, sense_maze T' hs.clear hin]
  | false => rw [Piece.sensor, Piece.sensor, sense_outside hin, sense_outside hin]

theorem redStep_congr {p : Piece Direction} (hs : p.Safe) (T T' : Tables) :
    p.redStep (mazeWall T) = p.redStep (mazeWall T') := by
  rw [Piece.redStep, Piece.redStep, sensor_congr hs T T']

theorem greenStep_congr {p : Piece Direction} (hs : p.Safe) (T T' : Tables) :
    p.greenStep (mazeWall T) = p.greenStep (mazeWall T') := by
  rw [Piece.greenStep, Piece.greenStep, sensor_congr hs T T']

/-- With the flags down a frame is a step of each. -/
theorem Actors.frameStep_patrol (wall : Int → Int → Bool) (key : BitVec 8) {a : Actors}
    (hc : a.collision = false) : (a.frameStep wall key).redEvil = a.redEvil.redStep wall ∧
      (a.frameStep wall key).greenEvil = a.greenEvil.greenStep wall := by
  obtain ⟨hred, hgreen, -⟩ := Actors.flags_down hc
  have hkeep : ∀ {δ : Type} (h : Heading δ), a.orHalt h = h := by
    intro δ h
    rw [Actors.orHalt, hc, if_neg Bool.false_ne_true]
  constructor
  · show a.redEvil.advance (a.orHalt (a.redEvilIn wall)) = _
    rw [hkeep, Actors.redEvilIn, hred]
    rfl
  · show a.greenEvil.advance (a.orHalt (a.greenEvilIn wall)) = _
    rw [hkeep, Actors.greenEvilIn, hgreen]
    rfl

/-! ## The run of the board -/

/-- The number of frame edges before tick `n`. -/
def frames (before : Bool) (ins : Nat → ClkIn) (n : Nat) : Nat := (frameKeys before ins n).length

theorem frames_succ (before : Bool) (ins : Nat → ClkIn) (n : Nat) : frames before ins (n + 1) =
    if frameEdge before ins n then frames before ins n + 1 else frames before ins n := by
  show (if frameEdge before ins n then frameKeys before ins n ++ [(ins n).key]
    else frameKeys before ins n).length = _
  cases frameEdge before ins n with
  | true => exact List.length_append
  | false => rfl

/-- Where `frame_clk` is high at every second tick, every second tick has a frame edge. -/
theorem frames_alternating {ins : Nat → ClkIn} (h : ∀ n, (ins n).frameClk = (n % 2 == 0)) (n : Nat) :
    frames false ins n = (n + 1) / 2 := by
  rw [frames, frameKeys_alternating h, List.length_map, List.length_range]

theorem frames_mono (before : Bool) (ins : Nat → ClkIn) : Monotone (frames before ins) := by
  apply monotone_nat_of_le_succ
  intro n
  rw [frames_succ]
  split <;> omega

/-- **A tick with Reset low** when all flags are down: at a frame edge both take a step. -/
theorem Board.clk_patrol (T : Tables) {i : ClkIn} {b : Board} {before : Bool} (hs : b.Safe)
    (hr : i.reset = false) (hsync : b.Synced before) (hb : b.actors.collision = false) :
    (b.clk T i).actors.redEvil = (if i.frameClk && !before then
        b.actors.redEvil.redStep (mazeWall .shipped) else b.actors.redEvil) ∧
      (b.clk T i).actors.greenEvil = (if i.frameClk && !before then
        b.actors.greenEvil.greenStep (mazeWall .shipped) else b.actors.greenEvil) := by
  have hread : b.wallRead T = mazeWall T := by rw [Board.wallRead, hs.wall, mazeWall]
  obtain ⟨hred, hgreen⟩ := Actors.frameStep_patrol (mazeWall T) i.key hb
  have hsR : b.actors.redEvil.Safe := hs.redEvil
  have hsG : b.actors.greenEvil.Safe := hs.greenEvil
  rw [b.clk_actors T hr hb hsync, hread]
  split
  · rw [hred, hgreen, redStep_congr hsR T .shipped, greenStep_congr hsG T .shipped]
    exact ⟨rfl, rfl⟩
  · exact ⟨rfl, rfl⟩

/-- Red and Green are where `k` frames take them. -/
def Actors.Patrolling (k : Nat) (a : Actors) : Prop :=
  a.redEvil = redPatrol k ∧ a.greenEvil = greenPatrol k

section Run

variable (T : Tables) (b : Board) {i : ClkIn} (hi : i.reset = true) {ins : Nat → ClkIn}
  (hins : ∀ n, (ins n).reset = false)

include hi hins

/-- No flag falls: a state without a collision has none before it. -/
theorem calm_before {m n : Nat} (hmn : m ≤ n)
    (hc : (Clocked.run (Board.clk T) ins (b.clk T i) n).actors.collision = false) :
    (Clocked.run (Board.clk T) ins (b.clk T i) m).actors.collision = false := by
  induction n, hmn using Nat.le_induction with
  | base => exact hc
  | succ n _ ih =>
    obtain ⟨-, hsync⟩ := lively_run T b hi ins n
    exact ih (Board.clk_ghost T (safe_run T b hi ins n) (hins n) hsync hc .red).1

omit hins in
/-- Pac-Man, from tick to tick: at a frame edge he takes a step, and at no other tick. -/
theorem pacMan_tick (n : Nat) (hr : (ins n).reset = false) :
    (Clocked.run (Board.clk T) ins (b.clk T i) (n + 1)).actors.pacMan =
      if frameEdge i.frameClk ins n then
        (Clocked.run (Board.clk T) ins (b.clk T i) n).actors.pacMan.advance
          (pacManHeading (ins n).key
            ((Clocked.run (Board.clk T) ins (b.clk T i) n).actors.pacMan.sensor (mazeWall T))
            (Clocked.run (Board.clk T) ins (b.clk T i) n).actors.collision
            (Clocked.run (Board.clk T) ins (b.clk T i) n).actors.pacMan.toHeading)
      else (Clocked.run (Board.clk T) ins (b.clk T i) n).actors.pacMan := by
  have hedge : (Clocked.run (Board.clk T) ins (b.clk T i) n).pacMan.frameClkRisingEdge
      (ins n).frameClk = frameEdge i.frameClk ins n := by
    rw [Mover.frameClkRisingEdge, (lively_run T b hi ins n).2.pacMan]
    rfl
  have hstep : (Clocked.run (Board.clk T) ins (b.clk T i) (n + 1)).actors.pacMan = _ :=
    Board.clk_pacMan T hr (safe_run T b hi ins n).wall
  rw [hedge] at hstep
  exact hstep

/-- From a state without a collision they go on as the number of frames says. -/
theorem patrol_tick {n : Nat}
    (hc : (Clocked.run (Board.clk T) ins (b.clk T i) n).actors.collision = false)
    (h : (Clocked.run (Board.clk T) ins (b.clk T i) n).actors.Patrolling
      (frames i.frameClk ins n)) :
    (Clocked.run (Board.clk T) ins (b.clk T i) (n + 1)).actors.Patrolling
      (frames i.frameClk ins (n + 1)) := by
  obtain ⟨-, hsync⟩ := lively_run T b hi ins n
  obtain ⟨hred, hgreen⟩ := Board.clk_patrol T (safe_run T b hi ins n) (hins n) hsync hc
  have hedge : ((ins n).frameClk &&
      !Clocked.delayed i.frameClk (fun k => (ins k).frameClk) n) =
      frameEdge i.frameClk ins n := rfl
  rw [hedge, h.1] at hred
  rw [hedge, h.2] at hgreen
  rw [Actors.Patrolling, Clocked.run_succ, hred, hgreen, frames_succ]
  cases frameEdge i.frameClk ins n with
  | true =>
    simp only [if_true, redPatrol, greenPatrol, Function.iterate_succ_apply', and_self]
  | false => exact ⟨rfl, rfl⟩

/-- **Up to a collision Red and Green are where the number of frames says.** -/
theorem patrol_run (n : Nat)
    (hc : (Clocked.run (Board.clk T) ins (b.clk T i) n).actors.collision = false) :
    (Clocked.run (Board.clk T) ins (b.clk T i) n).actors.Patrolling
      (frames i.frameClk ins n) := by
  induction n with
  | zero =>
    rw [Clocked.run_zero, b.clk_actors_reset T hi]
    exact ⟨rfl, rfl⟩
  | succ n ih =>
    have hb := calm_before T b hi hins (Nat.le_succ n) hc
    exact patrol_tick T b hi hins hb (ih hb)

end Run

/-! ## The cells that a box touches -/

/-- Every cell that the box at `(x, y)` touches is in `S`: a box that is smaller than a cell touches
    those of its corners. -/
def touchesOnly (S : Nat × Nat → Bool) (x y : Nat) : Bool :=
  S (y / 32, x / 32) && S (y / 32, (x + 25) / 32) && S ((y + 25) / 32, x / 32) &&
    S ((y + 25) / 32, (x + 25) / 32)

theorem touchesOnly_pixel {S : Nat × Nat → Bool} {x y : Nat} (h : touchesOnly S x y = true)
    (px py : Nat) (hx : x ≤ px) (hx' : px ≤ x + 25) (hy : y ≤ py) (hy' : py ≤ y + 25) :
    S (py / 32, px / 32) = true := by
  simp only [touchesOnly, Bool.and_eq_true] at h
  obtain ⟨⟨⟨h00, h01⟩, h10⟩, h11⟩ := h
  have hcol : px / 32 = x / 32 ∨ px / 32 = (x + 25) / 32 := by omega
  have hrow : py / 32 = y / 32 ∨ py / 32 = (y + 25) / 32 := by omega
  rcases hrow with hr | hr <;> rcases hcol with hc | hc <;> rw [hr, hc] <;> assumption

/-- Shows the states whose box touches a cell outside `S`. -/
def Piece.strays (S : Nat × Nat → Bool) (p : Piece Direction) : Option Unit :=
  if touchesOnly S p.ballXPosIn.toNat p.ballYPosIn.toNat then none else some ()

theorem Piece.touches_of_strays {S : Nat × Nat → Bool} {p : Piece Direction}
    (h : p.strays S ≠ some ()) : touchesOnly S p.ballXPosIn.toNat p.ballYPosIn.toNat = true := by
  rw [Piece.strays] at h
  split at h
  · assumption
  · exact absurd rfl h

/-! ## The rings -/

/-- The cell a piece is inside of. -/
def Piece.spot (p : Piece Direction) : Option (Nat × Nat) :=
  if inside p.ballXPosIn p.ballYPosIn then some p.cell else none

theorem Piece.spot_iff (p : Piece Direction) (a : Nat × Nat) : p.spot = some a ↔ p.InCell a := by
  rw [Piece.spot]
  constructor
  · intro h
    split at h
    · rename_i hin
      exact ⟨hin, Option.some.inj h⟩
    · exact absurd h (Option.some_ne_none a).symm
  · rintro ⟨hin, rfl⟩
    rw [if_pos hin]

/-- The cells on the border of a rectangle of cells. -/
def onRing (top bottom left right : Nat) (a : Nat × Nat) : Bool :=
  ((a.1 == top || a.1 == bottom) && decide (left ≤ a.2) && decide (a.2 ≤ right)) ||
    ((a.2 == left || a.2 == right) && decide (top ≤ a.1) && decide (a.1 ≤ bottom))

/-- Red's ring. -/
def redRing : Nat × Nat → Bool := onRing 3 7 3 16

/-- Green's ring. -/
def greenRing : Nat × Nat → Bool := onRing 1 3 6 13

/-- Red's round: clockwise from `(3, 9)`; the record shows the last cell first. -/
def redCircuit : Orbit.Circuit (Piece.redStep (mazeWall .shipped)) Piece.spot
    Actors.center.redEvil where
  lead := 59
  turn := 1064
  turn_pos := by decide
  base := ⟨⟨1, 0, 0b010⟩, 288, 102⟩
  seen := [(3, 9), (3, 8), (3, 7), (3, 6), (3, 5), (3, 4), (3, 3), (4, 3), (5, 3), (6, 3), (7, 3),
    (7, 4), (7, 5), (7, 6), (7, 7), (7, 8), (7, 9), (7, 10), (7, 11), (7, 12), (7, 13), (7, 14),
    (7, 15), (7, 16), (6, 16), (5, 16), (4, 16), (3, 16), (3, 15), (3, 14), (3, 13), (3, 12),
    (3, 11), (3, 10), (3, 9)]
  reaches := by decide +kernel
  closes := by decide +kernel

/-- Green's round: counterclockwise from `(2, 13)`. -/
def greenCircuit : Orbit.Circuit (Piece.greenStep (mazeWall .shipped)) Piece.spot
    Actors.center.greenEvil where
  lead := 129
  turn := 552
  turn_pos := by decide
  base := ⟨⟨0, ballStepInv, 0b011⟩, 416, 96⟩
  seen := [(3, 13), (3, 12), (3, 11), (3, 10), (3, 9), (3, 8), (3, 7), (3, 6), (2, 6), (1, 6),
    (1, 7), (1, 8), (1, 9), (1, 10), (1, 11), (1, 12), (1, 13), (2, 13)]
  reaches := by decide +kernel
  closes := by decide +kernel

/-- A ring is what its ghost's round shows. -/
theorem redRing_iff (a : Nat × Nat) : redRing a = true ↔ a ∈ redCircuit.seen := by
  have hall : ∀ row < 8, ∀ col < 17, redRing (row, col) = true →
      redCircuit.seen.contains (row, col) = true := by decide
  constructor
  · intro h
    have hbound : a.1 < 8 ∧ a.2 < 17 := by
      simp only [redRing, onRing, Bool.or_eq_true, Bool.and_eq_true, beq_iff_eq,
        decide_eq_true_eq] at h
      omega
    exact List.contains_iff_mem.mp (hall a.1 hbound.1 a.2 hbound.2 h)
  · revert a
    decide

theorem greenRing_iff (a : Nat × Nat) : greenRing a = true ↔ a ∈ greenCircuit.seen := by
  have hall : ∀ row < 4, ∀ col < 14, greenRing (row, col) = true →
      greenCircuit.seen.contains (row, col) = true := by decide
  constructor
  · intro h
    have hbound : a.1 < 4 ∧ a.2 < 14 := by
      simp only [greenRing, onRing, Bool.or_eq_true, Bool.and_eq_true, beq_iff_eq,
        decide_eq_true_eq] at h
      omega
    exact List.contains_iff_mem.mp (hall a.1 hbound.1 a.2 hbound.2 h)
  · revert a
    decide

/-- Red's round, watched for cells off the ring: there is none. -/
def redTrack : Orbit.Circuit (Piece.redStep (mazeWall .shipped)) (Piece.strays redRing)
    Actors.center.redEvil :=
  redCircuit.watch _ [] (by decide +kernel)

/-- Green's round. -/
def greenTrack : Orbit.Circuit (Piece.greenStep (mazeWall .shipped)) (Piece.strays greenRing)
    Actors.center.greenEvil :=
  greenCircuit.watch _ [] (by decide +kernel)

/-- From frame 59 on Red touches cells of its ring only. -/
theorem red_touches {k : Nat} (hk : 59 ≤ k) :
    touchesOnly redRing (redPatrol k).ballXPosIn.toNat (redPatrol k).ballYPosIn.toNat = true := by
  obtain ⟨j, rfl⟩ := Nat.exists_eq_add_of_le hk
  apply Piece.touches_of_strays
  intro h
  exact absurd ((redTrack.mem_seen ()).mpr ⟨j, h⟩) List.not_mem_nil

/-- From frame 129 on so does Green. -/
theorem green_touches {k : Nat} (hk : 129 ≤ k) : touchesOnly greenRing
    (greenPatrol k).ballXPosIn.toNat (greenPatrol k).ballYPosIn.toNat = true := by
  obtain ⟨j, rfl⟩ := Nat.exists_eq_add_of_le hk
  apply Piece.touches_of_strays
  intro h
  exact absurd ((greenTrack.mem_seen ()).mpr ⟨j, h⟩) List.not_mem_nil

/-- **Every turn passes through every cell of the ring.** -/
theorem exists_red_inCell {k : Nat} (hk : 59 ≤ k) {a : Nat × Nat} (ha : redRing a = true) :
    ∃ j, k ≤ j ∧ j < k + 1064 ∧ (redPatrol j).InCell a := by
  obtain ⟨l, hl⟩ := (redCircuit.mem_seen a).mp ((redRing_iff a).mp ha)
  obtain ⟨j, hkj, hj, hsame⟩ := redCircuit.revisits hk l
  refine ⟨j, hkj, hj, ?_⟩
  rw [← Piece.spot_iff, redPatrol, hsame]
  exact hl

theorem exists_green_inCell {k : Nat} (hk : 129 ≤ k) {a : Nat × Nat} (ha : greenRing a = true) :
    ∃ j, k ≤ j ∧ j < k + 552 ∧ (greenPatrol j).InCell a := by
  obtain ⟨l, hl⟩ := (greenCircuit.mem_seen a).mp ((greenRing_iff a).mp ha)
  obtain ⟨j, hkj, hj, hsame⟩ := greenCircuit.revisits hk l
  refine ⟨j, hkj, hj, ?_⟩
  rw [← Piece.spot_iff, greenPatrol, hsame]
  exact hl

/-! ## On the board -/

/-- **Red and Green patrol.**  In every run after Reset, for every key sequence, every `frame_clk`
    and every content of the tables: as long as no collision flag is up,
    (1) all registers of Red and of Green are functions of the number of frames alone;
    (2) from frame 59 on Red repeats every 1064 frames, and every cell that its box touches is one of
        those on the border of rows 3 to 7 and columns 3 to 16;
    (3) from frame 129 on Green repeats every 552 frames, and every cell that its box touches is one
        of those on the border of rows 1 to 3 and columns 6 to 13. -/
theorem patrol (T : Tables) (b : Board) (i : ClkIn) (hi : i.reset = true) (ins : Nat → ClkIn)
    (hins : ∀ n, (ins n).reset = false) (n : Nat)
    (hc : (Clocked.run (Board.clk T) ins (b.clk T i) n).actors.collision = false) :
    let a := (Clocked.run (Board.clk T) ins (b.clk T i) n).actors
    let k := frames i.frameClk ins n
    (a.redEvil = redPatrol k ∧ a.greenEvil = greenPatrol k) ∧
    (59 ≤ k → redPatrol (k + 1064) = a.redEvil ∧
      touchesOnly redRing a.redEvil.ballXPosIn.toNat a.redEvil.ballYPosIn.toNat = true) ∧
    (129 ≤ k → greenPatrol (k + 552) = a.greenEvil ∧
      touchesOnly greenRing a.greenEvil.ballXPosIn.toNat a.greenEvil.ballYPosIn.toNat = true) := by
  intro a k
  obtain ⟨hred, hgreen⟩ := patrol_run T b hi hins n hc
  refine ⟨⟨hred, hgreen⟩, ?_, ?_⟩
  · intro hk
    rw [show a.redEvil = redPatrol k from hred]
    exact ⟨redCircuit.round hk, red_touches hk⟩
  · intro hk
    rw [show a.greenEvil = greenPatrol k from hgreen]
    exact ⟨greenCircuit.round hk, green_touches hk⟩

/-- No key is pressed, and every second tick is a frame edge. -/
def untouched (n : Nat) : ClkIn := ⟨false, 0, n % 2 == 0, 0, 0⟩

/-- Sixty frames without a key: Red is on its round. -/
theorem patrol_sixty :
    let a := (Clocked.run (Board.clk .shipped) untouched
      (Board.clk .shipped ⟨true, 0, false, 0, 0⟩ default) 120).actors
    redPatrol (60 + 1064) = a.redEvil ∧
      touchesOnly redRing a.redEvil.ballXPosIn.toNat a.redEvil.ballYPosIn.toNat = true := by
  have h := (patrol .shipped default ⟨true, 0, false, 0, 0⟩ rfl untouched (fun _ => rfl) 120
    (by decide +kernel)).2.1
  rw [show frames (ClkIn.mk true 0 false 0 0).frameClk untouched 120 = 60 from
    frames_alternating (fun _ => rfl) 120] at h
  exact h (by decide)

/-- Boxes inside one cell are close. -/
theorem collides_inCell {p q : Piece Direction} {a : Nat × Nat} (hp : p.InCell a)
    (hq : q.InCell a) : collides p.posOut q.posOut = true := by
  have hpi := (inside_iff _ _).mp hp.inside
  have hqi := (inside_iff _ _).mp hq.inside
  have hcell := hp.cell.trans hq.cell.symm
  rw [Piece.cell, Piece.cell, Prod.mk.injEq] at hcell
  rw [collides, withinSeven_iff]
  simp only [intDiff, Piece.posOut]
  omega

/-- A piece that passes through Pac-Man's cell while he stays in it has caught him. -/
theorem caught_of_passes (T : Tables) (b : Board) {i : ClkIn} (hi : i.reset = true)
    {ins : Nat → ClkIn} (hins : ∀ n, (ins n).reset = false) {cell : Nat × Nat} {m n j : Nat}
    (hmn : m ≤ n) (hmj : frames i.frameClk ins m ≤ j) (hjn : j ≤ frames i.frameClk ins n)
    (hpass : (redPatrol j).InCell cell ∨ (greenPatrol j).InCell cell)
    (hstay : ∀ k, m ≤ k → k ≤ n →
      (Clocked.run (Board.clk T) ins (b.clk T i) k).actors.pacMan.InCell cell) :
    (Clocked.run (Board.clk T) ins (b.clk T i) n).actors.collision = true := by
  -- a tick that has seen just `j` frames
  obtain ⟨t, hmt, htn, ht⟩ := Clocked.exists_count (f := frames i.frameClk ins) hmn hmj hjn (by
    intro k _ _
    rw [frames_succ]
    split <;> omega)
  cases hc : (Clocked.run (Board.clk T) ins (b.clk T i) n).actors.collision with
  | true => rfl
  | false =>
    have hct := calm_before T b hi hins htn hc
    obtain ⟨hflagR, hflagG, -⟩ := Actors.flags_down hct
    obtain ⟨hred, hgreen⟩ := patrol_run T b hi hins t hct
    rw [ht] at hred hgreen
    have hpac := hstay t hmt htn
    rcases hpass with h | h
    · rw [← hred] at h
      rw [Actors.isCollisionRed, collides_inCell h hpac] at hflagR
      exact absurd hflagR.symm Bool.false_ne_true
    · rw [← hgreen] at h
      rw [Actors.isCollisionGreen, collides_inCell h hpac] at hflagG
      exact absurd hflagG.symm Bool.false_ne_true

/-- **The rings are swept.**  In every run after Reset, for every key sequence and every
    `frame_clk`: if Pac-Man's box stays inside one cell of Red's ring for 1064 frames from frame 59
    on, or of Green's ring for 552 frames from frame 129 on, the game is over at the end. -/
theorem patrol_sweeps (T : Tables) (b : Board) (i : ClkIn) (hi : i.reset = true)
    (ins : Nat → ClkIn) (hins : ∀ n, (ins n).reset = false) (cell : Nat × Nat) (m n : Nat)
    (hmn : m ≤ n)
    (hturn : (redRing cell = true ∧ 59 ≤ frames i.frameClk ins m ∧
        frames i.frameClk ins m + 1064 ≤ frames i.frameClk ins n) ∨
      (greenRing cell = true ∧ 129 ≤ frames i.frameClk ins m ∧
        frames i.frameClk ins m + 552 ≤ frames i.frameClk ins n))
    (hstay : ∀ k, m ≤ k → k ≤ n →
      (Clocked.run (Board.clk T) ins (b.clk T i) k).actors.pacMan.InCell cell) :
    (Clocked.run (Board.clk T) ins (b.clk T i) n).actors.collision = true := by
  rcases hturn with ⟨hring, hlead, hturn⟩ | ⟨hring, hlead, hturn⟩
  · obtain ⟨j, hmj, hj, hin⟩ := exists_red_inCell hlead hring
    exact caught_of_passes T b hi hins hmn hmj (by omega) (Or.inl hin) hstay
  · obtain ⟨j, hmj, hj, hin⟩ := exists_green_inCell hlead hring
    exact caught_of_passes T b hi hins hmn hmj (by omega) (Or.inr hin) hstay

/-- Without a key Pac-Man stays where he starts. -/
theorem pacMan_untouched (T : Tables) (b : Board) {i : ClkIn} (hi : i.reset = true) (n : Nat) :
    (Clocked.run (Board.clk T) untouched (b.clk T i) n).actors.pacMan = Actors.center.pacMan := by
  have hkeep : ∀ (w : Sensor) (c : Bool), pacManHeading 0 w c Actors.center.pacMan.toHeading =
      Actors.center.pacMan.toHeading := by
    intro w c
    cases c with
    | true => rfl
    | false => simp [pacManHeading, pacManKey, pacManStop, Actors.center]
  induction n with
  | zero => rw [Clocked.run_zero, b.clk_actors_reset T hi]
  | succ n ih =>
    rw [pacMan_tick T b hi n rfl, ih, show (untouched n).key = 0 from rfl, hkeep]
    split
    · rfl
    · rfl

/-- **Who never presses a key is caught** before frame 1124. -/
theorem patrol_sweeps_untouched :
    (Clocked.run (Board.clk .shipped) untouched (Board.clk .shipped ⟨true, 0, false, 0, 0⟩ default)
      2246).actors.collision = true := by
  refine patrol_sweeps .shipped default ⟨true, 0, false, 0, 0⟩ rfl untouched (fun _ => rfl) (7, 10)
    118 2246 (by decide) (Or.inl ⟨by decide, ?_, ?_⟩) ?_
  · show 59 ≤ frames false untouched 118
    rw [frames_alternating (fun _ => rfl)]
  · show frames false untouched 118 + 1064 ≤ frames false untouched 2246
    rw [frames_alternating (fun _ => rfl), frames_alternating (fun _ => rfl)]
  · intro k _ _
    rw [pacMan_untouched .shipped default rfl k]
    exact ⟨by decide, by decide⟩

end Lab8
