/-
  Where Pac-Man is safe.

  Red and Green keep to their rings, so Pac-Man has to keep off the rings.  Blue hunts, but sees no
  further than the four cells around it: it tries the sides that lead towards Pac-Man, and where
  they are closed any other.  In a shaft of two cells whose end and sides are closed towards Pac-Man
  it turns round in both, for ever:

  1. `apart_of_touching` — boxes that touch different cells do not collide.
  2. `Board.Lively.clk_shaft` — a shaft that hides Pac-Man keeps Blue.
  3. `refuge` — so as long as he stays off the rings and hidden, nobody catches him; and if he rests
     there, he can stay for ever.
-/
import Lab8.Control

namespace Lab8

/-! ## Boxes on different cells -/

/-- **Boxes that touch different cells do not collide.** -/
theorem apart_of_touching {S S' : Nat × Nat → Bool} (hS : ∀ a, S a = true → S' a = false)
    {p q : Piece Direction} (hp : touchesOnly S p.ballXPosIn.toNat p.ballYPosIn.toNat = true)
    (hq : touchesOnly S' q.ballXPosIn.toNat q.ballYPosIn.toNat = true) :
    collides p.posOut q.posOut = false := by
  rw [← Bool.not_eq_true, collides, withinSeven_iff]
  simp only [intDiff, Piece.posOut]
  intro hnear
  -- the pixel at the larger of both corners is in both boxes
  have hpp := touchesOnly_pixel hp (max p.ballXPosIn.toNat q.ballXPosIn.toNat)
    (max p.ballYPosIn.toNat q.ballYPosIn.toNat) (by omega) (by omega) (by omega) (by omega)
  have hqq := touchesOnly_pixel hq (max p.ballXPosIn.toNat q.ballXPosIn.toNat)
    (max p.ballYPosIn.toNat q.ballYPosIn.toNat) (by omega) (by omega) (by omega) (by omega)
  rw [hS _ hpp] at hqq
  exact Bool.false_ne_true hqq

/-! ## Shafts -/

/-- Two open cells, one above the other: `(row, col)` and `(row + 1, col)`. -/
structure Shaft where
  row : Nat
  col : Nat
  upper : isOpen row col = true
  lower : isOpen (row + 1) col = true

/-- **The shaft hides a box at `(x, y)`**: it lies beyond an end that is closed, and the side of the
    shaft towards it is closed. -/
structure Shaft.Hides (s : Shaft) (x y : Nat) : Prop where
  beyond : (isOpen (s.row + 2) s.col = false ∧ 32 * (s.row + 2) ≤ y) ∨
    (isOpen (s.row - 1) s.col = false ∧ y + 26 ≤ 32 * s.row)
  right : 32 * s.col < x →
    isOpen s.row (s.col + 1) = false ∧ isOpen (s.row + 1) (s.col + 1) = false
  left : x < 32 * s.col + 6 →
    isOpen s.row (s.col - 1) = false ∧ isOpen (s.row + 1) (s.col - 1) = false

/-- The box lies in the shaft. -/
structure Piece.InShaft (s : Shaft) (p : Piece Unit) : Prop where
  column : 32 * s.col ≤ p.ballXPosIn.toNat ∧ p.ballXPosIn.toNat ≤ 32 * s.col + 6
  top : 32 * s.row ≤ p.ballYPosIn.toNat
  bottom : p.ballYPosIn.toNat ≤ 32 * (s.row + 1) + 6

/-- The two branches that lead sideways to Pac-Man do not fire where these sides are closed. -/
theorem blueEvil_blind {n : Neighbours} {diffX : Int} (hr : diffX < 0 → n.right = false)
    (hl : diffX > 0 → n.left = false) :
    ¬ (n.sensor.insideBlock = true ∧ n.sensor.isWallRight ≠ true ∧ diffX < 0) ∧
      ¬ (n.sensor.insideBlock = true ∧ n.sensor.isWallLeft ≠ true ∧ diffX > 0) := by
  constructor
  · rintro ⟨-, hw, hx⟩
    exact hw (congrArg not (hr hx))
  · rintro ⟨-, hw, hx⟩
    exact hw (congrArg not (hl hx))

/-- Above Pac-Man, or below him with the top closed, a blind Blue turns down where it can. -/
theorem blueEvilHeading_down {n : Neighbours} {diffX diffY : Int} (h : Heading Unit)
    (hr : diffX < 0 → n.right = false) (hl : diffX > 0 → n.left = false) (hd : n.down = true)
    (hv : diffY < 0 ∨ (diffY > 0 ∧ n.up = false)) :
    blueEvilHeading n.sensor false diffX diffY h = (stepOf 0b001).motion := by
  obtain ⟨hright, hleft⟩ := blueEvil_blind hr hl
  have hdown : n.sensor.isWallDown ≠ true := by simp [Neighbours.sensor, hd]
  rw [blueEvilHeading, if_neg Bool.false_ne_true, if_neg hright, if_neg hleft]
  rcases hv with hy | ⟨hy, hu⟩
  · exact if_pos ⟨rfl, hdown, hy⟩
  · have hup : n.sensor.isWallUp = true := by simp [Neighbours.sensor, hu]
    rw [if_neg (fun hc => absurd hc.2.2 (by omega)), if_neg (fun hc => hc.2.1 hup),
      if_neg (fun hc => hc.2 hup)]
    exact if_pos ⟨rfl, hdown⟩

/-- Below Pac-Man, or above him with the floor closed, it turns up. -/
theorem blueEvilHeading_up {n : Neighbours} {diffX diffY : Int} (h : Heading Unit)
    (hr : diffX < 0 → n.right = false) (hl : diffX > 0 → n.left = false) (hu : n.up = true)
    (hv : diffY > 0 ∨ (diffY < 0 ∧ n.down = false)) :
    blueEvilHeading n.sensor false diffX diffY h = (stepOf 0b011).motion := by
  obtain ⟨hright, hleft⟩ := blueEvil_blind hr hl
  have hup : n.sensor.isWallUp ≠ true := by simp [Neighbours.sensor, hu]
  rw [blueEvilHeading, if_neg Bool.false_ne_true, if_neg hright, if_neg hleft]
  rcases hv with hy | ⟨hy, hd⟩
  · rw [if_neg (fun hc => absurd hc.2.2 (by omega))]
    exact if_pos ⟨rfl, hup, hy⟩
  · have hdown : n.sensor.isWallDown = true := by simp [Neighbours.sensor, hd]
    rw [if_neg (fun hc => hc.2.1 hdown), if_neg (fun hc => absurd hc.2.2 (by omega))]
    exact if_pos ⟨rfl, hup⟩

/-- Across two cells of a column a permitted motion is vertical. -/
theorem Permits.vertical {x y : Nat} {mx my : BitVec 10} (h : Permits x y mx my)
    (hy : 6 < y % 32) (hm : (mx, my) ≠ (0, 0)) :
    (mx, my) = unitOf 0b001 ∨ (mx, my) = unitOf 0b011 := by
  cases h with
  | stay => exact absurd rfl hm
  | left hlane _ => omega
  | right hlane _ => omega
  | up _ _ => exact Or.inr rfl
  | down _ _ => exact Or.inl rfl

/-- Towards Pac-Man the sides of a shaft that hides him are closed. -/
theorem Piece.InShaft.sides {s : Shaft} {p : Piece Unit} (hp : p.InShaft s) {q : Piece Direction}
    (hh : s.Hides q.ballXPosIn.toNat q.ballYPosIn.toNat) :
    (intDiff p.ballXPosIn q.ballXPosIn < 0 →
        isOpen s.row (s.col + 1) = false ∧ isOpen (s.row + 1) (s.col + 1) = false) ∧
      (intDiff p.ballXPosIn q.ballXPosIn > 0 →
        isOpen s.row (s.col - 1) = false ∧ isOpen (s.row + 1) (s.col - 1) = false) := by
  have hx := hp.column
  constructor
  · intro hneg
    rw [intDiff] at hneg
    exact hh.right (by omega)
  · intro hpos
    rw [intDiff] at hpos
    exact hh.left (by omega)

/-- Between two cells of a column Blue keeps the motion it has, which is vertical. -/
theorem Board.Lively.vertical_between (T : Tables) {b : Board} (hl : b.Lively) (hs : b.Safe)
    (hc : b.actors.collision = false)
    (hout : inside b.actors.blueEvil.ballXPosIn b.actors.blueEvil.ballYPosIn = false)
    (hy : 6 < b.actors.blueEvil.ballYPosIn.toNat % 32) :
    b.actors.blueEvilIn (mazeWall T) = (stepOf 0b001).motion ∨
      b.actors.blueEvilIn (mazeWall T) = (stepOf 0b011).motion := by
  have hkeep : b.actors.blueEvilIn (mazeWall T) = b.actors.blueEvil.toHeading :=
    hs.ghostIn_outside T hc .blue hout
  have hpermits : Permits b.actors.blueEvil.ballXPosIn.toNat b.actors.blueEvil.ballYPosIn.toNat
      b.actors.blueEvil.ballXMotion b.actors.blueEvil.ballYMotion := hs.blueEvil.keep hout
  rw [hkeep]
  rcases hpermits.vertical hy (hl hc .blue hout) with h | h
  · rw [Prod.mk.injEq] at h
    exact Or.inl (congrArg₂ (Heading.mk · · ()) h.1 h.2)
  · rw [Prod.mk.injEq] at h
    exact Or.inr (congrArg₂ (Heading.mk · · ()) h.1 h.2)

/-- **What Blue selects in a shaft that hides Pac-Man**: down in the upper cell, up in the lower,
    and between them one of the two. -/
theorem Board.Lively.shaft_heading (T : Tables) {b : Board} (hl : b.Lively) (hs : b.Safe)
    (hc : b.actors.collision = false) {s : Shaft} (hin : b.actors.blueEvil.InShaft s)
    (hh : s.Hides b.actors.pacMan.ballXPosIn.toNat b.actors.pacMan.ballYPosIn.toNat) :
    (b.actors.blueEvilIn (mazeWall T) = (stepOf 0b001).motion ∧
        b.actors.blueEvil.ballYPosIn.toNat < 32 * (s.row + 1)) ∨
      (b.actors.blueEvilIn (mazeWall T) = (stepOf 0b011).motion ∧
        32 * s.row < b.actors.blueEvil.ballYPosIn.toNat) := by
  have hx := hin.column
  have hy := hin.top
  have hy' := hin.bottom
  cases hblock : inside b.actors.blueEvil.ballXPosIn b.actors.blueEvil.ballYPosIn with
  | true =>
    have hoff := (inside_iff _ _).mp hblock
    have hcol : b.actors.blueEvil.ballXPosIn.toNat / 32 = s.col := by omega
    have hsense : b.actors.blueEvil.sensor (mazeWall T) = _ :=
      sense_maze T hs.blueEvil.clear hblock
    obtain ⟨hright, hleft⟩ := hin.sides hh
    rw [Actors.blueEvilIn, (Actors.flags_down hc).2.2, hsense]
    rcases Nat.lt_or_ge b.actors.blueEvil.ballYPosIn.toNat (32 * (s.row + 1)) with hlt | hge
    · -- the upper cell
      have hrow : b.actors.blueEvil.ballYPosIn.toNat / 32 = s.row := by omega
      refine Or.inl ⟨blueEvilHeading_down _ ?_ ?_ ?_ ?_, hlt⟩
      · rw [neighbours, hrow, hcol]
        exact fun h => (hright h).1
      · rw [neighbours, hrow, hcol]
        exact fun h => (hleft h).1
      · rw [neighbours, hrow, hcol]
        exact s.lower
      · rw [neighbours, hrow, hcol, intDiff]
        rcases hh.beyond with ⟨_, hbelow⟩ | ⟨hroof, habove⟩
        · exact Or.inl (by omega)
        · exact Or.inr ⟨by omega, hroof⟩
    · -- the lower cell
      have hrow : b.actors.blueEvil.ballYPosIn.toNat / 32 = s.row + 1 := by omega
      refine Or.inr ⟨blueEvilHeading_up _ ?_ ?_ ?_ ?_, by omega⟩
      · rw [neighbours, hrow, hcol]
        exact fun h => (hright h).2
      · rw [neighbours, hrow, hcol]
        exact fun h => (hleft h).2
      · rw [neighbours, hrow, hcol]
        exact s.upper
      · rw [neighbours, hrow, hcol, intDiff]
        rcases hh.beyond with ⟨hfloor, hbelow⟩ | ⟨_, habove⟩
        · exact Or.inr ⟨by omega, hfloor⟩
        · exact Or.inl (by omega)
  | false =>
    have hout := (inside_eq_false_iff _ _).mp hblock
    rcases hl.vertical_between T hs hc hblock (by omega) with he | he
    · exact Or.inl ⟨he, by omega⟩
    · exact Or.inr ⟨he, by omega⟩

/-- A step down from above the lower cell stays in the shaft. -/
theorem Piece.InShaft.down {s : Shaft} {p : Piece Unit} (hp : p.InShaft s)
    (hroom : p.ballYPosIn.toNat < 32 * (s.row + 1)) :
    (p.advance (stepOf 0b001).motion).InShaft s := by
  have hbound := isOpen_interior s.lower
  have hX : (p.advance (stepOf 0b001).motion).ballXPosIn = p.ballXPosIn := add_stay _
  have hY : (p.advance (stepOf 0b001).motion).ballYPosIn.toNat = p.ballYPosIn.toNat + 1 :=
    (moves_step (z := p.ballYPosIn) (by omega)).2
  have htop := hp.top
  refine ⟨?_, by omega, by omega⟩
  rw [hX]
  exact hp.column

/-- So does a step up from below the top of the upper cell. -/
theorem Piece.InShaft.up {s : Shaft} {p : Piece Unit} (hp : p.InShaft s)
    (hroom : 32 * s.row < p.ballYPosIn.toNat) : (p.advance (stepOf 0b011).motion).InShaft s := by
  have hX : (p.advance (stepOf 0b011).motion).ballXPosIn = p.ballXPosIn := add_stay _
  have hY : (p.advance (stepOf 0b011).motion).ballYPosIn.toNat = p.ballYPosIn.toNat - 1 :=
    (moves_inv (z := p.ballYPosIn) (by omega)).2
  have hbottom := hp.bottom
  refine ⟨?_, by omega, by omega⟩
  rw [hX]
  exact hp.column

/-- **A shaft that hides Pac-Man keeps Blue.** -/
theorem Board.Lively.clk_shaft (T : Tables) {i : ClkIn} {b : Board} {before : Bool} (hl : b.Lively)
    (hs : b.Safe) (hr : i.reset = false) (hsync : b.Synced before)
    (hc : b.actors.collision = false) {s : Shaft} (hin : b.actors.blueEvil.InShaft s)
    (hh : s.Hides b.actors.pacMan.ballXPosIn.toNat b.actors.pacMan.ballYPosIn.toNat) :
    (b.clk T i).actors.blueEvil.InShaft s := by
  have hread : b.wallRead T = mazeWall T := by rw [Board.wallRead, hs.wall, mazeWall]
  rw [b.clk_actors T hr hc hsync, hread]
  split
  · have hstep : (b.actors.frameStep (mazeWall T) i.key).blueEvil =
        b.actors.blueEvil.advance (b.actors.blueEvilIn (mazeWall T)) := by
      show b.actors.blueEvil.advance (b.actors.orHalt _) = _
      rw [Actors.orHalt, hc, if_neg Bool.false_ne_true]
    rw [hstep]
    rcases hl.shaft_heading T hs hc hin hh with ⟨he, hroom⟩ | ⟨he, hroom⟩
    · rw [he]
      exact hin.down hroom
    · rw [he]
      exact hin.up hroom
  · exact hin

/-! ## Rest -/

/-- Pac-Man stands still. -/
def Piece.Rests (p : Piece Direction) : Prop := (p.ballXMotion, p.ballYMotion) = (0, 0)

/-- The wall stop starts nobody. -/
theorem pacManStop_rest (w : Sensor) {h : Heading Direction}
    (hm : (h.ballXMotion, h.ballYMotion) = (0, 0)) :
    ((pacManStop w h).ballXMotion, (pacManStop w h).ballYMotion) = (0, 0) := by
  rw [Prod.mk.injEq] at hm
  unfold pacManStop
  split
  · split
    · rw [hm.2]
    · split
      · rw [hm.1]
      · rw [hm.1, hm.2]
  · rw [hm.1, hm.2]

/-- **A frame at rest**, with a key that has no effect. -/
theorem Piece.Rests.advance {wall : Int → Int → Bool} {p : Piece Direction} (hp : p.Rests)
    {key : BitVec 8} (hk : turn wall key p.ballXPosIn p.ballYPosIn = none) (collision : Bool) :
    (p.advance (pacManHeading key (p.sensor wall) collision p.toHeading)).Rests ∧
      (p.advance (pacManHeading key (p.sensor wall) collision p.toHeading)).posOut = p.posOut := by
  have hm : ((pacManHeading key (p.sensor wall) collision p.toHeading).ballXMotion,
      (pacManHeading key (p.sensor wall) collision p.toHeading).ballYMotion) = (0, 0) := by
    cases collision with
    | true => rfl
    | false =>
      rw [pacManHeading, if_neg Bool.false_ne_true, Piece.sensor, pacManKey_turn, hk]
      exact pacManStop_rest _ hp
  exact ⟨hm, (Piece.posOut_of_still hm).trans (p.advance_pos _)⟩

/-! ## On the board -/

/-- The cells off both rings. -/
def offRings (a : Nat × Nat) : Bool := !redRing a && !greenRing a

/-- **Pac-Man is out of reach**: off the rings, and hidden from the shaft. -/
structure Piece.OutOfReach (s : Shaft) (p : Piece Direction) : Prop where
  off : touchesOnly offRings p.ballXPosIn.toNat p.ballYPosIn.toNat = true
  hidden : s.Hides p.ballXPosIn.toNat p.ballYPosIn.toNat

theorem Piece.OutOfReach.congr {s : Shaft} {p q : Piece Direction} (hp : p.OutOfReach s)
    (h : q.posOut = p.posOut) : q.OutOfReach s := by
  have hx : q.ballXPosIn = p.ballXPosIn := congrArg Prod.fst h
  have hy : q.ballYPosIn = p.ballYPosIn := congrArg Prod.snd h
  refine ⟨?_, ?_⟩
  · rw [hx, hy]
    exact hp.off
  · rw [hx, hy]
    exact hp.hidden

/-- With Blue in the shaft nobody is near him. -/
theorem Actors.calm_of_outOfReach {a : Actors} {k : Nat} (hk : 129 ≤ k) (hpatrol : a.Patrolling k)
    {s : Shaft} (hblue : a.blueEvil.InShaft s) (hpac : a.pacMan.OutOfReach s) :
    a.collision = false := by
  have hred : a.isCollisionRed = false := by
    refine apart_of_touching (S := redRing) ?_ ?_ hpac.off
    · intro c hc
      rw [offRings, hc]
      rfl
    · rw [hpatrol.1]
      exact red_touches (by omega)
  have hgreen : a.isCollisionGreen = false := by
    refine apart_of_touching (S := greenRing) ?_ ?_ hpac.off
    · intro c hc
      rw [offRings, hc, Bool.not_true, Bool.and_false]
    · rw [hpatrol.2]
      exact green_touches hk
  have hblue : a.isCollisionBlue = false := by
    rw [Actors.isCollisionBlue, collidesBlue_eq, ← Bool.not_eq_true, collides, withinSeven_iff]
    simp only [intDiff, Piece.posOut]
    have htop := hblue.top
    have hbottom := hblue.bottom
    rcases hpac.hidden.beyond with ⟨_, h⟩ | ⟨_, h⟩
    · omega
    · omega
  rw [Actors.collision, hred, hgreen, hblue]
  rfl

section Run

variable (T : Tables) (b : Board) {i : ClkIn} (hi : i.reset = true) {ins : Nat → ClkIn}
  (hins : ∀ n, (ins n).reset = false)

include hi hins

/-- **As long as Pac-Man is out of reach** Blue stays in the shaft, and nobody catches him. -/
theorem outOfReach_run {s : Shaft} {m n : Nat} (hmn : m ≤ n) (hlead : 129 ≤ frames i.frameClk ins m)
    (hc : (Clocked.run (Board.clk T) ins (b.clk T i) m).actors.collision = false)
    (hblue : (Clocked.run (Board.clk T) ins (b.clk T i) m).actors.blueEvil.InShaft s)
    (hpac : ∀ k, m ≤ k → k ≤ n →
      (Clocked.run (Board.clk T) ins (b.clk T i) k).actors.pacMan.OutOfReach s) :
    (Clocked.run (Board.clk T) ins (b.clk T i) n).actors.collision = false ∧
      (Clocked.run (Board.clk T) ins (b.clk T i) n).actors.blueEvil.InShaft s := by
  induction n, hmn using Nat.le_induction with
  | base => exact ⟨hc, hblue⟩
  | succ n hmn ih =>
    obtain ⟨hcn, hbluen⟩ := ih (fun k hk hkn => hpac k hk (Nat.le_succ_of_le hkn))
    obtain ⟨hlively, hsync⟩ := lively_run T b hi ins n
    have hpatrol := patrol_tick T b hi hins hcn (patrol_run T b hi hins n hcn)
    have hshaft := hlively.clk_shaft T (safe_run T b hi ins n) (hins n) hsync hcn hbluen
      (hpac n hmn (Nat.le_succ n)).hidden
    refine ⟨?_, hshaft⟩
    refine Actors.calm_of_outOfReach ?_ hpatrol hshaft (hpac (n + 1) (by omega) (Nat.le_refl _))
    exact Nat.le_trans hlead (frames_mono i.frameClk ins (by omega))

/-- **Who rests and takes no key stays where he is**, even after a collision. -/
theorem rests_run {m n : Nat} (hmn : m ≤ n)
    (hrest : (Clocked.run (Board.clk T) ins (b.clk T i) m).actors.pacMan.Rests)
    (hkeys : ∀ k, m ≤ k → frameEdge i.frameClk ins k = true → turn (mazeWall T) (ins k).key
      (Clocked.run (Board.clk T) ins (b.clk T i) m).pacMan.ballXPosIn
      (Clocked.run (Board.clk T) ins (b.clk T i) m).pacMan.ballYPosIn = none) :
    (Clocked.run (Board.clk T) ins (b.clk T i) n).actors.pacMan.Rests ∧
      (Clocked.run (Board.clk T) ins (b.clk T i) n).actors.pacMan.posOut =
        (Clocked.run (Board.clk T) ins (b.clk T i) m).actors.pacMan.posOut := by
  induction n, hmn using Nat.le_induction with
  | base => exact ⟨hrest, rfl⟩
  | succ n hmn ih =>
    obtain ⟨hstill, hpos⟩ := ih
    rw [pacMan_tick T b hi n (hins n), ← hpos]
    split
    · rename_i he
      have hx : (Clocked.run (Board.clk T) ins (b.clk T i) n).actors.pacMan.ballXPosIn =
          (Clocked.run (Board.clk T) ins (b.clk T i) m).pacMan.ballXPosIn := congrArg Prod.fst hpos
      have hy : (Clocked.run (Board.clk T) ins (b.clk T i) n).actors.pacMan.ballYPosIn =
          (Clocked.run (Board.clk T) ins (b.clk T i) m).pacMan.ballYPosIn := congrArg Prod.snd hpos
      have hk := hkeys n hmn he
      rw [← hx, ← hy] at hk
      exact hstill.advance hk _
    · exact ⟨hstill, rfl⟩

end Run

/-- **A refuge.**  In every run after Reset, for every key sequence, every `frame_clk` and every
    content of the tables: if from frame 129 on, with no flag up, Blue is in a shaft,
    (1) as long as Pac-Man is out of reach, off the rings and hidden from the shaft, no flag goes
        up, wherever he moves, and Blue does not leave the shaft;
    (2) if he rests out of reach and no key has an effect on him, he stays there for ever, and no
        flag ever goes up. -/
theorem refuge (T : Tables) (b : Board) (i : ClkIn) (hi : i.reset = true) (ins : Nat → ClkIn)
    (hins : ∀ n, (ins n).reset = false) (s : Shaft) (m : Nat)
    (hlead : 129 ≤ frames i.frameClk ins m)
    (hc : (Clocked.run (Board.clk T) ins (b.clk T i) m).actors.collision = false)
    (hblue : (Clocked.run (Board.clk T) ins (b.clk T i) m).actors.blueEvil.InShaft s) :
    let a := fun n => (Clocked.run (Board.clk T) ins (b.clk T i) n).actors
    (∀ n, m ≤ n → (∀ k, m ≤ k → k ≤ n → (a k).pacMan.OutOfReach s) →
      (a n).collision = false ∧ (a n).blueEvil.InShaft s) ∧
    ((a m).pacMan.Rests → (a m).pacMan.OutOfReach s →
      (∀ k, m ≤ k → frameEdge i.frameClk ins k = true →
        turn (mazeWall T) (ins k).key (a m).pacMan.ballXPosIn (a m).pacMan.ballYPosIn = none) →
      ∀ n, m ≤ n → (a n).collision = false ∧ (a n).pacMan.posOut = (a m).pacMan.posOut) := by
  intro a
  refine ⟨fun n hmn hpac => outOfReach_run T b hi hins hmn hlead hc hblue hpac, ?_⟩
  intro hrest hpac hkeys n hmn
  have hstays : ∀ k, m ≤ k → (a k).pacMan.posOut = (a m).pacMan.posOut :=
    fun k hmk => (rests_run T b hi hins hmk hrest hkeys).2
  have hreach : ∀ k, m ≤ k → k ≤ n → (a k).pacMan.OutOfReach s :=
    fun k hmk _ => hpac.congr (hstays k hmk)
  exact ⟨(outOfReach_run T b hi hins hmn hlead hc hblue hreach).1, hstays n hmn⟩

/-- Right in the first frame, then down for ever; every second tick is a frame edge. -/
def rightThenDown (n : Nat) : ClkIn :=
  ⟨false, if n = 0 then 0x07 else 0x16, n % 2 == 0, 0, 0⟩

/-- The two cells of column 11 above the middle of the maze, closed below and on the right. -/
def elevenShaft : Shaft := ⟨4, 11, by decide, by decide⟩

/-- **A game that is not lost**: after a million ticks no flag is up. -/
theorem refuge_million : (Clocked.run (Board.clk .shipped) rightThenDown
    (Board.clk .shipped ⟨true, 0, false, 0, 0⟩ default) 1000000).actors.collision = false := by
  have hlead : 129 ≤ frames false rightThenDown 322 := by
    rw [frames_alternating (fun _ => rfl)]
    decide
  -- after 161 frames he has come to rest in the cell (9, 13)
  obtain ⟨hpac, hblue, hcalm⟩ : (Clocked.run (Board.clk .shipped) rightThenDown
        (Board.clk .shipped ⟨true, 0, false, 0, 0⟩ default) 322).actors.pacMan =
        ⟨⟨0, 0, 0b001⟩, 416, 288⟩ ∧
      (Clocked.run (Board.clk .shipped) rightThenDown
        (Board.clk .shipped ⟨true, 0, false, 0, 0⟩ default) 322).actors.blueEvil =
        ⟨⟨0, ballStepInv, ()⟩, 352, 136⟩ ∧
      (Clocked.run (Board.clk .shipped) rightThenDown
        (Board.clk .shipped ⟨true, 0, false, 0, 0⟩ default) 322).actors.collision = false := by
    decide +kernel
  have hshaft : (⟨⟨0, ballStepInv, ()⟩, 352, 136⟩ : Piece Unit).InShaft elevenShaft :=
    ⟨by decide, by decide, by decide⟩
  have hreach : (⟨⟨0, 0, 0b001⟩, 416, 288⟩ : Piece Direction).OutOfReach elevenShaft :=
    ⟨by decide, Or.inl ⟨by decide, by decide⟩, by decide, by decide⟩
  refine ((refuge .shipped default ⟨true, 0, false, 0, 0⟩ rfl rightThenDown (fun _ => rfl)
    elevenShaft 322 hlead hcalm (by rw [hblue]; exact hshaft)).2 (by rw [hpac]; rfl)
    (by rw [hpac]; exact hreach) ?_ 1000000 (by decide)).1
  intro k hk _
  have hkey : (rightThenDown k).key = 0x16 := if_neg (by omega)
  rw [hkey, hpac]
  decide

end Lab8
