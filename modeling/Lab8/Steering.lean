/-
  Steering: every module only ever chooses a step that keeps its box on open cells.

  The invariant of one piece (`Piece.Safe`) is about its exported position: the box there is clear,
  the sum that produced it did not wrap, and if the box lies across two cells the motion still in
  the register may be applied again.  `Piece.Safe.advance` is the step lemma: a next heading that
  `Permits` allows keeps the invariant.  What remains is one lemma per module.

  * Pac-Man keeps its old motion inside a cell when no key is taken, so his motion must agree with
    his direction (`Heading.Agrees`), which is the side the wall stop looks at.
  * Inside a cell each ghost takes the first open side of a preference list (`redOrder`,
    `greenOrder`, `blueOrder`).  The lists are long enough: there is no dead end in the maze, so no
    ghost ever falls through to its old motion there.
-/
import Lab8.Maze
import Lab8.Ball
import Lab8.Evil

namespace Lab8

variable {δ : Type}

/-! ## Permitted steps -/

/-- The step `(mx, my)` may be taken from the clear box at `(x, y)`. -/
inductive Permits (x y : Nat) : BitVec 10 → BitVec 10 → Prop
  | stay : Permits x y 0 0
  | left (hy : y % 32 ≤ 6) (hopen : x % 32 ≤ 6 → isOpen (y / 32) (x / 32 - 1) = true) :
      Permits x y ballStepInv 0
  | right (hy : y % 32 ≤ 6) (hopen : x % 32 ≤ 6 → isOpen (y / 32) (x / 32 + 1) = true) :
      Permits x y ballStep 0
  | up (hx : x % 32 ≤ 6) (hopen : y % 32 ≤ 6 → isOpen (y / 32 - 1) (x / 32) = true) :
      Permits x y 0 ballStepInv
  | down (hx : x % 32 ≤ 6) (hopen : y % 32 ≤ 6 → isOpen (y / 32 + 1) (x / 32) = true) :
      Permits x y 0 ballStep

/-- `z` moved by the motion `m`, which is at most one pixel, without wrapping. -/
def Moves (z m z' : BitVec 10) : Prop := (z'.toNat : Int) = z.toNat + m.toInt

/-- The motion is zero or one pixel along one axis. -/
def UnitMotion (mx my : BitVec 10) : Prop :=
  (mx.toInt = 0 ∧ my.toInt.natAbs ≤ 1) ∨ (my.toInt = 0 ∧ mx.toInt.natAbs ≤ 1)

theorem Permits.unit {x y : Nat} {mx my : BitVec 10} (h : Permits x y mx my) : UnitMotion mx my := by
  cases h <;> unfold UnitMotion <;> decide

theorem add_stay (z : BitVec 10) : z + 0 = z := by simp

theorem moves_stay (z : BitVec 10) : Moves z 0 z := by simp [Moves]

theorem moves_inv {z : BitVec 10} (h : 1 ≤ z.toNat) :
    Moves z ballStepInv (z + ballStepInv) ∧ (z + ballStepInv).toNat = z.toNat - 1 := by
  have ht : (z + ballStepInv).toNat = z.toNat - 1 := by
    have hz := z.isLt
    rw [BitVec.toNat_add, show ballStepInv.toNat = 1023 from rfl]
    omega
  refine ⟨?_, ht⟩
  rw [Moves, ht, show ballStepInv.toInt = -1 from rfl]
  omega

theorem moves_step {z : BitVec 10} (h : z.toNat < 1023) :
    Moves z ballStep (z + ballStep) ∧ (z + ballStep).toNat = z.toNat + 1 := by
  have ht : (z + ballStep).toNat = z.toNat + 1 := by
    rw [BitVec.toNat_add, show ballStep.toNat = 1 from rfl]
    omega
  refine ⟨?_, ht⟩
  rw [Moves, ht, show ballStep.toInt = 1 from rfl]
  omega

/-! ## The invariant of a piece -/

/-- **Safety of one piece.** -/
structure Piece.Safe (p : Piece δ) : Prop where
  /-- The box at the exported position covers open cells only. -/
  clear : BoxClear p.ballXPosIn.toNat p.ballYPosIn.toNat
  /-- Across two cells the motion in the register may be kept. -/
  keep : inside p.ballXPosIn p.ballYPosIn = false →
    Permits p.ballXPosIn.toNat p.ballYPosIn.toNat p.ballXMotion p.ballYMotion
  unit : UnitMotion p.ballXMotion p.ballYMotion
  movesX : Moves p.ballXPos p.ballXMotion p.ballXPosIn
  movesY : Moves p.ballYPos p.ballYMotion p.ballYPosIn

theorem inside_eq_false_iff (x y : BitVec 10) :
    inside x y = false ↔ 6 < x.toNat % 32 ∨ 6 < y.toNat % 32 := by
  rw [← Bool.not_eq_true, inside_iff]
  omega

/-- **The step lemma.**  A permitted heading keeps a piece safe. -/
theorem Piece.Safe.advance {p : Piece δ} (hs : p.Safe) {h : Heading δ}
    (hp : Permits p.ballXPosIn.toNat p.ballYPosIn.toNat h.ballXMotion h.ballYMotion) :
    (p.advance h).Safe := by
  have hX : (p.advance h).ballXPosIn = p.ballXPosIn + h.ballXMotion := rfl
  have hY : (p.advance h).ballYPosIn = p.ballYPosIn + h.ballYMotion := rfl
  have hin := hs.clear.interior
  -- it is enough to know the new coordinates, the new box, and that the step may be repeated
  suffices hgoal : BoxClear (p.advance h).ballXPosIn.toNat (p.advance h).ballYPosIn.toNat ∧
      (inside (p.advance h).ballXPosIn (p.advance h).ballYPosIn = false →
        Permits (p.advance h).ballXPosIn.toNat (p.advance h).ballYPosIn.toNat h.ballXMotion
          h.ballYMotion) ∧
      Moves p.ballXPosIn h.ballXMotion (p.advance h).ballXPosIn ∧
      Moves p.ballYPosIn h.ballYMotion (p.advance h).ballYPosIn by
    exact ⟨hgoal.1, hgoal.2.1, hp.unit, hgoal.2.2.1, hgoal.2.2.2⟩
  rw [hX, hY]
  generalize h.ballXMotion = mx at hp ⊢
  generalize h.ballYMotion = my at hp ⊢
  generalize hx : p.ballXPosIn = x at hin hp ⊢
  generalize hy : p.ballYPosIn = y at hin hp ⊢
  have hc : BoxClear x.toNat y.toNat := hx ▸ hy ▸ hs.clear
  cases hp with
  | stay =>
    rw [add_stay, add_stay]
    exact ⟨hc, fun _ => Permits.stay, moves_stay x, moves_stay y⟩
  | left hlane hopen =>
    obtain ⟨hm, ht⟩ := moves_inv (z := x) (by omega)
    rw [ht, add_stay]
    refine ⟨hc.left hlane hopen, ?_, hm, moves_stay y⟩
    intro hout
    rw [inside_eq_false_iff, ht] at hout
    exact Permits.left hlane (fun h6 => absurd h6 (by omega))
  | right hlane hopen =>
    obtain ⟨hm, ht⟩ := moves_step (z := x) (by omega)
    rw [ht, add_stay]
    refine ⟨hc.right hlane hopen, ?_, hm, moves_stay y⟩
    intro hout
    rw [inside_eq_false_iff, ht] at hout
    exact Permits.right hlane (fun h6 => absurd h6 (by omega))
  | up hlane hopen =>
    obtain ⟨hm, ht⟩ := moves_inv (z := y) (by omega)
    rw [ht, add_stay]
    refine ⟨hc.up hlane hopen, ?_, moves_stay x, hm⟩
    intro hout
    rw [inside_eq_false_iff, ht] at hout
    exact Permits.up hlane (fun h6 => absurd h6 (by omega))
  | down hlane hopen =>
    obtain ⟨hm, ht⟩ := moves_step (z := y) (by omega)
    rw [ht, add_stay]
    refine ⟨hc.down hlane hopen, ?_, moves_stay x, hm⟩
    intro hout
    rw [inside_eq_false_iff, ht] at hout
    exact Permits.down hlane (fun h6 => absurd h6 (by omega))

/-! ## What the sensors say in the loaded maze -/

/-- Open cells next to the cell `(y / 32, x / 32)`. -/
structure Neighbours where
  up : Bool
  down : Bool
  right : Bool
  left : Bool

/-- The neighbours of the corner cell of a box. -/
def neighbours (x y : Nat) : Neighbours where
  up := isOpen (y / 32 - 1) (x / 32)
  down := isOpen (y / 32 + 1) (x / 32)
  right := isOpen (y / 32) (x / 32 + 1)
  left := isOpen (y / 32) (x / 32 - 1)

/-- The sensors of a box inside a cell with these neighbours. -/
def Neighbours.sensor (n : Neighbours) : Sensor := ⟨!n.up, !n.down, !n.right, !n.left, true⟩

/-- **The sensors are the neighbours**: inside a cell each wall bit is the negated open bit of the
    neighbour on its side, and every array index is in range. -/
theorem sense_maze (T : Tables) {x y : BitVec 10} (hc : BoxClear x.toNat y.toNat)
    (hin : inside x y = true) :
    sense (mazeWall T) x y = (neighbours x.toNat y.toNat).sensor := by
  have hb := hc.interior
  have hxc : coordinate x = ((x.toNat / 32 : Nat) : Int) := rfl
  have hyc : coordinate y = ((y.toNat / 32 : Nat) : Int) := rfl
  have hx1 : coordinate x + 1 = ((x.toNat / 32 + 1 : Nat) : Int) := rfl
  have hy1 : coordinate y + 1 = ((y.toNat / 32 + 1 : Nat) : Int) := rfl
  have hx0 : coordinate x - 1 = ((x.toNat / 32 - 1 : Nat) : Int) := by rw [hxc]; omega
  have hy0 : coordinate y - 1 = ((y.toNat / 32 - 1 : Nat) : Int) := by rw [hyc]; omega
  rw [sense, hin, if_pos rfl, hx0, hy0, hx1, hy1, hxc, hyc]
  unfold Neighbours.sensor neighbours
  rw [mazeWall_eq T (by omega) (by omega), mazeWall_eq T (by omega) (by omega),
    mazeWall_eq T (by omega) (by omega), mazeWall_eq T (by omega) (by omega)]

/-- The corner cell of a clear box is no dead end. -/
theorem BoxClear.no_dead_end {x y : Nat} (hc : BoxClear x y) :
    ((neighbours x y).left = true ∨ (neighbours x y).right = true ∨ (neighbours x y).up = true) ∧
    ((neighbours x y).left = true ∨ (neighbours x y).right = true ∨ (neighbours x y).down = true) ∧
    ((neighbours x y).left = true ∨ (neighbours x y).up = true ∨ (neighbours x y).down = true) ∧
    ((neighbours x y).right = true ∨ (neighbours x y).up = true ∨
      (neighbours x y).down = true) := by
  have hlt := isOpen_lt hc.corner
  have h := maze_no_dead_end _ hlt.1 _ hlt.2 hc.corner
  simpa [neighbours, Bool.and_eq_true, Bool.or_eq_true, and_assoc, or_assoc] using h

/-- Inside a cell a step towards an open neighbour is permitted, and standing still always is. -/
theorem permits_inside {x y : BitVec 10} (hin : inside x y = true) :
    ((neighbours x.toNat y.toNat).left = true → Permits x.toNat y.toNat ballStepInv 0) ∧
    ((neighbours x.toNat y.toNat).right = true → Permits x.toNat y.toNat ballStep 0) ∧
    ((neighbours x.toNat y.toNat).up = true → Permits x.toNat y.toNat 0 ballStepInv) ∧
    ((neighbours x.toNat y.toNat).down = true → Permits x.toNat y.toNat 0 ballStep) := by
  have h := (inside_iff x y).mp hin
  exact ⟨fun ho => Permits.left h.2 (fun _ => ho), fun ho => Permits.right h.2 (fun _ => ho),
    fun ho => Permits.up h.1 (fun _ => ho), fun ho => Permits.down h.1 (fun _ => ho)⟩

/-! ## Pac-Man -/

/-- The unit step of a direction. -/
def unitOf (d : Direction) : BitVec 10 × BitVec 10 :=
  if d = 0b000 then (ballStepInv, 0)
  else if d = 0b001 then (0, ballStep)
  else if d = 0b010 then (ballStep, 0)
  else if d = 0b011 then (0, ballStepInv)
  else (0, 0)

/-- Motion and direction agree: the motion is the direction's unit step, or zero. -/
def Heading.Agrees (h : Heading Direction) : Prop :=
  (h.ballXMotion, h.ballYMotion) = unitOf h.currentDirection ∨
    (h.ballXMotion, h.ballYMotion) = (0, 0)

theorem pacManKey_agrees (key : BitVec 8) (w : Sensor) {h : Heading Direction} (ha : h.Agrees) :
    (pacManKey key w h).Agrees := by
  rcases pacManKey_cases key w h with ⟨_, he⟩ | ⟨_, he⟩ | ⟨_, he⟩ | ⟨_, he⟩ | he
  · rw [he]; exact Or.inl rfl
  · rw [he]; exact Or.inl rfl
  · rw [he]; exact Or.inl rfl
  · rw [he]; exact Or.inl rfl
  · rw [he]; exact ha

/-- The neighbour on the side of a direction; `3'b111` and the unused codes have none to ask. -/
def Neighbours.side (n : Neighbours) (d : Direction) : Bool :=
  if d = 0b000 then n.left
  else if d = 0b001 then n.down
  else if d = 0b010 then n.right
  else if d = 0b011 then n.up
  else true

/-- A step along a direction whose side is open is permitted. -/
theorem permits_side {x y : BitVec 10} (hin : inside x y = true) {d : Direction}
    (h : (neighbours x.toNat y.toNat).side d = true) :
    Permits x.toNat y.toNat (unitOf d).1 (unitOf d).2 := by
  obtain ⟨hl, hr, hu, hd⟩ := permits_inside hin
  unfold Neighbours.side at h
  unfold unitOf
  split
  · rename_i h0; rw [if_pos h0] at h; exact hl h
  · rename_i h0; rw [if_neg h0] at h
    split
    · rename_i h1; rw [if_pos h1] at h; exact hd h
    · rename_i h1; rw [if_neg h1] at h
      split
      · rename_i h2; rw [if_pos h2] at h; exact hr h
      · rename_i h2; rw [if_neg h2] at h
        split
        · rename_i h3; rw [if_pos h3] at h; exact hu h
        · exact Permits.stay

/-- **The wall stop, inside a cell**: the direction stays; the motion becomes zero at a wall ahead
    and is the old one, still in agreement, when the side is open. -/
theorem pacManStop_inside (n : Neighbours) {h : Heading Direction} (ha : h.Agrees) :
    (pacManStop n.sensor h).currentDirection = h.currentDirection ∧
    (((pacManStop n.sensor h).ballXMotion, (pacManStop n.sensor h).ballYMotion) = (0, 0) ∨
      (n.side h.currentDirection = true ∧
        ((pacManStop n.sensor h).ballXMotion, (pacManStop n.sensor h).ballYMotion)
          = unitOf h.currentDirection)) := by
  obtain ⟨mx, my, d⟩ := h
  simp only [Heading.Agrees] at ha
  by_cases h0 : d = 0b000
  · subst h0
    cases hl : n.left <;> rcases ha with ha | ha <;>
      simp_all [pacManStop, Neighbours.sensor, Neighbours.side, unitOf]
  by_cases h1 : d = 0b001
  · subst h1
    cases hl : n.down <;> rcases ha with ha | ha <;>
      simp_all [pacManStop, Neighbours.sensor, Neighbours.side, unitOf]
  by_cases h2 : d = 0b010
  · subst h2
    cases hl : n.right <;> rcases ha with ha | ha <;>
      simp_all [pacManStop, Neighbours.sensor, Neighbours.side, unitOf]
  by_cases h3 : d = 0b011
  · subst h3
    cases hl : n.up <;> rcases ha with ha | ha <;>
      simp_all [pacManStop, Neighbours.sensor, Neighbours.side, unitOf]
  -- no side to run into: both forms of agreement say that the motion is zero already
  have hu : unitOf d = (0, 0) := by
    rw [unitOf, if_neg h0, if_neg h1, if_neg h2, if_neg h3]
  have hm : (mx, my) = (0, 0) := by
    rcases ha with ha | ha
    · rw [ha, hu]
    · exact ha
  have hsame : pacManStop n.sensor ⟨mx, my, d⟩ = ⟨mx, my, d⟩ := by
    unfold pacManStop
    split
    · rw [if_neg (by rintro (⟨h, _⟩ | ⟨h, _⟩) <;> contradiction),
        if_neg (by rintro (⟨h, _⟩ | ⟨h, _⟩) <;> contradiction)]
    · rfl
  rw [hsame]
  exact ⟨rfl, Or.inl hm⟩

/-- **Pac-Man's logic only chooses permitted headings**, and keeps motion and direction in
    agreement. -/
theorem pacManHeading_permits (T : Tables) {x y : BitVec 10} {h : Heading Direction}
    (hc : BoxClear x.toNat y.toNat)
    (hkeep : inside x y = false → Permits x.toNat y.toNat h.ballXMotion h.ballYMotion)
    (ha : h.Agrees) (key : BitVec 8) (collision : Bool) :
    Permits x.toNat y.toNat (pacManHeading key (sense (mazeWall T) x y) collision h).ballXMotion
      (pacManHeading key (sense (mazeWall T) x y) collision h).ballYMotion ∧
    (pacManHeading key (sense (mazeWall T) x y) collision h).Agrees := by
  cases collision with
  | true => exact ⟨Permits.stay, Or.inr rfl⟩
  | false =>
    rw [pacManHeading, if_neg Bool.false_ne_true]
    cases hin : inside x y with
    | false =>
      -- between cells no key is taken and nothing stops him: the old heading is kept
      have hk : pacManStop (sense (mazeWall T) x y) (pacManKey key (sense (mazeWall T) x y) h) = h := by
        rw [sense_outside hin]
        simp [pacManKey, pacManStop]
      rw [hk]
      exact ⟨hkeep hin, ha⟩
    | true =>
      rw [sense_maze T hc hin]
      obtain ⟨hdir, hmot⟩ := pacManStop_inside (neighbours x.toNat y.toNat)
        (pacManKey_agrees key (neighbours x.toNat y.toNat).sensor ha)
      rcases hmot with h0 | ⟨hside, hu⟩
      · refine ⟨?_, Or.inr h0⟩
        rw [(Prod.mk.inj h0).1, (Prod.mk.inj h0).2]
        exact Permits.stay
      · refine ⟨?_, Or.inl (hu.trans (congrArg unitOf hdir.symm))⟩
        have hp := permits_side hin hside
        rw [← hu] at hp
        exact hp

/-! ## The ghosts: first open side of a preference list -/

/-- Forget the direction. -/
def Heading.motion (h : Heading δ) : Heading Unit := ⟨h.ballXMotion, h.ballYMotion, ()⟩

/-- The heading that goes along a direction. -/
def stepOf (d : Direction) : Heading Direction := ⟨(unitOf d).1, (unitOf d).2, d⟩

/-- The step to the first open side of the list, `h` if none is open. -/
def Neighbours.first (n : Neighbours) (h : Heading Direction) : List Direction → Heading Direction
  | [] => h
  | d :: ds => if n.side d = true then stepOf d else n.first h ds

/-- With an open side on the list, the step taken is the step to an open side of the list. -/
theorem Neighbours.first_open {n : Neighbours} {h : Heading Direction} {ds : List Direction}
    (hex : ∃ d ∈ ds, n.side d = true) : ∃ d ∈ ds, n.side d = true ∧ n.first h ds = stepOf d := by
  induction ds with
  | nil => obtain ⟨d, hd, _⟩ := hex; exact absurd hd List.not_mem_nil
  | cons e es ih =>
    by_cases he : n.side e = true
    · exact ⟨e, List.mem_cons_self, he, by rw [Neighbours.first, if_pos he]⟩
    · obtain ⟨d, hd, hs⟩ := hex
      have hes : ∃ d ∈ es, n.side d = true := by
        rcases List.mem_cons.mp hd with rfl | hmem
        · exact absurd hs he
        · exact ⟨d, hmem, hs⟩
      obtain ⟨d', hd', hs', hf⟩ := ih hes
      exact ⟨d', List.mem_cons_of_mem e hd', hs', by rw [Neighbours.first, if_neg he, hf]⟩

/-- Red's order of preference: straight on, then the two sides; never back. -/
def redOrder (d : Direction) : List Direction :=
  if d = 0b001 then [0b001, 0b010, 0b000]
  else if d = 0b000 then [0b000, 0b001, 0b011]
  else if d = 0b010 then [0b010, 0b001, 0b011]
  else if d = 0b011 then [0b011, 0b010, 0b000]
  else []

/-- Green's order: up, right, down, left without the reverse of its direction. -/
def greenOrder (d : Direction) : List Direction :=
  (if d = 0b001 then [] else [0b011]) ++ (if d = 0b000 then [] else [0b010]) ++
    (if d = 0b011 then [] else [0b001]) ++ (if d = 0b010 then [] else [0b000])

/-- Blue's order: the sides towards Pac-Man, then up, down, right, left. -/
def blueOrder (diffX diffY : Int) : List Direction :=
  (if diffX < 0 then [0b010] else []) ++ (if diffX > 0 then [0b000] else []) ++
    (if diffY < 0 then [0b001] else []) ++ (if diffY > 0 then [0b011] else []) ++
    [0b011, 0b001, 0b010, 0b000]

/-- Inside a cell Red takes the first open side of its order. -/
theorem redEvilHeading_inside (n : Neighbours) {h : Heading Direction}
    (hd : h.currentDirection ≠ 0b111) :
    redEvilHeading n.sensor false h = n.first h (redOrder h.currentDirection) := by
  unfold redEvilHeading redOrder
  rw [if_neg Bool.false_ne_true, if_neg hd]
  by_cases h1 : h.currentDirection = 0b001
  · rw [if_pos ⟨h1, rfl⟩, if_pos h1]
    simp [Neighbours.first, Neighbours.side, Neighbours.sensor, stepOf, unitOf]
  rw [if_neg (fun hn => h1 hn.1), if_neg h1]
  by_cases h0 : h.currentDirection = 0b000
  · rw [if_pos ⟨h0, rfl⟩, if_pos h0]
    simp [Neighbours.first, Neighbours.side, Neighbours.sensor, stepOf, unitOf]
  rw [if_neg (fun hn => h0 hn.1), if_neg h0]
  by_cases h2 : h.currentDirection = 0b010
  · rw [if_pos ⟨h2, rfl⟩, if_pos h2]
    simp [Neighbours.first, Neighbours.side, Neighbours.sensor, stepOf, unitOf]
  rw [if_neg (fun hn => h2 hn.1), if_neg h2]
  by_cases h3 : h.currentDirection = 0b011
  · rw [if_pos ⟨h3, rfl⟩, if_pos h3]
    simp [Neighbours.first, Neighbours.side, Neighbours.sensor, stepOf, unitOf]
  rw [if_neg (fun hn => h3 hn.1), if_neg h3]
  rfl

/-- Inside a cell Green takes the first open side of its order. -/
theorem greenEvilHeading_inside (n : Neighbours) (h : Heading Direction) :
    greenEvilHeading n.sensor false h = n.first h (greenOrder h.currentDirection) := by
  unfold greenEvilHeading greenOrder
  rw [if_neg Bool.false_ne_true]
  by_cases h1 : h.currentDirection = 0b001
  · rw [h1]
    simp [Neighbours.first, Neighbours.side, Neighbours.sensor, stepOf, unitOf]
  by_cases h0 : h.currentDirection = 0b000
  · rw [h0]
    simp [Neighbours.first, Neighbours.side, Neighbours.sensor, stepOf, unitOf]
  by_cases h3 : h.currentDirection = 0b011
  · rw [h3]
    simp [Neighbours.first, Neighbours.side, Neighbours.sensor, stepOf, unitOf]
  by_cases h2 : h.currentDirection = 0b010
  · rw [h2]
    simp [Neighbours.first, Neighbours.side, Neighbours.sensor, stepOf, unitOf]
  rw [if_neg h1, if_neg h0, if_neg h3, if_neg h2]
  -- the two branches for "up" differ only in the direction they ask for, and both apply here
  cases hu : n.up <;>
    simp_all [Neighbours.first, Neighbours.side, Neighbours.sensor, stepOf, unitOf]

/-- A guarded entry of a preference list. -/
theorem Neighbours.first_guard (n : Neighbours) (h : Heading Direction) (c : Prop) [Decidable c]
    (d : Direction) (ds : List Direction) :
    n.first h ((if c then [d] else []) ++ ds) =
      if n.side d = true ∧ c then stepOf d else n.first h ds := by
  by_cases hc : c
  · simp [hc, Neighbours.first]
  · simp [hc]

/-- Inside a cell Blue takes the first open side of its order. -/
theorem blueEvilHeading_inside (n : Neighbours) (diffX diffY : Int) (h : Heading Direction) :
    blueEvilHeading n.sensor false diffX diffY h.motion =
      (n.first h (blueOrder diffX diffY)).motion := by
  simp only [blueOrder, List.append_assoc, Neighbours.first_guard, Neighbours.first,
    apply_ite Heading.motion]
  simp [blueEvilHeading, Neighbours.sensor, Neighbours.side, stepOf, unitOf, Heading.motion]

/-! ## The ghosts' logic only chooses permitted headings -/

/-- One of the four directions that name a side. -/
def IsSide (d : Direction) : Prop := d = 0b000 ∨ d = 0b001 ∨ d = 0b010 ∨ d = 0b011

instance (d : Direction) : Decidable (IsSide d) := inferInstanceAs (Decidable (_ ∨ _ ∨ _ ∨ _))

theorem IsSide.ne_none : ∀ {d : Direction}, IsSide d → d ≠ 0b111 := by decide

theorem redOrder_isSide : ∀ d : Direction, ∀ e ∈ redOrder d, IsSide e := by decide

/-- Red's order holds an open side wherever it is. -/
theorem BoxClear.redOrder_open {x y : Nat} (hc : BoxClear x y) {d : Direction} (hd : IsSide d) :
    ∃ e ∈ redOrder d, (neighbours x y).side e = true := by
  obtain ⟨hlru, hlrd, hlud, hrud⟩ := hc.no_dead_end
  rcases hd with rfl | rfl | rfl | rfl
  · simpa [redOrder, Neighbours.side, or_comm, or_left_comm] using hlud
  · simpa [redOrder, Neighbours.side, or_comm, or_left_comm] using hlrd
  · simpa [redOrder, Neighbours.side, or_comm, or_left_comm] using hrud
  · simpa [redOrder, Neighbours.side, or_comm, or_left_comm] using hlru

/-- Green's order holds an open side whatever its direction is. -/
theorem BoxClear.greenOrder_open {x y : Nat} (hc : BoxClear x y) (d : Direction) :
    ∃ e ∈ greenOrder d, (neighbours x y).side e = true := by
  obtain ⟨hlru, hlrd, hlud, hrud⟩ := hc.no_dead_end
  by_cases h0 : d = 0b000
  · subst h0; simpa [greenOrder, Neighbours.side, or_comm, or_left_comm] using hlud
  by_cases h1 : d = 0b001
  · subst h1; simpa [greenOrder, Neighbours.side, or_comm, or_left_comm] using hlrd
  by_cases h2 : d = 0b010
  · subst h2; simpa [greenOrder, Neighbours.side, or_comm, or_left_comm] using hrud
  by_cases h3 : d = 0b011
  · subst h3; simpa [greenOrder, Neighbours.side, or_comm, or_left_comm] using hlru
  · rw [greenOrder, if_neg h1, if_neg h0, if_neg h3, if_neg h2]
    rcases hlru with h | h | h
    · exact ⟨0b000, by simp, h⟩
    · exact ⟨0b010, by simp, h⟩
    · exact ⟨0b011, by simp, h⟩

/-- Blue's order ends with all four sides. -/
theorem BoxClear.blueOrder_open {x y : Nat} (hc : BoxClear x y) (diffX diffY : Int) :
    ∃ e ∈ blueOrder diffX diffY, (neighbours x y).side e = true := by
  rcases hc.no_dead_end.1 with h | h | h
  · exact ⟨0b000, by simp [blueOrder], h⟩
  · exact ⟨0b010, by simp [blueOrder], h⟩
  · exact ⟨0b011, by simp [blueOrder], h⟩

theorem redEvilHeading_permits (T : Tables) {x y : BitVec 10} {h : Heading Direction}
    (hc : BoxClear x.toNat y.toNat)
    (hkeep : inside x y = false → Permits x.toNat y.toNat h.ballXMotion h.ballYMotion)
    (hd : IsSide h.currentDirection) (own : Bool) :
    Permits x.toNat y.toNat (redEvilHeading (sense (mazeWall T) x y) own h).ballXMotion
      (redEvilHeading (sense (mazeWall T) x y) own h).ballYMotion ∧
    IsSide (redEvilHeading (sense (mazeWall T) x y) own h).currentDirection := by
  have h7 : h.currentDirection ≠ 0b111 := hd.ne_none
  cases own with
  | true => exact ⟨Permits.stay, hd⟩
  | false =>
    cases hin : inside x y with
    | false =>
      have hk : redEvilHeading (sense (mazeWall T) x y) false h = h := by
        rw [sense_outside hin, redEvilHeading, if_neg Bool.false_ne_true, if_neg h7]
        simp
      rw [hk]
      exact ⟨hkeep hin, hd⟩
    | true =>
      obtain ⟨e, hmem, hside, hfirst⟩ :=
        Neighbours.first_open (h := h) (hc.redOrder_open hd)
      rw [sense_maze T hc hin, redEvilHeading_inside _ h7, hfirst]
      exact ⟨permits_side hin hside, redOrder_isSide _ e hmem⟩

theorem greenEvilHeading_permits (T : Tables) {x y : BitVec 10} {h : Heading Direction}
    (hc : BoxClear x.toNat y.toNat)
    (hkeep : inside x y = false → Permits x.toNat y.toNat h.ballXMotion h.ballYMotion)
    (own : Bool) :
    Permits x.toNat y.toNat (greenEvilHeading (sense (mazeWall T) x y) own h).ballXMotion
      (greenEvilHeading (sense (mazeWall T) x y) own h).ballYMotion := by
  cases own with
  | true => exact Permits.stay
  | false =>
    cases hin : inside x y with
    | false =>
      have hk : greenEvilHeading (sense (mazeWall T) x y) false h = h := by
        rw [sense_outside hin]
        simp [greenEvilHeading]
      rw [hk]
      exact hkeep hin
    | true =>
      obtain ⟨e, _, hside, hfirst⟩ :=
        Neighbours.first_open (h := h) (hc.greenOrder_open h.currentDirection)
      rw [sense_maze T hc hin, greenEvilHeading_inside, hfirst]
      exact permits_side hin hside

theorem blueEvilHeading_permits (T : Tables) {x y : BitVec 10} {h : Heading Unit}
    (hc : BoxClear x.toNat y.toNat)
    (hkeep : inside x y = false → Permits x.toNat y.toNat h.ballXMotion h.ballYMotion)
    (own : Bool) (diffX diffY : Int) :
    Permits x.toNat y.toNat
      (blueEvilHeading (sense (mazeWall T) x y) own diffX diffY h).ballXMotion
      (blueEvilHeading (sense (mazeWall T) x y) own diffX diffY h).ballYMotion := by
  cases own with
  | true => exact Permits.stay
  | false =>
    cases hin : inside x y with
    | false =>
      have hk : blueEvilHeading (sense (mazeWall T) x y) false diffX diffY h = h := by
        rw [sense_outside hin]
        simp [blueEvilHeading]
      rw [hk]
      exact hkeep hin
    | true =>
      -- Blue has no direction to fall back on; any stands in for it in the list lookup
      have hh : h = (⟨h.ballXMotion, h.ballYMotion, 0b111⟩ : Heading Direction).motion := rfl
      obtain ⟨e, _, hside, hfirst⟩ := Neighbours.first_open
        (h := ⟨h.ballXMotion, h.ballYMotion, 0b111⟩) (hc.blueOrder_open diffX diffY)
      rw [sense_maze T hc hin, hh, blueEvilHeading_inside, hfirst]
      exact permits_side hin hside

end Lab8
