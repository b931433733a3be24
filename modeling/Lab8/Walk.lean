/-
  Pac-Man alone: every open cell can be walked to.

  With the collision inputs held low `pac_man` is a machine of its own, one step per frame and key
  (`Piece.pacStep`).  Keys count only where his box is inside one cell, and he cannot turn round
  between cells, so a walk is planned from cell to cell:

  1. **Progress** (`Piece.Alone.travels`) — going towards a side, his distance to being inside the next
     cell (`ahead`) falls by one each frame.  By the motion law he is never at rest between cells, so
     from any state he comes to be inside a cell (`Piece.Alone.settles`).
  2. **Any open side** (`Piece.Alone.walks`) — inside a cell, at whatever offsets, the key of an open
     side is taken, and held until he is inside the neighbour cell.
  3. **Connectivity** (`maze_connected`) — the open cells are connected: following a table of hop
     counts leads from each of them to the starting cell.
  4. `Piece.Alone.reaches` — so every open cell can be reached from every state.
-/
import Lab8.Motion
import Mathlib.Data.Nat.Init
import Mathlib.Logic.Relation

namespace Lab8

/-! ## One frame of Pac-Man alone -/

/-- A frame of `pac_man` with the collision inputs low. -/
def Piece.pacStep (wall : Int → Int → Bool) (key : BitVec 8) (p : Piece Direction) :
    Piece Direction :=
  p.advance (pacManHeading key (p.sensor wall) false p.toHeading)

/-- **The invariant**: safe and lawful, and with direction `3'b111` only before the first step. -/
structure Piece.Alone (T : Tables) (p : Piece Direction) : Prop where
  safe : p.Safe
  lawful : p.Lawful (mazeWall T)
  knows : p.currentDirection = 0b111 → p.pos = pacManCenter

theorem Piece.Alone.center (T : Tables) : Actors.center.pacMan.Alone T :=
  ⟨Piece.Safe.rest (by decide) (by decide) _, Heading.Lawful.halt _ _, fun _ => rfl⟩

/-- The invariant survives every frame, whatever the key. -/
theorem Piece.Alone.step {T : Tables} {p : Piece Direction} (h : p.Alone T) (key : BitVec 8) :
    (p.pacStep (mazeWall T) key).Alone T := by
  have hp := pacManHeading_permits T h.safe.clear h.safe.keep h.lawful.agrees key false
  refine ⟨h.safe.advance hp.1, h.lawful.pacManHeading T h.safe key false, ?_⟩
  intro h7
  have hd := pacManHeading_direction T h.lawful h.safe key h7
  show p.posOut = pacManCenter
  rw [Piece.posOut_of_still (h.lawful.rest hd)]
  exact h.knows hd

theorem Piece.Alone.run {T : Tables} {p : Piece Direction} (h : p.Alone T)
    (keys : List (BitVec 8)) : (Clocked.runList (Piece.pacStep (mazeWall T)) p keys).Alone T := by
  induction keys generalizing p with
  | nil => exact h
  | cons key keys ih => exact ih (h.step key)

/-! ## Cells and sides -/

/-- The cell `(row, column)` of a piece's exported corner. -/
def Piece.cell {δ : Type} (p : Piece δ) : Nat × Nat :=
  (p.ballYPosIn.toNat / 32, p.ballXPosIn.toNat / 32)

/-- The neighbour of a cell on the side of a direction. -/
def nextCell (d : Direction) (a : Nat × Nat) : Nat × Nat :=
  if d = 0b000 then (a.1, a.2 - 1)
  else if d = 0b001 then (a.1 + 1, a.2)
  else if d = 0b010 then (a.1, a.2 + 1)
  else (a.1 - 1, a.2)

/-- The key that asks for a side: `A`, `S`, `D`, `W`. -/
def keyOf (d : Direction) : BitVec 8 :=
  if d = 0b000 then 0x04 else if d = 0b001 then 0x16 else if d = 0b010 then 0x07 else 0x1A

/-- The key of an open side is taken. -/
theorem pacManKey_keyOf {d : Direction} (hd : IsSide d) {n : Neighbours} (ho : n.side d = true)
    (h : Heading Direction) : pacManKey (keyOf d) n.sensor h = stepOf d := by
  rcases hd with rfl | rfl | rfl | rfl
  · have hopen : n.left = true := ho
    simp [pacManKey, keyOf, Neighbours.sensor, hopen, stepOf, unitOf]
  · have hopen : n.down = true := ho
    simp [pacManKey, keyOf, Neighbours.sensor, hopen, stepOf, unitOf]
  · have hopen : n.right = true := ho
    simp [pacManKey, keyOf, Neighbours.sensor, hopen, stepOf, unitOf]
  · have hopen : n.up = true := ho
    simp [pacManKey, keyOf, Neighbours.sensor, hopen, stepOf, unitOf]

/-- The neighbours of a position, by cells. -/
theorem side_eq_isOpen {d : Direction} (hd : IsSide d) (x y : Nat) : (neighbours x y).side d =
    isOpen (nextCell d (y / 32, x / 32)).1 (nextCell d (y / 32, x / 32)).2 := by
  rcases hd with rfl | rfl | rfl | rfl <;> rfl

/-! ## Progress between cells -/

/-- Frames until a box at `(x, y)` that goes towards `d` is inside the next cell. -/
def ahead (d : Direction) (x y : Nat) : Nat :=
  if d = 0b000 then (x + 25) % 32 + 1
  else if d = 0b001 then 32 - y % 32
  else if d = 0b010 then 32 - x % 32
  else (y + 25) % 32 + 1

/-- The cell it is inside then. -/
def target (d : Direction) (x y : Nat) : Nat × Nat :=
  if d = 0b000 then (y / 32, (x - 7) / 32)
  else if d = 0b001 then (y / 32 + 1, x / 32)
  else if d = 0b010 then (y / 32, x / 32 + 1)
  else ((y - 7) / 32, x / 32)

/-- `(x', y')` is one pixel from `(x, y)` towards `d`, off it by at most 6 across. -/
def Shifts (d : Direction) (x y x' y' : Nat) : Prop :=
  (d = 0b000 → x' + 1 = x ∧ y' = y ∧ y % 32 ≤ 6) ∧ (d = 0b001 → y' = y + 1 ∧ x' = x ∧ x % 32 ≤ 6) ∧
    (d = 0b010 → x' = x + 1 ∧ y' = y ∧ y % 32 ≤ 6) ∧ (d = 0b011 → y' + 1 = y ∧ x' = x ∧ x % 32 ≤ 6)

theorem ahead_pos {d : Direction} (hd : IsSide d) (x y : Nat) : ∃ m, ahead d x y = m + 1 := by
  rcases hd with rfl | rfl | rfl | rfl
  · exact ⟨(x + 25) % 32, rfl⟩
  · exact ⟨31 - y % 32, by show 32 - y % 32 = _; omega⟩
  · exact ⟨31 - x % 32, by show 32 - x % 32 = _; omega⟩
  · exact ⟨(y + 25) % 32, rfl⟩

/-- **The last frame** brings the box inside the target cell. -/
theorem Shifts.arrives {d : Direction} (hd : IsSide d) {x y x' y' : Nat} (hx : 32 ≤ x)
    (hy : 32 ≤ y) (h : Shifts d x y x' y') (hm : ahead d x y = 1) :
    (x' % 32 ≤ 6 ∧ y' % 32 ≤ 6) ∧ (y' / 32, x' / 32) = target d x y := by
  obtain ⟨h0, h1, h2, h3⟩ := h
  rcases hd with rfl | rfl | rfl | rfl
  · obtain ⟨ha, hb, hc⟩ := h0 rfl
    have hm' : (x + 25) % 32 + 1 = 1 := hm
    exact ⟨by omega, by show _ = (y / 32, (x - 7) / 32); rw [Prod.mk.injEq]; omega⟩
  · obtain ⟨ha, hb, hc⟩ := h1 rfl
    have hm' : 32 - y % 32 = 1 := hm
    exact ⟨by omega, by show _ = (y / 32 + 1, x / 32); rw [Prod.mk.injEq]; omega⟩
  · obtain ⟨ha, hb, hc⟩ := h2 rfl
    have hm' : 32 - x % 32 = 1 := hm
    exact ⟨by omega, by show _ = (y / 32, x / 32 + 1); rw [Prod.mk.injEq]; omega⟩
  · obtain ⟨ha, hb, hc⟩ := h3 rfl
    have hm' : (y + 25) % 32 + 1 = 1 := hm
    exact ⟨by omega, by show _ = ((y - 7) / 32, x / 32); rw [Prod.mk.injEq]; omega⟩

/-- **Every other frame** brings it one nearer; if it is inside a cell then, it was inside that cell
    before. -/
theorem Shifts.nearer {d : Direction} (hd : IsSide d) {x y x' y' : Nat} (hx : 32 ≤ x)
    (hy : 32 ≤ y) (h : Shifts d x y x' y') {m : Nat} (hm : ahead d x y = m + 2) :
    (ahead d x' y' = m + 1 ∧ target d x' y' = target d x y) ∧
      (x' % 32 ≤ 6 → y' % 32 ≤ 6 →
        (x % 32 ≤ 6 ∧ y % 32 ≤ 6) ∧ x' / 32 = x / 32 ∧ y' / 32 = y / 32) := by
  obtain ⟨h0, h1, h2, h3⟩ := h
  rcases hd with rfl | rfl | rfl | rfl
  · obtain ⟨ha, hb, hc⟩ := h0 rfl
    have hm' : (x + 25) % 32 + 1 = m + 2 := hm
    refine ⟨⟨?_, ?_⟩, ?_⟩
    · show (x' + 25) % 32 + 1 = m + 1; omega
    · show (y' / 32, (x' - 7) / 32) = (y / 32, (x - 7) / 32); rw [Prod.mk.injEq]; omega
    · omega
  · obtain ⟨ha, hb, hc⟩ := h1 rfl
    have hm' : 32 - y % 32 = m + 2 := hm
    refine ⟨⟨?_, ?_⟩, ?_⟩
    · show 32 - y' % 32 = m + 1; omega
    · show (y' / 32 + 1, x' / 32) = (y / 32 + 1, x / 32); rw [Prod.mk.injEq]; omega
    · omega
  · obtain ⟨ha, hb, hc⟩ := h2 rfl
    have hm' : 32 - x % 32 = m + 2 := hm
    refine ⟨⟨?_, ?_⟩, ?_⟩
    · show 32 - x' % 32 = m + 1; omega
    · show (y' / 32, x' / 32 + 1) = (y / 32, x / 32 + 1); rw [Prod.mk.injEq]; omega
    · omega
  · obtain ⟨ha, hb, hc⟩ := h3 rfl
    have hm' : (y + 25) % 32 + 1 = m + 2 := hm
    refine ⟨⟨?_, ?_⟩, ?_⟩
    · show (y' + 25) % 32 + 1 = m + 1; omega
    · show ((y' - 7) / 32, x' / 32) = ((y - 7) / 32, x / 32); rw [Prod.mk.injEq]; omega
    · omega

/-- The piece goes towards `d`: inside a cell that side is open, between cells its motion is already
    the one towards it. -/
structure Piece.Going (d : Direction) (p : Piece Direction) : Prop where
  toOpen : inside p.ballXPosIn p.ballYPosIn = true →
    (neighbours p.ballXPosIn.toNat p.ballYPosIn.toNat).side d = true
  heading : inside p.ballXPosIn p.ballYPosIn = false → p.toHeading = stepOf d

variable {T : Tables} {p : Piece Direction} {d : Direction}

/-- With the key of the side it goes to held, the piece steps towards it. -/
theorem Piece.Alone.goes (h : p.Alone T) (hd : IsSide d) (hg : p.Going d) :
    (p.pacStep (mazeWall T) (keyOf d)).toHeading = stepOf d ∧
      Shifts d p.ballXPosIn.toNat p.ballYPosIn.toNat
        (p.pacStep (mazeWall T) (keyOf d)).ballXPosIn.toNat
        (p.pacStep (mazeWall T) (keyOf d)).ballYPosIn.toNat := by
  have hstep : (p.pacStep (mazeWall T) (keyOf d)).toHeading = stepOf d := by
    show pacManHeading (keyOf d) (p.sensor (mazeWall T)) false p.toHeading = stepOf d
    cases hin : inside p.ballXPosIn p.ballYPosIn with
    | true =>
      have ho := hg.toOpen hin
      rw [Piece.sensor, sense_maze T h.safe.clear hin, pacManHeading, if_neg Bool.false_ne_true,
        pacManKey_keyOf hd ho]
      exact pacManStop_open _ ho
    | false =>
      rw [Piece.sensor, pacManHeading_outside _ hin]
      exact hg.heading hin
  refine ⟨hstep, ?_⟩
  have hs := (h.step (keyOf d)).safe
  have hm : ((p.pacStep (mazeWall T) (keyOf d)).ballXMotion,
      (p.pacStep (mazeWall T) (keyOf d)).ballYMotion) = unitOf d := by
    have hX := congrArg Heading.ballXMotion hstep
    have hY := congrArg Heading.ballYMotion hstep
    exact Prod.ext hX hY
  obtain ⟨hrow, hcol⟩ := hs.lane
  obtain ⟨h0, h1, h2, h3⟩ := hs.exports hm
  rw [Prod.mk.injEq] at hm
  rw [hm.1] at hrow
  rw [hm.2] at hcol
  refine ⟨?_, ?_, ?_, ?_⟩
  · rintro rfl
    obtain ⟨hx, hy⟩ := h0 rfl
    rw [hy] at hrow
    exact ⟨hx, congrArg BitVec.toNat hy, hrow (by decide)⟩
  · rintro rfl
    obtain ⟨hy, hx⟩ := h1 rfl
    rw [hx] at hcol
    exact ⟨hy, congrArg BitVec.toNat hx, hcol (by decide)⟩
  · rintro rfl
    obtain ⟨hx, hy⟩ := h2 rfl
    rw [hy] at hrow
    exact ⟨hx, congrArg BitVec.toNat hy, hrow (by decide)⟩
  · rintro rfl
    obtain ⟨hy, hx⟩ := h3 rfl
    rw [hx] at hcol
    exact ⟨hy, congrArg BitVec.toNat hx, hcol (by decide)⟩

/-- The piece is inside the cell `a`. -/
structure Piece.InCell (a : Nat × Nat) (p : Piece Direction) : Prop where
  inside : inside p.ballXPosIn p.ballYPosIn = true
  cell : p.cell = a

/-- From `p` some keys lead to a piece inside the cell `a`. -/
def Piece.CanReach (T : Tables) (p : Piece Direction) (a : Nat × Nat) : Prop :=
  ∃ keys, (Clocked.runList (Piece.pacStep (mazeWall T)) p keys).InCell a

/-- **Progress.**  A piece that goes towards a side comes to be inside the next cell. -/
theorem Piece.Alone.travels (h : p.Alone T) (hd : IsSide d) (hg : p.Going d) :
    p.CanReach T (target d p.ballXPosIn.toNat p.ballYPosIn.toNat) := by
  obtain ⟨m, hm⟩ := ahead_pos hd p.ballXPosIn.toNat p.ballYPosIn.toNat
  -- on the frames that are left; the piece and its position vary
  induction m generalizing p with
  | zero =>
    obtain ⟨_, hshift⟩ := h.goes hd hg
    have hin := h.safe.clear.interior
    obtain ⟨hinside, hcell⟩ := hshift.arrives hd (by omega) (by omega) hm
    exact ⟨[keyOf d], (inside_iff _ _).mpr hinside, hcell⟩
  | succ m ih =>
    obtain ⟨hstep, hshift⟩ := h.goes hd hg
    have hin := h.safe.clear.interior
    obtain ⟨⟨hm', htarget⟩, hsame⟩ := hshift.nearer hd (by omega) (by omega) hm
    have hg' : (p.pacStep (mazeWall T) (keyOf d)).Going d := by
      refine ⟨?_, fun _ => hstep⟩
      intro hin'
      rw [inside_iff] at hin'
      obtain ⟨hwas, hx, hy⟩ := hsame hin'.1 hin'.2
      have ho := hg.toOpen ((inside_iff _ _).mpr hwas)
      rw [side_eq_isOpen hd] at ho ⊢
      rw [hx, hy]
      exact ho
    obtain ⟨keys, hreach⟩ := ih (h.step (keyOf d)) hg' hm'
    rw [htarget] at hreach
    exact ⟨keyOf d :: keys, hreach⟩

/-- **From any state he comes to be inside a cell**: between cells he moves. -/
theorem Piece.Alone.settles (h : p.Alone T) : ∃ a, p.CanReach T a := by
  cases hin : inside p.ballXPosIn p.ballYPosIn with
  | true => exact ⟨p.cell, [], hin, rfl⟩
  | false =>
    have h7 : p.currentDirection ≠ 0b111 := by
      intro h7
      have hpos := h.knows h7
      rw [← Piece.posOut_of_still (h.lawful.rest h7), Piece.posOut, Prod.ext_iff] at hpos
      rw [show p.ballXPosIn = _ from hpos.1, show p.ballYPosIn = _ from hpos.2] at hin
      exact absurd hin (by decide)
    have hm := h.lawful.free h7 (blocked_outside hin _)
    rw [Prod.ext_iff] at hm
    have hheading : p.toHeading = stepOf p.currentDirection := by
      show (⟨p.ballXMotion, p.ballYMotion, p.currentDirection⟩ : Heading Direction) = _
      rw [show p.ballXMotion = _ from hm.1, show p.ballYMotion = _ from hm.2, stepOf]
    refine ⟨_, h.travels (h.lawful.drives h7).1 ⟨?_, fun _ => hheading⟩⟩
    intro hin'
    rw [hin] at hin'
    exact absurd hin' Bool.false_ne_true

/-- **Inside a cell he can walk to any open neighbour.** -/
theorem Piece.Alone.walks (h : p.Alone T) (hd : IsSide d) {a : Nat × Nat} (hp : p.InCell a)
    (ho : isOpen (nextCell d a).1 (nextCell d a).2 = true) : p.CanReach T (nextCell d a) := by
  have hcell := hp.cell
  rw [← hcell] at ho ⊢
  have hg : p.Going d := by
    refine ⟨?_, ?_⟩
    · intro _
      rw [side_eq_isOpen hd]
      exact ho
    · intro hout
      rw [hp.inside] at hout
      exact absurd hout.symm Bool.false_ne_true
  have hoff := (inside_iff _ _).mp hp.inside
  have hin := h.safe.clear.interior
  have htarget : target d p.ballXPosIn.toNat p.ballYPosIn.toNat = nextCell d p.cell := by
    rcases hd with rfl | rfl | rfl | rfl
    · show (_, (p.ballXPosIn.toNat - 7) / 32) = (_, p.ballXPosIn.toNat / 32 - 1)
      rw [Prod.mk.injEq]
      exact ⟨rfl, by omega⟩
    · rfl
    · rfl
    · show ((p.ballYPosIn.toNat - 7) / 32, _) = (p.ballYPosIn.toNat / 32 - 1, _)
      rw [Prod.mk.injEq]
      exact ⟨by omega, rfl⟩
  rw [← htarget]
  exact h.travels hd hg

/-! ## The maze is connected -/

section Connected

variable {α : Type*} {r : α → α → Prop} {P : α → Prop} {rank : α → Nat} {root : α}

/-- **Following a rank down leads to the root.** -/
theorem reaches_root
    (hfall : ∀ a, P a → a = root ∨ ∃ b, P b ∧ r a b ∧ rank b < rank a) {a : α} (ha : P a) :
    Relation.ReflTransGen r a root := by
  induction hn : rank a using Nat.strong_induction_on generalizing a with
  | _ n ih =>
    rcases hfall a ha with rfl | ⟨b, hb, hab, hlt⟩
    · exact Relation.ReflTransGen.refl
    · exact Relation.ReflTransGen.head hab (ih (rank b) (hn ▸ hlt) hb rfl)

/-- **If steps can be undone, any two members are connected**: by the way back from the root. -/
theorem connected_of_falls [Std.Symm r]
    (hfall : ∀ a, P a → a = root ∨ ∃ b, P b ∧ r a b ∧ rank b < rank a) {a b : α} (ha : P a)
    (hb : P b) : Relation.ReflTransGen r a b :=
  (reaches_root hfall ha).trans (symm (reaches_root hfall hb))

end Connected

/-- Hop counts from the starting cell to the open cells, rows 0 to 9. -/
def hops : List (List Nat) :=
  [[0, 0, 0, 0, 0, 0, 0, 0, 0, 0, 0, 0, 0, 0, 0, 0, 0, 0, 0, 0],
   [0, 15, 14, 13, 12, 0, 10, 11, 12, 13, 12, 11, 10, 9, 0, 11, 12, 13, 14, 0],
   [0, 14, 0, 0, 11, 0, 9, 0, 0, 0, 0, 0, 0, 8, 0, 10, 0, 0, 13, 0],
   [0, 13, 0, 11, 10, 9, 8, 9, 10, 11, 10, 9, 8, 7, 8, 9, 10, 0, 12, 0],
   [0, 12, 0, 10, 0, 0, 7, 0, 11, 12, 11, 10, 0, 6, 0, 0, 9, 0, 11, 0],
   [0, 11, 10, 9, 8, 7, 6, 0, 12, 13, 12, 11, 0, 5, 6, 7, 8, 9, 10, 0],
   [0, 12, 0, 8, 0, 0, 5, 0, 0, 0, 0, 0, 0, 4, 0, 0, 7, 0, 11, 0],
   [0, 13, 0, 7, 6, 5, 4, 3, 2, 1, 0, 1, 2, 3, 4, 5, 6, 0, 12, 0],
   [0, 12, 0, 0, 7, 0, 5, 0, 0, 0, 0, 0, 0, 4, 0, 6, 0, 0, 11, 0],
   [0, 11, 10, 9, 8, 0, 6, 7, 8, 9, 8, 7, 6, 5, 0, 7, 8, 9, 10, 0]]

/-- The hop count of a cell. -/
def hopsAt (a : Nat × Nat) : Nat := (hops.getD a.1 []).getD a.2 0

/-- The four directions that name a side. -/
def sides : List Direction := [0b000, 0b001, 0b010, 0b011]

theorem isSide_of_mem : ∀ d ∈ sides, IsSide d := by decide

/-- Every open cell but the starting one has an open neighbour with fewer hops. -/
theorem hops_fall : ∀ row < 15, ∀ col < 20, isOpen row col = true → (row, col) = (7, 10) ∨
    sides.any (fun d => isOpen (nextCell d (row, col)).1 (nextCell d (row, col)).2 &&
      decide (hopsAt (nextCell d (row, col)) < hopsAt (row, col))) = true := by decide +kernel

/-- Two open cells side by side. -/
structure Beside (a b : Nat × Nat) : Prop where
  here : isOpen a.1 a.2 = true
  there : isOpen b.1 b.2 = true
  next : ∃ d, IsSide d ∧ b = nextCell d a

instance : Std.Symm Beside := by
  constructor
  rintro a b ⟨ha, hb, d, hd, rfl⟩
  have hin := isOpen_interior ha
  refine ⟨hb, ha, ?_⟩
  rcases hd with rfl | rfl | rfl | rfl
  · exact ⟨0b010, by decide, Prod.ext rfl (by show a.2 = a.2 - 1 + 1; omega)⟩
  · exact ⟨0b011, by decide, Prod.ext (by show a.1 = a.1 + 1 - 1; omega) rfl⟩
  · exact ⟨0b000, by decide, Prod.ext rfl (by show a.2 = a.2 + 1 - 1; omega)⟩
  · exact ⟨0b001, by decide, Prod.ext (by show a.1 = a.1 - 1 + 1; omega) rfl⟩

/-- **The maze is connected.** -/
theorem maze_connected {a b : Nat × Nat} (ha : isOpen a.1 a.2 = true) (hb : isOpen b.1 b.2 = true) :
    Relation.ReflTransGen Beside a b := by
  have hfall : ∀ c : Nat × Nat, isOpen c.1 c.2 = true → c = (7, 10) ∨
      ∃ b : Nat × Nat, isOpen b.1 b.2 = true ∧ Beside c b ∧ hopsAt b < hopsAt c := by
    intro c hc
    have hlt := isOpen_lt hc
    rcases hops_fall c.1 hlt.1 c.2 hlt.2 hc with hroot | hnear
    · exact Or.inl hroot
    · obtain ⟨d, hd, hnext⟩ := List.any_eq_true.mp hnear
      rw [Bool.and_eq_true, decide_eq_true_eq] at hnext
      exact Or.inr ⟨nextCell d c, hnext.1, ⟨hc, hnext.1, d, isSide_of_mem d hd, rfl⟩, hnext.2⟩
  exact connected_of_falls (P := fun c : Nat × Nat => isOpen c.1 c.2 = true) hfall ha hb

/-! ## Every open cell can be reached -/

/-- Along a path of open cells. -/
theorem Piece.CanReach.along {a b : Nat × Nat} (hab : Relation.ReflTransGen Beside a b)
    (h : p.Alone T) (hp : p.CanReach T a) : p.CanReach T b := by
  induction hab with
  | refl => exact hp
  | tail _ hstep ih =>
    obtain ⟨keys, hat⟩ := ih
    obtain ⟨_, hopen, d, hd, rfl⟩ := hstep
    obtain ⟨keys', hnext⟩ := (h.run keys).walks hd hat hopen
    refine ⟨keys ++ keys', ?_⟩
    rw [Clocked.runList, List.foldl_append]
    exact hnext

/-- **From every state every open cell can be reached.** -/
theorem Piece.Alone.reaches (h : p.Alone T) {a : Nat × Nat} (ha : isOpen a.1 a.2 = true) :
    p.CanReach T a := by
  obtain ⟨b, keys, hat⟩ := h.settles
  -- the cell he settles in is open, so a path leads from it
  have hb : isOpen b.1 b.2 = true := by
    rw [← hat.cell]
    exact (h.run keys).safe.clear.corner
  exact Piece.CanReach.along (maze_connected hb ha) h ⟨keys, hat⟩

end Lab8
