/-
  Alignment of the registered layers with the combinational ones.

  `is_ball` and `is_wall` follow the scan at once; pellets and sprites arrive one Clk later.  The
  scan moves at every second Clk only, so the Clk that ends a pixel finds registers that were loaded
  while the SAME pixel was shown:

  1. `Design.clk_scan` — a Clk that finds `VGA_CLK` high leaves the scan where it is.
  2. `Design.clk_lookup` — the registers after a Clk with Reset low are the lookups of the scan
     position, pellet map and pieces of before it.
  3. `layers_aligned` — so at an edge of `VGA_CLK` they are the lookups for the pixel it ends, and a
     pixel without sprite and wall is white exactly where its cell has a pellet and it is in the dot.

  Below the maze begins the text; above it the boxes of `display_letters` have no pixel.
-/
import Lab8.Letters
import Lab8.Visited

namespace Lab8

/-! ## The dot of a cell -/

/-- The dot is the 5x5 square from offset 16 on. -/
theorem inDot_iff (drawX drawY : BitVec 10) : inDot drawX drawY = true ↔
    (16 ≤ drawX.toNat % 32 ∧ drawX.toNat % 32 ≤ 20) ∧
      (16 ≤ drawY.toNat % 32 ∧ drawY.toNat % 32 ≤ 20) := by
  have hcell : ∀ z : BitVec 10, (z >>> 5).toNat = z.toNat / 32 := by
    intro z
    rw [BitVec.toNat_ushiftRight, Nat.shiftRight_eq_div_pow]
  simp only [inDot, drawLimited, hcell, Bool.and_eq_true, decide_eq_true_eq]
  omega

/-- The cell `(y / 32, x / 32)` of a playfield pixel. -/
def cellOf {x y : Nat} (hx : x < 640) (hy : y < 352) : Fin 220 := ⟨y / 32 * 20 + x / 32, by omega⟩

/-- `is_food` for a pellet map and a playfield pixel: low exactly on the dot of a pellet. -/
theorem isFood_iff (T : Tables) (food : Fin 220 → Bool) {drawX drawY : BitVec 10}
    (hx : drawX.toNat < 640) (hy : drawY.toNat < 352) :
    (if inDot drawX drawY then foodRead T food (foodAddress drawX drawY) else true) = false ↔
      food (cellOf hx hy) = false ∧
        (16 ≤ drawX.toNat % 32 ∧ drawX.toNat % 32 ≤ 20) ∧
        (16 ≤ drawY.toNat % 32 ∧ drawY.toNat % 32 ≤ 20) := by
  have hread : foodRead T food (foodAddress drawX drawY) = food (cellOf hx hy) := by
    rw [foodAddress_eq, foodRead, dif_pos (by omega)]
    rfl
  rw [hread, ← inDot_iff]
  cases inDot drawX drawY with
  | true => exact ⟨fun h => ⟨h, rfl⟩, fun h => h.1⟩
  | false =>
    constructor
    · intro h
      exact absurd h.symm Bool.false_ne_true
    · rintro ⟨_, h⟩
      exact absurd h Bool.false_ne_true

/-! ## One Clk -/

/-- **A Clk that finds `VGA_CLK` high does not move the scan.** -/
theorem Design.clk_scan (T : Tables) (i : DesignIn) {d : Design} (h : d.vgaClk = true) :
    (d.clk T i).vga = d.vga := by
  show (if d.vgaClk then d.vga else d.vga.clk i.reset) = d.vga
  rw [h, if_pos rfl]

/-- **A Clk with Reset low loads the lookups of before it.** -/
theorem Design.clk_lookup (T : Tables) {i : DesignIn} (d : Design) (hr : i.reset = false) :
    (d.clk T i).board.food.isFood =
        (if inDot d.vga.hCounter d.vga.vCounter then
          foodRead T d.board.food.food (foodAddress d.vga.hCounter d.vga.vCounter) else true) ∧
      (d.clk T i).board.sprites =
        d.board.actors.spriteWords T d.vga.hCounter d.vga.vCounter := by
  refine ⟨?_, rfl⟩
  rw [Design.clk_food T d hr]
  rfl

/-! ## The latched colour -/

/-- No sprite and no wall covers the pixel the scan shows. -/
structure Design.Uncovered (T : Tables) (d : Design) : Prop where
  ball : isBall d.vga.hCounter d.vga.vCounter d.board.actors.pacMan = false
  red : isBall d.vga.hCounter d.vga.vCounter d.board.actors.redEvil = false
  green : isBall d.vga.hCounter d.vga.vCounter d.board.actors.greenEvil = false
  blue : isBall d.vga.hCounter d.vga.vCounter d.board.actors.blueEvil = false
  wall : isWall (d.board.wallRead T) d.vga.hCounter d.vga.vCounter = false

/-- In the maze there is no text. -/
theorem displayLetters_maze (score : BitVec 8) (drawX : BitVec 10) {drawY : BitVec 10}
    (hy : drawY.toNat < 352) : displayLetters score drawX drawY = ⟨false, false, false, 0, 0⟩ := by
  have hnone : (glyphs score).find? (fun g => g.covers drawX drawY) = none := by
    rw [List.find?_eq_none]
    intro g hg hin
    have hlow := (glyphs_bounds score g hg).2.1
    have hbox := (g.covers_iff drawX drawY).mp hin
    omega
  rw [displayLetters, hnone]

/-- **An uncovered pixel of the maze is white or black**, as `is_food` says. -/
theorem Design.Uncovered.rgb {T : Tables} {d : Design} (h : d.Uncovered T)
    (hy : d.vga.vCounter.toNat < 352) :
    d.rgb T = if d.board.food.isFood = false then 0xffffff else 0x000000 := by
  have hrow : decide (d.vga.vCounter < 352) = true := decide_eq_true hy
  unfold Design.rgb
  simp only [displayLetters_maze d.board.food.score d.vga.hCounter hy]
  unfold colorMapper
  simp only [h.ball, h.red, h.green, h.blue, h.wall, hrow, Bool.false_eq_true, Bool.false_and,
    Bool.and_true, if_false, beq_iff_eq]

/-- **Registered and combinational layers stay aligned.**  In every run of the design, from any
    state and so from Reset, for any keys and any later Resets: at an edge of `VGA_CLK` whose
    preceding Clk had Reset low, which is every edge from the second after a release on, with the
    scan on a playfield pixel `(x, y)`,
    (1) the preceding Clk showed the same pixel;
    (2) `is_food` and the four sprite words are the lookups for that pixel in the pellet map and at
        the positions and the direction of the preceding Clk;
    (3) if no sprite and no wall covers the pixel, its colour is white exactly when the pellet of
        cell `(y / 32, x / 32)` was uneaten at the preceding Clk and `x % 32`, `y % 32` are both in
        `16 … 20`. -/
theorem layers_aligned (T : Tables) (d : Design) (ins : Nat → DesignIn) (n : Nat)
    (hr : (ins n).reset = false)
    (hedge : (Clocked.run (Design.clk T) ins d (n + 1)).vgaClk = false)
    (hx : (Clocked.run (Design.clk T) ins d (n + 1)).vga.hCounter.toNat < 640)
    (hy : (Clocked.run (Design.clk T) ins d (n + 1)).vga.vCounter.toNat < 352) :
    let before := Clocked.run (Design.clk T) ins d n
    let now := Clocked.run (Design.clk T) ins d (n + 1)
    let x := now.vga.hCounter
    let y := now.vga.vCounter
    before.vga = now.vga ∧
    (now.board.food.isFood =
        (if inDot x y then foodRead T before.board.food.food (foodAddress x y) else true) ∧
      now.board.sprites = before.board.actors.spriteWords T x y) ∧
    (now.Uncovered T → (now.rgb T = 0xffffff ↔
      before.board.food.food (cellOf hx hy) = false ∧
        (16 ≤ x.toNat % 32 ∧ x.toNat % 32 ≤ 20) ∧ (16 ≤ y.toNat % 32 ∧ y.toNat % 32 ≤ 20))) := by
  intro before now x y
  have hhigh : before.vgaClk = true := by
    have h : (!before.vgaClk) = false := hedge
    simpa using h
  have hscan : now.vga = before.vga := Design.clk_scan T (ins n) hhigh
  have hlookup := Design.clk_lookup T before hr
  rw [← hscan] at hlookup
  refine ⟨hscan.symm, hlookup, ?_⟩
  intro hun
  have hfood : now.board.food.isFood =
      (if inDot x y then foodRead T before.board.food.food (foodAddress x y) else true) := hlookup.1
  rw [hun.rgb hy, hfood, ← isFood_iff T before.board.food.food hx hy]
  constructor
  · intro h
    apply Classical.byContradiction
    intro hno
    rw [if_neg hno] at h
    exact absurd h (by decide)
  · intro h
    rw [if_pos h]

/-- The second edge of `VGA_CLK` after power-up. -/
theorem layers_aligned_second :
    (Clocked.run (Design.clk .shipped) (fun _ => ⟨false, 0x1A⟩) (.start .shipped) 1).vga =
      (Clocked.run (Design.clk .shipped) (fun _ => ⟨false, 0x1A⟩) (.start .shipped) 2).vga :=
  (layers_aligned .shipped (.start .shipped) (fun _ => ⟨false, 0x1A⟩) 1 rfl (by decide)
    (by decide) (by decide)).1

end Lab8
