/-
  What the scan does to the pellets, for any machine that is scanned.

  The eating of a pellet needs four parts to work together: a scan that passes over the whole screen
  once a frame, a piece that stands still between two frame edges, a box that stays on the screen,
  and the `food` module.  `Sweep` says just that about four sequences of register values, so what
  follows holds of the whole design as well as of Pac-Man alone:

  1. **Only the addressed cell is cleared** (`Sweep.rises`), and a cleared cell stays cleared.
  2. **Every frame scans the box** (`Sweep.exists_scanned`) — the box is in rows 31 to 320, the edges
     are in row 492.
  3. **Visited is eaten** (`Sweep.visited_cleared`) — at the edge that ends a frame the cell of the
     frame is cleared.
  4. **Counted** (`Sweep.counts`) — the score is the number of cells cleared.
-/
import Lab8.Scan
import Lab8.Score
import Lab8.Tunnel

namespace Lab8

/-! ## Frames of a run -/

/-- Number of the frame that Clk `n` belongs to; a frame ends with its edge. -/
def frameIndex (level : Bool) (n : Nat) : Nat := (Raster.phase level n + 52799) / 840000

/-- Inside a frame there is no edge. -/
theorem not_framePulse {level : Bool} {a b k : Nat} (ha : 2 < Raster.phase level a)
    (hidx : frameIndex level b = frameIndex level a) (hak : a ≤ k) (hkb : k < b) :
    ¬ framePulse level k := by
  unfold framePulse frameIndex Raster.phase at *
  omega

/-- After the first two Clks the number goes up just at the edges. -/
theorem frameIndex_succ {level : Bool} {n : Nat} (hn : 2 < Raster.phase level n) :
    frameIndex level (n + 1) = frameIndex level n + if framePulse level n then 1 else 0 := by
  by_cases hp : framePulse level n
  · rw [if_pos hp]
    unfold framePulse frameIndex at *
    rw [Raster.phase_succ]
    omega
  · rw [if_neg hp]
    unfold framePulse frameIndex at *
    rw [Raster.phase_succ]
    omega

/-- What is sampled at the edges when the value is `y` at the first of them and `x` ever after. -/
theorem sampled_pulses {α : Type} (level : Bool) {vals : Nat → α} {x y : α}
    (hfirst : ∀ k, Raster.phase level k = 2 → vals k = y)
    (hrest : ∀ k, Raster.phase level k % 840000 = 787200 → vals k = x) (n : Nat) :
    Clocked.sampled (fun k => decide (framePulse level k)) vals n =
      if 2 < Raster.phase level n then y :: List.replicate (frameIndex level n) x else [] := by
  induction n with
  | zero => cases level <;> rfl
  | succ n ih =>
    rw [Clocked.sampled, ih, Raster.phase_succ]
    simp only [decide_eq_true_eq]
    rcases Nat.lt_trichotomy (Raster.phase level n) 2 with hlt | heq | hgt
    · have hno : ¬ framePulse level n := by
        unfold framePulse
        omega
      rw [if_neg hno, if_neg (by omega), if_neg (by omega)]
    · -- the first edge, which frame 0 starts with
      have hp : framePulse level n := Or.inl heq
      have hzero : frameIndex level (n + 1) = 0 := by
        unfold frameIndex
        rw [Raster.phase_succ, heq]
      rw [if_pos hp, if_neg (by omega), if_pos (by omega), hfirst n heq, hzero]
      rfl
    · rw [frameIndex_succ hgt, if_pos hgt, if_pos (Nat.lt_succ_of_lt hgt)]
      by_cases hp : framePulse level n
      · rw [if_pos hp, if_pos hp, hrest n (hp.resolve_left (Nat.ne_of_gt hgt)),
          List.replicate_succ', List.cons_append]
      · rw [if_neg hp, if_neg hp, Nat.add_zero]

/-- A safe piece is drawn in the upper part of the screen. -/
theorem Piece.Safe.box_bounds {δ : Type} {p : Piece δ} (hs : p.Safe) :
    (31 ≤ p.ballXPos.toNat ∧ p.ballXPos.toNat ≤ 583) ∧
    (31 ≤ p.ballYPos.toNat ∧ p.ballYPos.toNat ≤ 295) := by
  have hin := hs.clear.interior
  have hnear := hs.near
  simp only [Near, intDiff, Piece.posOut, Piece.pos] at hnear
  omega

/-- `food_write_address` of a piece: the cell of its exported corner. -/
def Piece.foodWriteAddress {δ : Type} (p : Piece δ) : Nat := foodAddress p.ballXPosIn p.ballYPosIn

/-! ## The scanned machine -/

/-- **The scanned machine**: scan, piece and food registers at Clk `n`, with Reset low. -/
structure Sweep (T : Tables) (level : Bool) (vga : Nat → VgaRegs) (piece : Nat → Piece Direction)
    (food : Nat → FoodRegs) : Prop where
  scans : ∀ n, vga n = scan (Raster.half level n)
  /-- Between two edges the piece stands still. -/
  still : ∀ n, ¬ framePulse level n → piece (n + 1) = piece n
  eats : ∀ n, food (n + 1) = (food n).clk T false
    (isBall (vga n).hCounter (vga n).vCounter (piece n)) (vga n).hCounter (vga n).vCounter
    (piece n).ballXPosIn (piece n).ballYPosIn
  safe : ∀ n, (piece n).Safe

namespace Sweep

variable {T : Tables} {level : Bool} {vga : Nat → VgaRegs} {piece : Nat → Piece Direction}
  {food : Nat → FoodRegs}

/-- Between two edges the piece is the same. -/
theorem between (h : Sweep T level vga piece food) {a b : Nat} (hab : a ≤ b)
    (hno : ∀ k, a ≤ k → k < b → ¬ framePulse level k) : piece b = piece a :=
  Clocked.const_between hab (fun n han hnb => h.still n (hno n han hnb))

/-- A cleared cell stays cleared. -/
theorem keeps (h : Sweep T level vga piece food) {a b : Nat} (hab : a ≤ b) {c : Fin 220}
    (ha : (food a).food c = true) : (food b).food c = true := by
  refine Clocked.keeps_from (P := fun n => (food n).food c = true) hab ha ?_
  intro n _ _ hn
  show (food (n + 1)).food c = true
  rw [h.eats n]
  exact FoodRegs.clk_mono T _ _ _ _ _ _ hn

/-- **Only the addressed cell is cleared**, and only while the scan is on the drawn box. -/
theorem rises (h : Sweep T level vga piece food) {n : Nat} {c : Fin 220}
    (hdown : (food n).food c = false) (hup : (food (n + 1)).food c = true) :
    isBall (vga n).hCounter (vga n).vCounter (piece n) = true ∧
      (piece n).foodWriteAddress = c.val := by
  rw [h.eats n] at hup
  cases heat : isBall (vga n).hCounter (vga n).vCounter (piece n) with
  | false =>
    rw [heat] at hup
    have hsame : (food n).food c = true := hup
    rw [hdown] at hsame
    exact absurd hsame Bool.false_ne_true
  | true =>
    refine ⟨rfl, ?_⟩
    rw [heat] at hup
    by_cases hc : c.val = (piece n).foodWriteAddress
    · exact hc.symm
    · have hsame : foodClear (food n).food (piece n).foodWriteAddress c = true := hup
      rw [foodClear_ne hc, hdown] at hsame
      exact absurd hsame Bool.false_ne_true

/-- While the scan is on the drawn box the addressed cell is cleared. -/
theorem clears (h : Sweep T level vga piece food) {n : Nat} {c : Fin 220}
    (heat : isBall (vga n).hCounter (vga n).vCounter (piece n) = true)
    (ha : (piece n).foodWriteAddress = c.val) : (food (n + 1)).food c = true := by
  rw [h.eats n, heat]
  show foodClear (food n).food (piece n).foodWriteAddress c = true
  rw [ha]
  exact foodClear_self _ c

/-- A cell cleared between two Clks was addressed at one of them, with the scan on the box. -/
theorem exists_clearing (h : Sweep T level vga piece food) {a b : Nat} (hab : a ≤ b) {c : Fin 220}
    (ha : (food a).food c = false) (hb : (food b).food c = true) :
    ∃ n, a ≤ n ∧ n < b ∧ isBall (vga n).hCounter (vga n).vCounter (piece n) = true ∧
      (piece n).foodWriteAddress = c.val := by
  obtain ⟨n, han, hnb, hdown, hup⟩ := Clocked.exists_rise (f := fun n => (food n).food c) hab ha hb
  exact ⟨n, han, hnb, h.rises hdown hup⟩

/-- **Every frame scans the box**: the frame of a Clk `m` contains, before its edge, a Clk at which
    the scan stands on the corner of the box that is drawn at `m`. -/
theorem exists_scanned (h : Sweep T level vga piece food) (m : Nat) :
    ∃ t, 2 < Raster.phase level t ∧ frameIndex level t = frameIndex level m ∧
      Raster.phase level t < 840000 * frameIndex level m + 787200 ∧
      isBall (vga t).hCounter (vga t).vCounter (piece m) = true := by
  have hbox := (h.safe m).box_bounds
  generalize hx : (piece m).ballXPos.toNat = x at hbox
  generalize hy : (piece m).ballYPos.toNat = y at hbox
  generalize frameIndex level m = j
  obtain ⟨⟨hx1, hx2⟩, ⟨hy1, hy2⟩⟩ := hbox
  -- the Clk after the scan has counted to the corner in frame `j`
  have hphase : Raster.phase level (840000 * j + 1600 * y + 2 * x - (if level then 0 else 1)) =
      840000 * j + 1600 * y + 2 * x := by
    unfold Raster.phase
    split <;> omega
  have hhalf : Raster.half level (840000 * j + 1600 * y + 2 * x - (if level then 0 else 1)) =
      420000 * j + 800 * y + x := by
    unfold Raster.half
    rw [hphase]
    omega
  refine ⟨840000 * j + 1600 * y + 2 * x - (if level then 0 else 1), ?_, ?_, ?_, ?_⟩
  · rw [hphase]; omega
  · unfold frameIndex
    rw [hphase]
    omega
  · rw [hphase]; omega
  · have hpix := (Raster.visit_iff (w := 800) (h := 525) (c := x) (r := y) (by omega)
      (420000 * j + 800 * y + x)).mpr (by omega)
    obtain ⟨hcx, hcy⟩ := scan_counters (420000 * j + 800 * y + x)
    rw [h.scans, hhalf, isBall, onSprite_iff, hcx, hcy, hpix.1, hpix.2]
    simp only [Piece.pos, hx, hy]
    omega

/-- **Visited is eaten**: at an edge the cell of every earlier Clk is cleared. -/
theorem visited_cleared (h : Sweep T level vga piece food) {m e : Nat} (he : framePulse level e)
    (hme : m ≤ e) (hm : 2 < Raster.phase level m) {c : Fin 220}
    (hc : (piece m).foodWriteAddress = c.val) : (food e).food c = true := by
  obtain ⟨t, ht, hidx, hlast, hscan⟩ := h.exists_scanned m
  -- the piece does not move between `m` and `t`, whichever comes first
  have hsame : piece t = piece m := by
    rcases Nat.le_total m t with hmt | htm
    · exact h.between hmt (fun k hk hkt => not_framePulse hm hidx hk hkt)
    · exact (h.between htm (fun k hk hkt => not_framePulse ht hidx.symm hk hkt)).symm
  have hte : t + 1 ≤ e := by
    unfold framePulse frameIndex Raster.phase at *
    omega
  rw [← hsame] at hscan hc
  exact h.keeps hte (h.clears hscan hc)

/-- **Counted.**  The score is the number of cells cleared. -/
theorem counts (h : Sweep T level vga piece food) (h0 : (food 0).Counts T) (n : Nat) :
    (food n).Counts T := by
  induction n with
  | zero => exact h0
  | succ n ih =>
    apply ih.step
    rw [h.eats n]
    exact ih.clk_counted _ _ _ (h.safe n).clear.foodAddress_lt

end Sweep

end Lab8
