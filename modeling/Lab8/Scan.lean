/-
  The scan of the whole design: counters, sync signals and the frame clock.

  1. **Release** — `Design.Released` is a design at the first Clk after a Reset that was held over
     an edge of `VGA_CLK`: the scan is cleared and the actors are at their starting positions.
  2. **Counters** — `scan k` is `VGA_controller` after `k` ticks of its own clock, and its counters
     are the closed forms of `Lab8.Lib.Raster`.  `Design.vga_run` says that after `n` Clks the
     design shows `scan k` for the `k` that the divided clock has counted.
  3. **Edges** — `frame_clk` is the vertical sync.  Reset leaves it low, so it rises with the first
     `VGA_CLK` after Reset, and from then on at the start of row 492 (`Design.edges_run`).
-/
import Lab8.Frame

namespace Lab8

/-! ## Runs of the design -/

/-- The board of a design run is a board run on the inputs the design feeds it. -/
theorem Design.board_run (T : Tables) (d : Design) (ins : Nat → DesignIn) (n : Nat) :
    (Clocked.run (Design.clk T) ins d n).board =
      Clocked.run (Board.clk T) (fun k => (Clocked.run (Design.clk T) ins d k).clkIn (ins k))
        d.board n := by
  induction n with
  | zero => rfl
  | succ n ih =>
    rw [Clocked.run_succ, Clocked.run_succ, ← ih]
    rfl

/-- `VGA_CLK` toggles at every Clk. -/
theorem Design.vgaClk_run (T : Tables) (d : Design) (ins : Nat → DesignIn) (n : Nat) :
    (Clocked.run (Design.clk T) ins d n).vgaClk = Raster.levelAt d.vgaClk n := by
  induction n with
  | zero => rfl
  | succ n ih =>
    rw [Clocked.run_succ, Raster.levelAt, ← ih]
    rfl

/-! ## Release -/

/-- **Release.**  Reset was high at each of the last `r + 1` Clks, and at one of them `VGA_CLK`
    rose. -/
def Design.Released (T : Tables) (d : Design) : Prop :=
  ∃ (d₀ : Design) (hold : Nat → DesignIn) (r : Nat), (∀ k, k ≤ r → (hold k).reset = true) ∧
    (∃ k, k ≤ r ∧ (Clocked.run (Design.clk T) hold d₀ k).vgaClk = false) ∧
    d = Clocked.run (Design.clk T) hold d₀ (r + 1)

/-- A tick with Reset high keeps a cleared scan cleared, and clears it when `VGA_CLK` rises. -/
theorem Design.clk_cleared (T : Tables) {i : DesignIn} {d : Design} (hr : i.reset = true)
    (h : d.vgaClk = false ∨ d.vga = VgaRegs.cleared) : (d.clk T i).vga = VgaRegs.cleared := by
  show (if d.vgaClk then d.vga else d.vga.clk i.reset) = VgaRegs.cleared
  rcases h with h | h
  · rw [h, if_neg Bool.false_ne_true, hr]; rfl
  · cases d.vgaClk with
    | true => rw [if_pos rfl, h]
    | false => rw [if_neg Bool.false_ne_true, hr]; rfl

/-- After a release the scan is cleared. -/
theorem Design.Released.vga {T : Tables} {d : Design} (h : d.Released T) :
    d.vga = VgaRegs.cleared := by
  obtain ⟨d₀, hold, r, hreset, ⟨k, hk, hlow⟩, rfl⟩ := h
  refine Clocked.keeps_from
    (P := fun n => (Clocked.run (Design.clk T) hold d₀ n).vga = VgaRegs.cleared)
    (show k + 1 ≤ r + 1 by omega) ?_ ?_
  · exact Design.clk_cleared T (hreset k hk) (Or.inl hlow)
  · intro n _ hn hc
    exact Design.clk_cleared T (hreset n (by omega)) (Or.inr hc)

/-- After a release the board has just been reset. -/
theorem Design.Released.board {T : Tables} {d : Design} (h : d.Released T) :
    ∃ (b : Board) (i : ClkIn), i.reset = true ∧ d.board = b.clk T i := by
  obtain ⟨d₀, hold, r, hreset, _, rfl⟩ := h
  exact ⟨(Clocked.run (Design.clk T) hold d₀ r).board, _, hreset r (Nat.le_refl r), rfl⟩

/-- A design at power-up, after Reset was held for two Clks. -/
def Design.start (T : Tables) : Design :=
  Clocked.run (Design.clk T) (fun _ => ⟨true, 0⟩) default 2

theorem Design.start_released (T : Tables) : (Design.start T).Released T :=
  ⟨default, fun _ => ⟨true, 0⟩, 1, fun _ _ => rfl, ⟨0, Nat.zero_le 1, rfl⟩, rfl⟩

/-! ## The scan alone -/

/-- `VGA_controller` after `k` ticks of `VGA_CLK` with Reset low, from the state Reset leaves. -/
def scan (k : Nat) : VgaRegs := Clocked.run VgaRegs.clk (fun _ => false) VgaRegs.cleared k

/-- A 10-bit counter below 1023 counts without wrapping. -/
theorem counter_succ {z : BitVec 10} (h : z.toNat < 1023) : (z + 1).toNat = z.toNat + 1 := by
  rw [BitVec.toNat_add]
  exact Nat.mod_eq_of_lt (by simp; omega)

/-- So it reaches its total when the number does. -/
theorem counter_succ_eq {z : BitVec 10} (h : z.toNat < 1023) (total : BitVec 10) :
    z + 1 = total ↔ z.toNat + 1 = total.toNat := by
  rw [← BitVec.toNat_inj, counter_succ h]

theorem hCounterIn_toNat {v : VgaRegs} (h : v.hCounter.toNat < 800) :
    v.hCounterIn.toNat = Raster.nextCol 800 v.hCounter.toNat := by
  have hwrap := counter_succ_eq (show v.hCounter.toNat < 1023 by omega) hTotal
  unfold VgaRegs.hCounterIn Raster.nextCol
  by_cases hw : v.hCounter.toNat + 1 = 800
  · rw [if_pos (hwrap.mpr hw), if_pos hw]; rfl
  · rw [if_neg (fun hc => hw (hwrap.mp hc)), if_neg hw, counter_succ (by omega)]

theorem vCounterIn_toNat {v : VgaRegs} (h : v.hCounter.toNat < 800) (hv : v.vCounter.toNat < 525) :
    v.vCounterIn.toNat = Raster.nextRow 800 525 v.hCounter.toNat v.vCounter.toNat := by
  have hwrap := counter_succ_eq (show v.hCounter.toNat < 1023 by omega) hTotal
  have hbottom := counter_succ_eq (show v.vCounter.toNat < 1023 by omega) vTotal
  unfold VgaRegs.vCounterIn Raster.nextRow
  by_cases hw : v.hCounter.toNat + 1 = 800
  · rw [if_pos (hwrap.mpr hw), if_pos hw]
    by_cases hb : v.vCounter.toNat + 1 = 525
    · rw [if_pos (hbottom.mpr hb), if_pos hb]; rfl
    · rw [if_neg (fun hc => hb (hbottom.mp hc)), if_neg hb, counter_succ (by omega)]
  · rw [if_neg (fun hc => hw (hwrap.mp hc)), if_neg hw]

/-- **The counters in closed form.** -/
theorem scan_counters (k : Nat) : (scan k).hCounter.toNat = Raster.col 800 k ∧
    (scan k).vCounter.toNat = Raster.row 800 525 k := by
  induction k with
  | zero => exact ⟨rfl, rfl⟩
  | succ k ih =>
    have hh : (scan k).hCounter.toNat < 800 := by rw [ih.1]; exact Raster.col_lt (by decide) k
    have hv : (scan k).vCounter.toNat < 525 := by rw [ih.2]; exact Raster.row_lt (by decide) k
    refine ⟨?_, ?_⟩
    · show (scan k).hCounterIn.toNat = _
      rw [hCounterIn_toNat hh, ih.1, Raster.col_succ (by decide)]
    · show (scan k).vCounterIn.toNat = _
      rw [vCounterIn_toNat hh hv, ih.1, ih.2, Raster.row_succ (by decide) (by decide)]

/-- From the first tick on the sync signals are those of the pixel shown. -/
theorem scan_at {k : Nat} (hk : 1 ≤ k) :
    scan k = VgaRegs.at (scan k).hCounter (scan k).vCounter := by
  obtain ⟨j, rfl⟩ : ∃ j, k = j + 1 := ⟨k - 1, by omega⟩
  rfl

theorem hsOf_iff (h : BitVec 10) : hsOf h = false ↔ 656 ≤ h.toNat ∧ h.toNat < 752 := by
  simp [hsOf, BitVec.le_def, BitVec.lt_def]

theorem vsOf_iff (v : BitVec 10) : vsOf v = false ↔ 490 ≤ v.toNat ∧ v.toNat < 492 := by
  simp [vsOf, BitVec.le_def, BitVec.lt_def]

theorem blankNOf_iff (h v : BitVec 10) :
    blankNOf h v = true ↔ h.toNat < 640 ∧ v.toNat < 480 := by
  simp [blankNOf, BitVec.lt_def]

/-- The vertical sync after `k` ticks: low in rows 490 and 491, and low after Reset. -/
theorem scan_vs (k : Nat) : (scan k).vgaVs = false ↔
    k = 0 ∨ (490 ≤ Raster.row 800 525 k ∧ Raster.row 800 525 k < 492) := by
  rcases Nat.eq_zero_or_pos k with rfl | hk
  · exact ⟨fun _ => Or.inl rfl, fun _ => rfl⟩
  · rw [scan_at hk]
    show vsOf (scan k).vCounter = false ↔ _
    rw [vsOf_iff, (scan_counters k).2]
    constructor
    · exact Or.inr
    · rintro (h | h)
      · omega
      · exact h

/-- **When the vertical sync rises**: with the first tick, and at the start of row 492. -/
theorem scan_vs_rises (k : Nat) : ((scan (k + 1)).vgaVs && !(scan k).vgaVs) = true ↔
    k + 1 = 1 ∨ (k + 1) % 420000 = 393600 := by
  have hpix := Raster.visit_iff (w := 800) (h := 525) (c := 0) (r := 492) (by decide) (k + 1)
  have hrow := scan_vs k
  have hrow' := scan_vs (k + 1)
  simp only [Raster.col, Raster.row] at hpix hrow hrow'
  rw [Bool.and_eq_true, Bool.not_eq_true', hrow, ← Bool.not_eq_false, hrow']
  constructor
  · rintro ⟨hup, hlow⟩
    rcases hlow with h0 | h
    · exact Or.inl (by omega)
    · exact Or.inr (hpix.mp (by omega))
  · rintro (h1 | h)
    · exact ⟨by omega, Or.inl (by omega)⟩
    · have := hpix.mpr h
      exact ⟨by omega, Or.inr (by omega)⟩

/-! ## The scan in a design run -/

/-- **Two clock rates.**  After `n` Clks the design shows the scan after as many ticks as the
    divided clock has counted. -/
theorem Design.vga_run (T : Tables) {d : Design} (hv : d.vga = VgaRegs.cleared)
    {ins : Nat → DesignIn} (hins : ∀ n, (ins n).reset = false) (n : Nat) :
    (Clocked.run (Design.clk T) ins d n).vga = scan (Raster.half d.vgaClk n) := by
  induction n with
  | zero => rw [Raster.half_zero]; exact hv
  | succ n ih =>
    rw [Clocked.run_succ]
    show (if (Clocked.run (Design.clk T) ins d n).vgaClk then
        (Clocked.run (Design.clk T) ins d n).vga
      else (Clocked.run (Design.clk T) ins d n).vga.clk (ins n).reset) = _
    rw [Design.vgaClk_run, Raster.half_succ, ih, hins n]
    cases Raster.levelAt d.vgaClk n with
    | true => rfl
    | false => rfl

/-- After a Clk the four detectors hold the sync of before. -/
theorem Design.clk_synced (T : Tables) (i : DesignIn) (d : Design) :
    (d.clk T i).board.Synced d.vga.vgaVs := d.board.clk_synced T (d.clkIn i)

/-- The Clks after a release at which the frame clock rises: the one after the first `VGA_CLK`, and
    then one in every 840000. -/
def framePulse (level : Bool) (n : Nat) : Prop :=
  Raster.phase level n = 2 ∨ Raster.phase level n % 840000 = 787200

instance (level : Bool) (n : Nat) : Decidable (framePulse level n) :=
  inferInstanceAs (Decidable (_ ∨ _))

/-- The sync rises between two Clks exactly at a pulse. -/
theorem framePulse_succ (level : Bool) (n : Nat) :
    ((scan (Raster.half level (n + 1))).vgaVs && !(scan (Raster.half level n)).vgaVs) =
      decide (framePulse level (n + 1)) := by
  have hrise := scan_vs_rises (Raster.half level n)
  have hlevel := Raster.levelAt_eq level n
  rw [Raster.half_succ, Bool.eq_iff_iff, decide_eq_true_eq]
  unfold framePulse
  rw [Raster.phase_succ]
  cases hl : Raster.levelAt level n with
  | true =>
    -- `VGA_CLK` is high: the scan does not move, and the next phase is odd
    have hp := of_decide_eq_true (hlevel.symm.trans hl)
    rw [if_pos rfl, Bool.and_not_self]
    constructor
    · exact fun hf => absurd hf Bool.false_ne_true
    · omega
  | false =>
    have hp := of_decide_eq_false (hlevel.symm.trans hl)
    rw [if_neg Bool.false_ne_true, hrise]
    unfold Raster.half
    omega

/-- **The frame clock.**  After a release the four modules see the same edges, at the pulses. -/
theorem Design.edges_run {T : Tables} {d : Design} (hd : d.Released T) {ins : Nat → DesignIn}
    (hins : ∀ n, (ins n).reset = false) (n : Nat) :
    (Clocked.run (Design.clk T) ins d n).board.edges
        (Clocked.run (Design.clk T) ins d n).vga.vgaVs =
      (decide (framePulse d.vgaClk n), decide (framePulse d.vgaClk n),
        decide (framePulse d.vgaClk n), decide (framePulse d.vgaClk n)) := by
  cases n with
  | zero =>
    -- Reset leaves the sync low, so nothing rises at the first Clk
    have hlow : d.vga.vgaVs = false := by rw [hd.vga]; rfl
    have hno : ¬ framePulse d.vgaClk 0 := by
      have := Raster.phase_zero_lt d.vgaClk
      unfold framePulse
      omega
    rw [Clocked.run_zero, hlow, decide_eq_false hno]
    simp [Board.edges, Mover.frameClkRisingEdge]
  | succ n =>
    have hs : (Clocked.run (Design.clk T) ins d (n + 1)).board.Synced
        (Clocked.run (Design.clk T) ins d n).vga.vgaVs := Design.clk_synced T (ins n) _
    rw [hs.edges, Design.vga_run T hd.vga hins, Design.vga_run T hd.vga hins, framePulse_succ]

end Lab8
