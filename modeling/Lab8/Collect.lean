/-
  Every pellet is collectable, and Pac-Man is never trapped.

  `Solo` is the design with the ghosts taken out: `pac_man` with its three collision inputs tied low,
  the wall array, the pellet map and the scan, all at the level of Clk.

  1. **Pac-Man alone** (`Solo.press`) — between two frame edges nothing moves, and an edge plays one
     frame of `Piece.pacStep` on the key it samples; so any list of keys can be played from any Clk
     of a run (`Solo.plays`).
  2. **A scanned machine** (`Solo.sweep`) — what the scan does to the pellets is what it does in the
     whole design.
  3. `never_trapped` — walk to a cell, as `Lab8.Walk` says he can, and wait for the frame's edge; one
     pellet after the other.
-/
import Lab8.Walk
import Lab8.Sweep

namespace Lab8

/-! ## Pac-Man, maze, pellets and scan -/

/-- The registers of `pac_man`, `wall`, `food` and the scan. -/
structure Solo where
  pacMan : Mover Direction
  wall : WallArr
  food : FoodRegs
  vga : VgaRegs
  vgaClk : Bool
  deriving Inhabited

/-- The sensors of `wall` for Pac-Man. -/
def Solo.sensor (T : Tables) (s : Solo) : Sensor :=
  s.pacMan.toPiece.sensor (wallRead T.wallOut s.wall)

/-- One rising edge of Clk, with `is_collision_red`, `is_collision_green` and `is_collision_blue`
    low at `pac_man`. -/
def Solo.clk (T : Tables) (i : DesignIn) (s : Solo) : Solo where
  pacMan := s.pacMan.pacManClk pacManCenter 0b111 i.reset s.vga.vgaVs
    (pacManHeading i.key (s.sensor T) false s.pacMan.toHeading)
  wall := mazeTable
  food := s.food.clk T i.reset (isBall s.vga.hCounter s.vga.vCounter s.pacMan.toPiece)
    s.vga.hCounter s.vga.vCounter s.pacMan.ballXPosIn s.pacMan.ballYPosIn
  vga := if s.vgaClk then s.vga else s.vga.clk i.reset
  vgaClk := !s.vgaClk

/-- Reset was high at each of the last `r + 1` Clks, and at one of them `VGA_CLK` rose. -/
def Solo.Released (T : Tables) (s : Solo) : Prop :=
  ∃ (s₀ : Solo) (hold : Nat → DesignIn) (r : Nat), (∀ k, k ≤ r → (hold k).reset = true) ∧
    (∃ k, k ≤ r ∧ (Clocked.run (Solo.clk T) hold s₀ k).vgaClk = false) ∧
    s = Clocked.run (Solo.clk T) hold s₀ (r + 1)

/-- Pac-Man alone at power-up, after Reset was held for two Clks. -/
def Solo.start (T : Tables) : Solo := Clocked.run (Solo.clk T) (fun _ => ⟨true, 0⟩) default 2

theorem Solo.start_released (T : Tables) : (Solo.start T).Released T :=
  ⟨default, fun _ => ⟨true, 0⟩, 1, fun _ _ => rfl, ⟨0, Nat.zero_le 1, rfl⟩, rfl⟩

/-! ## The scan is that of the design -/

/-- A design with the scan of `s`. -/
def Solo.scanned (s : Solo) : Design := ⟨default, s.vga, s.vgaClk⟩

/-- The scan does not depend on the actors. -/
theorem Solo.scan_run (T : Tables) (s : Solo) (ins : Nat → DesignIn) (n : Nat) :
    (Clocked.run (Solo.clk T) ins s n).vga = (Clocked.run (Design.clk T) ins s.scanned n).vga ∧
      (Clocked.run (Solo.clk T) ins s n).vgaClk =
        (Clocked.run (Design.clk T) ins s.scanned n).vgaClk := by
  refine Clocked.run_rel (R := fun (s : Solo) (d : Design) => s.vga = d.vga ∧ s.vgaClk = d.vgaClk)
    ⟨rfl, rfl⟩ ?_ n
  rintro n s d ⟨hvga, hclk⟩
  constructor
  · show (if s.vgaClk then s.vga else s.vga.clk (ins n).reset) =
      if d.vgaClk then d.vga else d.vga.clk (ins n).reset
    rw [hvga, hclk]
  · show (!s.vgaClk) = !d.vgaClk
    rw [hclk]

/-- After a release the scan is cleared, the registers are those Reset loads. -/
theorem Solo.Released.loaded {T : Tables} {s : Solo} (h : s.Released T) :
    s.vga = VgaRegs.cleared ∧ s.pacMan.toPiece = Actors.center.pacMan ∧ s.wall = mazeTable ∧
      s.food.food = T.foodTemp ∧ s.food.score = T.scoreTemp := by
  obtain ⟨s₀, hold, r, hreset, ⟨k, hk, hlow⟩, rfl⟩ := h
  refine ⟨?_, ?_, rfl, ?_, ?_⟩
  · rw [(Solo.scan_run T s₀ hold (r + 1)).1]
    apply Design.Released.vga (T := T)
    exact ⟨s₀.scanned, hold, r, hreset, ⟨k, hk, by rw [← (Solo.scan_run T s₀ hold k).2, hlow]⟩, rfl⟩
  · rw [Clocked.run_succ]
    simp only [Solo.clk, hreset r (Nat.le_refl r), Mover.pacManClk_eq]
    rfl
  · rw [Clocked.run_succ]
    simp only [Solo.clk, hreset r (Nat.le_refl r)]
    rfl
  · rw [Clocked.run_succ]
    simp only [Solo.clk, hreset r (Nat.le_refl r)]
    rfl

section Run

variable {T : Tables} {s : Solo} {ins : Nat → DesignIn}

theorem Solo.vga_run (hs : s.Released T) (hins : ∀ n, (ins n).reset = false) (n : Nat) :
    (Clocked.run (Solo.clk T) ins s n).vga = scan (Raster.half s.vgaClk n) := by
  rw [(Solo.scan_run T s ins n).1]
  exact Design.vga_run T (d := s.scanned) hs.loaded.1 hins n

/-- Pac-Man's module sees its edges at the pulses. -/
theorem Solo.edge_run (hs : s.Released T) (hins : ∀ n, (ins n).reset = false) (n : Nat) :
    (Clocked.run (Solo.clk T) ins s n).pacMan.frameClkRisingEdge
      (Clocked.run (Solo.clk T) ins s n).vga.vgaVs = decide (framePulse s.vgaClk n) := by
  cases n with
  | zero =>
    have hno : ¬ framePulse s.vgaClk 0 := by
      have := Raster.phase_zero_lt s.vgaClk
      unfold framePulse
      omega
    rw [Clocked.run_zero, hs.loaded.1, decide_eq_false hno]
    rfl
  | succ n =>
    rw [← framePulse_succ, ← Solo.vga_run hs hins, ← Solo.vga_run hs hins]
    rfl

theorem Solo.wall_run (hs : s.Released T) (n : Nat) :
    (Clocked.run (Solo.clk T) ins s n).wall = mazeTable := by
  cases n with
  | zero => exact hs.loaded.2.2.1
  | succ n => rfl

/-- **A Clk of a run** is a frame of Pac-Man alone at a pulse, and nothing otherwise. -/
theorem Solo.piece_succ (hs : s.Released T) (hins : ∀ n, (ins n).reset = false) (n : Nat) :
    (Clocked.run (Solo.clk T) ins s (n + 1)).pacMan.toPiece =
      if framePulse s.vgaClk n then
        (Clocked.run (Solo.clk T) ins s n).pacMan.toPiece.pacStep (mazeWall T) (ins n).key
      else (Clocked.run (Solo.clk T) ins s n).pacMan.toPiece := by
  have hedge := Solo.edge_run hs hins n
  have hwall : wallRead T.wallOut (Clocked.run (Solo.clk T) ins s n).wall = mazeWall T := by
    rw [Solo.wall_run hs, mazeWall]
  rw [Clocked.run_succ]
  simp only [Solo.clk, Solo.sensor, Mover.pacManClk, hins n, hedge, hwall, decide_eq_true_eq]
  rfl

/-- Pac-Man alone keeps his invariant. -/
theorem Solo.alone_run (hs : s.Released T) (hins : ∀ n, (ins n).reset = false) (n : Nat) :
    (Clocked.run (Solo.clk T) ins s n).pacMan.toPiece.Alone T := by
  induction n with
  | zero =>
    rw [Clocked.run_zero, hs.loaded.2.1]
    exact Piece.Alone.center T
  | succ n ih =>
    rw [Solo.piece_succ hs hins]
    split
    · exact ih.step _
    · exact ih

/-- **Pac-Man alone is a scanned machine.** -/
theorem Solo.sweep (hs : s.Released T) (hins : ∀ n, (ins n).reset = false) :
    Sweep T s.vgaClk (fun n => (Clocked.run (Solo.clk T) ins s n).vga)
      (fun n => (Clocked.run (Solo.clk T) ins s n).pacMan.toPiece)
      (fun n => (Clocked.run (Solo.clk T) ins s n).food) where
  scans := Solo.vga_run hs hins
  still n hno := (Solo.piece_succ hs hins n).trans (if_neg hno)
  eats n := by
    show (Solo.clk T (ins n) _).food = _
    simp only [Solo.clk, hins n]
  safe n := (Solo.alone_run hs hins n).safe

end Run

/-! ## Playing keys -/

/-- From any Clk on there is a next pulse. -/
theorem exists_framePulse (level : Bool) (n : Nat) : ∃ e, n ≤ e ∧ framePulse level e ∧
    ∀ k, n ≤ k → k < e → ¬ framePulse level k := by
  have hex : ∃ e, n ≤ e ∧ framePulse level e := by
    refine ⟨840000 * (n + 1) + 787200 - (if level then 0 else 1), ?_, Or.inr ?_⟩
    · split <;> omega
    · unfold Raster.phase
      split <;> omega
  refine ⟨Nat.find hex, (Nat.find_spec hex).1, (Nat.find_spec hex).2, ?_⟩
  intro k hnk hk hp
  exact Nat.find_min hex hk ⟨hnk, hp⟩

/-- `ins'` continues `ins` from Clk `n` on, with Reset low. -/
structure Continues (ins : Nat → DesignIn) (n : Nat) (ins' : Nat → DesignIn) : Prop where
  same : ∀ k, k < n → ins' k = ins k
  low : ∀ k, (ins' k).reset = false

theorem Continues.refl {ins : Nat → DesignIn} (hins : ∀ n, (ins n).reset = false) (n : Nat) :
    Continues ins n ins := ⟨fun _ _ => rfl, hins⟩

theorem Continues.trans {ins ins' ins'' : Nat → DesignIn} {n m : Nat} (h : Continues ins n ins')
    (hnm : n ≤ m) (h' : Continues ins' m ins'') : Continues ins n ins'' :=
  ⟨fun k hk => (h'.same k (Nat.lt_of_lt_of_le hk hnm)).trans (h.same k hk), h'.low⟩

/-- A continuation passes through the same state. -/
theorem Continues.run {ins ins' : Nat → DesignIn} {n : Nat} (h : Continues ins n ins') (T : Tables)
    (s : Solo) : Clocked.run (Solo.clk T) ins' s n = Clocked.run (Solo.clk T) ins s n :=
  Clocked.run_congr s h.same

section Play

variable {T : Tables} {s : Solo} {ins : Nat → DesignIn}

/-- **One key** is played by holding it over the next pulse. -/
theorem Solo.press (hs : s.Released T) (hins : ∀ n, (ins n).reset = false) (n : Nat)
    (key : BitVec 8) : ∃ ins' m, Continues ins n ins' ∧ n ≤ m ∧ 2 < Raster.phase s.vgaClk m ∧
      (Clocked.run (Solo.clk T) ins' s m).pacMan.toPiece =
        (Clocked.run (Solo.clk T) ins s n).pacMan.toPiece.pacStep (mazeWall T) key := by
  obtain ⟨e, hne, he, hno⟩ := exists_framePulse s.vgaClk n
  have hcont : Continues ins n (fun k => if k < n then ins k else ⟨false, key⟩) := by
    constructor
    · intro k hk
      exact if_pos hk
    · intro k
      show (if k < n then ins k else ⟨false, key⟩ : DesignIn).reset = false
      split
      · exact hins k
      · rfl
  refine ⟨_, e + 1, hcont, by omega, ?_, ?_⟩
  · unfold framePulse Raster.phase at *
    omega
  · rw [Solo.piece_succ hs hcont.low, if_pos he, (Solo.sweep hs hcont.low).between hne hno,
      hcont.run T s]
    have hkey : (if e < n then ins e else ⟨false, key⟩ : DesignIn).key = key := by
      rw [if_neg (Nat.not_lt.mpr hne)]
    rw [hkey]

/-- **Any list of keys can be played**, one key a frame. -/
theorem Solo.plays (hs : s.Released T) (keys : List (BitVec 8))
    (hins : ∀ n, (ins n).reset = false) (n : Nat) : ∃ ins' m, Continues ins n ins' ∧ n ≤ m ∧
      (Clocked.run (Solo.clk T) ins' s m).pacMan.toPiece =
        Clocked.runList (Piece.pacStep (mazeWall T))
          (Clocked.run (Solo.clk T) ins s n).pacMan.toPiece keys := by
  induction keys generalizing ins n with
  | nil => exact ⟨ins, n, Continues.refl hins n, Nat.le_refl n, rfl⟩
  | cons key keys ih =>
    obtain ⟨ins₁, m₁, hcont₁, hnm₁, _, hone⟩ := Solo.press hs hins n key
    obtain ⟨ins₂, m₂, hcont₂, hnm₂, hrest⟩ := ih hcont₁.low m₁
    refine ⟨ins₂, m₂, hcont₁.trans hnm₁ hcont₂, Nat.le_trans hnm₁ hnm₂, ?_⟩
    rw [hrest, hone]
    rfl

/-- **He can walk to any open cell.** -/
theorem Solo.visits (hs : s.Released T) (hins : ∀ n, (ins n).reset = false) (n : Nat)
    {a : Nat × Nat} (ha : isOpen a.1 a.2 = true) : ∃ ins' m, Continues ins n ins' ∧ n ≤ m ∧
      (Clocked.run (Solo.clk T) ins' s m).pacMan.toPiece.InCell a := by
  obtain ⟨keys, hat⟩ := (Solo.alone_run hs hins n).reaches ha
  obtain ⟨ins', m, hcont, hnm, hp⟩ := Solo.plays hs keys hins n
  rw [← hp] at hat
  exact ⟨ins', m, hcont, hnm, hat⟩

/-- **And eat the pellet there**, by waiting for the frame's edge. -/
theorem Solo.eats (hs : s.Released T) (hins : ∀ n, (ins n).reset = false) (n : Nat) {c : Fin 220}
    (hc : isOpen (c.val / 20) (c.val % 20) = true) : ∃ ins' m, Continues ins n ins' ∧ n ≤ m ∧
      (Clocked.run (Solo.clk T) ins' s m).food.food c = true := by
  -- one frame first: the starting frame is shorter than a scan
  obtain ⟨ins₁, m₁, hcont₁, hnm₁, hphase, _⟩ := Solo.press hs hins n 0
  obtain ⟨ins₂, m₂, hcont₂, hnm₂, hat⟩ :=
    Solo.visits hs hcont₁.low m₁ (a := (c.val / 20, c.val % 20)) hc
  obtain ⟨e, hme, he, _⟩ := exists_framePulse s.vgaClk m₂
  have haddr : (Clocked.run (Solo.clk T) ins₂ s m₂).pacMan.toPiece.foodWriteAddress = c.val := by
    have hcell := hat.cell
    rw [Piece.cell, Prod.mk.injEq] at hcell
    rw [Piece.foodWriteAddress, foodAddress_eq, hcell.1, hcell.2]
    omega
  have hlate : 2 < Raster.phase s.vgaClk m₂ := by
    unfold Raster.phase at *
    omega
  exact ⟨ins₂, e, hcont₁.trans hnm₁ hcont₂, by omega,
    (Solo.sweep hs hcont₂.low).visited_cleared he hme hlate haddr⟩

/-- **All pellets of a list can be eaten**, one after the other. -/
theorem Solo.eats_all (hs : s.Released T) (cells : List (Fin 220))
    (hopen : ∀ c ∈ cells, isOpen (c.val / 20) (c.val % 20) = true)
    (hins : ∀ n, (ins n).reset = false) (n : Nat) : ∃ ins' m, Continues ins n ins' ∧ n ≤ m ∧
      ∀ c ∈ cells, (Clocked.run (Solo.clk T) ins' s m).food.food c = true := by
  induction cells generalizing ins n with
  | nil =>
    exact ⟨ins, n, Continues.refl hins n, Nat.le_refl n, fun c hc => absurd hc List.not_mem_nil⟩
  | cons c cells ih =>
    obtain ⟨ins₁, m₁, hcont₁, hnm₁, hc⟩ := Solo.eats hs hins n (hopen c List.mem_cons_self)
    obtain ⟨ins₂, m₂, hcont₂, hnm₂, hrest⟩ :=
      ih (fun c hc => hopen c (List.mem_cons_of_mem _ hc)) hcont₁.low m₁
    refine ⟨ins₂, m₂, hcont₁.trans hnm₁ hcont₂, Nat.le_trans hnm₁ hnm₂, ?_⟩
    intro c' hc'
    rcases List.mem_cons.mp hc' with rfl | hmem
    · rw [← hcont₂.run T s] at hc
      exact (Solo.sweep hs hcont₂.low).keeps hnm₂ hc
    · exact hrest c' hmem

end Play

/-! ## Never trapped -/

/-- Every cell that holds a pellet is open. -/
theorem foodTxt_open : ∀ c : Fin 220, foodTxt c = false →
    isOpen (c.val / 20) (c.val % 20) = true := by decide +kernel

/-- A cell of the loaded array with wall bit 0 is open. -/
theorem isOpen_of_wall {row : Fin 15} {col : Fin 20} (h : mazeTable row col = false) :
    isOpen row.val col.val = true := by
  have hbit : mazeBit row.val col.val = false := h
  simp [isOpen, row.isLt, col.isLt, hbit]

/-- **All pellets can be eaten**, and the score is then their number. -/
theorem Solo.empties {T : Tables} {s : Solo} (hs : s.Released T) (hfood : T.foodTemp = foodTxt)
    (hscore : T.scoreTemp = scoreTxt) {ins : Nat → DesignIn} (hins : ∀ n, (ins n).reset = false)
    (n : Nat) : ∃ ins' m, Continues ins n ins' ∧ n ≤ m ∧
      (∀ c, (Clocked.run (Solo.clk T) ins' s m).food.food c = true) ∧
      (Clocked.run (Solo.clk T) ins' s m).food.score.toNat = (Latch.down T.foodTemp).card := by
  obtain ⟨ins', m, hcont, hnm, hall⟩ := Solo.eats_all hs
    ((List.finRange 220).filter (fun c => !T.foodTemp c)) (by
      intro c hc
      rw [List.mem_filter, Bool.not_eq_true'] at hc
      exact foodTxt_open c (hfood ▸ hc.2)) hins n
  have h0 : s.food.Counts T := by
    obtain ⟨_, _, _, hf, hsc⟩ := hs.loaded
    refine ⟨?_, ?_⟩
    · rw [hf]
      exact Latch.Rises.refl _
    · rw [hf, Latch.raised_self, hsc, hscore]
      rfl
  have hcounts : (Clocked.run (Solo.clk T) ins' s m).food.Counts T :=
    (Solo.sweep hs hcont.low).counts h0 m
  have hempty : ∀ c, (Clocked.run (Solo.clk T) ins' s m).food.food c = true := by
    intro c
    cases hc : T.foodTemp c with
    | true => exact hcounts.rises c hc
    | false =>
      apply hall
      rw [List.mem_filter, hc]
      exact ⟨List.mem_finRange c, rfl⟩
  refine ⟨ins', m, hcont, hnm, hempty, ?_⟩
  rw [hcounts.score]
  congr 1
  ext c
  rw [Latch.mem_raised, Latch.mem_down]
  exact and_iff_left (hempty c)

/-- **Every pellet is collectable and Pac-Man is never trapped.**  With the collision inputs held
    low and the shipped pellet map, in every state of every run after a Reset that was held over an
    edge of `VGA_CLK`, whatever the keys so far:
    (1) for every cell whose wall bit is 0, some continuation of the keys brings Pac-Man's exported
        corner into that cell with `inside_block = 1`;
    (2) every cell with `food_temp = 0` is such a cell;
    (3) some continuation of the keys eats all pellets, and the score is then the initial number of
        pellets. -/
theorem never_trapped (T : Tables) (hfood : T.foodTemp = foodTxt) (hscore : T.scoreTemp = scoreTxt)
    (s : Solo) (hs : s.Released T) (ins : Nat → DesignIn) (hins : ∀ n, (ins n).reset = false)
    (n : Nat) :
    (∀ (row : Fin 15) (col : Fin 20),
      (Clocked.run (Solo.clk T) ins s n).wall row col = false →
      ∃ ins' m, Continues ins n ins' ∧ n ≤ m ∧
        (Clocked.run (Solo.clk T) ins' s m).pacMan.toPiece.cell = (row.val, col.val) ∧
        ((Clocked.run (Solo.clk T) ins' s m).sensor T).insideBlock = true) ∧
    (∀ c : Fin 220, T.foodTemp c = false →
      (Clocked.run (Solo.clk T) ins s n).wall ⟨c.val / 20, by omega⟩ ⟨c.val % 20, by omega⟩ =
        false) ∧
    (∃ ins' m, Continues ins n ins' ∧ n ≤ m ∧
      (∀ c, (Clocked.run (Solo.clk T) ins' s m).food.food c = true) ∧
      (Clocked.run (Solo.clk T) ins' s m).food.score.toNat = (Latch.down T.foodTemp).card) := by
  refine ⟨?_, ?_, ?_⟩
  · intro row col hw
    rw [Solo.wall_run hs] at hw
    obtain ⟨ins', m, hcont, hnm, hat⟩ :=
      Solo.visits hs hins n (a := (row.val, col.val)) (isOpen_of_wall hw)
    refine ⟨ins', m, hcont, hnm, hat.cell, ?_⟩
    rw [Solo.sensor, Piece.sensor, sense, if_pos hat.inside]
  · intro c hc
    rw [hfood] at hc
    have ho := foodTxt_open c hc
    rw [Solo.wall_run hs]
    show mazeBit (c.val / 20) (c.val % 20) = false
    simp only [isOpen, Bool.and_eq_true, Bool.not_eq_true'] at ho
    exact ho.2.2
  · exact Solo.empties hs hfood hscore hins n

/-- At power-up, the cell in the upper left corner of the maze. -/
theorem never_trapped_corner : ∃ ins' m, Continues (fun _ => ⟨false, 0⟩) 5 ins' ∧ 5 ≤ m ∧
    (Clocked.run (Solo.clk .shipped) ins' (.start .shipped) m).pacMan.toPiece.cell = (1, 1) ∧
    ((Clocked.run (Solo.clk .shipped) ins' (.start .shipped) m).sensor .shipped).insideBlock =
      true :=
  (never_trapped .shipped rfl rfl (.start .shipped) (Solo.start_released .shipped)
    (fun _ => ⟨false, 0⟩) (fun _ => rfl) 5).1 1 1 (by decide)

end Lab8
