/-
  Frame timing and absence of tearing.

  Sprites are drawn from the position REGISTERS while the scan passes over them, so no position
  register may change in a visible row.  Registers change on frame edges and, in a ghost that
  another ghost's flag stops, on any Clk.  Both are late enough:

  * an edge falls on the start of row 492, or right after Reset, when every piece still rests on its
    starting position and moves by nothing;
  * a stop spends the ghost's motion on the first Clk after the edge that raised the flag, still in
    row 492; afterwards the ghost is `Halted` and stopping it again changes nothing.

  `Design.Steady` is the invariant that carries this through every run, later Resets included: a
  Reset may fall on any Clk, with or without an edge of `VGA_CLK`.
-/
import Lab8.Tunnel
import Lab8.Scan

namespace Lab8

variable {δ : Type}

/-! ## Pieces at rest -/

/-- The four pairs of position registers. -/
def Actors.positions (a : Actors) :
    (BitVec 10 × BitVec 10) × (BitVec 10 × BitVec 10) × (BitVec 10 × BitVec 10) ×
      (BitVec 10 × BitVec 10) :=
  (a.pacMan.pos, a.redEvil.pos, a.greenEvil.pos, a.blueEvil.pos)

/-- The piece has no motion left: its exported position is its register. -/
def Piece.AtRest (p : Piece δ) : Prop := p.posOut = p.pos

theorem Piece.advance_atRest (p : Piece δ) (d : δ) : (p.advance ⟨0, 0, d⟩).AtRest := by
  rw [Piece.AtRest, Piece.advance_stop, Piece.advance_pos]

/-- Every ghost that another ghost's flag stops is at rest. -/
structure Actors.Halted (a : Actors) : Prop where
  redEvil : (a.isCollisionGreen || a.isCollisionBlue) = true → a.redEvil.AtRest
  greenEvil : (a.isCollisionBlue || a.isCollisionRed) = true → a.greenEvil.AtRest
  blueEvil : (a.isCollisionGreen || a.isCollisionRed) = true → a.blueEvil.AtRest

/-- Without a flag nobody is stopped. -/
theorem Actors.Halted.of_no_collision {a : Actors} (h : a.collision = false) : a.Halted := by
  have hflags : (a.isCollisionRed = false ∧ a.isCollisionBlue = false) ∧
      a.isCollisionGreen = false := by
    simpa [Actors.collision] using h
  obtain ⟨⟨hred, hblue⟩, hgreen⟩ := hflags
  constructor
  · intro hs
    rw [hgreen, hblue] at hs
    exact absurd hs Bool.false_ne_true
  · intro hs
    rw [hblue, hred] at hs
    exact absurd hs Bool.false_ne_true
  · intro hs
    rw [hgreen, hred] at hs
    exact absurd hs Bool.false_ne_true

/-- The starting positions are apart. -/
theorem Actors.center_no_collision : Actors.center.collision = false := by decide

/-! ## Ticks without an edge -/

/-- A tick without an edge changes no output, flag up or not. -/
theorem Board.clk_outputs_idle (T : Tables) {i : ClkIn} {b : Board} {m : Bool}
    (hr : i.reset = false) (hs : b.Synced m) (he : (i.frameClk && !m) = false) :
    (b.clk T i).actors.outputs = b.actors.outputs := by
  cases hc : b.actors.collision with
  | true => exact b.clk_frozen T hr hc
  | false => rw [b.clk_actors T hr hc hs, if_neg (by rw [he]; exact Bool.false_ne_true)]

/-- **After a tick without an edge every stopped ghost is at rest.** -/
theorem Board.clk_halted (T : Tables) {i : ClkIn} {b : Board} {m : Bool}
    (hr : i.reset = false) (hs : b.Synced m) (he : (i.frameClk && !m) = false) :
    (b.clk T i).actors.Halted := by
  have hout := b.clk_outputs_idle T hr hs he
  have hred : (b.clk T i).actors.isCollisionRed = b.actors.isCollisionRed :=
    congrArg Outputs.isCollisionRed hout
  have hgreen : (b.clk T i).actors.isCollisionGreen = b.actors.isCollisionGreen :=
    congrArg Outputs.isCollisionGreen hout
  have hblue : (b.clk T i).actors.isCollisionBlue = b.actors.isCollisionBlue :=
    congrArg Outputs.isCollisionBlue hout
  have stopped : ∀ {δ : Type} (c : BitVec 10 × BitVec 10) (d₀ : δ) (next : Heading δ) (p : Mover δ),
      (p.ghostClk c d₀ false true i.frameClk next).toPiece.AtRest :=
    fun _ d₀ _ p => p.toPiece.advance_atRest d₀
  -- the flags are those of before the tick, so a ghost stopped now was stopped by this tick
  constructor
  · intro h
    rw [hgreen, hblue] at h
    show (b.redEvil.ghostClk _ _ i.reset _ _ _).toPiece.AtRest
    rw [hr, h]
    exact stopped _ _ _ _
  · intro h
    rw [hblue, hred] at h
    show (b.greenEvil.ghostClk _ _ i.reset _ _ _).toPiece.AtRest
    rw [hr, h]
    exact stopped _ _ _ _
  · intro h
    rw [hgreen, hred] at h
    show (b.blueEvil.ghostClk _ _ i.reset _ _ _).toPiece.AtRest
    rw [hr, h]
    exact stopped _ _ _ _

/-- A ghost that is stopped only at rest keeps its position register on a tick without an edge. -/
theorem Mover.ghostClk_pos (center : BitVec 10 × BitVec 10) (d₀ : δ) (stop frameClk : Bool)
    (next : Heading δ) (p : Mover δ) (he : p.frameClkRisingEdge frameClk = false)
    (hrest : stop = true → p.toPiece.AtRest) :
    (p.ghostClk center d₀ false stop frameClk next).pos = p.pos := by
  rcases p.ghostClk_cases center d₀ stop frameClk next with ⟨hs, h⟩ | ⟨_, hedge, _⟩ | ⟨_, _, h⟩
  · rw [h, Piece.advance_pos]
    exact hrest hs
  · rw [he] at hedge
    exact absurd hedge Bool.false_ne_true
  · rw [h]

/-- **No edge, nobody freshly stopped: no position register changes.** -/
theorem Board.clk_positions_idle (T : Tables) {i : ClkIn} {b : Board} {m : Bool}
    (hr : i.reset = false) (hs : b.Synced m) (he : (i.frameClk && !m) = false)
    (hh : b.actors.Halted) : (b.clk T i).actors.positions = b.actors.positions := by
  have edge : ∀ {δ : Type} (p : Mover δ), p.frameClkDelayed = m →
      p.frameClkRisingEdge i.frameClk = false := by
    intro δ p hp
    rw [Mover.frameClkRisingEdge, hp, he]
  have hp : (b.clk T i).actors.pacMan.pos = b.actors.pacMan.pos := by
    show (b.pacMan.pacManClk _ _ i.reset _ _).pos = b.pacMan.pos
    rw [Mover.pacManClk_eq, hr]
    exact Mover.ghostClk_pos _ _ _ _ _ _ (edge _ hs.pacMan)
      (fun h => absurd h Bool.false_ne_true)
  have hR : (b.clk T i).actors.redEvil.pos = b.actors.redEvil.pos := by
    show (b.redEvil.ghostClk _ _ i.reset _ _ _).pos = b.redEvil.pos
    rw [hr]
    exact Mover.ghostClk_pos _ _ _ _ _ _ (edge _ hs.redEvil) hh.redEvil
  have hG : (b.clk T i).actors.greenEvil.pos = b.actors.greenEvil.pos := by
    show (b.greenEvil.ghostClk _ _ i.reset _ _ _).pos = b.greenEvil.pos
    rw [hr]
    exact Mover.ghostClk_pos _ _ _ _ _ _ (edge _ hs.greenEvil) hh.greenEvil
  have hB : (b.clk T i).actors.blueEvil.pos = b.actors.blueEvil.pos := by
    show (b.blueEvil.ghostClk _ _ i.reset _ _ _).pos = b.blueEvil.pos
    rw [hr]
    exact Mover.ghostClk_pos _ _ _ _ _ _ (edge _ hs.blueEvil) hh.blueEvil
  simp only [Actors.positions, hp, hR, hG, hB]

/-! ## The first tick of a game -/

/-- From the starting positions a tick changes no position register, edge or not. -/
theorem Board.clk_positions_center (T : Tables) {i : ClkIn} {b : Board} {m : Bool}
    (hr : i.reset = false) (hs : b.Synced m) (hc : b.actors = Actors.center) :
    (b.clk T i).actors.positions = b.actors.positions := by
  rw [b.clk_actors T hr (by rw [hc]; exact Actors.center_no_collision) hs, hc]
  split
  · rfl
  · rfl

/-- One step from the starting positions makes nobody collide. -/
theorem Board.Safe.clk_no_collision {T : Tables} {i : ClkIn} {b : Board} (h : b.Safe)
    (hr : i.reset = false) (hc : b.actors = Actors.center) :
    (b.clk T i).actors.collision = false := by
  obtain ⟨hball, hghost⟩ := h.clk_near T hr
  rw [hc] at hball hghost
  have hno : ∀ g, (b.clk T i).actors.outputs.flag g = false := by
    intro g
    have hg := hghost g
    rw [Actors.flag_eq, ← Bool.not_eq_true, collides, withinSeven_iff]
    cases g <;>
      simp only [Near, intDiff, Outputs.ghost, Actors.outputs, Actors.center, Piece.posOut,
        Piece.ballXPosIn, Piece.ballYPosIn, pacManCenter, redEvilCenter, greenEvilCenter,
        blueEvilCenter] at hball hg ⊢ <;>
      simp at hball hg ⊢ <;> omega
  rw [Actors.collision_eq]
  show ((b.clk T i).actors.outputs.flag .red || (b.clk T i).actors.outputs.flag .blue ||
    (b.clk T i).actors.outputs.flag .green) = false
  rw [hno, hno, hno]
  rfl

/-! ## The invariant of a design run -/

/-- **Steady**: the scan shows a pixel or is cleared; a cleared scan comes with resting actors; an
    edge can be pending only in the Clk after a `VGA_CLK`, at the start of row 492 or with the
    actors still in their starting positions; and a stopped ghost is at rest, except in row 492. -/
structure Design.Steady (d : Design) : Prop where
  safe : d.board.Safe
  shows : d.vga = VgaRegs.cleared ∨ (d.vga.hCounter.toNat < 800 ∧ d.vga.vCounter.toNat < 525 ∧
    d.vga = VgaRegs.at d.vga.hCounter d.vga.vCounter)
  start : d.vga = VgaRegs.cleared → d.board.actors = Actors.center
  pending : ∃ m, d.board.Synced m ∧ (d.vga.vgaVs = true → m = false →
    d.vgaClk = true ∧ (d.board.actors = Actors.center ∨ d.vga.vCounter = 492))
  halted : d.board.actors.Halted ∨ d.vga.vCounter = 492

/-- A scan that shows a pixel is not cleared: at the origin its horizontal sync is high. -/
theorem VgaRegs.at_ne_cleared (h v : BitVec 10) : VgaRegs.at h v ≠ VgaRegs.cleared := by
  intro he
  have hh : h = 0 := congrArg VgaRegs.hCounter he
  have hs : hsOf h = false := congrArg VgaRegs.vgaHs he
  rw [hh] at hs
  exact absurd hs (by decide)

/-- A tick with Reset high leaves a steady design, whatever the scan does. -/
theorem Design.Steady.reset {T : Tables} {i : DesignIn} {d : Design} (hr : i.reset = true)
    (hshow : d.vga = VgaRegs.cleared ∨ (d.vga.hCounter.toNat < 800 ∧ d.vga.vCounter.toNat < 525 ∧
      d.vga = VgaRegs.at d.vga.hCounter d.vga.vCounter)) :
    (d.clk T i).Steady := by
  have hcenter : (d.clk T i).board.actors = Actors.center := d.board.clk_actors_reset T hr
  have hvga : d.vgaClk = false → (d.clk T i).vga = VgaRegs.cleared :=
    fun h => Design.clk_cleared T hr (Or.inl h)
  have hkeep : d.vgaClk = true → (d.clk T i).vga = d.vga := by
    intro h
    show (if d.vgaClk then d.vga else d.vga.clk i.reset) = d.vga
    rw [h, if_pos rfl]
  refine ⟨Board.Safe.reset T d.board hr, ?_, fun _ => hcenter,
    ⟨d.vga.vgaVs, d.clk_synced T i, ?_⟩, Or.inl ?_⟩
  · cases hclk : d.vgaClk with
    | false => exact Or.inl (hvga hclk)
    | true =>
      rw [hkeep hclk]
      exact hshow
  · -- Reset can only lower the sync, so it cannot rise here
    intro hup hlow
    cases hclk : d.vgaClk with
    | false =>
      rw [hvga hclk] at hup
      exact absurd hup Bool.false_ne_true
    | true =>
      rw [hkeep hclk, hlow] at hup
      exact absurd hup Bool.false_ne_true
  · rw [hcenter]
    exact Actors.Halted.of_no_collision Actors.center_no_collision

/-- Where the sync of a running scan rises: out of the cleared state, or into row 492. -/
theorem VgaRegs.clk_rises {v : VgaRegs} (hshow : v = VgaRegs.cleared ∨
      (v.hCounter.toNat < 800 ∧ v.vCounter.toNat < 525 ∧ v = VgaRegs.at v.hCounter v.vCounter))
    (hlow : v.vgaVs = false) (hup : (v.clk false).vgaVs = true) :
    v = VgaRegs.cleared ∨ (v.clk false).vCounter = 492 := by
  rcases hshow with h | ⟨hh, hv, hat⟩
  · exact Or.inl h
  · have hrow : vsOf v.vCounter = false := by rw [hat] at hlow; exact hlow
    have hrow' : ¬ vsOf v.vCounterIn = false := by
      intro h
      have : vsOf v.vCounterIn = true := hup
      rw [h] at this
      exact absurd this Bool.false_ne_true
    rw [vsOf_iff] at hrow hrow'
    rw [vCounterIn_toNat hh hv] at hrow'
    refine Or.inr (BitVec.eq_of_toNat_eq ?_)
    show v.vCounterIn.toNat = 492
    rw [vCounterIn_toNat hh hv]
    revert hrow'
    unfold Raster.nextRow
    split
    · split
      · omega
      · omega
    · omega

/-- A running scan shows a pixel after every tick. -/
theorem VgaRegs.clk_shows {v : VgaRegs} (hh : v.hCounter.toNat < 800)
    (hv : v.vCounter.toNat < 525) :
    (v.clk false).hCounter.toNat < 800 ∧ (v.clk false).vCounter.toNat < 525 ∧
      v.clk false = VgaRegs.at (v.clk false).hCounter (v.clk false).vCounter := by
  refine ⟨?_, ?_, rfl⟩
  · show v.hCounterIn.toNat < 800
    rw [hCounterIn_toNat hh]
    unfold Raster.nextCol
    split <;> omega
  · show v.vCounterIn.toNat < 525
    rw [vCounterIn_toNat hh hv]
    unfold Raster.nextRow
    split
    · split <;> omega
    · omega

/-- The counters of a steady design are in range. -/
theorem Design.Steady.counters_lt {d : Design} (h : d.Steady) :
    d.vga.hCounter.toNat < 800 ∧ d.vga.vCounter.toNat < 525 := by
  rcases h.shows with hc | ⟨hh, hv, _⟩
  · rw [hc]; exact ⟨by decide, by decide⟩
  · exact ⟨hh, hv⟩

/-- A tick with Reset low keeps a design steady. -/
theorem Design.Steady.step {T : Tables} {i : DesignIn} {d : Design} (h : d.Steady)
    (hr : i.reset = false) : (d.clk T i).Steady := by
  obtain ⟨m, hs, hpend⟩ := h.pending
  have hlt := h.counters_lt
  have hvga : (d.clk T i).vga = if d.vgaClk then d.vga else d.vga.clk false := by
    rw [← hr]; rfl
  -- while the scan is cleared the sync is low, so the actors stay where they are
  have hstay : d.vga = VgaRegs.cleared → (d.clk T i).board.actors = Actors.center := by
    intro hc
    have hcenter := h.start hc
    have hvs : d.vga.vgaVs = false := by rw [hc]; rfl
    show (d.board.clk T (d.clkIn i)).actors = Actors.center
    rw [d.board.clk_actors T hr (by rw [hcenter]; exact Actors.center_no_collision) hs]
    show (if d.vga.vgaVs && !m then _ else _) = _
    rw [hvs, Bool.false_and, if_neg Bool.false_ne_true, hcenter]
  refine ⟨h.safe.clk T _, ?_, ?_, ⟨d.vga.vgaVs, d.clk_synced T i, ?_⟩, ?_⟩
  · rw [hvga]
    cases d.vgaClk with
    | true => exact h.shows
    | false => exact Or.inr (VgaRegs.clk_shows hlt.1 hlt.2)
  · intro hc
    rw [hvga] at hc
    cases hclk : d.vgaClk with
    | true => rw [hclk, if_pos rfl] at hc; exact hstay hc
    | false =>
      rw [hclk, if_neg Bool.false_ne_true] at hc
      exact absurd hc (VgaRegs.at_ne_cleared _ _)
  · intro hup hlow
    rw [hvga] at hup ⊢
    cases hclk : d.vgaClk with
    | true =>
      rw [hclk, if_pos rfl, hlow] at hup
      exact absurd hup Bool.false_ne_true
    | false =>
      rw [hclk, if_neg Bool.false_ne_true] at hup
      refine ⟨by show (!d.vgaClk) = true; rw [hclk]; rfl, ?_⟩
      rcases VgaRegs.clk_rises h.shows hlow hup with hc | h492
      · exact Or.inl (hstay hc)
      · exact Or.inr h492
  · cases he : (d.vga.vgaVs && !m) with
    | false => exact Or.inl (Board.clk_halted T hr hs he)
    | true =>
      rw [Bool.and_eq_true, Bool.not_eq_true'] at he
      obtain ⟨hclk, hcenter | h492⟩ := hpend he.1 he.2
      · exact Or.inl (Actors.Halted.of_no_collision (h.safe.clk_no_collision hr hcenter))
      · rw [hvga, hclk]
        exact Or.inr h492

/-- **Every run after a release is steady**, later Resets included. -/
theorem Design.steady_run {T : Tables} {d : Design} (hd : d.Released T) (ins : Nat → DesignIn)
    (n : Nat) : (Clocked.run (Design.clk T) ins d n).Steady := by
  refine Clocked.run_inv ?_ ?_ n
  · obtain ⟨b, i, hi, hb⟩ := hd.board
    have hcenter : d.board.actors = Actors.center := by rw [hb]; exact b.clk_actors_reset T hi
    refine ⟨by rw [hb]; exact Board.Safe.reset T b hi, Or.inl hd.vga, fun _ => hcenter,
      ⟨i.frameClk, by rw [hb]; exact b.clk_synced T i, ?_⟩, Or.inl ?_⟩
    · intro hup
      rw [hd.vga] at hup
      exact absurd hup Bool.false_ne_true
    · rw [hcenter]
      exact Actors.Halted.of_no_collision Actors.center_no_collision
  · intro n h
    cases hr : (ins n).reset with
    | true => exact Design.Steady.reset hr h.shows
    | false => exact h.step hr

/-- **No tearing.**  In a steady design a tick with Reset low changes no position register while the
    scan is in a visible row. -/
theorem Design.Steady.positions {T : Tables} {i : DesignIn} {d : Design} (h : d.Steady)
    (hr : i.reset = false) (hrow : d.vga.vCounter.toNat < 480) :
    (d.clk T i).board.actors.positions = d.board.actors.positions := by
  have hne : d.vga.vCounter ≠ 492 := by
    intro he
    rw [he] at hrow
    exact absurd hrow (by decide)
  obtain ⟨m, hs, hpend⟩ := h.pending
  cases he : (d.vga.vgaVs && !m) with
  | false =>
    exact Board.clk_positions_idle T hr hs he (h.halted.resolve_right hne)
  | true =>
    rw [Bool.and_eq_true, Bool.not_eq_true'] at he
    exact Board.clk_positions_center T hr hs ((hpend he.1 he.2).2.resolve_right hne)

/-! ## Frame timing -/

/-- After the first pulse there is one pulse in every 840000 Clks. -/
theorem framePulse_once (level : Bool) {a : Nat} (ha : 4 ≤ a) :
    ∃ n, (a ≤ n ∧ n < a + 840000 ∧ framePulse level n) ∧
      ∀ m, a ≤ m → m < a + 840000 → framePulse level m → m = n := by
  obtain ⟨p, ⟨h1, h2, h3⟩, huniq⟩ := Raster.existsUnique_mod (p := 840000) (r := 787200)
    (by decide) (Raster.phase level a)
  unfold framePulse
  unfold Raster.phase at *
  refine ⟨p - (if level then 0 else 1), ⟨by omega, by omega, Or.inr ?_⟩, ?_⟩
  · rw [Nat.sub_add_cancel (by omega)]
    exact h3
  · intro m hm1 hm2 hm
    have := huniq (m + if level then 0 else 1) (by omega) (by omega) (by omega)
    omega

/-- There is one pulse right after Reset. -/
theorem framePulse_first (level : Bool) :
    ∃ n, (n < 4 ∧ framePulse level n) ∧ ∀ m, m < 4 → framePulse level m → m = n := by
  unfold framePulse Raster.phase
  cases level with
  | true => exact ⟨2, ⟨by decide, by decide⟩, fun m hm h => by simp at h; omega⟩
  | false => exact ⟨1, ⟨by decide, by decide⟩, fun m hm h => by simp at h; omega⟩

/-- **Frame timing and absence of tearing.**  After Reset was held over an edge of `VGA_CLK`, which
    rises at every second Clk:
    (1) after `k` ticks of `VGA_CLK` the scan shows pixel `(k % 800, k / 800 % 525)`;
    (2) from the first tick on its sync signals are those of that pixel;
    (3) any 420000 consecutive ticks show each visible pixel exactly once;
    (4) in a run with Reset low the design shows that scan, and the four actor modules see their
        edges in the same Clks: one right after Reset, then one in every frame of 840000 Clks;
    (5) in EVERY run, whatever Resets come later, no position register of an actor changes at a Clk
        with Reset low while the scan is above row 480. -/
theorem frame_timing (T : Tables) (d : Design) (hd : d.Released T) :
    (∀ k, (scan k).hCounter.toNat = k % 800 ∧ (scan k).vCounter.toNat = k / 800 % 525) ∧
    (∀ k, 1 ≤ k →
      ((scan k).vgaHs = false ↔
        656 ≤ (scan k).hCounter.toNat ∧ (scan k).hCounter.toNat < 752) ∧
      ((scan k).vgaVs = false ↔
        490 ≤ (scan k).vCounter.toNat ∧ (scan k).vCounter.toNat < 492) ∧
      ((scan k).vgaBlankN = true ↔
        (scan k).hCounter.toNat < 640 ∧ (scan k).vCounter.toNat < 480)) ∧
    (∀ a x y, x < 640 → y < 480 →
      ∃ k, (a ≤ k ∧ k < a + 420000 ∧
          (scan k).hCounter.toNat = x ∧ (scan k).vCounter.toNat = y) ∧
        ∀ j, a ≤ j → j < a + 420000 →
          (scan j).hCounter.toNat = x → (scan j).vCounter.toNat = y → j = k) ∧
    (∀ ins : Nat → DesignIn, (∀ n, (ins n).reset = false) →
      ∀ n, (Clocked.run (Design.clk T) ins d n).vga = scan (Raster.half d.vgaClk n) ∧
        (Clocked.run (Design.clk T) ins d n).board.edges
            (Clocked.run (Design.clk T) ins d n).vga.vgaVs =
          (decide (framePulse d.vgaClk n), decide (framePulse d.vgaClk n),
            decide (framePulse d.vgaClk n), decide (framePulse d.vgaClk n))) ∧
    (∃ n, (n < 4 ∧ framePulse d.vgaClk n) ∧ ∀ m, m < 4 → framePulse d.vgaClk m → m = n) ∧
    (∀ a, 4 ≤ a → ∃ n, (a ≤ n ∧ n < a + 840000 ∧ framePulse d.vgaClk n) ∧
      ∀ m, a ≤ m → m < a + 840000 → framePulse d.vgaClk m → m = n) ∧
    (∀ (ins : Nat → DesignIn) (n : Nat), (ins n).reset = false →
      (Clocked.run (Design.clk T) ins d n).vga.vCounter.toNat < 480 →
      (Clocked.run (Design.clk T) ins d (n + 1)).board.actors.positions =
        (Clocked.run (Design.clk T) ins d n).board.actors.positions) := by
  refine ⟨scan_counters, ?_, ?_, ?_, framePulse_first _, fun a ha => framePulse_once _ ha, ?_⟩
  · intro k hk
    rw [scan_at hk]
    exact ⟨hsOf_iff _, vsOf_iff _, blankNOf_iff _ _⟩
  · intro a x y hx hy
    obtain ⟨k, ⟨h1, h2, h3, h4⟩, huniq⟩ :=
      Raster.existsUnique_visit (w := 800) (h := 525) (c := x) (r := y) (by omega) (by omega) a
    refine ⟨k, ⟨h1, h2, ?_, ?_⟩, ?_⟩
    · rw [(scan_counters k).1, h3]
    · rw [(scan_counters k).2, h4]
    · intro j hj1 hj2 hjx hjy
      rw [(scan_counters j).1] at hjx
      rw [(scan_counters j).2] at hjy
      exact huniq j hj1 hj2 hjx hjy
  · intro ins hins n
    exact ⟨Design.vga_run T hd.vga hins n, Design.edges_run hd hins n⟩
  · intro ins n hr hrow
    rw [Clocked.run_succ]
    exact (Design.steady_run hd ins n).positions hr hrow

/-- The first Clk after power-up. -/
theorem frame_timing_start :
    (Clocked.run (Design.clk .shipped) (fun _ => ⟨false, 0x1A⟩) (.start .shipped) 1).board.actors.positions =
      (Design.start .shipped).board.actors.positions :=
  (frame_timing .shipped (.start .shipped) (Design.start_released .shipped)).2.2.2.2.2.2
    (fun _ => ⟨false, 0x1A⟩) 0 rfl (by decide)

end Lab8
