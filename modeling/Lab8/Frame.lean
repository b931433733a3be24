/-
  The clock-level board against a frame-level game.

  A player sees a game that moves once per frame: every actor takes the step its motion says,
  sensors and collision flags are read at the new place, and the next motion is chosen.
  `Actors.frameStep` is that game.  The board gets there by a detour: four edge detectors, four
  register files, exported positions that run one motion ahead of the registers, and a branch in
  each ghost that fires on EVERY tick while another ghost's flag is up.

  1. **Freeze** (`Board.clk_frozen`) — with a flag up and Reset low a tick changes no exported
     position, whatever the registers do: a halted piece has already spent the motion it loses.
  2. **Refinement** (`frame_refinement`) — the relation `Tracks` ties a board to a frame state:
     outputs agree always, the pieces themselves agree as long as no flag is up.  Edges simulate
     one frame step, other ticks none.
-/
import Lab8.Design
import Lab8.Maze
import Lab8.Lib.Clocked

namespace Lab8

/-! ## Outputs -/

/-- The four exported positions and the three collision flags. -/
structure Outputs where
  ball : BitVec 10 × BitVec 10
  red : BitVec 10 × BitVec 10
  green : BitVec 10 × BitVec 10
  blue : BitVec 10 × BitVec 10
  isCollisionRed : Bool
  isCollisionGreen : Bool
  isCollisionBlue : Bool
  deriving DecidableEq, Repr

/-- What the actor modules drive. -/
def Actors.outputs (a : Actors) : Outputs where
  ball := a.pacMan.posOut
  red := a.redEvil.posOut
  green := a.greenEvil.posOut
  blue := a.blueEvil.posOut
  isCollisionRed := a.isCollisionRed
  isCollisionGreen := a.isCollisionGreen
  isCollisionBlue := a.isCollisionBlue

/-- The flags are functions of the positions, so equal positions give equal outputs. -/
theorem Actors.outputs_ext {a a' : Actors} (hp : a.pacMan.posOut = a'.pacMan.posOut)
    (hr : a.redEvil.posOut = a'.redEvil.posOut) (hg : a.greenEvil.posOut = a'.greenEvil.posOut)
    (hb : a.blueEvil.posOut = a'.blueEvil.posOut) : a.outputs = a'.outputs := by
  simp only [Actors.outputs, Actors.isCollisionRed, Actors.isCollisionGreen,
    Actors.isCollisionBlue, hp, hr, hg, hb]

/-- Whether a flag is up is read off the outputs. -/
theorem Actors.collision_eq (a : Actors) : a.collision =
    (a.outputs.isCollisionRed || a.outputs.isCollisionBlue || a.outputs.isCollisionGreen) := rfl

theorem Actors.collision_congr {a a' : Actors} (h : a.outputs = a'.outputs) :
    a.collision = a'.collision := by rw [a.collision_eq, a'.collision_eq, h]

/-! ## Freeze -/

/-- A ghost that is stopped, or whose next motion is zero, keeps its exported position. -/
theorem Mover.ghostClk_still {δ : Type} (center : BitVec 10 × BitVec 10) (d₀ : δ)
    (stop frameClk : Bool) (next : Heading δ) (m : Mover δ)
    (h : stop = false → ∃ d, next = ⟨0, 0, d⟩) :
    (m.ghostClk center d₀ false stop frameClk next).posOut = m.posOut := by
  rcases m.ghostClk_cases center d₀ stop frameClk next with ⟨_, hp⟩ | ⟨hs, _, hp⟩ | ⟨_, _, hp⟩
  · rw [hp, Piece.advance_stop]
  · obtain ⟨d, hd⟩ := h hs
    rw [hp, hd, Piece.advance_stop]
  · rw [hp]

/-- **Freeze.**  With a collision flag up and Reset low a tick changes no output. -/
theorem Board.clk_frozen (T : Tables) {i : ClkIn} {b : Board} (hr : i.reset = false)
    (hc : b.actors.collision = true) : (b.clk T i).actors.outputs = b.actors.outputs := by
  have hflags : b.actors.isCollisionRed = true ∨ b.actors.isCollisionBlue = true ∨
      b.actors.isCollisionGreen = true := by
    simpa [Actors.collision, or_assoc] using hc
  refine Actors.outputs_ext ?_ ?_ ?_ ?_
  · show (b.pacMan.pacManClk _ _ i.reset _ _).posOut = b.pacMan.posOut
    rw [Mover.pacManClk_eq, hr]
    refine Mover.ghostClk_still _ _ _ _ _ _ (fun _ => ⟨0b111, ?_⟩)
    rw [Actors.pacManIn, pacManHeading, hc, if_pos rfl]
  · show (b.redEvil.ghostClk _ _ i.reset _ _ _).posOut = b.redEvil.posOut
    rw [hr]
    refine Mover.ghostClk_still _ _ _ _ _ _ (fun hstop => ⟨b.redEvil.currentDirection, ?_⟩)
    -- the others' flags are down, so the flag that is up is Red's own
    have hown : b.actors.isCollisionRed = true := by
      rw [Bool.or_eq_false_iff] at hstop
      rcases hflags with h | h | h
      · exact h
      · rw [hstop.2] at h; exact absurd h Bool.false_ne_true
      · rw [hstop.1] at h; exact absurd h Bool.false_ne_true
    rw [Actors.redEvilIn, redEvilHeading, hown, if_pos rfl]
    rfl
  · show (b.greenEvil.ghostClk _ _ i.reset _ _ _).posOut = b.greenEvil.posOut
    rw [hr]
    refine Mover.ghostClk_still _ _ _ _ _ _ (fun hstop => ⟨b.greenEvil.currentDirection, ?_⟩)
    have hown : b.actors.isCollisionGreen = true := by
      rw [Bool.or_eq_false_iff] at hstop
      rcases hflags with h | h | h
      · rw [hstop.2] at h; exact absurd h Bool.false_ne_true
      · rw [hstop.1] at h; exact absurd h Bool.false_ne_true
      · exact h
    rw [Actors.greenEvilIn, greenEvilHeading, hown, if_pos rfl]
    rfl
  · show (b.blueEvil.ghostClk _ _ i.reset _ _ _).posOut = b.blueEvil.posOut
    rw [hr]
    refine Mover.ghostClk_still _ _ _ _ _ _ (fun hstop => ⟨(), ?_⟩)
    have hown : b.actors.isCollisionBlue = true := by
      rw [Bool.or_eq_false_iff] at hstop
      rcases hflags with h | h | h
      · rw [hstop.2] at h; exact absurd h Bool.false_ne_true
      · exact h
      · rw [hstop.1] at h; exact absurd h Bool.false_ne_true
    rw [Actors.blueEvilIn, blueEvilHeading, hown, if_pos rfl]

/-! ## The frame-level game -/

/-- `h`, with the motion set to zero when a collision flag is up. -/
def Actors.orHalt {δ : Type} (a : Actors) (h : Heading δ) : Heading δ :=
  if a.collision then ⟨0, 0, h.currentDirection⟩ else h

/-- **One frame.**  Every actor moves to its look-ahead position; sensors and flags are those of
    the look-ahead positions; the next motion and direction come from the modules' combinational
    logic and the key, with all motions zero when a flag is up. -/
def Actors.frameStep (wall : Int → Int → Bool) (key : BitVec 8) (a : Actors) : Actors where
  pacMan := a.pacMan.advance (a.orHalt (a.pacManIn wall key))
  redEvil := a.redEvil.advance (a.orHalt (a.redEvilIn wall))
  greenEvil := a.greenEvil.advance (a.orHalt (a.greenEvilIn wall))
  blueEvil := a.blueEvil.advance (a.orHalt (a.blueEvilIn wall))

/-- The game after one frame per key of the list, from the positions Reset loads. -/
def frameRun (T : Tables) (keys : List (BitVec 8)) : Actors :=
  Clocked.runList (Actors.frameStep (mazeWall T)) Actors.center keys

/-- A frame with a flag up changes no output. -/
theorem Actors.frameStep_frozen (wall : Int → Int → Bool) (key : BitVec 8) {a : Actors}
    (hc : a.collision = true) : (a.frameStep wall key).outputs = a.outputs := by
  have halt : ∀ {δ : Type} (p : Piece δ) (h : Heading δ), (p.advance (a.orHalt h)).posOut = p.posOut := by
    intro δ p h
    rw [Actors.orHalt, hc, if_pos rfl, Piece.advance_stop]
  exact Actors.outputs_ext (halt _ _) (halt _ _) (halt _ _) (halt _ _)

/-! ## What a tick does to the actors -/

/-- The four edge detectors hold the same sample. -/
structure Board.Synced (before : Bool) (b : Board) : Prop where
  pacMan : b.pacMan.frameClkDelayed = before
  redEvil : b.redEvil.frameClkDelayed = before
  greenEvil : b.greenEvil.frameClkDelayed = before
  blueEvil : b.blueEvil.frameClkDelayed = before

/-- One tick synchronises the detectors, Reset or not. -/
theorem Board.clk_synced (T : Tables) (i : ClkIn) (b : Board) :
    (b.clk T i).Synced i.frameClk := ⟨rfl, rfl, rfl, rfl⟩

/-- The four `frame_clk_rising_edge` wires. -/
def Board.edges (frameClk : Bool) (b : Board) : Bool × Bool × Bool × Bool :=
  (b.pacMan.frameClkRisingEdge frameClk, b.redEvil.frameClkRisingEdge frameClk,
    b.greenEvil.frameClkRisingEdge frameClk, b.blueEvil.frameClkRisingEdge frameClk)

theorem Board.Synced.edges {before : Bool} {b : Board} (h : b.Synced before) (frameClk : Bool) :
    b.edges frameClk = (frameClk && !before, frameClk && !before, frameClk && !before,
      frameClk && !before) := by
  simp only [Board.edges, Mover.frameClkRisingEdge, h.pacMan, h.redEvil, h.greenEvil, h.blueEvil]

/-- A tick with Reset high loads the starting positions. -/
theorem Board.clk_actors_reset (T : Tables) {i : ClkIn} (b : Board) (hr : i.reset = true) :
    (b.clk T i).actors = Actors.center := by
  simp [Board.actors, Board.clk, hr, Mover.pacManClk_eq, Actors.center]

/-- A tick with Reset low and no flag up: a frame step at an edge, nothing otherwise. -/
theorem Board.clk_actors (T : Tables) {i : ClkIn} {b : Board} {before : Bool}
    (hr : i.reset = false) (hc : b.actors.collision = false) (hs : b.Synced before) :
    (b.clk T i).actors =
      if i.frameClk && !before then b.actors.frameStep (b.wallRead T) i.key else b.actors := by
  have hflags : (b.actors.isCollisionRed = false ∧ b.actors.isCollisionBlue = false) ∧
      b.actors.isCollisionGreen = false := by
    simpa [Actors.collision] using hc
  obtain ⟨⟨hred, hblue⟩, hgreen⟩ := hflags
  have tick : ∀ {δ : Type} (c : BitVec 10 × BitVec 10) (d₀ : δ) (next : Heading δ) (m : Mover δ),
      m.frameClkDelayed = before → (m.ghostClk c d₀ false false i.frameClk next).toPiece =
        if i.frameClk && !before then m.toPiece.advance next else m.toPiece := by
    intro δ c d₀ next m hm
    simp [Mover.ghostClk, Mover.frameClkRisingEdge, hm]
  have hnext : ∀ {δ : Type} (h : Heading δ), b.actors.orHalt h = h := by
    intro δ h
    rw [Actors.orHalt, hc, if_neg Bool.false_ne_true]
  have hp := tick pacManCenter 0b111 (b.actors.pacManIn (b.wallRead T) i.key) b.pacMan hs.pacMan
  have hR := tick redEvilCenter 0b111 (b.actors.redEvilIn (b.wallRead T)) b.redEvil hs.redEvil
  have hG := tick greenEvilCenter 0b111 (b.actors.greenEvilIn (b.wallRead T)) b.greenEvil
    hs.greenEvil
  have hB := tick blueEvilCenter () (b.actors.blueEvilIn (b.wallRead T)) b.blueEvil hs.blueEvil
  have heq : (b.clk T i).actors =
      ⟨(b.pacMan.ghostClk pacManCenter 0b111 false false i.frameClk
          (b.actors.pacManIn (b.wallRead T) i.key)).toPiece,
        (b.redEvil.ghostClk redEvilCenter 0b111 false false i.frameClk
          (b.actors.redEvilIn (b.wallRead T))).toPiece,
        (b.greenEvil.ghostClk greenEvilCenter 0b111 false false i.frameClk
          (b.actors.greenEvilIn (b.wallRead T))).toPiece,
        (b.blueEvil.ghostClk blueEvilCenter () false false i.frameClk
          (b.actors.blueEvilIn (b.wallRead T))).toPiece⟩ := by
    simp only [Board.clk, Board.actors, hr, Mover.pacManClk_eq]
    simp only [Board.actors] at hred hgreen hblue
    simp only [hred, hgreen, hblue, Bool.or_self]
  rw [heq, hp, hR, hG, hB]
  split
  · simp only [Actors.frameStep, hnext]
    rfl
  · rfl

/-! ## Refinement -/

/-- `frame_clk_rising_edge` at tick `n`, when the detectors hold `before` at tick `0`. -/
def frameEdge (before : Bool) (ins : Nat → ClkIn) : Nat → Bool :=
  Clocked.rises before (fun n => (ins n).frameClk)

/-- The keys sampled at the frame edges before tick `n`. -/
def frameKeys (before : Bool) (ins : Nat → ClkIn) : Nat → List (BitVec 8) :=
  Clocked.sampled (frameEdge before ins) (fun n => (ins n).key)

/-- Where `frame_clk` is high at every second tick, these ticks are the edges. -/
theorem frameEdge_alternating {ins : Nat → ClkIn} (h : ∀ n, (ins n).frameClk = (n % 2 == 0))
    (n : Nat) : frameEdge false ins n = (n % 2 == 0) := by
  cases n with
  | zero => show ((ins 0).frameClk && !false) = _; rw [h 0]; rfl
  | succ n =>
    show ((ins (n + 1)).frameClk && !(ins n).frameClk) = _
    rw [h (n + 1), h n]
    rcases Nat.mod_two_eq_zero_or_one n with h | h
    · rw [Nat.add_mod, h]; rfl
    · rw [Nat.add_mod, h]; rfl

/-- So the keys sampled are those of every second tick. -/
theorem frameKeys_alternating {ins : Nat → ClkIn} (h : ∀ n, (ins n).frameClk = (n % 2 == 0))
    (n : Nat) : frameKeys false ins n =
      (List.range ((n + 1) / 2)).map fun j => (ins (2 * j)).key := by
  induction n with
  | zero => rfl
  | succ n ih =>
    show (if frameEdge false ins n then frameKeys false ins n ++ [(ins n).key]
      else frameKeys false ins n) = _
    rw [frameEdge_alternating h, ih]
    split
    · rename_i heven
      have h0 := beq_iff_eq.mp heven
      have hhalf : 2 * ((n + 1) / 2) = n := by omega
      rw [show (n + 1 + 1) / 2 = (n + 1) / 2 + 1 by omega, List.range_succ, List.map_append,
        List.map_singleton, hhalf]
    · rename_i hodd
      have h0 : ¬ n % 2 = 0 := fun h' => hodd (beq_iff_eq.mpr h')
      rw [show (n + 1 + 1) / 2 = (n + 1) / 2 by omega]

/-- **The simulation relation**: the maze is loaded, the detectors agree, the outputs agree, and
    until a flag is up the pieces agree too.  After that they need not: the ghosts halt on the next
    tick, the frame game at its next frame. -/
structure Tracks (before : Bool) (b : Board) (a : Actors) : Prop where
  wall : b.wall = mazeTable
  synced : b.Synced before
  outputs : b.actors.outputs = a.outputs
  actors : a.collision = false → b.actors = a

/-- The state Reset leaves tracks the starting positions. -/
theorem Tracks.start (T : Tables) {i : ClkIn} (b : Board) (hr : i.reset = true) :
    Tracks i.frameClk (b.clk T i) Actors.center where
  wall := rfl
  synced := b.clk_synced T i
  outputs := by rw [b.clk_actors_reset T hr]
  actors := fun _ => b.clk_actors_reset T hr

/-- A tick at a frame edge simulates one frame. -/
theorem Tracks.edge {T : Tables} {i : ClkIn} {b : Board} {a : Actors} {before : Bool}
    (h : Tracks before b a) (hr : i.reset = false) (he : (i.frameClk && !before) = true) :
    Tracks i.frameClk (b.clk T i) (a.frameStep (mazeWall T) i.key) := by
  have hcc : b.actors.collision = a.collision := Actors.collision_congr h.outputs
  cases hc : a.collision with
  | true =>
    have hb : b.actors.collision = true := by rw [hcc, hc]
    have hout : (b.clk T i).actors.outputs = (a.frameStep (mazeWall T) i.key).outputs := by
      rw [b.clk_frozen T hr hb, h.outputs, a.frameStep_frozen _ _ hc]
    refine ⟨rfl, b.clk_synced T i, hout, ?_⟩
    intro hn
    rw [Actors.collision_congr (a.frameStep_frozen _ _ hc), hc] at hn
    exact absurd hn.symm Bool.false_ne_true
  | false =>
    have hw : b.wallRead T = mazeWall T := by rw [Board.wallRead, h.wall, mazeWall]
    have hact : (b.clk T i).actors = a.frameStep (mazeWall T) i.key := by
      rw [b.clk_actors T hr (by rw [hcc, hc]) h.synced, if_pos he, hw, h.actors hc]
    exact ⟨rfl, b.clk_synced T i, by rw [hact], fun _ => hact⟩

/-- Any other tick simulates nothing. -/
theorem Tracks.idle {T : Tables} {i : ClkIn} {b : Board} {a : Actors} {before : Bool}
    (h : Tracks before b a) (hr : i.reset = false) (he : (i.frameClk && !before) = false) :
    Tracks i.frameClk (b.clk T i) a := by
  have hcc : b.actors.collision = a.collision := Actors.collision_congr h.outputs
  cases hc : a.collision with
  | true =>
    have hout : (b.clk T i).actors.outputs = a.outputs := by
      rw [b.clk_frozen T hr (by rw [hcc, hc]), h.outputs]
    refine ⟨rfl, b.clk_synced T i, hout, ?_⟩
    intro hn
    rw [hc] at hn
    exact absurd hn.symm Bool.false_ne_true
  | false =>
    have hact : (b.clk T i).actors = a := by
      rw [b.clk_actors T hr (by rw [hcc, hc]) h.synced, if_neg (by rw [he]; exact Bool.false_ne_true),
        h.actors hc]
    exact ⟨rfl, b.clk_synced T i, by rw [hact], fun _ => hact⟩

/-- Every run after Reset tracks the frame game over the keys sampled so far. -/
theorem tracks_run (T : Tables) (b : Board) {i : ClkIn} (hi : i.reset = true) {ins : Nat → ClkIn}
    (hins : ∀ n, (ins n).reset = false) (n : Nat) :
    Tracks (Clocked.delayed i.frameClk (fun k => (ins k).frameClk) n)
      (Clocked.run (Board.clk T) ins (b.clk T i) n)
      (frameRun T (frameKeys i.frameClk ins n)) := by
  refine Clocked.run_sampled (R := fun n b a =>
    Tracks (Clocked.delayed i.frameClk (fun k => (ins k).frameClk) n) b a) ?_ ?_ ?_ n
  · exact Tracks.start T b hi
  · intro n b a he h
    exact h.edge (hins n) he
  · intro n b a he h
    exact h.idle (hins n) he

/-- Outputs of a run after Reset, in closed form. -/
theorem outputs_run (T : Tables) (b : Board) {i : ClkIn} (hi : i.reset = true) {ins : Nat → ClkIn}
    (hins : ∀ n, (ins n).reset = false) (n : Nat) :
    (Clocked.run (Board.clk T) ins (b.clk T i) n).actors.outputs =
      (frameRun T (frameKeys i.frameClk ins n)).outputs :=
  (tracks_run T b hi hins n).outputs

/-- Between two frame edges the outputs are constant. -/
theorem outputs_between (T : Tables) (b : Board) {i : ClkIn} (hi : i.reset = true)
    {ins : Nat → ClkIn} (hins : ∀ n, (ins n).reset = false) {m n : Nat} (hmn : m ≤ n)
    (hno : ∀ k, m ≤ k → k < n → frameEdge i.frameClk ins k = false) :
    (Clocked.run (Board.clk T) ins (b.clk T i) n).actors.outputs =
      (Clocked.run (Board.clk T) ins (b.clk T i) m).actors.outputs := by
  refine Clocked.const_between (f := fun k =>
    (Clocked.run (Board.clk T) ins (b.clk T i) k).actors.outputs) hmn ?_
  intro k hmk hkn
  show (Clocked.run (Board.clk T) ins (b.clk T i) (k + 1)).actors.outputs = _
  rw [outputs_run T b hi hins, outputs_run T b hi hins, frameKeys, Clocked.sampled,
    if_neg (by rw [hno k hmk hkn]; exact Bool.false_ne_true)]

/-- **The board refines the frame game.**  In every run after Reset, for every key waveform and
    every `frame_clk` waveform:
    (1) the exported positions and collision flags at tick `n` are those of the frame game after
        one frame per edge before `n`, on the keys sampled at those edges;
    (2) the four modules see the edges of the waveform, all in the same ticks;
    (3) between two edges the outputs are constant;
    (4) a second run with the same `frame_clk` and the same keys AT THE EDGES has the same
        outputs at every tick, whatever its keys and its scan do in between. -/
theorem frame_refinement (T : Tables) (b : Board) (i : ClkIn) (hi : i.reset = true)
    (ins : Nat → ClkIn) (hins : ∀ n, (ins n).reset = false) :
    (∀ n, (Clocked.run (Board.clk T) ins (b.clk T i) n).actors.outputs =
      (frameRun T (frameKeys i.frameClk ins n)).outputs) ∧
    (∀ n, (Clocked.run (Board.clk T) ins (b.clk T i) n).edges (ins n).frameClk =
      (frameEdge i.frameClk ins n, frameEdge i.frameClk ins n, frameEdge i.frameClk ins n,
        frameEdge i.frameClk ins n)) ∧
    (∀ m n, m ≤ n → (∀ k, m ≤ k → k < n → frameEdge i.frameClk ins k = false) →
      (Clocked.run (Board.clk T) ins (b.clk T i) n).actors.outputs =
        (Clocked.run (Board.clk T) ins (b.clk T i) m).actors.outputs) ∧
    (∀ (b' : Board) (i' : ClkIn) (ins' : Nat → ClkIn), i'.reset = true →
      (∀ n, (ins' n).reset = false) → i'.frameClk = i.frameClk →
      (∀ n, (ins' n).frameClk = (ins n).frameClk) →
      (∀ n, frameEdge i.frameClk ins n = true → (ins' n).key = (ins n).key) →
      ∀ n, (Clocked.run (Board.clk T) ins' (b'.clk T i') n).actors.outputs =
        (Clocked.run (Board.clk T) ins (b.clk T i) n).actors.outputs) := by
  refine ⟨outputs_run T b hi hins, ?_, ?_, ?_⟩
  · intro n
    exact (tracks_run T b hi hins n).synced.edges _
  · intro m n hmn hno
    exact outputs_between T b hi hins hmn hno
  · intro b' i' ins' hi' hins' hstart hclk hkeys n
    have hedge : frameEdge i'.frameClk ins' = frameEdge i.frameClk ins := by
      simp only [frameEdge, hstart, hclk]
    have hsame : frameKeys i'.frameClk ins' n = frameKeys i.frameClk ins n := by
      rw [frameKeys, frameKeys, hedge]
      exact Clocked.sampled_congr hkeys n
    rw [outputs_run T b' hi' hins', outputs_run T b hi hins, hsame]

/-- One edge, with `W` held. -/
theorem frame_refinement_five :
    (Clocked.run (Board.clk .shipped) (fun _ => ⟨false, 0x1A, true, 0, 0⟩)
      (Board.clk .shipped ⟨true, 0, false, 0, 0⟩ default) 5).actors.outputs =
      (frameRun .shipped (frameKeys false (fun _ => ⟨false, 0x1A, true, 0, 0⟩) 5)).outputs :=
  (frame_refinement .shipped default ⟨true, 0, false, 0, 0⟩ rfl
    (fun _ => ⟨false, 0x1A, true, 0, 0⟩) (fun _ => rfl)).1 5

end Lab8
