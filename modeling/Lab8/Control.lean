/-
  What a key does.

  The key is a level, not an event: `pac_man` samples it at every frame edge, and takes it only if
  the box is inside one cell and the cell on the key's side is open.

  1. `turn` — all that a frame sees of a key.  Two runs whose keys have the same effect at the frame
     edges show the same actors at every Clk (`key_effect`).
  2. `Piece.answer` — a frame with the key held: he takes it, or he rests beside a wall on its side,
     or he comes a pixel closer to the end of his corridor.
  3. `key_answered` — so a key that is held is answered within 551 frames.
-/
import Lab8.Patrol

namespace Lab8

/-! ## The effect of a key -/

/-- The side a key names. -/
def keySide (key : BitVec 8) : Option Direction :=
  if key = 0x04 then some 0b000
  else if key = 0x16 then some 0b001
  else if key = 0x07 then some 0b010
  else if key = 0x1A then some 0b011
  else none

/-- **The effect of a key** on a box at `(x, y)`: the side it names, if the box is inside one cell
    and the cell on that side is open. -/
def turn (wall : Int → Int → Bool) (key : BitVec 8) (x y : BitVec 10) : Option Direction :=
  (keySide key).filter (fun d => inside x y && !wallAhead wall x y d)

/-- Outside a cell a key has no effect. -/
theorem turn_outside {wall : Int → Int → Bool} {x y : BitVec 10} (h : inside x y = false)
    (key : BitVec 8) : turn wall key x y = none := by
  rw [turn, Option.filter_eq_none_iff]
  intro d _
  rw [h, Bool.false_and]
  exact Bool.false_ne_true

/-- **The key cascade sees the effect only.** -/
theorem pacManKey_turn (wall : Int → Int → Bool) (key : BitVec 8) (x y : BitVec 10)
    (h : Heading Direction) :
    pacManKey key (sense wall x y) h = ((turn wall key x y).map stepOf).getD h := by
  cases hin : inside x y with
  | false =>
    rw [turn_outside hin, sense_outside hin]
    simp [pacManKey]
  | true =>
    unfold pacManKey turn keySide sense wallAhead
    rw [hin]
    by_cases h0 : key = 0x04
    · subst h0
      cases wall (coordinate y) (coordinate x - 1) <;> simp [Option.filter_some, stepOf, unitOf]
    · by_cases h1 : key = 0x16
      · subst h1
        cases wall (coordinate y + 1) (coordinate x) <;> simp [Option.filter_some, stepOf, unitOf]
      · by_cases h2 : key = 0x07
        · subst h2
          cases wall (coordinate y) (coordinate x + 1) <;> simp [Option.filter_some, stepOf, unitOf]
        · by_cases h3 : key = 0x1A
          · subst h3
            cases wall (coordinate y - 1) (coordinate x) <;> simp [Option.filter_some, stepOf, unitOf]
          · rw [if_neg (fun hk => h0 hk.1), if_neg (fun hk => h1 hk.1), if_neg (fun hk => h2 hk.1),
              if_neg (fun hk => h3 hk.1), if_neg h0, if_neg h1, if_neg h2, if_neg h3]
            rfl

/-- So does Pac-Man's next heading. -/
theorem Actors.pacManIn_turn {wall : Int → Int → Bool} {key key' : BitVec 8} {a : Actors}
    (h : turn wall key' a.pacMan.ballXPosIn a.pacMan.ballYPosIn =
      turn wall key a.pacMan.ballXPosIn a.pacMan.ballYPosIn) :
    a.pacManIn wall key' = a.pacManIn wall key := by
  unfold Actors.pacManIn pacManHeading Piece.sensor
  rw [pacManKey_turn, pacManKey_turn, h]

/-! ## Two runs with keys of the same effect -/

theorem Mover.ext_piece {δ : Type} {m m' : Mover δ} (hp : m'.toPiece = m.toPiece)
    (hd : m'.frameClkDelayed = m.frameClkDelayed) : m' = m := by
  cases m
  cases m'
  simp only at hp hd
  rw [hp, hd]

theorem Actors.ext_pieces {a a' : Actors} (hp : a'.pacMan = a.pacMan)
    (hr : a'.redEvil = a.redEvil) (hg : a'.greenEvil = a.greenEvil)
    (hb : a'.blueEvil = a.blueEvil) : a' = a := by
  cases a
  cases a'
  simp only at hp hr hg hb
  rw [hp, hr, hg, hb]

/-- One tick of two boards with the same actors. -/
theorem Board.clk_effect (T : Tables) {i i' : ClkIn} {b b' : Board} {before : Bool}
    (hr : i.reset = false) (hr' : i'.reset = false) (hclk : i'.frameClk = i.frameClk)
    (hw : b.wall = mazeTable) (hw' : b'.wall = mazeTable) (hs : b.Synced before)
    (hs' : b'.Synced before) (ha : b'.actors = b.actors)
    (hkey : (i.frameClk && !before) = true →
      turn (mazeWall T) i'.key b.pacMan.ballXPosIn b.pacMan.ballYPosIn =
        turn (mazeWall T) i.key b.pacMan.ballXPosIn b.pacMan.ballYPosIn) :
    (b'.clk T i').actors = (b.clk T i).actors := by
  have hpac : b'.pacMan = b.pacMan :=
    Mover.ext_piece (congrArg Actors.pacMan ha) (hs'.pacMan.trans hs.pacMan.symm)
  have hred : b'.redEvil = b.redEvil :=
    Mover.ext_piece (congrArg Actors.redEvil ha) (hs'.redEvil.trans hs.redEvil.symm)
  have hgreen : b'.greenEvil = b.greenEvil :=
    Mover.ext_piece (congrArg Actors.greenEvil ha) (hs'.greenEvil.trans hs.greenEvil.symm)
  have hblue : b'.blueEvil = b.blueEvil :=
    Mover.ext_piece (congrArg Actors.blueEvil ha) (hs'.blueEvil.trans hs.blueEvil.symm)
  have hread : b.wallRead T = mazeWall T := by rw [Board.wallRead, hw, mazeWall]
  have hread' : b'.wallRead T = mazeWall T := by rw [Board.wallRead, hw', mazeWall]
  -- the key matters at an edge only
  have hpiece : (b.pacMan.pacManClk pacManCenter 0b111 false i.frameClk
      (b.actors.pacManIn (mazeWall T) i'.key)).toPiece =
      (b.pacMan.pacManClk pacManCenter 0b111 false i.frameClk
        (b.actors.pacManIn (mazeWall T) i.key)).toPiece := by
    cases he : (i.frameClk && !before) with
    | true => rw [Actors.pacManIn_turn (a := b.actors) (hkey he)]
    | false =>
      have hno : b.pacMan.frameClkRisingEdge i.frameClk = false := by
        rw [Mover.frameClkRisingEdge, hs.pacMan, he]
      simp only [Mover.pacManClk, hno, Bool.false_eq_true, if_false]
  apply Actors.ext_pieces
  · show (b'.pacMan.pacManClk _ _ i'.reset i'.frameClk
      (b'.actors.pacManIn (b'.wallRead T) i'.key)).toPiece = (b.pacMan.pacManClk _ _ i.reset
        i.frameClk (b.actors.pacManIn (b.wallRead T) i.key)).toPiece
    rw [hr, hr', hclk, hpac, ha, hread, hread']
    exact hpiece
  · show (b'.redEvil.ghostClk _ _ i'.reset (b'.actors.isCollisionGreen || b'.actors.isCollisionBlue)
      i'.frameClk (b'.actors.redEvilIn (b'.wallRead T))).toPiece = (b.redEvil.ghostClk _ _ i.reset
        (b.actors.isCollisionGreen || b.actors.isCollisionBlue) i.frameClk
        (b.actors.redEvilIn (b.wallRead T))).toPiece
    rw [hr, hr', hclk, hred, ha, hread, hread']
  · show (b'.greenEvil.ghostClk _ _ i'.reset (b'.actors.isCollisionBlue || b'.actors.isCollisionRed)
      i'.frameClk (b'.actors.greenEvilIn (b'.wallRead T))).toPiece = (b.greenEvil.ghostClk _ _
        i.reset (b.actors.isCollisionBlue || b.actors.isCollisionRed) i.frameClk
        (b.actors.greenEvilIn (b.wallRead T))).toPiece
    rw [hr, hr', hclk, hgreen, ha, hread, hread']
  · show (b'.blueEvil.ghostClk _ _ i'.reset (b'.actors.isCollisionGreen || b'.actors.isCollisionRed)
      i'.frameClk (b'.actors.blueEvilIn (b'.wallRead T))).toPiece = (b.blueEvil.ghostClk _ _ i.reset
        (b.actors.isCollisionGreen || b.actors.isCollisionRed) i.frameClk
        (b.actors.blueEvilIn (b.wallRead T))).toPiece
    rw [hr, hr', hclk, hblue, ha, hread, hread']

/-- **Only the effect of a key counts.**  Two runs after Reset with the same `frame_clk` whose keys
    have the same effect on Pac-Man's box at every frame edge, whatever they are in between and
    whatever codes they have, show the same actors at every tick. -/
theorem key_effect (T : Tables) (b b' : Board) (i i' : ClkIn) (hi : i.reset = true)
    (hi' : i'.reset = true) (hclk : i'.frameClk = i.frameClk) (ins ins' : Nat → ClkIn)
    (hins : ∀ n, (ins n).reset = false) (hins' : ∀ n, (ins' n).reset = false)
    (hsame : ∀ n, (ins' n).frameClk = (ins n).frameClk)
    (hkeys : ∀ n, frameEdge i.frameClk ins n = true →
      turn (mazeWall T) (ins' n).key
          (Clocked.run (Board.clk T) ins (b.clk T i) n).pacMan.ballXPosIn
          (Clocked.run (Board.clk T) ins (b.clk T i) n).pacMan.ballYPosIn =
        turn (mazeWall T) (ins n).key
          (Clocked.run (Board.clk T) ins (b.clk T i) n).pacMan.ballXPosIn
          (Clocked.run (Board.clk T) ins (b.clk T i) n).pacMan.ballYPosIn) (n : Nat) :
    (Clocked.run (Board.clk T) ins' (b'.clk T i') n).actors =
      (Clocked.run (Board.clk T) ins (b.clk T i) n).actors := by
  induction n with
  | zero =>
    rw [Clocked.run_zero, Clocked.run_zero, b.clk_actors_reset T hi, b'.clk_actors_reset T hi']
  | succ n ih =>
    obtain ⟨-, hs⟩ := lively_run T b hi ins n
    obtain ⟨-, hs'⟩ := lively_run T b' hi' ins' n
    -- the edge detectors have sampled the same waveform
    have hdelay : Clocked.delayed i'.frameClk (fun k => (ins' k).frameClk) n =
        Clocked.delayed i.frameClk (fun k => (ins k).frameClk) n := by
      rw [hclk, show (fun k => (ins' k).frameClk) = fun k => (ins k).frameClk from funext hsame]
    rw [hdelay] at hs'
    exact Board.clk_effect T (hins n) (hins' n) (hsame n) (safe_run T b hi ins n).wall
      (safe_run T b' hi' ins' n).wall hs hs' ih (hkeys n)

/-- A key held from Reset on, and a frame edge at every second tick. -/
def pressing (key : BitVec 8) (n : Nat) : ClkIn := ⟨false, key, n % 2 == 0, 0, 0⟩

/-- A key that is none of the four is as good as no key: ten frames with the space bar. -/
theorem key_effect_space :
    (Clocked.run (Board.clk .shipped) (pressing 0x2C)
        (Board.clk .shipped ⟨true, 0, false, 0, 0⟩ default) 20).actors =
      (Clocked.run (Board.clk .shipped) untouched (Board.clk .shipped ⟨true, 0, false, 0, 0⟩ default)
        20).actors :=
  key_effect .shipped default default ⟨true, 0, false, 0, 0⟩ ⟨true, 0, false, 0, 0⟩ rfl rfl rfl
    untouched (pressing 0x2C) (fun _ => rfl) (fun _ => rfl) (fun _ => rfl)
    (fun _ _ => rfl) 20

/-! ## A key that is held -/

/-- **Answered**: he goes the side of the key, or rests inside a cell that has a wall there. -/
def Piece.Answers (T : Tables) (d : Direction) (p : Piece Direction) : Prop :=
  p.currentDirection = d ∨ ((p.ballXMotion, p.ballYMotion) = (0, 0) ∧
    inside p.ballXPosIn p.ballYPosIn = true ∧
    wallAhead (mazeWall T) p.ballXPosIn p.ballYPosIn d = true)

/-- Pixels from the exported position to the border of the maze, along the direction. -/
def Piece.remaining (p : Piece Direction) : Nat :=
  if p.currentDirection = 0b000 then p.ballXPosIn.toNat - 32
  else if p.currentDirection = 0b001 then 294 - p.ballYPosIn.toNat
  else if p.currentDirection = 0b010 then 582 - p.ballXPosIn.toNat
  else p.ballYPosIn.toNat - 32

theorem Piece.Safe.remaining_le {p : Piece Direction} (hs : p.Safe) : p.remaining ≤ 550 := by
  have hin := hs.clear.interior
  unfold Piece.remaining
  split
  · omega
  · split
    · omega
    · split <;> omega

/-- A step along the direction brings him a pixel closer. -/
theorem Piece.Safe.remaining_step {p : Piece Direction} (hs : p.Safe)
    (hs' : (p.advance p.toHeading).Safe) (hd : IsSide p.currentDirection)
    (hm : (p.ballXMotion, p.ballYMotion) = unitOf p.currentDirection) :
    (p.advance p.toHeading).remaining + 1 = p.remaining := by
  have hin := hs.clear.interior
  have hin' := hs'.clear.interior
  obtain ⟨hleft, hdown, hright, hup⟩ := hs'.exports (d := p.currentDirection) hm
  have hx : (p.advance p.toHeading).ballXPos = p.ballXPosIn := rfl
  have hy : (p.advance p.toHeading).ballYPos = p.ballYPosIn := rfl
  have hsame : (p.advance p.toHeading).currentDirection = p.currentDirection := rfl
  unfold Piece.remaining
  rw [hsame]
  rw [hx, hy] at hleft hdown hright hup
  rcases hd with h | h | h | h
  · have := hleft h
    rw [if_pos h, if_pos h]
    omega
  · have := hdown h
    rw [h]
    simp only [show ¬ (0b001 : Direction) = 0b000 by decide, if_false, if_true]
    omega
  · have := hright h
    rw [h]
    simp only [show ¬ (0b010 : Direction) = 0b000 by decide,
      show ¬ (0b010 : Direction) = 0b001 by decide, if_false, if_true]
    omega
  · have := hup h
    rw [h]
    simp only [show ¬ (0b011 : Direction) = 0b000 by decide,
      show ¬ (0b011 : Direction) = 0b001 by decide, show ¬ (0b011 : Direction) = 0b010 by decide,
      if_false]
    omega

/-- Inside a cell the key is taken, or its side is a wall and the heading goes to the wall stop. -/
theorem pacManKey_held (T : Tables) {p : Piece Direction} (hs : p.Safe) {key : BitVec 8}
    {d : Direction} (hk : keySide key = some d)
    (hin : inside p.ballXPosIn p.ballYPosIn = true) :
    pacManKey key (p.sensor (mazeWall T)) p.toHeading =
      if (neighbours p.ballXPosIn.toNat p.ballYPosIn.toNat).side d then stepOf d
      else p.toHeading := by
  rw [Piece.sensor, pacManKey_turn, turn, hk, Option.filter_some, hin, Bool.true_and,
    wallAhead_maze T hs.clear hin, Bool.not_not]
  split
  · rfl
  · rfl

/-- **One frame with the key held**: answered, or a pixel closer to the end of the corridor. -/
theorem Piece.answer (T : Tables) {p : Piece Direction} (hs : p.Safe)
    (hl : p.Lawful (mazeWall T)) {key : BitVec 8} {d : Direction} (hk : keySide key = some d)
    (hknows : p.currentDirection = 0b111 → inside p.ballXPosIn p.ballYPosIn = true)
    (hs' : (p.advance (pacManHeading key (p.sensor (mazeWall T)) false p.toHeading)).Safe) :
    (p.advance (pacManHeading key (p.sensor (mazeWall T)) false p.toHeading)).Answers T d ∨
      (¬ p.Answers T d ∧
        (p.advance (pacManHeading key (p.sensor (mazeWall T)) false p.toHeading)).remaining + 1 =
          p.remaining) := by
  -- where he keeps a motion along a side other than the key's, he comes closer
  have hgoes : (p.ballXMotion, p.ballYMotion) = unitOf p.currentDirection →
      IsSide p.currentDirection → p.currentDirection ≠ d → (p.advance p.toHeading).Safe →
      ¬ p.Answers T d ∧ (p.advance p.toHeading).remaining + 1 = p.remaining := by
    intro hm hside hne hsafe
    refine ⟨?_, hs.remaining_step hsafe hside hm⟩
    rintro (h | ⟨h, -⟩)
    · exact hne h
    · rw [hm] at h
      exact (unitOf_side hside).1 h
  cases hin : inside p.ballXPosIn p.ballYPosIn with
  | false =>
    rw [Piece.sensor, pacManHeading_outside key hin] at hs' ⊢
    have h7 : p.currentDirection ≠ 0b111 := by
      intro h7
      exact Bool.false_ne_true (hin.symm.trans (hknows h7))
    by_cases hd : p.currentDirection = d
    · exact Or.inl (Or.inl hd)
    · exact Or.inr (hgoes (hl.free h7 (blocked_outside hin _)) (hl.drives h7).1 hd hs')
  | true =>
    rw [pacManHeading, if_neg Bool.false_ne_true, pacManKey_held T hs hk hin] at hs' ⊢
    rw [Piece.sensor, sense_maze T hs.clear hin] at hs' ⊢
    have hwall := wallAhead_maze T hs.clear hin
    have hblock := blocked_maze T hs.clear hin
    generalize neighbours p.ballXPosIn.toNat p.ballYPosIn.toNat = n at hs' hwall hblock ⊢
    -- a piece that has come to rest there is answered if the side of the key is closed
    have hrests : ∀ e, n.side d = false → (p.advance ⟨0, 0, e⟩).Answers T d := by
      intro e hclosed
      have hout := p.advance_stop e
      rw [Piece.posOut, Piece.posOut, Prod.mk.injEq] at hout
      refine Or.inr ⟨rfl, ?_, ?_⟩
      · rw [hout.1, hout.2]
        exact hin
      · rw [hout.1, hout.2, hwall, hclosed]
        rfl
    cases hside : n.side d with
    | true =>
      rw [if_pos rfl, pacManStop_open n hside]
      exact Or.inl (Or.inl rfl)
    | false =>
      rw [if_neg Bool.false_ne_true]
      cases hahead : n.side p.currentDirection with
      | false =>
        rw [pacManStop_closed n hl.agrees hahead]
        exact Or.inl (hrests _ hside)
      | true =>
        rw [hside, if_neg Bool.false_ne_true, pacManStop_open n hahead] at hs'
        rw [pacManStop_open n hahead]
        by_cases h7 : p.currentDirection = 0b111
        · -- without a direction he rests
          have hrest := hl.rest h7
          rw [Prod.mk.injEq] at hrest
          have hheading : p.toHeading = ⟨0, 0, p.currentDirection⟩ := by
            show (⟨p.ballXMotion, p.ballYMotion, p.currentDirection⟩ : Heading Direction) = _
            rw [hrest.1, hrest.2]
          rw [hheading]
          exact Or.inl (hrests _ hside)
        · have hne : p.currentDirection ≠ d := by
            intro h
            rw [h, hside] at hahead
            exact Bool.false_ne_true hahead
          have hm := hl.free h7 (by rw [hblock, hahead]; rfl)
          exact Or.inr (hgoes hm (hl.drives h7).1 hne hs')

/-- A tick of a run that leaves all flags down, with the key pressed if it is a frame edge. -/
theorem answer_tick (T : Tables) (b : Board) {i : ClkIn} (hi : i.reset = true) {ins : Nat → ClkIn}
    (hins : ∀ n, (ins n).reset = false) {key : BitVec 8} {d : Direction}
    (hk : keySide key = some d) {n : Nat}
    (hheld : frameEdge i.frameClk ins n = true → (ins n).key = key)
    (hc : (Clocked.run (Board.clk T) ins (b.clk T i) (n + 1)).actors.collision = false) :
    (Clocked.run (Board.clk T) ins (b.clk T i) (n + 1)).actors.pacMan.Answers T d ∨
      (¬ (Clocked.run (Board.clk T) ins (b.clk T i) n).actors.pacMan.Answers T d ∧
        frames i.frameClk ins (n + 1) +
            (Clocked.run (Board.clk T) ins (b.clk T i) (n + 1)).actors.pacMan.remaining =
          frames i.frameClk ins n +
            (Clocked.run (Board.clk T) ins (b.clk T i) n).actors.pacMan.remaining) := by
  have hcalm := calm_before T b hi hins (Nat.le_succ n) hc
  have hdriven := driven_run T b hi ins n
  have hsafe' : (Clocked.run (Board.clk T) ins (b.clk T i) (n + 1)).actors.pacMan.Safe :=
    (safe_run T b hi ins (n + 1)).pacMan
  have hstep := pacMan_tick T b hi n (hins n)
  rw [hcalm] at hstep
  rw [frames_succ]
  cases he : frameEdge i.frameClk ins n with
  | false =>
    rw [he, if_neg Bool.false_ne_true] at hstep
    rw [hstep, if_neg Bool.false_ne_true]
    exact (Classical.em _).imp_right (fun h => ⟨h, rfl⟩)
  | true =>
    rw [he, if_pos rfl, hheld he] at hstep
    rw [hstep] at hsafe' ⊢
    rw [if_pos rfl]
    have hknows : (Clocked.run (Board.clk T) ins (b.clk T i) n).pacMan.currentDirection = 0b111 →
        inside (Clocked.run (Board.clk T) ins (b.clk T i) n).pacMan.ballXPosIn
          (Clocked.run (Board.clk T) ins (b.clk T i) n).pacMan.ballYPosIn = true := by
      intro h7
      -- he still rests on his starting place
      have hpos := (hdriven.knows h7).resolve_right (by rw [hcalm]; exact Bool.false_ne_true)
      have hout := (Piece.posOut_of_still (hdriven.lawful.rest h7)).trans hpos
      rw [Piece.posOut, Prod.mk.injEq] at hout
      rw [hout.1, hout.2]
      decide
    have hsafe : (Clocked.run (Board.clk T) ins (b.clk T i) n).actors.pacMan.Safe :=
      hdriven.safe.pacMan
    rcases Piece.answer T hsafe hdriven.lawful hk hknows hsafe' with h | ⟨hno, hrem⟩
    · exact Or.inl h
    · refine Or.inr ⟨hno, ?_⟩
      omega

end Lab8
