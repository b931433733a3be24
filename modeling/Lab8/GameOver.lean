/-
  Game over is absorbing.

  Once a collision flag is up, `Board.clk_frozen` keeps every exported position and every flag as
  long as Reset stays low, so the flag that is up stays up.  The pellet map can still change once:
  the scan may hit Pac-Man's box for the first time after the collision and clear the cell he stands
  on.  With the exported position frozen that cell is the only one `food` can write, and clearing it
  is a latch (`Clocked.once`).
-/
import Lab8.Safety

namespace Lab8

/-! ## What a tick does to the pellet map -/

/-- The map and the score. -/
def FoodRegs.tally (f : FoodRegs) : (Fin 220 → Bool) × BitVec 8 := (f.food, f.score)

/-- A cell that is already cleared is neither cleared nor counted again. -/
theorem FoodRegs.clk_taken (T : Tables) (eaten : Bool) (drawX drawY ballX ballY : BitVec 10)
    (f : FoodRegs) (ha : foodAddress ballX ballY < 220)
    (h : f.food ⟨foodAddress ballX ballY, ha⟩ = true) :
    (f.clk T false eaten drawX drawY ballX ballY).tally = f.tally := by
  have hread : foodRead T f.food (foodAddress ballX ballY) = true := by
    rw [foodRead, dif_pos ha, h]
  have hclear : foodClear f.food (foodAddress ballX ballY) = f.food := by
    funext i
    unfold foodClear
    split
    · rename_i hi
      rw [show i = ⟨foodAddress ballX ballY, ha⟩ from Fin.ext hi, h]
    · rfl
  cases eaten <;> simp [FoodRegs.clk, FoodRegs.tally, hread, hclear]

/-- A tick with Reset low that changes the map or the score clears the addressed cell. -/
theorem FoodRegs.clk_change (T : Tables) (eaten : Bool) (drawX drawY ballX ballY : BitVec 10)
    (f : FoodRegs) (ha : foodAddress ballX ballY < 220)
    (h : (f.clk T false eaten drawX drawY ballX ballY).tally ≠ f.tally) :
    (f.clk T false eaten drawX drawY ballX ballY).food ⟨foodAddress ballX ballY, ha⟩ = true := by
  cases eaten with
  | false => exact absurd (by simp [FoodRegs.clk, FoodRegs.tally]) h
  | true => exact foodClear_self f.food ⟨foodAddress ballX ballY, ha⟩

/-! ## Absorption -/

/-- A state some run reaches after a tick with Reset high. -/
def Board.Reachable (T : Tables) (b : Board) : Prop :=
  ∃ (b₀ : Board) (i : ClkIn) (ins : Nat → ClkIn) (n : Nat),
    i.reset = true ∧ b = Clocked.run (Board.clk T) ins (b₀.clk T i) n

theorem Board.Reachable.safe {T : Tables} {b : Board} (h : b.Reachable T) : b.Safe := by
  obtain ⟨b₀, i, ins, n, hi, rfl⟩ := h
  exact safe_run T b₀ hi ins n

/-- The outputs stay what they were when the flag was seen. -/
theorem outputs_frozen (T : Tables) {b : Board} (hc : b.actors.collision = true)
    {ins : Nat → ClkIn} (hins : ∀ n, (ins n).reset = false) (n : Nat) :
    (Clocked.run (Board.clk T) ins b n).actors.outputs = b.actors.outputs := by
  refine Clocked.run_inv (P := fun b' : Board => b'.actors.outputs = b.actors.outputs) rfl ?_ n
  intro k hk
  have hck : (Clocked.run (Board.clk T) ins b k).actors.collision = true := by
    rw [Actors.collision_congr hk, hc]
  rw [Board.clk_frozen T (hins k) hck, hk]

/-- **Game over.**  From any state with a collision flag up, as long as Reset stays low:
    positions and flags keep their values at every later Clk; and if the state is reachable, at
    most one tick changes the pellet map or the score. -/
theorem game_over_absorbing (T : Tables) (b : Board) (hc : b.actors.collision = true)
    (ins : Nat → ClkIn) (hins : ∀ n, (ins n).reset = false) :
    (∀ n, (Clocked.run (Board.clk T) ins b n).actors.outputs = b.actors.outputs) ∧
    (b.Reachable T → ∀ m n,
      (Clocked.run (Board.clk T) ins b (m + 1)).food.tally ≠
        (Clocked.run (Board.clk T) ins b m).food.tally →
      (Clocked.run (Board.clk T) ins b (n + 1)).food.tally ≠
        (Clocked.run (Board.clk T) ins b n).food.tally → m = n) := by
  refine ⟨outputs_frozen T hc hins, ?_⟩
  intro hreach m n hm hn
  have ha := hreach.safe.pacMan.clear.foodAddress_lt
  -- the frozen exported position keeps the write address where it is
  have hball : ∀ k, (Clocked.run (Board.clk T) ins b k).pacMan.posOut = b.pacMan.posOut :=
    fun k => congrArg Outputs.ball (outputs_frozen T hc hins k)
  have hstep : ∀ k, (Clocked.run (Board.clk T) ins b (k + 1)).food =
      (Clocked.run (Board.clk T) ins b k).food.clk T false
        (isBall (ins k).drawX (ins k).drawY (Clocked.run (Board.clk T) ins b k).actors.pacMan)
        (ins k).drawX (ins k).drawY b.pacMan.ballXPosIn b.pacMan.ballYPosIn := by
    intro k
    have hx := congrArg Prod.fst (hball k)
    have hy := congrArg Prod.snd (hball k)
    simp only [Piece.posOut] at hx hy
    rw [Clocked.run_succ, ← hx, ← hy]
    simp only [Board.clk, hins k]
    rfl
  refine Clocked.once
    (f := fun k => (Clocked.run (Board.clk T) ins b k).food.tally)
    (d := fun k => (Clocked.run (Board.clk T) ins b k).food.food ⟨_, ha⟩ = true)
    ?_ ?_ ?_ hm hn
  · intro k hk
    rw [hstep k] at hk ⊢
    exact FoodRegs.clk_change T _ _ _ _ _ _ ha hk
  · intro k hk
    show (Clocked.run (Board.clk T) ins b (k + 1)).food.food _ = true
    rw [hstep k]
    exact FoodRegs.clk_mono T _ _ _ _ _ _ hk
  · intro k hk
    show (Clocked.run (Board.clk T) ins b (k + 1)).food.tally = _
    rw [hstep k]
    exact FoodRegs.clk_taken T _ _ _ _ _ _ ha hk

/-! ## Blue from the front -/

/-- Right in the first frame, up for 96 frames, then left: into Blue, which comes along the corridor
    of row 3.  Every second tick is a frame edge. -/
def headOn (n : Nat) : ClkIn :=
  ⟨false, if n < 2 then 0x07 else if n < 194 then 0x1A else 0x04, n % 2 == 0, 0, 0⟩

/-- The board that plays it, from Reset on. -/
def headOnBoard (n : Nat) : Board :=
  Clocked.run (Board.clk .shipped) headOn (Board.clk .shipped ⟨true, 0, false, 0, 0⟩ default) n

/-- The actors in frame 246, where Blue turns into the corridor. -/
def headOnActors : Actors where
  pacMan := ⟨⟨ballStepInv, 0, 0b000⟩, 389, 102⟩
  redEvil := ⟨⟨ballStep, 0, 0b010⟩, 475, 102⟩
  greenEvil := ⟨⟨ballStepInv, 0, 0b000⟩, 357, 38⟩
  blueEvil := ⟨⟨0, ballStepInv, ()⟩, 352, 103⟩

/-- A sequence that is constant from `m` on. -/
theorem map_range_add {α : Type} {f : Nat → α} {m : Nat} {x : α} (h : ∀ j, f (m + j) = x) (k : Nat) :
    (List.range (m + k)).map f = (List.range m).map f ++ List.replicate k x := by
  rw [List.range_add, List.map_append, List.map_map]
  congr 1
  rw [List.eq_replicate_iff]
  refine ⟨by rw [List.length_map, List.length_range], ?_⟩
  intro y hy
  obtain ⟨j, -, rfl⟩ := List.mem_map.mp hy
  exact h j

/-- From then on he goes left. -/
theorem headOn_outputs {n : Nat} (hn : 491 ≤ n) : (headOnBoard n).actors.outputs =
    (Clocked.runList (Actors.frameStep (mazeWall .shipped)) headOnActors
      (List.replicate ((n + 1) / 2 - 246) 0x04)).outputs := by
  have hmeets : frameRun .shipped ((List.range 246).map fun j => (headOn (2 * j)).key) =
      headOnActors := by decide +kernel
  have hleft : ∀ j, (headOn (2 * (246 + j))).key = 0x04 := by
    intro j
    exact (if_neg (by omega)).trans (if_neg (by omega))
  obtain ⟨k, hk⟩ := Nat.exists_eq_add_of_le (show 246 ≤ (n + 1) / 2 by omega)
  have hkeys : frameKeys false headOn n = _ := frameKeys_alternating (fun _ => rfl) n
  rw [hk, map_range_add hleft] at hkeys
  rw [hk, Nat.add_sub_cancel_left, headOnBoard, outputs_run .shipped default rfl (fun _ => rfl),
    hkeys, frameRun, Clocked.runList_append, ← frameRun, hmeets]

/-- In frame 261 he is caught. -/
theorem headOn_caught : (headOnBoard 521).actors.collision = true := by
  rw [Actors.collision_congr (headOn_outputs (by decide))]
  decide +kernel

/-- From there on nothing moves, whatever is pressed, and at most one pellet goes. -/
theorem game_over_absorbing_caught :
    (∀ n, (Clocked.run (Board.clk .shipped) headOn (headOnBoard 521) n).actors.outputs =
      (headOnBoard 521).actors.outputs) ∧
    ∀ m n, (Clocked.run (Board.clk .shipped) headOn (headOnBoard 521) (m + 1)).food.tally ≠
        (Clocked.run (Board.clk .shipped) headOn (headOnBoard 521) m).food.tally →
      (Clocked.run (Board.clk .shipped) headOn (headOnBoard 521) (n + 1)).food.tally ≠
        (Clocked.run (Board.clk .shipped) headOn (headOnBoard 521) n).food.tally → m = n := by
  obtain ⟨hstill, honce⟩ :=
    game_over_absorbing .shipped (headOnBoard 521) headOn_caught headOn (fun _ => rfl)
  exact ⟨hstill, honce ⟨default, ⟨true, 0, false, 0, 0⟩, headOn, 521, rfl, rfl⟩⟩

end Lab8
