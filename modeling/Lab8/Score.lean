/-
  Score accounting: the score counts the pellets cleared since Reset.

  `is_food_eaten` stays high for thousands of ticks a frame, but the pellet map is a bank of latches
  (`Lab8.Lib.Latch`): the tick that finds the addressed cell a pellet clears it and counts it, every
  later tick finds it cleared.  So one invariant, `FoodRegs.Counts`, says it all: nothing that
  `food_temp` marks as empty is a pellet, and the score is the number of cells cleared since.  There
  are at most 220 of those, so the 8-bit sum of each tick is the sum of the numbers.

  The write address is in range because Pac-Man is in the maze (`Lab8.Safety`).
-/
import Lab8.Safety
import Lab8.Lib.Latch

namespace Lab8

/-- The shipped map has 86 pellets. -/
theorem card_down_foodTxt : (Latch.down foodTxt).card = 86 := by decide

/-! ## One tick of `food` -/

/-- A write inside the array sets one latch. -/
theorem foodClear_eq (food : Fin 220 → Bool) (a : Fin 220) :
    foodClear food a.val = Latch.setAt food a := by
  funext i
  simp only [foodClear, Latch.setAt, Fin.ext_iff]

/-- **What a tick with Reset low does to map and score**: nothing, or one write with its count. -/
theorem FoodRegs.clk_cases (T : Tables) (eaten : Bool) (drawX drawY ballX ballY : BitVec 10)
    (f : FoodRegs) (a : Fin 220) (ha : foodAddress ballX ballY = a.val) :
    ((f.clk T false eaten drawX drawY ballX ballY).food = f.food ∧
      (f.clk T false eaten drawX drawY ballX ballY).score = f.score) ∨
    ((f.clk T false eaten drawX drawY ballX ballY).food = Latch.setAt f.food a ∧
      (f.clk T false eaten drawX drawY ballX ballY).score =
        if f.food a = false then f.score + 1 else f.score) := by
  cases eaten with
  | false => exact Or.inl ⟨rfl, rfl⟩
  | true =>
    have hread : foodRead T f.food a.val = f.food a := by rw [foodRead, dif_pos a.isLt]
    refine Or.inr ⟨?_, ?_⟩
    · simp only [FoodRegs.clk, ha, if_true, foodClear_eq]
      rfl
    · simp only [FoodRegs.clk, ha, hread]
      cases f.food a <;> rfl

/-! ## The accounting invariant -/

/-- The map keeps what `food_temp` marks as empty, and the score is the number of cells cleared
    since. -/
structure FoodRegs.Counts (T : Tables) (f : FoodRegs) : Prop where
  rises : Latch.Rises T.foodTemp f.food
  score : f.score.toNat = (Latch.raised T.foodTemp f.food).card

/-- What a tick may do: only clear cells, one at most, and count what it clears. -/
structure FoodRegs.Counted (f f' : FoodRegs) : Prop where
  rises : Latch.Rises f.food f'.food
  one : (Latch.raised f.food f'.food).card ≤ 1
  score : f'.score.toNat = f.score.toNat + (Latch.raised f.food f'.food).card

theorem FoodRegs.Counts.reset {T : Tables} (hT : T.scoreTemp = 0) (eaten : Bool)
    (drawX drawY ballX ballY : BitVec 10) (f : FoodRegs) :
    (f.clk T true eaten drawX drawY ballX ballY).Counts T := by
  refine ⟨Latch.Rises.refl _, ?_⟩
  show T.scoreTemp.toNat = (Latch.raised T.foodTemp T.foodTemp).card
  rw [hT, Latch.raised_self]
  rfl

/-- No more cells than the map has are ever cleared. -/
theorem card_raised_lt (f g : Fin 220 → Bool) : (Latch.raised f g).card < 221 := by
  have h := Finset.card_le_univ (Latch.raised f g)
  rw [Fintype.card_fin] at h
  omega

/-- **Counted once.**  A tick with Reset low clears at most the addressed cell and adds to the score
    exactly the number of cells it cleared. -/
theorem FoodRegs.Counts.clk_counted {T : Tables} {f : FoodRegs} (h : f.Counts T) (eaten : Bool)
    (drawX drawY : BitVec 10) {ballX ballY : BitVec 10} (ha : foodAddress ballX ballY < 220) :
    f.Counted (f.clk T false eaten drawX drawY ballX ballY) := by
  rcases f.clk_cases T eaten drawX drawY ballX ballY ⟨_, ha⟩ rfl with ⟨hf, hs⟩ | ⟨hf, hs⟩
  · refine ⟨?_, ?_, ?_⟩
    · rw [hf]; exact Latch.Rises.refl _
    · rw [hf, Latch.raised_self]; exact Nat.zero_le 1
    · rw [hf, hs, Latch.raised_self]; rfl
  · have hle : (Latch.raised f.food (Latch.setAt f.food ⟨foodAddress ballX ballY, ha⟩)).card ≤ 1 := by
      rw [Latch.raised_setAt]
      split
      · exact Nat.le_refl 1
      · exact Nat.zero_le 1
    refine ⟨?_, by rw [hf]; exact hle, ?_⟩
    · rw [hf]; exact Latch.rises_setAt _ _
    · rw [hf, hs, Latch.raised_setAt]
      split
      · -- the sum stays below 256: the cells counted so far are cells of the map
        have := card_raised_lt T.foodTemp f.food
        rw [← h.score] at this
        rw [Finset.card_singleton, BitVec.toNat_add]
        exact Nat.mod_eq_of_lt (by simp; omega)
      · rfl

/-- The invariant survives what a tick may do. -/
theorem FoodRegs.Counts.step {T : Tables} {f f' : FoodRegs} (h : f.Counts T) (hc : f.Counted f') :
    f'.Counts T where
  rises := h.rises.trans hc.rises
  score := by rw [hc.score, h.score, Latch.raised_card_add h.rises hc.rises]

/-! ## Whole runs -/

/-- A tick of a safe board with Reset low. -/
theorem Board.Safe.food_counted {T : Tables} {i : ClkIn} {b : Board} (hs : b.Safe)
    (hc : b.food.Counts T) (hr : i.reset = false) : b.food.Counted (b.clk T i).food := by
  simp only [Board.clk, hr]
  exact hc.clk_counted _ _ _ hs.pacMan.clear.foodAddress_lt

/-- In every run that starts with Reset the score is the number of cells cleared. -/
theorem counts_run {T : Tables} (hT : T.scoreTemp = 0) (b : Board) {i : ClkIn}
    (hi : i.reset = true) (ins : Nat → ClkIn) (n : Nat) :
    (Clocked.run (Board.clk T) ins (b.clk T i) n).food.Counts T := by
  induction n with
  | zero =>
    show (b.food.clk T i.reset _ _ _ _ _).Counts T
    rw [hi]
    exact FoodRegs.Counts.reset hT _ _ _ _ _ _
  | succ n ih =>
    rw [Clocked.run_succ]
    cases hr : (ins n).reset with
    | true =>
      simp only [Board.clk, hr]
      exact FoodRegs.Counts.reset hT _ _ _ _ _ _
    | false => exact ih.step ((safe_run T b hi ins n).food_counted ih hr)

/-- Between two Resets cells are only cleared, and the score grows by their number. -/
theorem counted_between {T : Tables} (hT : T.scoreTemp = 0) (b : Board) {i : ClkIn}
    (hi : i.reset = true) (ins : Nat → ClkIn) {m n : Nat} (hmn : m ≤ n)
    (hins : ∀ k, m ≤ k → k < n → (ins k).reset = false) :
    Latch.Rises (Clocked.run (Board.clk T) ins (b.clk T i) m).food.food
      (Clocked.run (Board.clk T) ins (b.clk T i) n).food.food ∧
    (Clocked.run (Board.clk T) ins (b.clk T i) n).food.score.toNat =
      (Clocked.run (Board.clk T) ins (b.clk T i) m).food.score.toNat +
        (Latch.raised (Clocked.run (Board.clk T) ins (b.clk T i) m).food.food
          (Clocked.run (Board.clk T) ins (b.clk T i) n).food.food).card := by
  induction n, hmn using Nat.le_induction with
  | base => exact ⟨Latch.Rises.refl _, by rw [Latch.raised_self, Finset.card_empty, Nat.add_zero]⟩
  | succ n hmn ih =>
    obtain ⟨hrise, hscore⟩ := ih (fun k hk hkn => hins k hk (by omega))
    have hc : (Clocked.run (Board.clk T) ins (b.clk T i) n).food.Counted
        (Clocked.run (Board.clk T) ins (b.clk T i) (n + 1)).food :=
      (safe_run T b hi ins n).food_counted (counts_run hT b hi ins n)
        (hins n hmn (Nat.lt_succ_self n))
    refine ⟨hrise.trans hc.rises, ?_⟩
    rw [hc.score, hscore, Latch.raised_card_add hrise hc.rises, Nat.add_assoc]

/-- **Score accounting.**  With `score_temp[0] = 0`, in every run that starts with Reset, for every
    input waveform and any later Resets:
    (1) at every Clk the score is the number of cells that `food_temp` has as pellets and `food`
        has cleared;
    (2) a cell that is empty in `food_temp` is never a pellet;
    (3) between two Resets cells are only cleared, and the score grows by exactly the number of
        cells cleared, so a pellet is counted once;
    (4) a tick clears one cell at most;
    (5) the score is at most the initial number of pellets, which eight bits hold. -/
theorem score_accounting (T : Tables) (hT : T.scoreTemp = 0) (b : Board) (i : ClkIn)
    (hi : i.reset = true) (ins : Nat → ClkIn) :
    let f := fun n => (Clocked.run (Board.clk T) ins (b.clk T i) n).food
    (∀ n, (f n).score.toNat = (Latch.raised T.foodTemp (f n).food).card) ∧
    (∀ n c, T.foodTemp c = true → (f n).food c = true) ∧
    (∀ m n, m ≤ n → (∀ k, m ≤ k → k < n → (ins k).reset = false) →
      (∀ c, (f m).food c = true → (f n).food c = true) ∧
      (f n).score.toNat = (f m).score.toNat + (Latch.raised (f m).food (f n).food).card) ∧
    (∀ n, (ins n).reset = false → (Latch.raised (f n).food (f (n + 1)).food).card ≤ 1) ∧
    (∀ n, (f n).score.toNat ≤ (Latch.down T.foodTemp).card) ∧
    (Latch.down T.foodTemp).card < 256 := by
  intro f
  have hcounts : ∀ n, (f n).Counts T := fun n => counts_run hT b hi ins n
  refine ⟨fun n => (hcounts n).score, fun n => (hcounts n).rises, ?_, ?_, ?_, ?_⟩
  · intro m n hmn hins
    exact counted_between hT b hi ins hmn hins
  · intro n hr
    exact ((safe_run T b hi ins n).food_counted (hcounts n) hr).one
  · intro n
    rw [(hcounts n).score]
    exact Latch.card_raised_le _ _
  · have h := Finset.card_le_univ (Latch.down T.foodTemp)
    rw [Fintype.card_fin] at h
    omega

/-- The shipped map, with the scan held on Pac-Man's starting cell. -/
theorem score_accounting_three :
    (Clocked.run (Board.clk .shipped) (fun _ => ⟨false, 0x1A, true, 320, 224⟩)
        (Board.clk .shipped ⟨true, 0, false, 0, 0⟩ default) 3).food.score.toNat =
      (Latch.raised foodTxt (Clocked.run (Board.clk .shipped)
        (fun _ => ⟨false, 0x1A, true, 320, 224⟩)
        (Board.clk .shipped ⟨true, 0, false, 0, 0⟩ default) 3).food.food).card :=
  (score_accounting .shipped rfl default ⟨true, 0, false, 0, 0⟩ rfl
    (fun _ => ⟨false, 0x1A, true, 320, 224⟩)).1 3

end Lab8
