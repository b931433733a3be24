/-
  `food.sv`: the pellet map, the score and the registered pellet bit.

  At a tick with Reset low the block reads the cell of the exported position, counts it if it is
  still a pellet, and clears it; all assignments are nonblocking, so the test and the write see the
  map of before the tick.  Reset copies `food_temp` and `score_temp` back and leaves `is_food` and
  `is_food_big_no_color` as they are.
-/
import Lab8.Tables

namespace Lab8

/-- The registers of `food`. -/
structure FoodRegs where
  food : Fin 220 → Bool
  /-- `score[0]`. -/
  score : BitVec 8
  isFood : Bool
  isFoodBigNoColor : Bool
  deriving Inhabited

/-- `food_write_address` and `food_read_address`: `(Y>>5)*20 + (X>>5)` as an `int`. -/
def foodAddress (x y : BitVec 10) : Nat := (y >>> 5).toNat * 20 + (x >>> 5).toNat

/-- `food[address]`. -/
def foodRead (T : Tables) (food : Fin 220 → Bool) (address : Nat) : Bool :=
  if h : address < 220 then food ⟨address, h⟩ else T.foodOut address

/-- `food[address] <= 1'b1`; a write outside the array does nothing. -/
def foodClear (food : Fin 220 → Bool) (address : Nat) : Fin 220 → Bool :=
  fun i => if i.val = address then true else food i

/-- `DrawX_limited`, `DrawY_limited`: the pixel relative to the dot of its cell. -/
def drawLimited (draw : BitVec 10) : Int :=
  (draw.toNat : Int) - (((draw >>> 5).toNat : Int) * 32 + 16)

/-- The pixel lies in the 5x5 dot of its cell. -/
def inDot (drawX drawY : BitVec 10) : Bool :=
  decide (0 ≤ drawLimited drawX) && decide (drawLimited drawX < 5) &&
    decide (0 ≤ drawLimited drawY) && decide (drawLimited drawY < 5)

/-- The `always_ff` block of `food`. -/
def FoodRegs.clk (T : Tables) (reset isFoodEaten : Bool) (drawX drawY ballX ballY : BitVec 10)
    (f : FoodRegs) : FoodRegs :=
  if reset then { f with food := T.foodTemp, score := T.scoreTemp }
  else
    { food := if isFoodEaten then foodClear f.food (foodAddress ballX ballY) else f.food
      score :=
        if isFoodEaten && foodRead T f.food (foodAddress ballX ballY) == false then f.score + 1
        else f.score
      isFoodBigNoColor := foodRead T f.food (foodAddress drawX drawY)
      isFood := if inDot drawX drawY then foodRead T f.food (foodAddress drawX drawY) else true }

theorem foodAddress_eq (x y : BitVec 10) : foodAddress x y = y.toNat / 32 * 20 + x.toNat / 32 := by
  simp [foodAddress, BitVec.toNat_ushiftRight, Nat.shiftRight_eq_div_pow]

theorem foodClear_self (food : Fin 220 → Bool) (i : Fin 220) :
    foodClear food i.val i = true := if_pos rfl

theorem foodClear_ne {food : Fin 220 → Bool} {i : Fin 220} {address : Nat} (h : i.val ≠ address) :
    foodClear food address i = food i := if_neg h

/-- Clearing never restores a pellet. -/
theorem foodClear_mono {food : Fin 220 → Bool} {i : Fin 220} (address : Nat) (h : food i = true) :
    foodClear food address i = true := by
  unfold foodClear
  split
  · rfl
  · exact h

/-- With Reset low a tick never restores a pellet. -/
theorem FoodRegs.clk_mono (T : Tables) (eaten : Bool) (drawX drawY ballX ballY : BitVec 10)
    (f : FoodRegs) {i : Fin 220} (h : f.food i = true) :
    (f.clk T false eaten drawX drawY ballX ballY).food i = true := by
  cases eaten with
  | false => exact h
  | true => exact foodClear_mono _ h

end Lab8
