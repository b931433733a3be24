/-
  A raster scan: two nested wrapping counters, and the clock divider that drives them.

  A display controller keeps a column counter that wraps at `w` and a row counter that advances on
  each column wrap and itself wraps at `h`.  After `n` ticks from the origin the counters show
  `(n % w, n / w % h)`: `col_succ`/`row_succ` say that the pair of closed forms steps like the pair
  of counters.  The scan is a bijection between the ticks of any window of `w * h` and the pixels
  (`existsUnique_visit`).

  The pixel clock is usually the system clock divided by two.  `half` counts its rising edges.
-/
import Mathlib.Data.Nat.Init

namespace Raster

/-! ## The counters and their closed form -/

/-- Column scanned at tick `n`. -/
def col (w n : Nat) : Nat := n % w

/-- Row scanned at tick `n`. -/
def row (w h n : Nat) : Nat := n / w % h

/-- Next value of the column counter. -/
def nextCol (w c : Nat) : Nat := if c + 1 = w then 0 else c + 1

/-- Next value of the row counter when the column counter shows `c`. -/
def nextRow (w h c r : Nat) : Nat :=
  if c + 1 = w then (if r + 1 = h then 0 else r + 1) else r

/-- Adding one to a residue either stays below the modulus or wraps to `0` and carries. -/
theorem succ_mod_div (p n : Nat) (hp : 0 < p) :
    ((n % p + 1 = p ∧ (n + 1) % p = 0 ∧ (n + 1) / p = n / p + 1) ∨
      (n % p + 1 ≠ p ∧ (n + 1) % p = n % p + 1 ∧ (n + 1) / p = n / p)) := by
  have hn : p * (n / p) + n % p = n := Nat.div_add_mod n p
  have hlt : n % p < p := Nat.mod_lt n hp
  by_cases hw : n % p + 1 = p
  · have hs : n + 1 = p * (n / p + 1) := by rw [Nat.mul_add, Nat.mul_one]; omega
    refine Or.inl ⟨hw, ?_, ?_⟩
    · rw [hs]; exact Nat.mul_mod_right p _
    · rw [hs]; exact Nat.mul_div_cancel_left _ hp
  · have hs : n + 1 = p * (n / p) + (n % p + 1) := by omega
    refine Or.inr ⟨hw, ?_, ?_⟩
    · conv => lhs; rw [hs]
      rw [Nat.mul_add_mod_self_left]
      exact Nat.mod_eq_of_lt (by omega)
    · conv => lhs; rw [hs]
      rw [Nat.mul_add_div hp, Nat.div_eq_of_lt (by omega : n % p + 1 < p), Nat.add_zero]

theorem col_succ {w : Nat} (hw : 0 < w) (n : Nat) : col w (n + 1) = nextCol w (col w n) := by
  unfold col nextCol
  rcases succ_mod_div w n hw with ⟨h, hm, _⟩ | ⟨h, hm, _⟩
  · rw [if_pos h, hm]
  · rw [if_neg h, hm]

theorem row_succ {w h : Nat} (hw : 0 < w) (hh : 0 < h) (n : Nat) :
    row w h (n + 1) = nextRow w h (col w n) (row w h n) := by
  unfold row nextRow col
  rcases succ_mod_div w n hw with ⟨hc, _, hd⟩ | ⟨hc, _, hd⟩
  · rw [if_pos hc, hd]
    rcases succ_mod_div h (n / w) hh with ⟨hr, hm, _⟩ | ⟨hr, hm, _⟩
    · rw [if_pos hr, hm]
    · rw [if_neg hr, hm]
  · rw [if_neg hc, hd]

theorem col_lt {w : Nat} (hw : 0 < w) (n : Nat) : col w n < w := Nat.mod_lt n hw

theorem row_lt {w h : Nat} (hh : 0 < h) (n : Nat) : row w h n < h := Nat.mod_lt _ hh

/-! ## Every pixel once per frame -/

/-- In a window of `p` consecutive numbers each residue occurs exactly once. -/
theorem existsUnique_mod {p r : Nat} (hr : r < p) (a : Nat) :
    ∃ n, (a ≤ n ∧ n < a + p ∧ n % p = r) ∧ ∀ m, a ≤ m → m < a + p → m % p = r → m = n := by
  have hp : 0 < p := by omega
  have ha : p * (a / p) + a % p = a := Nat.div_add_mod a p
  have hlt : a % p < p := Nat.mod_lt a hp
  -- two members of the window with one residue lie less than `p` apart
  have huniq : ∀ m n, a ≤ m → m < a + p → m % p = r → a ≤ n → n < a + p → n % p = r → m = n := by
    intro m n ham hmp hm han hnp hn
    have h1 := Nat.div_add_mod m p
    have h2 := Nat.div_add_mod n p
    rcases Nat.lt_trichotomy (m / p) (n / p) with hq | hq | hq
    · have := Nat.mul_le_mul_left p (Nat.succ_le_of_lt hq)
      rw [Nat.mul_succ] at this
      omega
    · rw [hq] at h1; omega
    · have := Nat.mul_le_mul_left p (Nat.succ_le_of_lt hq)
      rw [Nat.mul_succ] at this
      omega
  by_cases hle : a % p ≤ r
  · have hmod : (p * (a / p) + r) % p = r := by
      rw [Nat.mul_add_mod_self_left]; exact Nat.mod_eq_of_lt hr
    exact ⟨p * (a / p) + r, ⟨by omega, by omega, hmod⟩,
      fun m h1 h2 h3 => huniq m _ h1 h2 h3 (by omega) (by omega) hmod⟩
  · have hmod : (p * (a / p + 1) + r) % p = r := by
      rw [Nat.mul_add_mod_self_left]; exact Nat.mod_eq_of_lt hr
    have hexp : p * (a / p + 1) = p * (a / p) + p := Nat.mul_succ p (a / p)
    exact ⟨p * (a / p + 1) + r, ⟨by omega, by omega, hmod⟩,
      fun m h1 h2 h3 => huniq m _ h1 h2 h3 (by omega) (by omega) hmod⟩

/-- The scan shows pixel `(c, r)` exactly at the ticks with one residue modulo `w * h`. -/
theorem visit_iff {w h c r : Nat} (hc : c < w) (n : Nat) :
    (col w n = c ∧ row w h n = r) ↔ n % (w * h) = c + w * r := by
  unfold col row
  rw [Nat.mod_mul]
  have hlt : n % w < w := Nat.mod_lt n (by omega)
  constructor
  · rintro ⟨h1, h2⟩; rw [h1, h2]
  · intro heq
    have hmod : (n % w + w * (n / w % h)) % w = (c + w * r) % w := by rw [heq]
    rw [Nat.add_mul_mod_self_left, Nat.add_mul_mod_self_left, Nat.mod_eq_of_lt hlt,
      Nat.mod_eq_of_lt hc] at hmod
    have hrow : w * (n / w % h) = w * r := by omega
    exact ⟨hmod, Nat.eq_of_mul_eq_mul_left (by omega) hrow⟩

/-- **Every pixel once per frame**: any `w * h` consecutive ticks show each pixel exactly once. -/
theorem existsUnique_visit {w h c r : Nat} (hc : c < w) (hr : r < h) (a : Nat) :
    ∃ n, (a ≤ n ∧ n < a + w * h ∧ col w n = c ∧ row w h n = r) ∧
      ∀ m, a ≤ m → m < a + w * h → col w m = c → row w h m = r → m = n := by
  have hlt : c + w * r < w * h := by
    have := Nat.mul_le_mul_left w (Nat.succ_le_of_lt hr)
    rw [Nat.mul_succ] at this
    omega
  obtain ⟨n, ⟨h1, h2, h3⟩, huniq⟩ := existsUnique_mod hlt a
  exact ⟨n, ⟨h1, h2, (visit_iff hc n).mpr h3⟩,
    fun m ha hb hcm hrm => huniq m ha hb ((visit_iff hc m).mp ⟨hcm, hrm⟩)⟩

/-! ## The divided clock -/

/-- Level of a clock that toggles at each tick and shows `level` at tick `0`. -/
def levelAt (level : Bool) : Nat → Bool
  | 0 => level
  | n + 1 => !levelAt level n

/-- Ticks counted from the last one that found the divided clock low and itself before tick `0`:
    the divided clock is high at tick `n` exactly when this is even. -/
def phase (level : Bool) (n : Nat) : Nat := n + if level then 0 else 1

/-- Rising edges of the divided clock before tick `n`: it rises at the ticks that find it low. -/
def half (level : Bool) (n : Nat) : Nat := phase level n / 2

theorem phase_zero_lt (level : Bool) : phase level 0 < 2 := by cases level <;> decide

theorem phase_succ (level : Bool) (n : Nat) : phase level (n + 1) = phase level n + 1 := by
  unfold phase
  omega

theorem levelAt_eq (level : Bool) (n : Nat) :
    levelAt level n = decide (phase level n % 2 = 0) := by
  induction n with
  | zero => cases level <;> rfl
  | succ n ih =>
    rw [levelAt, ih, phase_succ]
    rcases Nat.mod_two_eq_zero_or_one (phase level n) with h | h
    · rw [decide_eq_true h, decide_eq_false (by omega)]; rfl
    · rw [decide_eq_false (by omega), decide_eq_true (by omega)]; rfl

theorem half_zero (level : Bool) : half level 0 = 0 := by cases level <;> rfl

/-- The count grows at the ticks that find the divided clock low, and only there. -/
theorem half_succ (level : Bool) (n : Nat) :
    half level (n + 1) = if levelAt level n then half level n else half level n + 1 := by
  rw [levelAt_eq]
  unfold half
  rw [phase_succ]
  rcases Nat.mod_two_eq_zero_or_one (phase level n) with h | h
  · rw [decide_eq_true h, if_pos rfl]; omega
  · rw [decide_eq_false (by omega), if_neg Bool.false_ne_true]; omega

end Raster
