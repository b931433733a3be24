/-
  Hexadecimal numerals without padding.

  `Nat.toDigits 16` writes a number in as few digits as it needs, `Hex.read` reads a numeral of any
  length.  What is written is read back (`read_toDigits`), but numerals that stand side by side
  without a separator run together: a number in front is shifted by the digits the next one happens
  to have (`readFrom_toDigits`), not by those it may have.
-/
import Mathlib.Algebra.Group.Nat.Defs

namespace Hex

/-- The value of a digit. -/
def digit (c : Char) : Option Nat :=
  if '0' ≤ c ∧ c ≤ '9' then some (c.toNat - '0'.toNat)
  else if 'a' ≤ c ∧ c ≤ 'f' then some (c.toNat - 'a'.toNat + 10)
  else if 'A' ≤ c ∧ c ≤ 'F' then some (c.toNat - 'A'.toNat + 10)
  else none

/-- Read the digits `cs` behind a number that has been read already. -/
def readFrom (before : Nat) : List Char → Option Nat
  | [] => some before
  | c :: cs => (digit c).bind fun d => readFrom (16 * before + d) cs

/-- Read a numeral, of one digit at least. -/
def read (cs : List Char) : Option Nat := if cs = [] then none else readFrom 0 cs

theorem digit_digitChar {n : Nat} (hn : n < 16) : digit n.digitChar = some n := by
  have h : ∀ k : Fin 16, digit k.val.digitChar = some k.val := by decide
  exact h ⟨n, hn⟩

theorem readFrom_append (before : Nat) (xs ys : List Char) :
    readFrom before (xs ++ ys) = (readFrom before xs).bind fun n => readFrom n ys := by
  induction xs generalizing before with
  | nil => rfl
  | cons c xs ih =>
    rw [List.cons_append, readFrom, readFrom]
    cases digit c with
    | none => rfl
    | some d => exact ih _

/-- **A written number is read behind another**, which it shifts by its own digits. -/
theorem readFrom_toDigits (before n : Nat) : readFrom before (Nat.toDigits 16 n) =
    some (16 ^ (Nat.toDigits 16 n).length * before + n) := by
  induction n using Nat.strongRecOn generalizing before with
  | ind n ih =>
    by_cases hn : n < 16
    · rw [Nat.toDigits_of_lt_base hn, readFrom, digit_digitChar hn]
      simp [readFrom]
    · have hdiv := ih (n / 16) (by omega) before
      rw [Nat.toDigits_of_base_le (by decide) (Nat.le_of_not_lt hn), readFrom_append, hdiv,
        Option.bind_some, readFrom, digit_digitChar (Nat.mod_lt n (by decide)), Option.bind_some,
        readFrom, List.length_append, List.length_singleton, Nat.pow_succ]
      congr 1
      rw [Nat.mul_add, ← Nat.mul_assoc, Nat.mul_comm 16 (16 ^ _), Nat.add_assoc, Nat.div_add_mod]

/-- **What is written is read back.** -/
theorem read_toDigits (n : Nat) : read (Nat.toDigits 16 n) = some n := by
  rw [read, if_neg Nat.toDigits_ne_nil, readFrom_toDigits, Nat.mul_zero, Nat.zero_add]

/-- What is read are digits. -/
theorem digits_of_readFrom {before n : Nat} {cs : List Char} (h : readFrom before cs = some n) :
    ∀ c ∈ cs, ∃ d, digit c = some d := by
  induction cs generalizing before with
  | nil => exact fun c hc => absurd hc List.not_mem_nil
  | cons c cs ih =>
    rw [readFrom, Option.bind_eq_some_iff] at h
    obtain ⟨d, hd, hrest⟩ := h
    intro x hx
    rcases List.mem_cons.mp hx with rfl | hx
    · exact ⟨d, hd⟩
    · exact ih hrest x hx

theorem digits_of_read {cs : List Char} {n : Nat} (h : read cs = some n) :
    cs ≠ [] ∧ ∀ c ∈ cs, ∃ d, digit c = some d := by
  rw [read, Option.ite_none_left_eq_some] at h
  exact ⟨h.1, digits_of_readFrom h.2⟩

/-- A byte has one digit or two. -/
theorem length_toDigits_byte {n : Nat} (hn : n < 256) :
    (Nat.toDigits 16 n).length = if n < 16 then 1 else 2 := by
  split
  · next h => rw [Nat.toDigits_of_lt_base h, List.length_singleton]
  · next h =>
    rw [Nat.toDigits_of_base_le (by decide) (Nat.le_of_not_lt h),
      Nat.toDigits_of_lt_base (by omega)]
    rfl

end Hex
