/-
  Banks of latches: bits that are set one at a time and never fall.

  A bitmap `f : ι → Bool` whose ticks only set bits is a bank of latches.  Two bitmaps of such a
  run are ordered (`Rises f g`), and what was set in between is the finite set `raised f g`:

  1. **Additivity** — along `f ≤ g ≤ h` the set bits split into those set before `g` and those set
     after it (`raised_card_add`).
  2. **One write** — setting bit `a` raises it if it was down and nothing otherwise
     (`raised_setAt`), so at most one bit per write.

  A counter that is stepped once for each write that finds its bit down therefore shows the number
  of bits raised; `card_raised_le` bounds it by the number of bits that were down.
-/
import Mathlib.Data.Fintype.Card

namespace Latch

variable {ι : Type*}

/-! ## Order -/

/-- No bit falls from `f` to `g`. -/
def Rises (f g : ι → Bool) : Prop := ∀ i, f i = true → g i = true

theorem Rises.refl (f : ι → Bool) : Rises f f := fun _ h => h

theorem Rises.trans {f g h : ι → Bool} (hfg : Rises f g) (hgh : Rises g h) : Rises f h :=
  fun i hi => hgh i (hfg i hi)

/-! ## The bits raised -/

section Raised

variable [Fintype ι]

/-- The bits that are down in `f`. -/
def down (f : ι → Bool) : Finset ι := Finset.univ.filter (fun i => f i = false)

/-- The bits that are down in `f` and up in `g`. -/
def raised (f g : ι → Bool) : Finset ι := Finset.univ.filter (fun i => f i = false ∧ g i = true)

@[simp] theorem mem_raised {f g : ι → Bool} {i : ι} :
    i ∈ raised f g ↔ f i = false ∧ g i = true := by
  rw [raised, Finset.mem_filter]
  exact and_iff_right (Finset.mem_univ i)

@[simp] theorem mem_down {f : ι → Bool} {i : ι} : i ∈ down f ↔ f i = false := by
  rw [down, Finset.mem_filter]
  exact and_iff_right (Finset.mem_univ i)

theorem raised_self (f : ι → Bool) : raised f f = ∅ := by
  ext i
  rw [mem_raised]
  constructor
  · rintro ⟨h, h'⟩
    rw [h] at h'
    exact absurd h' Bool.false_ne_true
  · exact fun h => absurd h (Finset.notMem_empty i)

/-- A bit can only be raised if it was down. -/
theorem card_raised_le (f g : ι → Bool) : (raised f g).card ≤ (down f).card := by
  apply Finset.card_le_card
  intro i hi
  exact mem_down.mpr (mem_raised.mp hi).1

/-- **Additivity.** -/
theorem raised_card_add {f g h : ι → Bool} (hfg : Rises f g) (hgh : Rises g h) :
    (raised f h).card = (raised f g).card + (raised g h).card := by
  classical
  have hdisj : Disjoint (raised f g) (raised g h) := by
    rw [Finset.disjoint_left]
    intro i h1 h2
    rw [mem_raised] at h1 h2
    rw [h2.1] at h1
    exact absurd h1.2 Bool.false_ne_true
  have hunion : raised f h = raised f g ∪ raised g h := by
    ext i
    rw [Finset.mem_union, mem_raised, mem_raised, mem_raised]
    constructor
    · rintro ⟨hf, hh⟩
      cases hg : g i with
      | true => exact Or.inl ⟨hf, rfl⟩
      | false => exact Or.inr ⟨rfl, hh⟩
    · rintro (⟨hf, hg⟩ | ⟨hg, hh⟩)
      · exact ⟨hf, hgh i hg⟩
      · refine ⟨?_, hh⟩
        -- a bit up in `f` would still be up in `g`
        cases hf : f i with
        | false => rfl
        | true => rw [hfg i hf] at hg; exact absurd hg.symm Bool.false_ne_true
  rw [hunion, Finset.card_union_of_disjoint hdisj]

end Raised

/-! ## One write -/

section Write

variable [DecidableEq ι]

/-- `f` with bit `a` set. -/
def setAt (f : ι → Bool) (a : ι) : ι → Bool := fun i => if i = a then true else f i

theorem rises_setAt (f : ι → Bool) (a : ι) : Rises f (setAt f a) := by
  intro i hi
  unfold setAt
  split
  · rfl
  · exact hi

/-- **One write raises its own bit**, if that was down. -/
theorem raised_setAt [Fintype ι] (f : ι → Bool) (a : ι) :
    raised f (setAt f a) = if f a = false then {a} else ∅ := by
  ext i
  rw [mem_raised]
  unfold setAt
  by_cases hi : i = a
  · subst hi
    cases f i <;> simp
  · rw [if_neg hi]
    cases ha : f a <;> cases hf : f i <;> simp [hi]

end Write

end Latch
