/-
  Machines that answer each input with a list of outputs.

  A program that talks to its environment is, between two things it waits for, one step
  `S → I → S × List O`: it takes what arrived, acts, and waits again.  `after` is its state and
  `emit` its whole output on a list of inputs.  What is said about such a program is mostly a LAW
  OF ITS TRACE — each output is allowed by the outputs before it — and is proved from what one step
  does:

  1. **Composition** — `emit_append`.
  2. **Laws** — `Obeys ok past t`: every output of `t` is allowed after `past` and the part of `t`
     before it.  `obeys_iff` restates it over all splittings of `t`.
  3. **The trace rule** — `emit_obeys`: an invariant between trace and state that every step keeps,
     and under which its outputs are allowed, gives the law of every run.
  4. **Where an output comes from** — `emit_split`: each output belongs to one step of the run.
  5. **Progress** — `Answers good s ins`: every input is a good one for the state it finds.
     `emit_progress`: where good inputs lower a rank until the output wanted is made, it is made.
-/
import Mathlib.Data.Nat.Init

namespace Emit

variable {I O S : Type _}

/-! ## Runs -/

/-- The state after a list of inputs. -/
def after (step : S → I → S × List O) (s : S) : List I → S
  | [] => s
  | i :: rest => after step (step s i).1 rest

/-- The outputs on a list of inputs. -/
def emit (step : S → I → S × List O) (s : S) : List I → List O
  | [] => []
  | i :: rest => (step s i).2 ++ emit step (step s i).1 rest

theorem after_append (step : S → I → S × List O) (s : S) (xs ys : List I) :
    after step s (xs ++ ys) = after step (after step s xs) ys := by
  induction xs generalizing s with
  | nil => rfl
  | cons i rest ih => exact ih _

theorem emit_append (step : S → I → S × List O) (s : S) (xs ys : List I) :
    emit step s (xs ++ ys) = emit step s xs ++ emit step (after step s xs) ys := by
  induction xs generalizing s with
  | nil => rfl
  | cons i rest ih =>
    rw [List.cons_append, emit, emit, after, ih, List.append_assoc]

/-! ## Laws of a trace -/

/-- Every output of `t` is allowed after `past` and the outputs of `t` before it. -/
def Obeys (ok : List O → O → Prop) : List O → List O → Prop
  | _, [] => True
  | past, o :: rest => ok past o ∧ Obeys ok (past ++ [o]) rest

theorem obeys_append {ok : List O → O → Prop} {past xs ys : List O} :
    Obeys ok past (xs ++ ys) ↔ Obeys ok past xs ∧ Obeys ok (past ++ xs) ys := by
  induction xs generalizing past with
  | nil =>
    rw [List.nil_append, List.append_nil]
    exact ⟨fun h => ⟨trivial, h⟩, fun h => h.2⟩
  | cons o rest ih =>
    rw [List.cons_append, Obeys, Obeys, ih, List.append_assoc, List.singleton_append, and_assoc]

/-- The law over all splittings. -/
theorem obeys_iff {ok : List O → O → Prop} {past t : List O} :
    Obeys ok past t ↔ ∀ a o b, t = a ++ o :: b → ok (past ++ a) o := by
  constructor
  · rintro h a o b rfl
    exact (obeys_append.mp h).2.1
  · intro h
    induction t generalizing past with
    | nil => trivial
    | cons o rest ih =>
      refine ⟨?_, ih ?_⟩
      · have ho := h [] o rest rfl
        rwa [List.append_nil] at ho
      · intro a o' b hab
        rw [List.append_assoc]
        exact h (o :: a) o' b (congrArg (o :: ·) hab)

/-- **The trace rule.**  `R` relates the trace so far to the state; a step that finds it keeps it
    and makes only outputs the law allows.  Then the run obeys the law, and `R` holds at its end. -/
theorem emit_obeys {step : S → I → S × List O} {ok : List O → O → Prop} {R : List O → S → Prop}
    (hstep : ∀ past s i, R past s →
      Obeys ok past (step s i).2 ∧ R (past ++ (step s i).2) (step s i).1)
    {past : List O} {s : S} (h0 : R past s) (ins : List I) :
    Obeys ok past (emit step s ins) ∧ R (past ++ emit step s ins) (after step s ins) := by
  induction ins generalizing past s with
  | nil => exact ⟨trivial, by rwa [emit, List.append_nil]⟩
  | cons i rest ih =>
    obtain ⟨hok, hR⟩ := hstep past s i h0
    obtain ⟨hrest, hend⟩ := ih hR
    rw [emit, after]
    exact ⟨obeys_append.mpr ⟨hok, hrest⟩, by rwa [← List.append_assoc]⟩

/-- An element of `xs ++ ys` lies in one of the two. -/
theorem split_append {xs ys a b : List O} {o : O} (h : xs ++ ys = a ++ o :: b) :
    (∃ y, xs = a ++ o :: y ∧ b = y ++ ys) ∨ ∃ x, a = xs ++ x ∧ ys = x ++ o :: b := by
  rcases List.append_eq_append_iff.mp h with ⟨x, ha, hys⟩ | ⟨c, hxs, hc⟩
  · exact .inr ⟨x, ha, hys⟩
  · cases c with
    | nil => exact .inr ⟨[], by rw [hxs, List.append_nil, List.append_nil], hc.symm⟩
    | cons o' y =>
      obtain ⟨rfl, rfl⟩ := List.cons.inj hc
      exact .inl ⟨y, hxs, rfl⟩

/-- **Each output belongs to one step.** -/
theorem emit_split {step : S → I → S × List O} {s : S} {ins : List I} {a b : List O} {o : O}
    (h : emit step s ins = a ++ o :: b) : ∃ (past : List I) (i : I) (rest : List I) (x y : List O),
      ins = past ++ i :: rest ∧ (step (after step s past) i).2 = x ++ o :: y ∧
      a = emit step s past ++ x ∧ b = y ++ emit step (step (after step s past) i).1 rest := by
  induction ins generalizing s a with
  | nil => exact absurd h.symm (List.append_ne_nil_of_right_ne_nil a (List.cons_ne_nil o b))
  | cons i rest ih =>
    rcases split_append h with ⟨y, hs, rfl⟩ | ⟨x, rfl, hrest⟩
    · exact ⟨[], i, rest, a, y, rfl, hs, rfl, rfl⟩
    · obtain ⟨past, j, rest', x, y, rfl, hs, rfl, rfl⟩ := ih hrest
      exact ⟨i :: past, j, rest', x, y, rfl, hs, (List.append_assoc _ _ _).symm, rfl⟩

/-! ## Progress -/

/-- Every input is good for the state it finds. -/
def Answers (step : S → I → S × List O) (good : S → I → Prop) (s : S) : List I → Prop
  | [] => True
  | i :: rest => good s i ∧ Answers step good (step s i).1 rest

instance decidableAnswers (step : S → I → S × List O) (good : S → I → Prop)
    [∀ s i, Decidable (good s i)] : ∀ s ins, Decidable (Answers step good s ins)
  | _, [] => isTrue trivial
  | s, i :: rest =>
    have := decidableAnswers step good (step s i).1 rest
    inferInstanceAs (Decidable (good s i ∧ Answers step good (step s i).1 rest))

/-- **The progress rule.**  A good input leads to the output wanted or lowers the rank; then more
    good inputs than the rank lead to it. -/
theorem emit_progress {step : S → I → S × List O} {good : S → I → Prop} (rank : S → Nat)
    (wanted : O → Prop)
    (hstep : ∀ s i, good s i → (∃ o ∈ (step s i).2, wanted o) ∨ rank (step s i).1 < rank s)
    {s : S} {ins : List I} (hgood : Answers step good s ins) (hlen : rank s < ins.length) :
    ∃ o ∈ emit step s ins, wanted o := by
  induction ins generalizing s with
  | nil => exact absurd hlen (Nat.not_lt_zero _)
  | cons i rest ih =>
    obtain ⟨hi, hrest⟩ := hgood
    rw [List.length_cons] at hlen
    rcases hstep s i hi with ⟨o, ho, hw⟩ | hlt
    · exact ⟨o, List.mem_append_left _ ho, hw⟩
    · obtain ⟨o, ho, hw⟩ := ih hrest (by omega)
      exact ⟨o, List.mem_append_right _ ho, hw⟩

end Emit
