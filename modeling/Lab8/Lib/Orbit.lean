/-
  Orbits that run into a cycle.

  A machine without inputs is a function `step : S → S`, and its run from `s` is `step^[n] s`.  Once
  the run comes back to a state it has been in, it goes round.  A `Circuit` is the evidence: so many
  steps lead to its base, so many more lead back to it, and on the way a partial view of the states
  has been recorded.  The infinite run is then a matter of this finite evidence:

  1. **Closed form** — `Circuit.wrap`, `Circuit.round`.
  2. **Recurrence** — `Circuit.revisits`: every window of one turn shows every state of the cycle.
  3. **Views** — `Circuit.mem_seen`: what was recorded is what the view ever shows on the cycle.
-/
import Mathlib.Dynamics.PeriodicPts.Defs

namespace Orbit

variable {S α : Type _} [DecidableEq α] {step : S → S} {view : S → Option α} {s : S}

/-! ## Recording a run -/

/-- One more observation, unless there is none or it repeats the last. -/
def note (seen : Option α) (past : List α) : List α :=
  match seen with
  | none => past
  | some a => if past.head? = some a then past else a :: past

/-- The state after `n` steps, and what `view` showed of the states before it, latest first and
    without repetitions in a row. -/
def record (step : S → S) (view : S → Option α) : Nat → S → List α → S × List α
  | 0, s, past => (s, past)
  | n + 1, s, past => record step view n (step s) (note (view s) past)

theorem record_fst (step : S → S) (view : S → Option α) (n : Nat) (s : S) (past : List α) :
    (record step view n s past).1 = step^[n] s := by
  induction n generalizing s past with
  | zero => rfl
  | succ n ih => exact ih (step s) _

theorem mem_note {seen : Option α} {past : List α} {a : α} :
    a ∈ note seen past ↔ a ∈ past ∨ seen = some a := by
  cases seen with
  | none => simp [note]
  | some b =>
    rw [note]
    split
    · rename_i hhead
      -- a repetition is on the record already
      refine ⟨Or.inl, ?_⟩
      rintro (h | h)
      · exact h
      · rw [← Option.some.inj h]
        exact List.mem_of_head? hhead
    · rw [List.mem_cons, or_comm, Option.some.injEq, eq_comm]

/-- **The record is complete and shows nothing else.** -/
theorem mem_record {n : Nat} {past : List α} {a : α} :
    a ∈ (record step view n s past).2 ↔ a ∈ past ∨ ∃ k < n, view (step^[k] s) = some a := by
  induction n generalizing s past with
  | zero => simp [record]
  | succ n ih =>
    rw [record, ih, mem_note, or_assoc]
    apply or_congr_right
    constructor
    · rintro (h | ⟨k, hk, h⟩)
      · exact ⟨0, Nat.succ_pos n, h⟩
      · exact ⟨k + 1, Nat.succ_lt_succ hk, h⟩
    · rintro ⟨k, hk, h⟩
      cases k with
      | zero => exact Or.inl h
      | succ k => exact Or.inr ⟨k, Nat.lt_of_succ_lt_succ hk, h⟩

/-! ## Circuits -/

/-- The run from `s` reaches `base` after `lead` steps and comes back to it after `turn` more, on
    which `view` showed `seen`. -/
structure Circuit (step : S → S) (view : S → Option α) (s : S) where
  lead : Nat
  turn : Nat
  turn_pos : 0 < turn
  base : S
  seen : List α
  reaches : step^[lead] s = base
  closes : record step view turn base [] = (base, seen)

/-- The same round, under another view. -/
def Circuit.watch {β : Type _} [DecidableEq β] (c : Circuit step view s) (view' : S → Option β)
    (seen : List β) (h : record step view' c.turn c.base [] = (c.base, seen)) :
    Circuit step view' s where
  lead := c.lead
  turn := c.turn
  turn_pos := c.turn_pos
  base := c.base
  seen := seen
  reaches := c.reaches
  closes := h

/-- The run continues from any of its states. -/
theorem iterate_split (step : S → S) (s : S) (a b : Nat) : step^[b] (step^[a] s) = step^[a + b] s := by
  rw [← Function.iterate_add_apply, Nat.add_comm]

variable (c : Circuit step view s)

/-- The base is a periodic point. -/
theorem Circuit.periodic : Function.IsPeriodicPt step c.turn (step^[c.lead] s) := by
  show step^[c.turn] (step^[c.lead] s) = step^[c.lead] s
  rw [c.reaches, ← record_fst step view c.turn c.base [], c.closes]

/-- **Closed form**: on the cycle only the remainder counts. -/
theorem Circuit.wrap (n : Nat) : step^[c.lead + n] s = step^[c.lead + n % c.turn] s := by
  rw [← iterate_split, ← iterate_split, c.periodic.iterate_mod_apply]

/-- A whole turn leads back. -/
theorem Circuit.round {n : Nat} (hn : c.lead ≤ n) : step^[n + c.turn] s = step^[n] s := by
  obtain ⟨k, rfl⟩ := Nat.exists_eq_add_of_le hn
  rw [Nat.add_assoc, c.wrap, c.wrap k, Nat.add_mod_right]

/-- **Every window of a turn shows every state of the cycle.** -/
theorem Circuit.revisits {a : Nat} (ha : c.lead ≤ a) (j : Nat) :
    ∃ n, a ≤ n ∧ n < a + c.turn ∧ step^[n] s = step^[c.lead + j] s := by
  obtain ⟨t, rfl⟩ := Nat.exists_eq_add_of_le ha
  -- the offset `r` brings `t` to `j` modulo the turn
  let r := (j + t * (c.turn - 1)) % c.turn
  have hr : r < c.turn := Nat.mod_lt _ c.turn_pos
  have hmod : (t + r) % c.turn = j % c.turn := by
    have hsum : t + (j + t * (c.turn - 1)) = j + t * c.turn := by
      obtain ⟨q, hq⟩ := Nat.exists_eq_add_of_le c.turn_pos
      rw [hq, Nat.succ_eq_add_one, Nat.zero_add, Nat.add_sub_cancel_left, Nat.mul_add, Nat.mul_one]
      omega
    rw [Nat.add_mod_mod, hsum, Nat.add_mul_mod_self_right]
  refine ⟨c.lead + (t + r), by omega, by omega, ?_⟩
  rw [c.wrap, hmod, ← c.wrap]

/-- **What a cycle shows is what one turn shows.** -/
theorem Circuit.mem_seen (a : α) : a ∈ c.seen ↔ ∃ k, view (step^[c.lead + k] s) = some a := by
  have hmem : a ∈ c.seen ↔ ∃ k < c.turn, view (step^[k] c.base) = some a := by
    have h : a ∈ (record step view c.turn c.base []).2 ↔
        a ∈ [] ∨ ∃ k < c.turn, view (step^[k] c.base) = some a := mem_record
    rw [c.closes] at h
    simpa using h
  rw [hmem]
  constructor
  · rintro ⟨k, _, h⟩
    exact ⟨k, by rwa [← iterate_split, c.reaches]⟩
  · rintro ⟨k, h⟩
    refine ⟨k % c.turn, Nat.mod_lt k c.turn_pos, ?_⟩
    rwa [← c.reaches, iterate_split, ← c.wrap]

end Orbit
