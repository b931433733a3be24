/-
  Runs of a synchronous machine: one step function, one input per clock tick.

  A clocked circuit is a function `step : I → S → S`; a run feeds it the waveform `ins : Nat → I`
  and `run step ins s n` is the register state after `n` ticks.  Everything a development over such
  a machine repeats is stated here once:

  1. **Invariants** — `run_inv` packages "holds at the start, kept by each tick of this run".
  2. **Relations** — `run_rel` is the two-run version: a relation kept by each pair of ticks holds
     at every time.  It serves determinism and reset arguments.
  3. **Holding and one-shot changes** — `const_between` and `once`: a signal that no tick of an
     interval changes is constant on it, and a latched event happens at most once.  `rank_until` and
     `event_recurs` are the rules for what has to happen in the end.
  4. **Sampling** — a slow machine driven by the ticks at which an event fires.  `sampled` is the
     list of values seen at the events; `run_sampled` is the simulation rule that turns a
     stuttering simulation of the slow step into an equality with the slow run.
  5. **Edges** — the one-register edge detector as a statement about waveforms.
-/
import Mathlib.Data.Nat.Init

namespace Clocked

variable {I J S U α β : Type _}

/-! ## Runs and the invariant rule -/

/-- The state after `n` ticks of the machine `step` on the waveform `ins`, started in `s`. -/
def run (step : I → S → S) (ins : Nat → I) (s : S) : Nat → S
  | 0 => s
  | n + 1 => step (ins n) (run step ins s n)

@[simp] theorem run_zero (step : I → S → S) (ins : Nat → I) (s : S) : run step ins s 0 = s := rfl

theorem run_succ (step : I → S → S) (ins : Nat → I) (s : S) (n : Nat) :
    run step ins s (n + 1) = step (ins n) (run step ins s n) := rfl

/-- **The invariant rule.**  What holds at the start and survives each tick of this run holds at
    every tick of it. -/
theorem run_inv {step : I → S → S} {ins : Nat → I} {s : S} {P : S → Prop} (h0 : P s)
    (hstep : ∀ n, P (run step ins s n) → P (step (ins n) (run step ins s n))) :
    ∀ n, P (run step ins s n) := by
  intro n
  induction n with
  | zero => exact h0
  | succ n ih => exact hstep n ih

/-- The state after `n` ticks depends on the inputs of these ticks only. -/
theorem run_congr {step : I → S → S} {ins ins' : Nat → I} (s : S) {n : Nat}
    (h : ∀ k, k < n → ins k = ins' k) : run step ins s n = run step ins' s n := by
  induction n with
  | zero => rfl
  | succ n ih =>
    rw [run_succ, run_succ, h n (Nat.lt_succ_self n), ih (fun k hk => h k (Nat.lt_succ_of_lt hk))]

/-- **The relational rule.**  Two machines whose ticks keep `R` stay related. -/
theorem run_rel {step : I → S → S} {step' : J → U → U} {ins : Nat → I} {ins' : Nat → J}
    {s : S} {t : U} {R : S → U → Prop} (h0 : R s t)
    (hstep : ∀ n s t, R s t → R (step (ins n) s) (step' (ins' n) t)) :
    ∀ n, R (run step ins s n) (run step' ins' t n) := by
  intro n
  induction n with
  | zero => exact h0
  | succ n ih => exact hstep n _ _ ih

/-! ## Signals that hold, and events that happen once -/

/-- A signal that no tick in `[a, b)` changes has the same value at both ends. -/
theorem const_between {f : Nat → α} {a b : Nat} (hab : a ≤ b)
    (h : ∀ n, a ≤ n → n < b → f (n + 1) = f n) : f b = f a := by
  induction b, hab using Nat.le_induction with
  | base => rfl
  | succ b hab ih =>
    rw [h b hab (Nat.lt_succ_self b)]
    exact ih (fun n hn hnb => h n hn (Nat.lt_succ_of_lt hnb))

/-- A property that every tick from `a` on keeps holds from `a` on. -/
theorem keeps_from {P : Nat → Prop} {a b : Nat} (hab : a ≤ b) (ha : P a)
    (h : ∀ n, a ≤ n → n < b → P n → P (n + 1)) : P b := by
  induction b, hab using Nat.le_induction with
  | base => exact ha
  | succ b hab ih =>
    exact h b hab (Nat.lt_succ_self b) (ih (fun n hn hnb => h n hn (Nat.lt_succ_of_lt hnb)))

/-- **A latched event happens once.**  If every change of `f` sets the latch `d`, the latch
    stays set, and a set latch rules a change out, then `f` changes at most once. -/
theorem once {f : Nat → α} {d : Nat → Prop} (hset : ∀ n, f (n + 1) ≠ f n → d (n + 1))
    (hkeep : ∀ n, d n → d (n + 1)) (hoff : ∀ n, d n → f (n + 1) = f n)
    {m n : Nat} (hm : f (m + 1) ≠ f m) (hn : f (n + 1) ≠ f n) : m = n := by
  have hlt : ∀ {a b}, f (a + 1) ≠ f a → f (b + 1) ≠ f b → ¬ a < b := by
    intro a b ha hb hab
    have hd : d b := keeps_from (P := d) hab (hset a ha) (fun k _ _ hk => hkeep k hk)
    exact hb (hoff b hd)
  exact Nat.le_antisymm (Nat.le_of_not_lt (hlt hn hm)) (Nat.le_of_not_lt (hlt hm hn))

/-- A bit that is down at `a` and up at `b` went up at a tick in between. -/
theorem exists_rise {f : Nat → Bool} {a b : Nat} (hab : a ≤ b) (ha : f a = false)
    (hb : f b = true) : ∃ n, a ≤ n ∧ n < b ∧ f n = false ∧ f (n + 1) = true := by
  induction b, hab using Nat.le_induction with
  | base => rw [ha] at hb; exact absurd hb Bool.false_ne_true
  | succ b hab ih =>
    cases hfb : f b with
    | false => exact ⟨b, hab, Nat.lt_succ_self b, hfb, hb⟩
    | true =>
      obtain ⟨n, h1, h2, h3⟩ := ih hfb
      exact ⟨n, h1, by omega, h3⟩

/-- **A signal that climbs by at most `w` per tick cannot jump over the band `[0, w)`.** -/
theorem exists_in_band {f : Nat → Int} {w : Int} {a b : Nat} (hab : a ≤ b) (ha : f a < 0)
    (hb : 0 ≤ f b) (h : ∀ n, a ≤ n → n < b → f (n + 1) ≤ f n + w) :
    ∃ c, a ≤ c ∧ c ≤ b ∧ 0 ≤ f c ∧ f c < w := by
  induction b, hab using Nat.le_induction with
  | base => omega
  | succ b hab ih =>
    rcases Int.lt_or_le (f b) 0 with hlt | hge
    · -- the crossing happens in the last tick
      have := h b hab (Nat.lt_succ_self b)
      exact ⟨b + 1, by omega, Nat.le_refl _, hb, by omega⟩
    · obtain ⟨c, hac, hcb, hc⟩ := ih hge (fun n hn hnb => h n hn (by omega))
      exact ⟨c, hac, by omega, hc⟩

/-- **A counter that climbs by at most one per tick takes every value in between.** -/
theorem exists_count {f : Nat → Nat} {a b v : Nat} (hab : a ≤ b) (ha : f a ≤ v) (hb : v ≤ f b)
    (h : ∀ n, a ≤ n → n < b → f (n + 1) ≤ f n + 1) : ∃ c, a ≤ c ∧ c ≤ b ∧ f c = v := by
  induction b, hab using Nat.le_induction with
  | base => exact ⟨a, Nat.le_refl a, Nat.le_refl a, Nat.le_antisymm ha hb⟩
  | succ b hab ih =>
    rcases Nat.lt_or_ge (f b) v with hlt | hge
    · -- the last tick takes the value
      have := h b hab (Nat.lt_succ_self b)
      exact ⟨b + 1, by omega, Nat.le_refl _, by omega⟩
    · obtain ⟨c, hac, hcb, hc⟩ := ih hge (fun n hn hnb => h n hn (by omega))
      exact ⟨c, hac, by omega, hc⟩

/-- **A rank that falls with every event runs out.**  While `P` has not happened, what is left of the
    rank pays for the events counted; once it has happened it stays. -/
theorem rank_until (P : Nat → Prop) (events rank : Nat → Nat) {a b : Nat} (hab : a ≤ b)
    (h : ∀ n, a ≤ n → n < b →
      P (n + 1) ∨ (¬ P n ∧ events (n + 1) + rank (n + 1) = events n + rank n)) :
    P b ∨ events b + rank b = events a + rank a := by
  induction b, hab using Nat.le_induction with
  | base => exact Or.inr rfl
  | succ b hab ih =>
    rcases h b hab (Nat.lt_succ_self b) with hP | ⟨hno, heq⟩
    · exact Or.inl hP
    · have hb := ih (fun n hn hnb => h n hn (Nat.lt_succ_of_lt hnb))
      exact Or.inr (heq.trans (hb.resolve_left hno))

/-- **Progress under fairness.**  From `a` on no tick raises the rank, and a good one lowers it unless
    the event happens at it.  If good ticks recur, so does the event. -/
theorem event_recurs {rank : Nat → Nat} {good event : Nat → Prop} {a : Nat}
    (hkeep : ∀ n, a ≤ n → ¬ good n → rank (n + 1) ≤ rank n)
    (hgood : ∀ n, a ≤ n → good n → event n ∨ rank (n + 1) < rank n)
    (hfair : ∀ n, ∃ m, n ≤ m ∧ good m) (n : Nat) (hn : a ≤ n) : ∃ m, n ≤ m ∧ event m := by
  induction h : rank n using Nat.strongRecOn generalizing n with
  | ind r ih =>
    obtain ⟨m, hnm, hm⟩ := hfair n
    by_cases hev : ∃ k, n ≤ k ∧ k < m ∧ event k
    · obtain ⟨k, hnk, -, hk⟩ := hev
      exact ⟨k, hnk, hk⟩
    · -- up to the good tick the rank has not risen
      have hle : rank m ≤ rank n := by
        refine keeps_from (P := fun k => rank k ≤ rank n) hnm (Nat.le_refl _) ?_
        intro k hnk hkm hk
        refine Nat.le_trans ?_ hk
        by_cases hg : good k
        · rcases hgood k (Nat.le_trans hn hnk) hg with he | hlt
          · exact absurd ⟨k, hnk, hkm, he⟩ hev
          · exact Nat.le_of_lt hlt
        · exact hkeep k (Nat.le_trans hn hnk) hg
      rcases hgood m (Nat.le_trans hn hnm) hm with he | hlt
      · exact ⟨m, hnm, he⟩
      · obtain ⟨k, hmk, hk⟩ := ih (rank (m + 1)) (by omega) (m + 1) (by omega) rfl
        exact ⟨k, by omega, hk⟩

/-! ## Sampling a waveform at an event -/

/-- The values `vals` shows at the ticks before `n` at which `ev` fires, oldest first. -/
def sampled (ev : Nat → Bool) (vals : Nat → α) : Nat → List α
  | 0 => []
  | n + 1 => if ev n then sampled ev vals n ++ [vals n] else sampled ev vals n

/-- Only the values at the events matter. -/
theorem sampled_congr {ev : Nat → Bool} {vals vals' : Nat → α}
    (h : ∀ n, ev n = true → vals n = vals' n) :
    ∀ n, sampled ev vals n = sampled ev vals' n := by
  intro n
  induction n with
  | zero => rfl
  | succ n ih =>
    rw [sampled, sampled, ih]
    by_cases he : ev n = true
    · rw [if_pos he, if_pos he, h n he]
    · rw [if_neg he, if_neg he]

/-- Later samples are appended, and an event appends one. -/
theorem sampled_append (ev : Nat → Bool) (vals : Nat → α) {m n : Nat} (hmn : m ≤ n) :
    ∃ later, sampled ev vals n = sampled ev vals m ++ later ∧
      ((∃ k, m ≤ k ∧ k < n ∧ ev k = true) → later ≠ []) := by
  induction n, hmn using Nat.le_induction with
  | base =>
    refine ⟨[], (List.append_nil _).symm, ?_⟩
    rintro ⟨k, hmk, hkm, _⟩
    omega
  | succ n hmn ih =>
    obtain ⟨later, heq, hne⟩ := ih
    rw [sampled]
    cases he : ev n with
    | true =>
      refine ⟨later ++ [vals n], ?_, fun _ => List.append_ne_nil_of_right_ne_nil _ (by simp)⟩
      rw [if_pos rfl, heq, List.append_assoc]
    | false =>
      refine ⟨later, by rw [if_neg Bool.false_ne_true, heq], ?_⟩
      rintro ⟨k, hmk, hkn, hk⟩
      refine hne ⟨k, hmk, Nat.lt_of_le_of_ne (Nat.le_of_lt_succ hkn) ?_, hk⟩
      rintro rfl
      exact Bool.false_ne_true (he.symm.trans hk)

/-- Sampling a function of a counter samples the counter. -/
theorem sampled_map {ev : Nat → Bool} {vals : Nat → α} {c : Nat → β} {f : β → α} {n : Nat}
    (h : ∀ k, k < n → vals k = f (c k)) : sampled ev vals n = (sampled ev c n).map f := by
  induction n with
  | zero => rfl
  | succ n ih =>
    have hn := ih (fun k hk => h k (Nat.lt_succ_of_lt hk))
    rw [sampled, sampled, hn, h n (Nat.lt_succ_self n)]
    split
    · rw [List.map_append]
      rfl
    · rfl

/-- **A counter that never falls is sampled in order.** -/
theorem sampled_sorted (ev : Nat → Bool) {c : Nat → Nat} (hc : ∀ n, c n ≤ c (n + 1)) (n : Nat) :
    (sampled ev c n).Pairwise (· ≤ ·) ∧ ∀ x ∈ sampled ev c n, x ≤ c n := by
  induction n with
  | zero => exact ⟨List.Pairwise.nil, fun x hx => absurd hx List.not_mem_nil⟩
  | succ n ih =>
    obtain ⟨hsorted, hle⟩ := ih
    rw [sampled]
    split
    · refine ⟨List.pairwise_append.mpr ⟨hsorted, List.pairwise_singleton _ _, ?_⟩, ?_⟩
      · intro x hx y hy
        rw [List.mem_singleton.mp hy]
        exact hle x hx
      · intro x hx
        rcases List.mem_append.mp hx with hx | hx
        · exact Nat.le_trans (hle x hx) (hc n)
        · rw [List.mem_singleton.mp hx]
          exact hc n
    · exact ⟨hsorted, fun x hx => Nat.le_trans (hle x hx) (hc n)⟩

/-- **A register that is loaded at the events** shows the last of the samples. -/
theorem register_last {ev : Nat → Bool} {vals reg : Nat → α}
    (h : ∀ n, reg (n + 1) = if ev n then vals n else reg n) (n : Nat) :
    (reg 0 :: sampled ev vals n)[(sampled ev vals n).length]? = some (reg n) := by
  induction n with
  | zero => rfl
  | succ n ih =>
    rw [sampled, h n]
    split
    · rw [← List.cons_append, List.getElem?_append_right (by simp)]
      simp
    · exact ih

/-- The slow machine's state after consuming a list of samples. -/
def runList (step : α → S → S) (s : S) (xs : List α) : S := xs.foldl (fun s x => step x s) s

theorem runList_concat (step : α → S → S) (s : S) (xs : List α) (x : α) :
    runList step s (xs ++ [x]) = step x (runList step s xs) := by
  simp [runList]

theorem runList_append (step : α → S → S) (s : S) (xs ys : List α) :
    runList step s (xs ++ ys) = runList step (runList step s xs) ys := List.foldl_append

/-- **The sampling rule.**  If at an event the fast tick simulates one slow step on the sampled
    value, and at every other tick the fast state keeps simulating the same slow state, then after
    `n` ticks the fast run simulates the slow run over the samples taken so far. -/
theorem run_sampled {step : I → S → S} {slow : α → U → U} {ins : Nat → I} {s : S} {t : U}
    {ev : Nat → Bool} {vals : Nat → α} {R : Nat → S → U → Prop} (h0 : R 0 s t)
    (hev : ∀ n s t, ev n = true → R n s t → R (n + 1) (step (ins n) s) (slow (vals n) t))
    (hidle : ∀ n s t, ev n = false → R n s t → R (n + 1) (step (ins n) s) t) :
    ∀ n, R n (run step ins s n) (runList slow t (sampled ev vals n)) := by
  intro n
  induction n with
  | zero => exact h0
  | succ n ih =>
    rw [run_succ, sampled]
    cases he : ev n with
    | true => rw [if_pos rfl, runList_concat]; exact hev n _ _ he ih
    | false => rw [if_neg Bool.false_ne_true]; exact hidle n _ _ he ih

/-! ## Edge detection -/

/-- What a register loaded from the waveform `w` at each tick shows at tick `n`, when it shows
    `before` at tick `0`. -/
def delayed (before : Bool) (w : Nat → Bool) : Nat → Bool
  | 0 => before
  | n + 1 => w n

/-- The waveform is high at tick `n` and its delayed copy low: a rising edge is seen. -/
def rises (before : Bool) (w : Nat → Bool) (n : Nat) : Bool := w n && !delayed before w n

end Clocked
