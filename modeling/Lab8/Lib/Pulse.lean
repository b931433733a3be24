/-
  Pulses: the maximal runs of a waveform on which a signal is active.

  A waveform is the list of samples of a bus, one per clock tick, and `act` says when the strobe of
  interest is active.  `pulses act` are the maximal blocks of consecutive active samples, in order.
  A protocol proof cuts the waveform into idle and active blocks and reads the pulses off:

  * an idle block adds no pulse (`pulses_idle_append`);
  * an active block that an idle sample closes is a pulse (`pulses_active_append`).
-/
import Mathlib.Data.List.Basic

namespace Pulse

variable {α : Type*} {act : α → Bool}

/-- The maximal blocks of consecutive active samples. -/
def pulses (act : α → Bool) (w : List α) : List (List α) :=
  (w.splitOnP (fun a => !act a)).filter (fun b => !b.isEmpty)

@[simp] theorem pulses_nil : pulses act ([] : List α) = [] := by
  simp [pulses]

/-- An idle sample in front adds nothing. -/
theorem pulses_idle {a : α} (h : act a = false) (w : List α) :
    pulses act (a :: w) = pulses act w := by
  rw [pulses, List.splitOnP_cons_eq_if_modifyHead, if_pos (by rw [h]; rfl), List.filter_cons,
    if_neg (by simp)]
  rfl

/-- An idle block in front adds nothing. -/
theorem pulses_idle_append {idle : List α} (h : ∀ a ∈ idle, act a = false) (w : List α) :
    pulses act (idle ++ w) = pulses act w := by
  induction idle with
  | nil => rfl
  | cons a idle ih =>
    rw [List.cons_append, pulses_idle (h a List.mem_cons_self)]
    exact ih (fun b hb => h b (List.mem_cons_of_mem a hb))

/-- **An active block closed by an idle sample is a pulse.** -/
theorem pulses_active_append {active : List α} (hne : active ≠ []) (h : ∀ a ∈ active, act a = true)
    {b : α} (hb : act b = false) (w : List α) :
    pulses act (active ++ b :: w) = active :: pulses act w := by
  have hsplit : (active ++ b :: w).splitOnP (fun a => !act a) =
      active :: w.splitOnP (fun a => !act a) :=
    List.splitOnP_append_cons_of_forall_mem (fun a ha => by rw [h a ha]; rfl) b (by rw [hb]; rfl) w
  rw [pulses, hsplit, List.filter_cons, if_pos (by simp [hne])]
  rfl

/-- The same, when the pulse is closed by a whole idle block. -/
theorem pulses_pulse {active idle : List α} (hactive : active ≠ [])
    (h : ∀ a ∈ active, act a = true) (hidle : idle ≠ []) (h' : ∀ a ∈ idle, act a = false)
    (w : List α) : pulses act (active ++ (idle ++ w)) = active :: pulses act w := by
  obtain ⟨b, idle, rfl⟩ := List.exists_cons_of_ne_nil hidle
  rw [List.cons_append, pulses_active_append hactive h (h' b List.mem_cons_self),
    pulses_idle_append (fun a ha => h' a (List.mem_cons_of_mem b ha))]

/-- **Blocks that are closed one by one** are the pulses. -/
theorem pulses_flatMap {blocks : List (List α)} (hne : ∀ w ∈ blocks, w ≠ [])
    (h : ∀ w ∈ blocks, ∀ a ∈ w, act a = true) {b : α} (hb : act b = false) :
    pulses act (blocks.flatMap (· ++ [b])) = blocks := by
  induction blocks with
  | nil => exact pulses_nil
  | cons w blocks ih =>
    rw [List.flatMap_cons, List.append_assoc, List.singleton_append,
      pulses_active_append (hne w List.mem_cons_self) (h w List.mem_cons_self) hb,
      ih (fun v hv => hne v (List.mem_cons_of_mem w hv))
        (fun v hv => h v (List.mem_cons_of_mem w hv))]

/-- An active sample in front starts the first pulse or lengthens it. -/
theorem mem_pulses_cons {a : α} (h : act a = true) {w : List α} {x : α}
    (hx : x = a ∨ ∃ b ∈ pulses act w, x ∈ b) : ∃ b ∈ pulses act (a :: w), x ∈ b := by
  obtain ⟨s, ss, hs⟩ := List.exists_cons_of_ne_nil
    (List.splitOnP_ne_nil (fun a => !act a) w)
  have hcons : pulses act (a :: w) = (a :: s) :: ss.filter (fun b => !b.isEmpty) := by
    rw [pulses, List.splitOnP_cons_eq_if_modifyHead, if_neg (by rw [h]; decide), hs,
      List.modifyHead_cons, List.filter_cons, if_pos (by simp)]
  rw [hcons]
  rcases hx with rfl | ⟨b, hb, hxb⟩
  · exact ⟨x :: s, List.mem_cons_self, List.mem_cons_self⟩
  · rw [pulses, hs, List.mem_filter, List.mem_cons] at hb
    obtain ⟨rfl | hb, hne⟩ := hb
    · exact ⟨a :: b, List.mem_cons_self, List.mem_cons_of_mem a hxb⟩
    · exact ⟨b, List.mem_cons_of_mem _ (List.mem_filter.mpr ⟨hb, hne⟩), hxb⟩

/-- **Every active sample lies in a pulse.** -/
theorem mem_pulses {w : List α} {x : α} (hx : x ∈ w) (h : act x = true) :
    ∃ b ∈ pulses act w, x ∈ b := by
  induction w with
  | nil => exact absurd hx List.not_mem_nil
  | cons a w ih =>
    cases ha : act a with
    | false =>
      rw [pulses_idle ha]
      rcases List.mem_cons.mp hx with rfl | hx
      · rw [ha] at h; exact absurd h Bool.false_ne_true
      · exact ih hx
    | true =>
      rcases List.mem_cons.mp hx with rfl | hx
      · exact mem_pulses_cons ha (Or.inl rfl)
      · exact mem_pulses_cons ha (Or.inr (ih hx))

end Pulse
