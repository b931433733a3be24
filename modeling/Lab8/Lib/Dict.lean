/-
  Dictionaries that keep their keys in the order in which they came.

  A dictionary is the list of its entries, oldest first.  `set` changes the value of a key where it
  stands and puts a new key at the end, so the keys stay distinct (`nodup_set`) and a loop that sets
  distinct keys writes its entries down in order (`foldl_set`).  `count` is the loop that counts the
  elements of a list: its keys are the elements, each where it comes first.
-/
import Mathlib.Data.List.Induction
import Mathlib.Data.List.Nodup

namespace Dict

variable {κ ν α : Type*} [DecidableEq κ]

/-- The keys, oldest first. -/
def keys (d : List (κ × ν)) : List κ := d.map Prod.fst

/-- Set the value of a key. -/
def set (k : κ) (v : ν) : List (κ × ν) → List (κ × ν)
  | [] => [(k, v)]
  | e :: d => if e.1 = k then (k, v) :: d else e :: set k v d

/-- How often each element comes. -/
def count (xs : List κ) : List (κ × Nat) :=
  xs.foldl (fun d x => set x ((d.lookup x).getD 0 + 1) d) []

/-- A key that is there stays where it is, a new one comes last. -/
theorem keys_set (k : κ) (v : ν) (d : List (κ × ν)) :
    keys (set k v d) = if k ∈ keys d then keys d else keys d ++ [k] := by
  induction d with
  | nil => rfl
  | cons e d ih =>
    rw [set]
    by_cases he : e.1 = k
    · rw [if_pos he, if_pos (by simp [keys, he])]
      simp [keys, he]
    · rw [if_neg he, keys, List.map_cons, ← keys, ih]
      have hmem : k ∈ keys (e :: d) ↔ k ∈ keys d := by
        simp [keys, Ne.symm he]
      by_cases hk : k ∈ keys d
      · rw [if_pos hk, if_pos (hmem.mpr hk)]
        rfl
      · rw [if_neg hk, if_neg (mt hmem.mp hk)]
        rfl

theorem nodup_set (k : κ) (v : ν) {d : List (κ × ν)} (h : (keys d).Nodup) :
    (keys (set k v d)).Nodup := by
  rw [keys_set]
  split
  · exact h
  · next hk => exact List.nodup_append.mpr ⟨h, List.nodup_singleton k, fun x hx y hy hxy =>
      hk (List.mem_singleton.mp hy ▸ hxy ▸ hx)⟩

theorem mem_keys_set {k x : κ} {v : ν} {d : List (κ × ν)} :
    x ∈ keys (set k v d) ↔ x = k ∨ x ∈ keys d := by
  rw [keys_set]
  split
  · next hk =>
    constructor
    · exact Or.inr
    · rintro (rfl | h)
      · exact hk
      · exact h
  · rw [List.mem_append, List.mem_singleton, or_comm]

theorem set_of_not_mem {k : κ} (v : ν) {d : List (κ × ν)} (h : k ∉ keys d) :
    set k v d = d ++ [(k, v)] := by
  induction d with
  | nil => rfl
  | cons e d ih =>
    have he : e.1 ≠ k := fun he => h (by simp [keys, he])
    rw [set, if_neg he, ih (fun hk => h (List.mem_cons_of_mem _ hk))]
    rfl

/-- **A loop that sets distinct keys** writes its entries down in order. -/
theorem foldl_set (f : α → κ) (g : α → ν) {xs : List α} (h : (xs.map f).Nodup) :
    xs.foldl (fun d x => set (f x) (g x) d) [] = xs.map fun x => (f x, g x) := by
  induction xs using List.reverseRecOn with
  | nil => rfl
  | append_singleton xs x ih =>
    rw [List.map_append, List.nodup_append] at h
    rw [List.foldl_append, ih h.1, List.foldl_cons, List.foldl_nil, set_of_not_mem, List.map_append]
    · rfl
    · intro hx
      rw [keys, List.map_map] at hx
      exact h.2.2 (f x) hx (f x) List.mem_cons_self rfl

/-- The keys of the count are the elements, each once. -/
theorem keys_count (xs : List κ) : (keys (count xs)).Nodup ∧ ∀ x, x ∈ keys (count xs) ↔ x ∈ xs := by
  induction xs using List.reverseRecOn with
  | nil => exact ⟨List.nodup_nil, fun _ => Iff.rfl⟩
  | append_singleton xs x ih =>
    rw [count, List.foldl_append, ← count, List.foldl_cons, List.foldl_nil]
    refine ⟨nodup_set _ _ ih.1, fun y => ?_⟩
    rw [mem_keys_set, ih.2, List.mem_append, List.mem_singleton, or_comm]

end Dict
