/-
  No tunnelling: a ghost and Pac-Man cannot swap sides in a corridor unseen.

  Per tick every exported coordinate changes by one pixel at most (`Board.Safe.clk_near`), so the
  signed distance along the corridor changes by two at most and cannot jump over `{0, 1}`
  (`Clocked.exists_in_band`).  Across the corridor both offsets are in `0 … 6` of the same cell row,
  so there the distance is at most 6.  The 7-pixel window of the collision test is just wide enough
  for both.

  Since everything stands still once a flag is up, nobody gets to the other side at all
  (`sides_kept`).
-/
import Lab8.GameOver

namespace Lab8

/-! ## The three ghosts, uniformly -/

/-- The three ghost modules. -/
inductive Ghost where
  | red
  | green
  | blue
  deriving DecidableEq, Repr

/-- The exported position of a ghost. -/
def Outputs.ghost (o : Outputs) : Ghost → BitVec 10 × BitVec 10
  | .red => o.red
  | .green => o.green
  | .blue => o.blue

/-- The collision flag of a ghost. -/
def Outputs.flag (o : Outputs) : Ghost → Bool
  | .red => o.isCollisionRed
  | .green => o.isCollisionGreen
  | .blue => o.isCollisionBlue

/-- All three flags are the same test. -/
theorem Actors.flag_eq (a : Actors) (g : Ghost) :
    a.outputs.flag g = collides (a.outputs.ghost g) a.outputs.ball := by
  cases g with
  | red => rfl
  | green => rfl
  | blue => exact collidesBlue_eq _ _

/-! ## One pixel per tick -/

/-- The two positions differ by at most one pixel on each axis. -/
def Near (p q : BitVec 10 × BitVec 10) : Prop :=
  (intDiff p.1 q.1).natAbs ≤ 1 ∧ (intDiff p.2 q.2).natAbs ≤ 1

theorem Near.refl (p : BitVec 10 × BitVec 10) : Near p p := by
  simp [Near, intDiff]

/-- Register and exported position of a safe piece are near. -/
theorem Piece.Safe.near {δ : Type} {p : Piece δ} (hs : p.Safe) : Near p.posOut p.pos := by
  have hx := hs.movesX
  have hy := hs.movesY
  have hu := hs.unit
  simp only [Near, intDiff, Piece.posOut, Piece.pos]
  simp only [Moves] at hx hy
  rcases hu with ⟨h0, h1⟩ | ⟨h0, h1⟩ <;> constructor <;> omega

/-- A tick with Reset low that leaves a safe piece moved its exported position by at most one. -/
theorem Mover.ghostClk_near {δ : Type} (center : BitVec 10 × BitVec 10) (d₀ : δ)
    (stop frameClk : Bool) (next : Heading δ) (m : Mover δ)
    (hs : (m.ghostClk center d₀ false stop frameClk next).toPiece.Safe) :
    Near (m.ghostClk center d₀ false stop frameClk next).posOut m.posOut := by
  rcases m.ghostClk_cases center d₀ stop frameClk next with ⟨_, h⟩ | ⟨_, _, h⟩ | ⟨_, _, h⟩
  · rw [h, Piece.advance_stop]; exact Near.refl _
  · rw [h] at hs ⊢; exact hs.near
  · rw [h]; exact Near.refl _

/-- **One pixel per tick**, for Pac-Man and for every ghost. -/
theorem Board.Safe.clk_near {b : Board} (hs : b.Safe) (T : Tables) {i : ClkIn}
    (hr : i.reset = false) : Near (b.clk T i).actors.outputs.ball b.actors.outputs.ball ∧
      ∀ g, Near ((b.clk T i).actors.outputs.ghost g) (b.actors.outputs.ghost g) := by
  have hs' := hs.clk T i
  have hp : (b.clk T i).pacMan = b.pacMan.ghostClk pacManCenter 0b111 false false i.frameClk
      (b.actors.pacManIn (b.wallRead T) i.key) := by
    simp only [Board.clk, hr, Mover.pacManClk_eq]
  have hR : (b.clk T i).redEvil = b.redEvil.ghostClk redEvilCenter 0b111 false
      (b.actors.isCollisionGreen || b.actors.isCollisionBlue) i.frameClk
      (b.actors.redEvilIn (b.wallRead T)) := by simp only [Board.clk, hr]
  have hG : (b.clk T i).greenEvil = b.greenEvil.ghostClk greenEvilCenter 0b111 false
      (b.actors.isCollisionBlue || b.actors.isCollisionRed) i.frameClk
      (b.actors.greenEvilIn (b.wallRead T)) := by simp only [Board.clk, hr]
  have hB : (b.clk T i).blueEvil = b.blueEvil.ghostClk blueEvilCenter () false
      (b.actors.isCollisionGreen || b.actors.isCollisionRed) i.frameClk
      (b.actors.blueEvilIn (b.wallRead T)) := by simp only [Board.clk, hr]
  constructor
  · show Near (b.clk T i).pacMan.posOut b.pacMan.posOut
    have h := hs'.pacMan
    rw [hp] at h ⊢
    exact Mover.ghostClk_near _ _ _ _ _ _ h
  · intro g
    cases g with
    | red =>
      show Near (b.clk T i).redEvil.posOut b.redEvil.posOut
      have h := hs'.redEvil
      rw [hR] at h ⊢
      exact Mover.ghostClk_near _ _ _ _ _ _ h
    | green =>
      show Near (b.clk T i).greenEvil.posOut b.greenEvil.posOut
      have h := hs'.greenEvil
      rw [hG] at h ⊢
      exact Mover.ghostClk_near _ _ _ _ _ _ h
    | blue =>
      show Near (b.clk T i).blueEvil.posOut b.blueEvil.posOut
      have h := hs'.blueEvil
      rw [hB] at h ⊢
      exact Mover.ghostClk_near _ _ _ _ _ _ h

/-! ## The crossing -/

/-- Both coordinates lie in the same corridor: the same cell index, offsets at most 6. -/
def SameLane (u v : BitVec 10) : Prop :=
  u.toNat / 32 = v.toNat / 32 ∧ u.toNat % 32 ≤ 6 ∧ v.toNat % 32 ≤ 6

/-- `u` is strictly on one side of `v` first, `u'` strictly on the other side of `v'` later. -/
def Passes (u v u' v' : BitVec 10) : Prop :=
  (u.toNat < v.toNat ∧ v'.toNat < u'.toNat) ∨ (v.toNat < u.toNat ∧ u'.toNat < v'.toNat)

/-- Two coordinates that move by one pixel per tick and pass each other come within one pixel. -/
theorem exists_close {u v : Nat → BitVec 10} {a b : Nat} (hab : a ≤ b)
    (hu : ∀ n, (intDiff (u (n + 1)) (u n)).natAbs ≤ 1)
    (hv : ∀ n, (intDiff (v (n + 1)) (v n)).natAbs ≤ 1)
    (hp : Passes (u a) (v a) (u b) (v b)) :
    ∃ c, a ≤ c ∧ c ≤ b ∧ (intDiff (u c) (v c)).natAbs ≤ 1 := by
  have hstep : ∀ n, intDiff (u (n + 1)) (v (n + 1)) ≤ intDiff (u n) (v n) + 2 ∧
      intDiff (v (n + 1)) (u (n + 1)) ≤ intDiff (v n) (u n) + 2 := by
    intro n
    have h1 := hu n
    have h2 := hv n
    simp only [intDiff] at h1 h2 ⊢
    omega
  rcases hp with ⟨h1, h2⟩ | ⟨h1, h2⟩
  · obtain ⟨c, hac, hcb, hc⟩ := Clocked.exists_in_band (f := fun n => intDiff (u n) (v n))
      hab (by simp only [intDiff]; omega) (by simp only [intDiff]; omega)
      (fun n _ _ => (hstep n).1)
    exact ⟨c, hac, hcb, by omega⟩
  · obtain ⟨c, hac, hcb, hc⟩ := Clocked.exists_in_band (f := fun n => intDiff (v n) (u n))
      hab (by simp only [intDiff]; omega) (by simp only [intDiff]; omega)
      (fun n _ _ => (hstep n).2)
    refine ⟨c, hac, hcb, ?_⟩
    simp only [intDiff] at hc ⊢
    omega

/-- In one corridor the distance across it is at most 6. -/
theorem SameLane.within {u v : BitVec 10} (h : SameLane u v) : (intDiff u v).natAbs ≤ 6 := by
  obtain ⟨h1, h2, h3⟩ := h
  simp only [intDiff]
  omega

/-- A crossing along one axis is flagged: if from `s` to `t` the ghost and Pac-Man are in one
    corridor, as their coordinates ACROSS it tell, and ALONG it the ghost is on the other side of
    Pac-Man at `t` than at `s`, then its flag was up in between. -/
def CrossingFlagged (o : Nat → Outputs) (g : Ghost) (s t : Nat)
    (along across : BitVec 10 × BitVec 10 → BitVec 10) : Prop :=
  (∀ n, s ≤ n → n ≤ t → SameLane (across ((o n).ghost g)) (across (o n).ball)) →
    Passes (along ((o s).ghost g)) (along (o s).ball) (along ((o t).ghost g)) (along (o t).ball) →
    ∃ n, s ≤ n ∧ n ≤ t ∧ (o n).flag g = true

/-- Within six pixels on both axes the flag is up. -/
theorem Actors.flag_of_close {a : Actors} {g : Ghost}
    (hx : (intDiff (a.outputs.ghost g).1 a.outputs.ball.1).natAbs ≤ 6)
    (hy : (intDiff (a.outputs.ghost g).2 a.outputs.ball.2).natAbs ≤ 6) :
    a.outputs.flag g = true := by
  rw [Actors.flag_eq, collides, withinSeven_iff]
  omega

/-- **One pixel per tick is slow enough**: a sequence of actors in which ghost and Pac-Man move by
    one pixel at most flags every crossing, on either axis. -/
theorem crossingFlagged_of_near {a : Nat → Actors} {g : Ghost}
    (hball : ∀ n, Near (a (n + 1)).outputs.ball (a n).outputs.ball)
    (hghost : ∀ n, Near ((a (n + 1)).outputs.ghost g) ((a n).outputs.ghost g)) {s t : Nat}
    (hst : s ≤ t) :
    CrossingFlagged (fun n => (a n).outputs) g s t Prod.fst Prod.snd ∧
      CrossingFlagged (fun n => (a n).outputs) g s t Prod.snd Prod.fst := by
  constructor
  · intro hlane hpass
    obtain ⟨c, hsc, hct, hc⟩ := exists_close (u := fun n => ((a n).outputs.ghost g).1)
      (v := fun n => (a n).outputs.ball.1) hst (fun n => (hghost n).1) (fun n => (hball n).1) hpass
    exact ⟨c, hsc, hct, Actors.flag_of_close (by omega) (hlane c hsc hct).within⟩
  · intro hlane hpass
    obtain ⟨c, hsc, hct, hc⟩ := exists_close (u := fun n => ((a n).outputs.ghost g).2)
      (v := fun n => (a n).outputs.ball.2) hst (fun n => (hghost n).2) (fun n => (hball n).2) hpass
    exact ⟨c, hsc, hct, Actors.flag_of_close (hlane c hsc hct).within (by omega)⟩

/-- **No tunnelling.**  In a run after Reset, for each ghost and any two Clk ticks `s < t` (the
    outputs of a frame are those of any of its ticks), a crossing in a horizontal corridor is
    flagged, and so is one in a vertical corridor. -/
theorem no_tunnelling (T : Tables) (b : Board) (i : ClkIn) (hi : i.reset = true)
    (ins : Nat → ClkIn) (hins : ∀ n, (ins n).reset = false) (g : Ghost) (s t : Nat) (hst : s < t) :
    CrossingFlagged (fun n => (Clocked.run (Board.clk T) ins (b.clk T i) n).actors.outputs) g s t
        Prod.fst Prod.snd ∧
      CrossingFlagged (fun n => (Clocked.run (Board.clk T) ins (b.clk T i) n).actors.outputs) g s t
        Prod.snd Prod.fst :=
  crossingFlagged_of_near (a := fun n => (Clocked.run (Board.clk T) ins (b.clk T i) n).actors)
    (fun n => ((safe_run T b hi ins n).clk_near T (hins n)).1)
    (fun n => ((safe_run T b hi ins n).clk_near T (hins n)).2 g) (Nat.le_of_lt hst)

/-- Blue and Pac-Man come along one corridor, from frame 246 until they meet in frame 261. -/
theorem headOn_lane {n : Nat} (h : 491 ≤ n) (hn : n ≤ 521) :
    SameLane ((headOnBoard n).actors.outputs.ghost .blue).2 (headOnBoard n).actors.outputs.ball.2 := by
  have hall : ∀ k < 16, SameLane
      ((Clocked.runList (Actors.frameStep (mazeWall .shipped)) headOnActors
        (List.replicate k 0x04)).outputs.ghost .blue).2
      (Clocked.runList (Actors.frameStep (mazeWall .shipped)) headOnActors
        (List.replicate k 0x04)).outputs.ball.2 := by
    unfold SameLane
    decide +kernel
  rw [headOn_outputs h]
  exact hall _ (by omega)

/-- There the flag is up when they meet, and a crossing would be flagged. -/
theorem no_tunnelling_met :
    ((headOnBoard 521).actors.outputs.flag .blue = true ∧
      ∀ n, 491 ≤ n → n ≤ 521 → SameLane ((headOnBoard n).actors.outputs.ghost .blue).2
        (headOnBoard n).actors.outputs.ball.2) ∧
    CrossingFlagged (fun n => (headOnBoard n).actors.outputs) .blue 491 521 Prod.fst Prod.snd ∧
    CrossingFlagged (fun n => (headOnBoard n).actors.outputs) .blue 491 521 Prod.snd Prod.fst := by
  refine ⟨⟨?_, fun n h hn => headOn_lane h hn⟩, ?_⟩
  · rw [headOn_outputs (by decide)]
    decide +kernel
  · exact no_tunnelling .shipped default ⟨true, 0, false, 0, 0⟩ rfl headOn (fun _ => rfl) .blue
      491 521 (by decide)

/-! ## Sides are kept -/

/-- A raised flag is a collision. -/
theorem Actors.collision_of_flag {a : Actors} {g : Ghost} (h : a.outputs.flag g = true) :
    a.collision = true := by
  rw [Actors.collision_eq]
  cases g with
  | red => rw [show a.outputs.isCollisionRed = true from h]; rfl
  | green => rw [show a.outputs.isCollisionGreen = true from h, Bool.or_true]
  | blue => rw [show a.outputs.isCollisionBlue = true from h, Bool.or_true, Bool.true_or]

/-- Two coordinates that move by one pixel per tick, and not at all once they are within six, keep
    their order. -/
theorem order_kept {u v : Nat → BitVec 10} {s t : Nat} (hst : s ≤ t)
    (hu : ∀ n, (intDiff (u (n + 1)) (u n)).natAbs ≤ 1)
    (hv : ∀ n, (intDiff (v (n + 1)) (v n)).natAbs ≤ 1)
    (hstop : ∀ n, s ≤ n → n < t → (intDiff (u n) (v n)).natAbs ≤ 6 →
      u (n + 1) = u n ∧ v (n + 1) = v n)
    (hs : (u s).toNat < (v s).toNat) : (u t).toNat < (v t).toNat := by
  refine Clocked.keeps_from (P := fun n => (u n).toNat < (v n).toNat) hst hs ?_
  intro n hsn hnt hn
  show (u (n + 1)).toNat < (v (n + 1)).toNat
  by_cases hclose : (intDiff (u n) (v n)).natAbs ≤ 6
  · obtain ⟨hun, hvn⟩ := hstop n hsn hnt hclose
    rw [hun, hvn]
    exact hn
  · have hun := hu n
    have hvn := hv n
    simp only [intDiff] at hun hvn hclose
    omega

/-- In one corridor from `s` to `t`, as the coordinates ACROSS it tell, the ghost is at `t` on the
    side of Pac-Man, ALONG it, on which it is at `s`. -/
def SideKept (o : Nat → Outputs) (g : Ghost) (s t : Nat)
    (along across : BitVec 10 × BitVec 10 → BitVec 10) : Prop :=
  (∀ n, s ≤ n → n ≤ t → SameLane (across ((o n).ghost g)) (across (o n).ball)) →
    ((along ((o s).ghost g)).toNat < (along (o s).ball).toNat →
      (along ((o t).ghost g)).toNat < (along (o t).ball).toNat) ∧
    ((along (o s).ball).toNat < (along ((o s).ghost g)).toNat →
      (along (o t).ball).toNat < (along ((o t).ghost g)).toNat)

/-- One pixel per tick, and none once the flag is up, keeps the sides. -/
theorem sideKept_of_near {o : Nat → Outputs} {g : Ghost} {s t : Nat} (hst : s ≤ t)
    {along across : BitVec 10 × BitVec 10 → BitVec 10}
    (hghost : ∀ n, (intDiff (along ((o (n + 1)).ghost g)) (along ((o n).ghost g))).natAbs ≤ 1)
    (hball : ∀ n, (intDiff (along (o (n + 1)).ball) (along (o n).ball)).natAbs ≤ 1)
    (hstop : ∀ n, (intDiff (along ((o n).ghost g)) (along (o n).ball)).natAbs ≤ 6 →
      (intDiff (across ((o n).ghost g)) (across (o n).ball)).natAbs ≤ 6 → o (n + 1) = o n) :
    SideKept o g s t along across := by
  intro hlane
  have hstill : ∀ n, s ≤ n → n < t →
      (intDiff (along ((o n).ghost g)) (along (o n).ball)).natAbs ≤ 6 → o (n + 1) = o n :=
    fun n hsn hnt hclose => hstop n hclose (hlane n hsn (Nat.le_of_lt hnt)).within
  constructor
  · refine order_kept (u := fun n => along ((o n).ghost g)) (v := fun n => along (o n).ball) hst
      hghost hball (fun n hsn hnt hclose => ?_)
    rw [hstill n hsn hnt hclose]
    exact ⟨rfl, rfl⟩
  · refine order_kept (u := fun n => along (o n).ball) (v := fun n => along ((o n).ghost g)) hst
      hball hghost (fun n hsn hnt hclose => ?_)
    have hsame := hstill n hsn hnt (by simp only [intDiff] at hclose ⊢; omega)
    rw [hsame]
    exact ⟨rfl, rfl⟩

/-- **Sides are kept.**  In fact nobody crosses: in one corridor, horizontal or vertical, a ghost
    stays on the side of Pac-Man on which it is.  A tick brings the two closer by two pixels at
    most, and once they are within six everything stands still. -/
theorem sides_kept (T : Tables) (b : Board) (i : ClkIn) (hi : i.reset = true) (ins : Nat → ClkIn)
    (hins : ∀ n, (ins n).reset = false) (g : Ghost) (s t : Nat) (hst : s ≤ t) :
    SideKept (fun n => (Clocked.run (Board.clk T) ins (b.clk T i) n).actors.outputs) g s t
        Prod.fst Prod.snd ∧
      SideKept (fun n => (Clocked.run (Board.clk T) ins (b.clk T i) n).actors.outputs) g s t
        Prod.snd Prod.fst := by
  have hnear := fun n => (safe_run T b hi ins n).clk_near T (hins n)
  -- within six pixels on both axes the flag is up and the tick changes nothing
  have hstop : ∀ n,
      (intDiff ((Clocked.run (Board.clk T) ins (b.clk T i) n).actors.outputs.ghost g).1
        (Clocked.run (Board.clk T) ins (b.clk T i) n).actors.outputs.ball.1).natAbs ≤ 6 →
      (intDiff ((Clocked.run (Board.clk T) ins (b.clk T i) n).actors.outputs.ghost g).2
        (Clocked.run (Board.clk T) ins (b.clk T i) n).actors.outputs.ball.2).natAbs ≤ 6 →
      (Clocked.run (Board.clk T) ins (b.clk T i) (n + 1)).actors.outputs =
        (Clocked.run (Board.clk T) ins (b.clk T i) n).actors.outputs :=
    fun n hx hy =>
      Board.clk_frozen T (hins n) (Actors.collision_of_flag (Actors.flag_of_close hx hy))
  constructor
  · exact sideKept_of_near hst (fun n => ((hnear n).2 g).1) (fun n => (hnear n).1.1)
      (fun n hx hy => hstop n hx hy)
  · exact sideKept_of_near hst (fun n => ((hnear n).2 g).2) (fun n => (hnear n).1.2)
      (fun n hy hx => hstop n hx hy)

/-- Blue comes from the left and is still on the left when it has caught him. -/
theorem sides_kept_met : ((headOnBoard 521).actors.outputs.ghost .blue).1.toNat <
    (headOnBoard 521).actors.outputs.ball.1.toNat := by
  refine ((sides_kept .shipped default ⟨true, 0, false, 0, 0⟩ rfl headOn (fun _ => rfl) .blue 491 521
    (by decide)).1 (fun n h hn => headOn_lane h hn)).1 ?_
  show ((headOnBoard 491).actors.outputs.ghost .blue).1.toNat <
    (headOnBoard 491).actors.outputs.ball.1.toNat
  rw [headOn_outputs (Nat.le_refl 491)]
  decide +kernel

end Lab8
