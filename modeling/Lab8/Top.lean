/-
  `lab8.sv`: the board from its push button and its keyboard to its screen.

  Two registers stand between the world and the game: `Reset_h`, which samples the push button, and
  `data_out` of the port `keycode`, which the software writes.  Nothing else does: neither the state
  at power-up nor the moment of a store matters beyond them.

  1. `press_resets` — a press restarts the game and the scan from every state exactly if it lasts
     two Clks: of two Clks in a row one is an edge of `VGA_CLK`.
  2. `Top.key_stored` — the port shows the last byte stored, so the keys at the frame edges are
     bytes stored, in the order of the stores.
  3. `trace_stored` — what `main` stores is what it has read as keycodes.
  4. `top_shows` — after a press the screen shows the frame game over the keys read from the
     keyboard: the layers above it, from `main` to `Game.picture`, joined.
-/
import Lab8.Forget
import Lab8.Screen
import Lab8.Main

namespace Lab8

open Emit

/-! ## The top level -/

/-- One cycle of the bus at the port `keycode`. -/
structure PortCycle where
  address : BitVec 2
  chipselect : Bool
  writeN : Bool
  writedata : BitVec 32

/-- `chipselect && ~write_n && (address == 0)`. -/
def PortCycle.writes (c : PortCycle) : Bool := c.chipselect && !c.writeN && c.address == 0

/-- `lab8_provided_la_keycode`: `data_out`, with `reset_n` high. -/
def PortCycle.dataOut (c : PortCycle) (dataOut : BitVec 8) : BitVec 8 :=
  if c.writes then c.writedata.setWidth 8 else dataOut

/-- `Reset_h`, the port `keycode`, and the design they drive. -/
structure Top where
  resetH : Bool
  keycode : BitVec 8
  design : Design

/-- `KEY[0]`, low while the button is pressed, and the bus cycle. -/
structure TopIn where
  key0 : Bool
  cycle : PortCycle

/-- One rising edge of Clk. -/
def Top.clk (T : Tables) (i : TopIn) (t : Top) : Top where
  resetH := !i.key0
  keycode := i.cycle.dataOut t.keycode
  design := t.design.clk T ⟨t.resetH, t.keycode⟩

section Run

variable (T : Tables) (t : Top) (ins : Nat → TopIn)

/-- From any Clk on the design of a run is a design run, driven by the two registers. -/
theorem Top.design_run (a n : Nat) : (Clocked.run (Top.clk T) ins t (a + n)).design =
    Clocked.run (Design.clk T)
      (fun k => ⟨(Clocked.run (Top.clk T) ins t (a + k)).resetH,
        (Clocked.run (Top.clk T) ins t (a + k)).keycode⟩)
      (Clocked.run (Top.clk T) ins t a).design n := by
  induction n with
  | zero => rfl
  | succ n ih =>
    rw [Clocked.run_succ, ← ih]
    rfl

/-- `VGA_CLK` toggles at every Clk. -/
theorem Top.vgaClk_succ (n : Nat) : (Clocked.run (Top.clk T) ins t (n + 1)).design.vgaClk =
    !(Clocked.run (Top.clk T) ins t n).design.vgaClk := rfl

theorem Top.resetH_succ (n : Nat) :
    (Clocked.run (Top.clk T) ins t (n + 1)).resetH = !(ins n).key0 := rfl

/-- Once the button is free, `Reset_h` is low from the next Clk on. -/
theorem Top.resetH_free {m : Nat} (hfree : ∀ j, m ≤ j → (ins j).key0 = true) (j : Nat) :
    (Clocked.run (Top.clk T) ins t (m + 1 + j)).resetH = false := by
  rw [Nat.add_right_comm, Top.resetH_succ, hfree (m + j) (Nat.le_add_right _ _)]
  rfl

/-! ## The push button -/

/-- **A press of two Clks or more leaves a released design.** -/
theorem Top.released {a k : Nat} (hk : 2 ≤ k)
    (hpress : ∀ j, a ≤ j → j < a + k → (ins j).key0 = false) :
    (Clocked.run (Top.clk T) ins t (a + k + 1)).design.Released T := by
  refine ⟨(Clocked.run (Top.clk T) ins t (a + 1)).design,
    fun j => ⟨(Clocked.run (Top.clk T) ins t (a + 1 + j)).resetH,
      (Clocked.run (Top.clk T) ins t (a + 1 + j)).keycode⟩, k - 1, ?_, ?_, ?_⟩
  · intro j hj
    show (Clocked.run (Top.clk T) ins t (a + 1 + j)).resetH = true
    rw [Nat.add_right_comm, Top.resetH_succ, hpress (a + j) (by omega) (by omega)]
    rfl
  · -- of two Clks in a row one finds `VGA_CLK` low
    cases hlevel : (Clocked.run (Top.clk T) ins t (a + 1)).design.vgaClk with
    | false => exact ⟨0, Nat.zero_le _, hlevel⟩
    | true =>
      refine ⟨1, by omega, ?_⟩
      rw [← Top.design_run T t ins (a + 1) 1, Top.vgaClk_succ, hlevel]
      rfl
  · rw [← Top.design_run T t ins (a + 1) (k - 1 + 1)]
    congr 2
    omega

end Run

/-- A press of `k` Clks. -/
def pressed (k n : Nat) : TopIn := ⟨decide (k ≤ n), ⟨0, false, true, 0⟩⟩

/-- A design with the scan at the start of row 1, and the level of `VGA_CLK`. -/
def Top.midframe (level : Bool) : Top := ⟨false, 0, ⟨default, VgaRegs.at 0 1, level⟩⟩

/-- A press that is too short leaves the scan running. -/
theorem short_press (T : Tables) {k : Nat} (hk : k < 2) :
    (Clocked.run (Top.clk T) (pressed k) (Top.midframe false) (k + 1)).design.vga ≠
      VgaRegs.cleared := by
  have hrow : (Clocked.run (Top.clk T) (pressed k) (Top.midframe false) (k + 1)).design.vga.vCounter =
      1 := by
    rcases Nat.lt_succ_iff_lt_or_eq.mp hk with h0 | h1
    · rw [Nat.lt_one_iff.mp h0]
      rfl
    · rw [h1]
      rfl
  intro h
  rw [h] at hrow
  exact absurd hrow (by decide)

/-- **A press counts from two Clks on.**  From every state and for every bus traffic: a press of `k`
    Clks clears the scan, puts the actors back and restores the pellets and the score, exactly if
    `k` is at least 2. -/
theorem press_resets (T : Tables) (k : Nat) :
    (∀ (t : Top) (ins : Nat → TopIn), (∀ j, j < k → (ins j).key0 = false) →
      (Clocked.run (Top.clk T) ins t (k + 1)).design.Fresh T) ↔ 2 ≤ k := by
  constructor
  · intro h
    by_contra hk
    refine short_press T (Nat.lt_of_not_le hk) (h (Top.midframe false) (pressed k) ?_).vga
    intro j hj
    exact decide_eq_false (Nat.not_le_of_lt hj)
  · intro hk t ins hpress
    have hd := Top.released T t ins (a := 0) hk (fun j _ hj => hpress j (by omega))
    rw [Nat.zero_add] at hd
    exact hd.fresh

/-! ## The port -/

/-- The bytes stored at the port before Clk `n`, in order. -/
def stored (ins : Nat → TopIn) (n : Nat) : List (BitVec 8) :=
  Clocked.sampled (fun k => (ins k).cycle.writes) (fun k => (ins k).cycle.writedata.setWidth 8) n

theorem stored_mono (ins : Nat → TopIn) {m n : Nat} (hmn : m ≤ n) :
    stored ins m <+: stored ins n := by
  obtain ⟨later, heq, -⟩ := Clocked.sampled_append (fun k => (ins k).cycle.writes)
    (fun k => (ins k).cycle.writedata.setWidth 8) hmn
  exact ⟨later, heq.symm⟩

section Run

variable (T : Tables) (t : Top) (ins : Nat → TopIn)

/-- **The port shows the last byte stored.** -/
theorem Top.key_stored (n : Nat) : (t.keycode :: stored ins n)[(stored ins n).length]? =
    some (Clocked.run (Top.clk T) ins t n).keycode :=
  @Clocked.register_last (BitVec 8) _ _ (fun n => (Clocked.run (Top.clk T) ins t n).keycode)
    (fun _ => rfl) n

/-- When the bytes stored are the first of `keys`, the port shows one of them. -/
theorem Top.key_of_prefix {keys : List (BitVec 8)} {m n : Nat} (hkeys : stored ins n <+: keys)
    (hmn : m ≤ n) : (Clocked.run (Top.clk T) ins t m).keycode =
      (t.keycode :: keys).getD (stored ins m).length 0 := by
  obtain ⟨rest, hrest⟩ := (stored_mono ins hmn).trans hkeys
  rw [List.getD_eq_getElem?_getD, ← hrest, ← List.cons_append,
    List.getElem?_append_left (Nat.lt_succ_self _), Top.key_stored]
  rfl

/-- How many bytes had been stored at each frame edge of the `n` Clks from Clk `s` on. -/
def storesAtEdges (level : Bool) (s n : Nat) : List Nat :=
  Clocked.sampled (fun j => decide (framePulse level j)) (fun j => (stored ins (s + j)).length) n

theorem storesAtEdges_sorted (level : Bool) (s n : Nat) :
    (storesAtEdges ins level s n).Pairwise (· ≤ ·) :=
  (Clocked.sampled_sorted _ (fun j => (stored_mono ins (Nat.le_succ (s + j))).length_le) n).1

end Run

/-! ## The keys that `main` has read -/

/-- The byte an act stores at the port. -/
def Act.byte : Act → Option (BitVec 8)
  | .keycode v => some v
  | _ => none

/-- The low bytes of the values that `main` reads as keycodes, in order. -/
def Main.keysRead (s : Main) : List (BitVec 16) → List (BitVec 8)
  | [] => []
  | v :: rest =>
    (if s.point = .keycode then [(v &&& 0xff).setWidth 8] else []) ++ (s.step v).1.keysRead rest

@[simp] theorem byte_ios (calls : List IoCall) : (ios calls).filterMap Act.byte = [] := by
  rw [ios, List.filterMap_map]
  exact List.filterMap_eq_nil_iff.mpr (fun _ _ => rfl)

@[simp] theorem byte_ioReadAct (address : BitVec 8) :
    (ioReadAct address).filterMap Act.byte = [] := byte_ios _

@[simp] theorem byte_peek (address : BitVec 16) : (peek address).filterMap Act.byte = [] :=
  byte_ios _

@[simp] theorem byte_usbWrites (table : List (BitVec 16 × BitVec 16)) :
    (usbWrites table).filterMap Act.byte = [] := byte_ios _

@[simp] theorem byte_execInt : execInt.filterMap Act.byte = [] := byte_ios _

@[simp] theorem byte_goto (s : Main) (p : Point) (acts : List Act) :
    (s.goto p acts).2.filterMap Act.byte = acts.filterMap Act.byte := rfl

@[simp] theorem byte_hotPlug (s : Main) : s.hotPlug.2.filterMap Act.byte = [] := rfl

@[simp] theorem byte_post (s : Main) (r : Request) : (s.post r).2.filterMap Act.byte = [] := rfl

@[simp] theorem byte_poll (s : Main) : s.poll.2.filterMap Act.byte = [] := rfl

@[simp] theorem byte_retry (s : Main) (r : Request) : (s.retry r).2.filterMap Act.byte = [] := rfl

@[simp] theorem byte_next (s : Main) (r : Request) : (s.next r).2.filterMap Act.byte = [] := by
  cases r <;> rfl

/-- A step stores the byte it has read as a keycode, and nothing else. -/
theorem Main.step_stored (s : Main) (v : BitVec 16) : (s.step v).2.filterMap Act.byte =
    if s.point = .keycode then [(v &&& 0xff).setWidth 8] else [] := by
  cases hp : s.point
  all_goals simp only [Main.step, hp, reduceCtorEq, if_true, if_false]
  case keycode | pollFlag =>
    repeat' split
    all_goals rfl
  all_goals
    repeat' split
    all_goals simp

/-- **What `main` stores is what it has read.** -/
theorem trace_stored (d : BitVec 8) (reads : List (BitVec 16)) :
    (trace d reads).filterMap Act.byte = (Main.init d).hotPlug.1.keysRead reads := by
  have hrest : ∀ s : Main, (emit Main.step s reads).filterMap Act.byte = s.keysRead reads := by
    induction reads with
    | nil => exact fun _ => rfl
    | cons v rest ih =>
      intro s
      rw [emit, List.filterMap_append, s.step_stored v, ih]
      rfl
  rw [trace, List.filterMap_append, hrest]
  rfl

/-! ## From the keyboard to the screen -/

section Run

variable {T : Tables} {t : Top} {ins : Nat → TopIn}

/-- The keys the design samples at the frame edges, as indices into the keys stored. -/
theorem Top.keys_run {keys : List (BitVec 8)} {s n : Nat}
    (hkeys : stored ins (s + n) <+: keys) :
    (Clocked.run (Top.clk T) ins t s).design.keys
        (fun k => ⟨(Clocked.run (Top.clk T) ins t (s + k)).resetH,
          (Clocked.run (Top.clk T) ins t (s + k)).keycode⟩) n =
      (storesAtEdges ins (Clocked.run (Top.clk T) ins t s).design.vgaClk s n).map
        fun j => (t.keycode :: keys).getD j 0 := by
  refine Clocked.sampled_map (f := fun j => (t.keycode :: keys).getD j 0) (fun k hk => ?_)
  exact Top.key_of_prefix T t ins hkeys (Nat.add_le_add_left (Nat.le_of_lt hk) s)

end Run

/-- **The screen shows the keys read from the keyboard.**  Run the board from any state with the
    shipped pellet map and score; press the button for two Clks or more, and never again.  Let the
    bytes stored at the port so far be the first of those that `main` stores for some values of its
    reads.  Then at every edge of `VGA_CLK` that ends a visible pixel the colour is that of the
    frame game in which each frame plays the byte stored last before its edge: bytes that `main`
    has read from the keyboard, in the order read, repeated or skipped but never reordered. -/
theorem top_shows (T : Tables) (hfood : T.foodTemp = foodTxt) (hscore : T.scoreTemp = scoreTxt)
    (t : Top) (ins : Nat → TopIn) (a k : Nat) (hk : 2 ≤ k)
    (hpress : ∀ j, a ≤ j → j < a + k → (ins j).key0 = false)
    (hfree : ∀ j, a + k ≤ j → (ins j).key0 = true) (d : BitVec 8) (reads : List (BitVec 16))
    (n : Nat) (hmain : stored ins (a + k + 1 + (n + 1)) <+: (trace d reads).filterMap Act.byte)
    (hedge : (Clocked.run (Top.clk T) ins t (a + k + 1 + (n + 1))).design.vgaClk = false)
    (hx : (Clocked.run (Top.clk T) ins t (a + k + 1 + (n + 1))).design.vga.hCounter.toNat < 640)
    (hy : (Clocked.run (Top.clk T) ins t (a + k + 1 + (n + 1))).design.vga.vCounter.toNat < 480) :
    (storesAtEdges ins (Clocked.run (Top.clk T) ins t (a + k + 1)).design.vgaClk (a + k + 1)
      (n + 1)).Pairwise (· ≤ ·) ∧
    (Clocked.run (Top.clk T) ins t (a + k + 1 + (n + 1))).design.rgb T =
      (gameRun T ((storesAtEdges ins (Clocked.run (Top.clk T) ins t (a + k + 1)).design.vgaClk
        (a + k + 1) (n + 1)).map
          fun j => (t.keycode :: (Main.init d).hotPlug.1.keysRead reads).getD j 0)).picture T
        (Clocked.run (Top.clk T) ins t (a + k + 1 + (n + 1))).design.vga.hCounter
        (Clocked.run (Top.clk T) ins t (a + k + 1 + (n + 1))).design.vga.vCounter := by
  refine ⟨storesAtEdges_sorted ins _ _ _, ?_⟩
  have hd := Top.released T t ins hk hpress
  have hlow := Top.resetH_free T t ins hfree
  rw [trace_stored] at hmain
  rw [Top.design_run T t ins (a + k + 1) (n + 1)] at hedge hx hy ⊢
  rw [Design.rgb_run hfood hscore hd hlow hedge hx hy, Top.keys_run hmain]

/-- A press of two Clks, and `A` stored at the Clk after its first. -/
def pressedStored (n : Nat) : TopIn := ⟨decide (2 ≤ n), ⟨0, n = 1, false, 0x04⟩⟩

/-- One byte has been stored when the game starts. -/
theorem pressedStored_stored {n : Nat} (hn : 2 ≤ n) : stored pressedStored n = [0x04] := by
  induction n, hn using Nat.le_induction with
  | base => rfl
  | succ n hn ih =>
    have hno : (pressedStored n).cycle.writes = false := by
      have hne : ¬ n = 1 := by omega
      simp [pressedStored, PortCycle.writes, hne]
    rw [stored, Clocked.sampled, hno]
    exact ih

/-- In the second frame after the press, on Pac-Man: the byte stored is the one that `main` reads
    from the keyboard, and both frames play it. -/
theorem top_shows_pressed :
    (Main.init 0).hotPlug.1.keysRead (enumReads ++ removalReads) = [0x04] ∧
    onSprite 330 230 (gameRun .shipped [0x04, 0x04]).actors.drawn.1 = true ∧
    (Clocked.run (Top.clk .shipped) pressedStored (Top.midframe false)
      (0 + 2 + 1 + (1208660 + 1))).design.rgb .shipped =
        (gameRun .shipped [0x04, 0x04]).picture .shipped 330 230 := by
  have hread : (Main.init 0).hotPlug.1.keysRead (enumReads ++ removalReads) = [0x04] := by decide
  have hpress : ∀ j, 0 ≤ j → j < 0 + 2 → (pressedStored j).key0 = false :=
    fun _ _ hj => decide_eq_false (Nat.not_le_of_lt hj)
  have hfree : ∀ j, 0 + 2 ≤ j → (pressedStored j).key0 = true := fun _ hj => decide_eq_true hj
  have hstores : storesAtEdges pressedStored true (0 + 2 + 1) (1208660 + 1) = [1, 1] := by
    have hone : ∀ j, (stored pressedStored (0 + 2 + 1 + j)).length = 1 := by
      intro j
      rw [pressedStored_stored (by omega)]
      rfl
    exact sampled_pulses true (fun j _ => hone j) (fun j _ => hone j) _
  have hlevel : (Clocked.run (Top.clk .shipped) pressedStored (Top.midframe false)
      (0 + 2 + 1)).design.vgaClk = true := rfl
  have hlow := Top.resetH_free .shipped (Top.midframe false) pressedStored hfree
  obtain ⟨hedge, hx, hy⟩ :
      (Clocked.run (Top.clk .shipped) pressedStored (Top.midframe false)
        (0 + 2 + 1 + (1208660 + 1))).design.vgaClk = false ∧
      (Clocked.run (Top.clk .shipped) pressedStored (Top.midframe false)
        (0 + 2 + 1 + (1208660 + 1))).design.vga.hCounter = 330 ∧
      (Clocked.run (Top.clk .shipped) pressedStored (Top.midframe false)
        (0 + 2 + 1 + (1208660 + 1))).design.vga.vCounter = 230 := by
    rw [Top.design_run .shipped (Top.midframe false) pressedStored (0 + 2 + 1) (1208660 + 1)]
    exact Design.pixel_run (Top.released .shipped (Top.midframe false) pressedStored
      (Nat.le_refl 2) hpress) hlow (by decide) (by rw [hlevel]; decide)
  obtain ⟨-, hrgb⟩ := top_shows .shipped rfl rfl (Top.midframe false) pressedStored 0 2
    (Nat.le_refl 2) hpress hfree 0 (enumReads ++ removalReads) 1208660
    (by rw [pressedStored_stored (by decide)]; decide) hedge (by rw [hx]; decide)
    (by rw [hy]; decide)
  rw [hlevel, hstores, hread, hx, hy] at hrgb
  exact ⟨hread, by decide +kernel, hrgb⟩

end Lab8
