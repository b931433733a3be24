/-
  From the pictures to the screen.

  `Game.picture` speaks of sprite memories and addresses.  Here both are gone: the six memories are
  loaded from files of pictures, so a sprite shows the pixels of its picture.

  1. `Sprite.Loaded` — the memory was loaded from a file of the picture.
  2. `Actors.artAt` — the pixel on a box: of the picture as it stands for the ghosts and for Pac-Man
     going left, going down or resting; for Pac-Man going right or up of the picture turned around, one
     column and one row off.
  3. `pictures_shown` — every visible pixel of every frame.
-/
import Lab8.Picture
import Lab8.Screen
import Lab8.Sprites

namespace Lab8

/-! ## The pictures -/

/-- A picture for a sprite memory. -/
structure Sprite extends Picture where
  width_eq : width = 26
  height_eq : height = 26

/-- The pictures of the six memories. -/
structure Art where
  pacManLeft : Sprite
  pacManDown : Sprite
  pacManF : Sprite
  redEvil : Sprite
  greenEvil : Sprite
  blueEvil : Sprite

/-- `mem` is what `$readmemh` loads from a file of the picture. -/
def Sprite.Loaded (s : Sprite) (mem : BitVec 10 → BitVec 24) : Prop :=
  ∃ file before after, s.InFile file ∧ readmemh file before = some after ∧
    ∀ a, mem a = after a.toNat

/-- The memories of the tables hold the pictures. -/
structure Art.Loaded (art : Art) (T : Tables) : Prop where
  pacManLeft : art.pacManLeft.Loaded T.pacManLeftMem
  pacManDown : art.pacManDown.Loaded T.pacManDownMem
  pacManF : art.pacManF.Loaded T.pacManFMem
  redEvil : art.redEvil.Loaded T.redEvilMem
  greenEvil : art.greenEvil.Loaded T.greenEvilMem
  blueEvil : art.blueEvil.Loaded T.blueEvilMem

/-- The word of an address. -/
theorem Sprite.Loaded.word {s : Sprite} {mem : BitVec 10 → BitVec 24} (h : s.Loaded mem)
    {a : BitVec 10} (ha : a.toNat < 676) :
    mem a = (s.getpixel (a.toNat % 26) (a.toNat / 26)).rgb := by
  obtain ⟨file, before, after, hfile, hload, hmem⟩ := h
  rw [hfile.loads before, Option.some_inj] at hload
  rw [hmem, ← hload, Picture.image, s.width_eq, s.height_eq, if_pos ha]

/-! ## A picture on a box -/

/-- The pixel of the picture whose corner is at `pos`. -/
def Sprite.straight (s : Sprite) (pos : BitVec 10 × BitVec 10) (x y : BitVec 10) : BitVec 24 :=
  (s.getpixel (x.toNat - pos.1.toNat) (y.toNat - pos.2.toNat)).rgb

/-- The same of the picture turned around: the code turns it about `Size`, so the first row of the box
    and the first column lie outside it, and the column wraps into the next row. -/
def Sprite.turned (s : Sprite) (pos : BitVec 10 × BitVec 10) (x y : BitVec 10) : Option (BitVec 24) :=
  let dx := x.toNat - pos.1.toNat
  let dy := y.toNat - pos.2.toNat
  if dx = 0 then
    if 2 ≤ dy then some (s.getpixel 0 (27 - dy)).rgb else none
  else if 1 ≤ dy then some (s.getpixel (26 - dx) (26 - dy)).rgb else none

theorem Sprite.Loaded.straight {s : Sprite} {mem : BitVec 10 → BitVec 24} (h : s.Loaded mem)
    {pos : BitVec 10 × BitVec 10} {x y : BitVec 10} (hin : onSprite x y pos = true) :
    mem (readAddress x y pos) = s.straight pos x y := by
  rw [onSprite_iff] at hin
  have haddr : (readAddress x y pos).toNat = _ := readAddress_toNat hin
  rw [h.word (by omega), haddr, Sprite.straight]
  congr 2
  · omega
  · omega

theorem Sprite.Loaded.turned {s : Sprite} {mem : BitVec 10 → BitVec 24} (h : s.Loaded mem)
    {pos : BitVec 10 × BitVec 10} {x y : BitVec 10} (hin : onSprite x y pos = true) :
    mem (readAddressSpecial x y pos) =
      (s.turned pos x y).getD (mem (readAddressSpecial x y pos)) := by
  rw [onSprite_iff] at hin
  have haddr : (readAddressSpecial x y pos).toNat = _ := readAddressSpecial_toNat hin
  simp only [Sprite.turned]
  split
  · split
    · rw [Option.getD_some, h.word (by omega), haddr]
      congr 2
      · omega
      · omega
    · rfl
  · split
    · rw [Option.getD_some, h.word (by omega), haddr]
      congr 2
      · omega
      · omega
    · rfl

/-! ## The sprite layer -/

/-- Pac-Man's pixel.  Where the turned picture has none, the memory is read past its end. -/
def Art.pacManAt (art : Art) (T : Tables) (d : Direction) (pos : BitVec 10 × BitVec 10)
    (x y : BitVec 10) : BitVec 24 :=
  if d = 0b000 then art.pacManLeft.straight pos x y
  else if d = 0b001 then art.pacManDown.straight pos x y
  else if d = 0b010 then
    (art.pacManLeft.turned pos x y).getD (T.pacManLeftMem (readAddressSpecial x y pos))
  else if d = 0b011 then
    (art.pacManDown.turned pos x y).getD (T.pacManDownMem (readAddressSpecial x y pos))
  else art.pacManF.straight pos x y

/-- The pixel of the pictures on `(x, y)`, Pac-Man's before the ghosts'. -/
def Actors.artAt (art : Art) (T : Tables) (a : Actors) (x y : BitVec 10) : Option (BitVec 24) :=
  if onSprite x y a.drawn.1 then
    some (art.pacManAt T a.pacMan.currentDirection a.drawn.1 x y)
  else if onSprite x y a.drawn.2.1 then some (art.redEvil.straight a.drawn.2.1 x y)
  else if onSprite x y a.drawn.2.2.1 then some (art.greenEvil.straight a.drawn.2.2.1 x y)
  else if onSprite x y a.drawn.2.2.2 then some (art.blueEvil.straight a.drawn.2.2.2 x y)
  else none

theorem Art.Loaded.pacManCut {art : Art} {T : Tables} (h : art.Loaded T) (d : Direction)
    {pos : BitVec 10 × BitVec 10} {x y : BitVec 10} (hin : onSprite x y pos = true) :
    pacManCut T d (readAddress x y pos) (readAddressSpecial x y pos) = art.pacManAt T d pos x y := by
  unfold Lab8.pacManCut Art.pacManAt
  rw [h.pacManLeft.straight hin, h.pacManDown.straight hin, h.pacManF.straight hin,
    ← h.pacManLeft.turned hin, ← h.pacManDown.turned hin]

/-- **The memories show the pictures.** -/
theorem Art.Loaded.spriteAt {art : Art} {T : Tables} (h : art.Loaded T) (a : Actors)
    (x y : BitVec 10) : a.spriteAt T x y = a.artAt art T x y := by
  unfold Actors.spriteAt Actors.artAt
  split
  · next hin => rw [h.pacManCut a.pacMan.currentDirection hin]
  split
  · next hin => rw [h.redEvil.straight hin]
  split
  · next hin => rw [h.greenEvil.straight hin]
  split
  · next hin => rw [h.blueEvil.straight hin]
  · rfl

/-- **The screen shows the pictures.**  Let the sprite memories be loaded from files of six pictures,
    and the pellets and the score from the shipped ones.  After Reset was held over an edge of
    `VGA_CLK`, for every key waveform: at every edge of `VGA_CLK` that ends a visible pixel the colour
    is that of the picture on the topmost box there, and off the boxes that of the ground, for the game
    state after one frame per key sampled at a frame edge so far. -/
theorem pictures_shown (art : Art) (T : Tables) (hart : art.Loaded T) (hfood : T.foodTemp = foodTxt)
    (hscore : T.scoreTemp = scoreTxt) (d : Design) (hd : d.Released T) (ins : Nat → DesignIn)
    (hins : ∀ n, (ins n).reset = false) (n : Nat)
    (hedge : (Clocked.run (Design.clk T) ins d (n + 1)).vgaClk = false)
    (hx : (Clocked.run (Design.clk T) ins d (n + 1)).vga.hCounter.toNat < 640)
    (hy : (Clocked.run (Design.clk T) ins d (n + 1)).vga.vCounter.toNat < 480) :
    (Clocked.run (Design.clk T) ins d (n + 1)).rgb T =
      ((gameRun T (d.keys ins (n + 1))).actors.artAt art T
        (Clocked.run (Design.clk T) ins d (n + 1)).vga.hCounter
        (Clocked.run (Design.clk T) ins d (n + 1)).vga.vCounter).getD
      ((gameRun T (d.keys ins (n + 1))).ground T
        (Clocked.run (Design.clk T) ins d (n + 1)).vga.hCounter
        (Clocked.run (Design.clk T) ins d (n + 1)).vga.vCounter) := by
  rw [Design.rgb_run hfood hscore hd hins hedge hx hy, Game.picture, hart.spriteAt]

/-- A picture of one colour. -/
def Sprite.plain (p : Pixel) : Sprite := ⟨⟨26, 26, fun _ _ => p⟩, rfl, rfl⟩

/-- The memory it is loaded into. -/
def Sprite.plainMem (p : Pixel) (a : BitVec 10) : BitVec 24 :=
  (Sprite.plain p).image (fun _ => 0) a.toNat

theorem Sprite.plain_loaded {p : Pixel} (hp : p.Spelled) : (Sprite.plain p).Loaded (plainMem p) := by
  have hspelled : (Sprite.plain p).Spelled := fun _ _ _ _ => hp
  have hfile := hspelled.inFile
  exact ⟨_, fun _ => 0, _, hfile, hfile.loads _, fun _ => rfl⟩

/-- A white Pac-Man and three blue ghosts. -/
def plainArt : Art :=
  ⟨.plain ⟨0xff, 0xff, 0xff⟩, .plain ⟨0xff, 0xff, 0xff⟩, .plain ⟨0xff, 0xff, 0xff⟩,
    .plain ⟨0, 0, 0xff⟩, .plain ⟨0, 0, 0xff⟩, .plain ⟨0, 0, 0xff⟩⟩

def Tables.plain : Tables :=
  { Tables.shipped with
    pacManLeftMem := Sprite.plainMem ⟨0xff, 0xff, 0xff⟩
    pacManDownMem := Sprite.plainMem ⟨0xff, 0xff, 0xff⟩
    pacManFMem := Sprite.plainMem ⟨0xff, 0xff, 0xff⟩
    redEvilMem := Sprite.plainMem ⟨0, 0, 0xff⟩
    greenEvilMem := Sprite.plainMem ⟨0, 0, 0xff⟩
    blueEvilMem := Sprite.plainMem ⟨0, 0, 0xff⟩ }

/-- In the second frame with `D` held, on Pac-Man. -/
theorem pictures_shown_held :
    (Clocked.run (Design.clk .plain) holdD (.start .plain) (1208659 + 1)).rgb .plain = 0xffffff := by
  have hwhite := Sprite.plain_loaded (by decide : Pixel.Spelled ⟨0xff, 0xff, 0xff⟩)
  have hblue := Sprite.plain_loaded (by decide : Pixel.Spelled ⟨0, 0, 0xff⟩)
  have hkeys : (Design.start .plain).keys holdD (1208659 + 1) = [0x07, 0x07] :=
    holdD_keys .plain (by decide)
  obtain ⟨hedge, hx, hy⟩ := holdD_pixel .plain (n := 1208659 + 1) (x := 330) (y := 230)
    (by decide) (by decide)
  rw [pictures_shown plainArt .plain ⟨hwhite, hwhite, hwhite, hblue, hblue, hblue⟩ rfl rfl
    (.start .plain) (Design.start_released .plain) holdD holdD_low 1208659 hedge
    (by rw [hx]; decide) (by rw [hy]; decide), hx, hy, hkeys]
  decide +kernel

end Lab8
