/-
  Text on the screen: which font row a box shows, and which bit of it a column shows.

  1. **The row** (`displayLetters_covered`) — the boxes of the chain do not overlap, so a pixel in a
     box finds that box, and `score_addr` is `16*code + j` without truncation.
  2. **The bit** (`textBit_eq`) — `text_data[score_x - DrawX]` counts the WRONG WAY: column 0 selects
     bit 0, every other column a negative index, which eleven bits turn into one past 2040.
     Whatever a select outside the row returns, the glyph is not the one in the ROM: cut to three
     bits it is the row rotated by one column, taken as unlit it is column 0 alone.
  3. **The digits** (`score_digits_shown`) — the two digit boxes show the number of pellets eaten.
     `score / 10` is used as one digit; the pellet map bounds it.
-/
import Lab8.Score
import Lab8.Scan
import Mathlib.Data.List.Pairwise

namespace Lab8

/-! ## The chain of boxes -/

/-- The boxes of two glyphs have no pixel in common. -/
def Glyph.Apart (g g' : Glyph) : Prop :=
  (g.x + 8 ≤ g'.x ∨ g'.x + 8 ≤ g.x) ∨ (g.y + 16 ≤ g'.y ∨ g'.y + 16 ≤ g.y)

instance (g g' : Glyph) : Decidable (g.Apart g') := inferInstanceAs (Decidable (_ ∨ _))

instance : Std.Symm Glyph.Apart := ⟨fun _ _ h => h.imp Or.symm Or.symm⟩

/-- The boxes do not overlap, whatever digits are shown. -/
theorem glyphs_apart (score : BitVec 8) : (glyphs score).Pairwise Glyph.Apart := by
  -- the digits are codes, and the boxes are closed terms
  have h : decide ((glyphs score).Pairwise Glyph.Apart) = true := rfl
  exact of_decide_eq_true h

theorem scoreTensDigit_toNat (score : BitVec 8) :
    (scoreTensDigit score).toNat = 0x30 + score.toNat / 10 := by
  have hlt := score.isLt
  rw [scoreTensDigit, BitVec.toNat_add, BitVec.toNat_udiv]
  simp
  omega

theorem scoreUnitDigit_toNat (score : BitVec 8) :
    (scoreUnitDigit score).toNat = 0x30 + score.toNat % 10 := by
  have hlt := score.isLt
  rw [scoreUnitDigit, BitVec.toNat_add, BitVec.toNat_umod]
  simp
  omega

/-- Every box is on the screen below the maze, and every code is that of one of the 128 glyphs. -/
theorem glyphs_bounds (score : BitVec 8) :
    ∀ g ∈ glyphs score, g.x + 8 < 640 ∧ 352 ≤ g.y ∧ g.y + 16 < 480 ∧ g.code < 128 := by
  have htens := scoreTensDigit_toNat score
  have hunit := scoreUnitDigit_toNat score
  have hlt := score.isLt
  simp only [glyphs, List.forall_mem_cons, scoreGlyph, titleGlyph, gameOverGlyph]
  simp
  omega

/-- The condition of a branch, as numbers. -/
theorem Glyph.covers_iff (g : Glyph) (drawX drawY : BitVec 10) : g.covers drawX drawY = true ↔
    (g.x ≤ drawX.toNat ∧ drawX.toNat < g.x + 8) ∧ (g.y ≤ drawY.toNat ∧ drawY.toNat < g.y + 16) := by
  simp only [Glyph.covers, Bool.and_eq_true, decide_eq_true_eq]
  omega

/-- **A pixel in a box finds that box.** -/
theorem displayLetters_covered {score : BitVec 8} {g : Glyph} (hg : g ∈ glyphs score)
    {drawX drawY : BitVec 10} (hin : g.covers drawX drawY = true) :
    displayLetters score drawX drawY = g.letters drawY := by
  have hfind : (glyphs score).find? (fun g => g.covers drawX drawY) = some g := by
    cases hf : (glyphs score).find? (fun g => g.covers drawX drawY) with
    | none => exact absurd hin (List.find?_eq_none.mp hf g hg)
    | some g' =>
      by_cases heq : g' = g
      · rw [heq]
      · -- another box over the same pixel would overlap this one
        have hmem : g' ∈ glyphs score := List.mem_of_find?_eq_some hf
        have hin' : g'.covers drawX drawY = true :=
          List.find?_some (p := fun g : Glyph => g.covers drawX drawY) hf
        have hapart := (glyphs_apart score).forall hmem hg heq
        rw [Glyph.covers_iff] at hin hin'
        unfold Glyph.Apart at hapart
        omega
  rw [displayLetters, hfind]

/-- The row address of a box, without truncation. -/
theorem Glyph.scoreAddr_toNat {g : Glyph} {drawY : BitVec 10} (hc : g.code < 128)
    (hy : g.y ≤ drawY.toNat ∧ drawY.toNat < g.y + 16) :
    (g.letters drawY).scoreAddr.toNat = 16 * g.code + (drawY.toNat - g.y) := by
  show (BitVec.ofInt 11 _).toNat = _
  rw [BitVec.toNat_ofInt]
  have h : ((drawY.toNat : Int) - g.y + 16 * g.code) % 2048 =
      (drawY.toNat : Int) - g.y + 16 * g.code := Int.emod_eq_of_lt (by omega) (by omega)
  rw [show ((2 ^ 11 : Nat) : Int) = 2048 from rfl, h]
  omega

/-! ## The selected bit -/

/-- A bit select outside the row, cut to three bits. -/
def Tables.truncating (T : Tables) : Tables :=
  { T with textOut := fun textData index => textData.getLsbD (index.toNat % 8) }

/-- A bit select outside the row, taken as not lit. -/
def Tables.unlit (T : Tables) : Tables := { T with textOut := fun _ _ => false }

/-- **Column 0 selects bit 0, column `k` the index `2048 - k`.** -/
theorem textBit_eq (T : Tables) (textData : BitVec 8) {x k : Nat} (hk : k < 8)
    {drawX : BitVec 10} (hd : drawX.toNat = x + k) :
    textBit T textData (BitVec.ofNat 11 x) drawX =
      if k = 0 then textData.getLsbD 0 else T.textOut textData (BitVec.ofNat 11 (2048 - k)) := by
  have hindex : BitVec.ofNat 11 x - drawX.setWidth 11 = BitVec.ofNat 11 (2048 - k) := by
    apply BitVec.eq_of_toNat_eq
    rw [BitVec.toNat_sub, BitVec.toNat_setWidth, hd]
    simp
    omega
  have hnat : (BitVec.ofNat 11 (2048 - k)).toNat = (2048 - k) % 2048 := BitVec.toNat_ofNat _ _
  unfold textBit
  rw [hindex]
  by_cases h0 : k = 0
  · subst h0
    rfl
  · rw [if_neg h0]
    exact if_neg (by omega)

/-- Cut to three bits, the row is rotated by one column. -/
theorem textBit_truncating (T : Tables) (textData : BitVec 8) {x k : Nat} (hk : k < 8)
    {drawX : BitVec 10} (hd : drawX.toNat = x + k) :
    textBit T.truncating textData (BitVec.ofNat 11 x) drawX = textData.getLsbD ((8 - k) % 8) := by
  rw [textBit_eq T.truncating textData hk hd]
  split
  · rename_i h0
    rw [h0]
  · show textData.getLsbD ((BitVec.ofNat 11 (2048 - k)).toNat % 8) = _
    rw [BitVec.toNat_ofNat]
    congr 1
    omega

/-- Taken as unlit, only column 0 is left. -/
theorem textBit_unlit (T : Tables) (textData : BitVec 8) {x k : Nat} (hk : k < 8)
    {drawX : BitVec 10} (hd : drawX.toNat = x + k) :
    textBit T.unlit textData (BitVec.ofNat 11 x) drawX =
      (decide (k = 0) && textData.getLsbD 0) := by
  rw [textBit_eq T.unlit textData hk hd]
  by_cases h0 : k = 0
  · rw [if_pos h0, decide_eq_true h0, Bool.true_and]
  · rw [if_neg h0, decide_eq_false h0, Bool.false_and]
    rfl

/-! ## Lit pixels -/

/-- The colour of lit text: white, yellow, red. -/
def TextKind.color : TextKind → BitVec 24
  | .scoreLetters => 0xffffff
  | .zoom => 0xffff00
  | .gameOver => 0xff0000

/-- No text is black, so its colour tells lit from unlit. -/
theorem TextKind.color_iff (kind : TextKind) (lit : Bool) :
    (if lit then kind.color else 0x000000) = kind.color ↔ lit = true := by
  cases kind <;> cases lit <;> decide

/-- No sprite is on the pixel, and for GAME OVER a collision flag is up. -/
structure PixelFlags.ClearFor (p : PixelFlags) (kind : TextKind) : Prop where
  ball : p.isBall = false
  red : p.isRedEvil = false
  green : p.isGreenEvil = false
  blue : p.isBlueEvil = false
  ends : kind = .gameOver → p.collision = true

/-- Below the maze, in a box, `color_mapper` draws the text. -/
theorem colorMapper_text (T : Tables) {p : PixelFlags} (s : SpriteRegs) {g : Glyph}
    (hp : p.ClearFor g.kind) (textData : BitVec 8) (drawX : BitVec 10) {drawY : BitVec 10}
    (hy : 352 ≤ drawY.toNat) : colorMapper T p s (g.letters drawY) textData drawX drawY =
      if textBit T textData (BitVec.ofNat 11 g.x) drawX then g.kind.color else 0x000000 := by
  have hlow : decide (drawY < 352) = false := by
    apply decide_eq_false
    rw [BitVec.lt_def]
    exact Nat.not_lt.mpr hy
  have hends := hp.ends
  unfold colorMapper Glyph.letters
  rw [hp.ball, hp.red, hp.green, hp.blue, hlow, Bool.and_false, Bool.and_false]
  generalize textBit T textData (BitVec.ofNat 11 g.x) drawX = lit
  cases hk : g.kind with
  | scoreLetters => cases lit <;> rfl
  | zoom => cases lit <;> rfl
  | gameOver =>
    rw [hends hk]
    cases lit <;> rfl

/-- **The law of one pixel** `(DrawX, DrawY)` in the box of a glyph: `score_addr` is `16*code + j`,
    and with no sprite on it the pixel is lit exactly when bit `7 - k` of that font row is 1. -/
structure PixelLaw (T : Tables) (score : BitVec 8) (g : Glyph) (drawX drawY : BitVec 10) :
    Prop where
  address : (displayLetters score drawX drawY).scoreAddr.toNat =
    16 * g.code + (drawY.toNat - g.y)
  lit : ∀ (p : PixelFlags) (s : SpriteRegs), p.ClearFor g.kind →
    (colorMapper T p s (displayLetters score drawX drawY)
        (T.fontRom (displayLetters score drawX drawY).scoreAddr) drawX drawY = g.kind.color ↔
      (T.fontRom (BitVec.ofNat 11 (16 * g.code + (drawY.toNat - g.y)))).getLsbD
        (7 - (drawX.toNat - g.x)) = true)

/-- The font row of a box at the height of a pixel. -/
def Glyph.row (T : Tables) (g : Glyph) (drawY : BitVec 10) : BitVec 8 :=
  T.fontRom (BitVec.ofNat 11 (16 * g.code + (drawY.toNat - g.y)))

/-- The law holds where the bit selected is the bit meant. -/
theorem pixelLaw_iff (T : Tables) {score : BitVec 8} {g : Glyph} (hg : g ∈ glyphs score)
    {drawX drawY : BitVec 10} (hin : g.covers drawX drawY = true) :
    PixelLaw T score g drawX drawY ↔
      textBit T (g.row T drawY) (BitVec.ofNat 11 g.x) drawX =
        (g.row T drawY).getLsbD (7 - (drawX.toNat - g.x)) := by
  obtain ⟨_, hy352, _, hcode⟩ := glyphs_bounds score g hg
  have hbox := (g.covers_iff drawX drawY).mp hin
  have haddr := Glyph.scoreAddr_toNat hcode hbox.2
  have hrow : T.fontRom (g.letters drawY).scoreAddr = g.row T drawY := by
    rw [Glyph.row, ← haddr, BitVec.ofNat_toNat, BitVec.setWidth_eq]
  have hcolor : ∀ {p : PixelFlags} (s : SpriteRegs), p.ClearFor g.kind →
      (colorMapper T p s (g.letters drawY) (g.row T drawY) drawX drawY = g.kind.color ↔
        textBit T (g.row T drawY) (BitVec.ofNat 11 g.x) drawX = true) := by
    intro p s hp
    rw [colorMapper_text T s hp _ drawX (by omega)]
    exact g.kind.color_iff _
  constructor
  · rintro ⟨_, hlit⟩
    have hclear : (⟨false, false, false, false, false, true, true⟩ : PixelFlags).ClearFor g.kind :=
      ⟨rfl, rfl, rfl, rfl, fun _ => rfl⟩
    have h := hlit _ default hclear
    rw [displayLetters_covered hg hin, hrow, hcolor default hclear] at h
    rw [Bool.eq_iff_iff]
    exact h
  · intro h
    refine ⟨?_, ?_⟩
    · rw [displayLetters_covered hg hin]
      exact haddr
    · intro p s hp
      rw [displayLetters_covered hg hin, hrow, hcolor s hp, h]
      rfl

/-- With selects cut to three bits, column `k` shows bit `(8 - k) % 8`. -/
theorem pixelLaw_truncating (T : Tables) {score : BitVec 8} {g : Glyph} (hg : g ∈ glyphs score)
    {drawX drawY : BitVec 10} (hin : g.covers drawX drawY = true) :
    PixelLaw T.truncating score g drawX drawY ↔
      (g.row T drawY).getLsbD ((8 - (drawX.toNat - g.x)) % 8) =
        (g.row T drawY).getLsbD (7 - (drawX.toNat - g.x)) := by
  obtain ⟨hx, _, _, _⟩ := glyphs_bounds score g hg
  have hbox := (g.covers_iff drawX drawY).mp hin
  have hd : drawX.toNat = g.x + (drawX.toNat - g.x) := by omega
  rw [pixelLaw_iff T.truncating hg hin, textBit_truncating T _ (by omega) hd]
  rfl

/-- With selects outside the row unlit, only column 0 can be lit. -/
theorem pixelLaw_unlit (T : Tables) {score : BitVec 8} {g : Glyph} (hg : g ∈ glyphs score)
    {drawX drawY : BitVec 10} (hin : g.covers drawX drawY = true) :
    PixelLaw T.unlit score g drawX drawY ↔
      (decide (drawX.toNat - g.x = 0) && (g.row T drawY).getLsbD 0) =
        (g.row T drawY).getLsbD (7 - (drawX.toNat - g.x)) := by
  obtain ⟨hx, _, _, _⟩ := glyphs_bounds score g hg
  have hbox := (g.covers_iff drawX drawY).mp hin
  have hd : drawX.toNat = g.x + (drawX.toNat - g.x) := by omega
  rw [pixelLaw_iff T.unlit hg hin, textBit_unlit T _ (by omega) hd]
  rfl

/-- A row that is its own rotation is blank or full. -/
theorem row_rotated : ∀ row : BitVec 8,
    (∀ k < 8, row.getLsbD ((8 - k) % 8) = row.getLsbD (7 - k)) ↔ row = 0 ∨ row = 0xff := by
  decide +kernel

/-- A row with column 0 alone, taken from bit 0, is blank. -/
theorem row_single : ∀ row : BitVec 8,
    (∀ k < 8, (decide (k = 0) && row.getLsbD 0) = row.getLsbD (7 - k)) ↔ row = 0 := by
  decide +kernel

/-- A law of the pixels of a box row is a law of its eight columns. -/
theorem forall_columns {g : Glyph} {drawY : BitVec 10} (hx : g.x + 8 < 640)
    (hy : g.y ≤ drawY.toNat ∧ drawY.toNat < g.y + 16) {P : BitVec 10 → Prop} {Q : Nat → Prop}
    (h : ∀ drawX, g.covers drawX drawY = true → (P drawX ↔ Q (drawX.toNat - g.x))) :
    (∀ drawX, g.covers drawX drawY = true → P drawX) ↔ ∀ k < 8, Q k := by
  constructor
  · intro hP k hk
    have hd : (BitVec.ofNat 10 (g.x + k)).toNat = g.x + k := Nat.mod_eq_of_lt (by omega)
    have hin : g.covers (BitVec.ofNat 10 (g.x + k)) drawY = true := by
      rw [Glyph.covers_iff]
      omega
    have hQ := (h _ hin).mp (hP _ hin)
    rw [hd, Nat.add_sub_cancel_left] at hQ
    exact hQ
  · intro hQ drawX hin
    rw [h drawX hin]
    have hbox := (g.covers_iff drawX drawY).mp hin
    exact hQ _ (by omega)

/-- **When text is drawn as the font ROM says.**  For every score, every content of the font ROM,
    every box and every row of it:
    (1) at column `k`, with selects outside the row cut to three bits, the law holds exactly when
        bit `7 - k` equals bit `(8 - k) % 8`;
    (2) with such selects taken as unlit, exactly when bit `7 - k` is what bit 0 is for `k = 0`, and
        0 for any other column;
    (3) the whole row obeys the law exactly when its byte is `00` or `ff`, or, in the second
        reading, `00`. -/
theorem text_as_font (T : Tables) (score : BitVec 8) (g : Glyph) (hg : g ∈ glyphs score)
    (drawY : BitVec 10) (hy : g.y ≤ drawY.toNat ∧ drawY.toNat < g.y + 16) :
    (∀ drawX, g.covers drawX drawY = true →
      (PixelLaw T.truncating score g drawX drawY ↔
        (g.row T drawY).getLsbD ((8 - (drawX.toNat - g.x)) % 8) =
          (g.row T drawY).getLsbD (7 - (drawX.toNat - g.x))) ∧
      (PixelLaw T.unlit score g drawX drawY ↔
        (decide (drawX.toNat - g.x = 0) && (g.row T drawY).getLsbD 0) =
          (g.row T drawY).getLsbD (7 - (drawX.toNat - g.x)))) ∧
    ((∀ drawX, g.covers drawX drawY = true → PixelLaw T.truncating score g drawX drawY) ↔
      g.row T drawY = 0 ∨ g.row T drawY = 0xff) ∧
    ((∀ drawX, g.covers drawX drawY = true → PixelLaw T.unlit score g drawX drawY) ↔
      g.row T drawY = 0) := by
  obtain ⟨hx, _, _, _⟩ := glyphs_bounds score g hg
  refine ⟨fun drawX hin => ⟨pixelLaw_truncating T hg hin, pixelLaw_unlit T hg hin⟩, ?_, ?_⟩
  · rw [← row_rotated]
    exact forall_columns hx hy (fun drawX hin => pixelLaw_truncating T hg hin)
  · rw [← row_single]
    exact forall_columns hx hy (fun drawX hin => pixelLaw_unlit T hg hin)

/-- A font ROM of blank rows is shown as it is: a pixel of row 3 of the letter S. -/
theorem text_as_font_blank :
    PixelLaw (Tables.truncating { (default : Tables) with fontRom := fun _ => 0 }) 0
      (scoreGlyph 0 0x53) 290 363 :=
  (text_as_font { (default : Tables) with fontRom := fun _ => 0 } 0 (scoreGlyph 0 0x53)
    (by decide) 363 (by decide)).2.1.mpr (Or.inl rfl) 290 (by decide)

/-- Row 3 of the letter S is `11000110`; its leftmost pixel should be lit and is not, in neither
    reading. -/
theorem text_as_font_letter :
    ¬ PixelLaw (Tables.truncating { (default : Tables) with fontRom := fun _ => 0xc6 }) 0
        (scoreGlyph 0 0x53) 290 363 ∧
      ¬ PixelLaw (Tables.unlit { (default : Tables) with fontRom := fun _ => 0xc6 }) 0
        (scoreGlyph 0 0x53) 290 363 := by
  constructor
  · rintro ⟨_, hlit⟩
    exact absurd ((hlit ⟨false, false, false, false, false, true, false⟩ default
      ⟨rfl, rfl, rfl, rfl, by decide⟩).mpr (by decide)) (by decide)
  · rintro ⟨_, hlit⟩
    exact absurd ((hlit ⟨false, false, false, false, false, true, false⟩ default
      ⟨rfl, rfl, rfl, rfl, by decide⟩).mpr (by decide)) (by decide)

/-! ## The score digits -/

/-- The boxes of the tens and of the units digit are entries of the chain. -/
theorem digits_mem (score : BitVec 8) :
    scoreGlyph 6 (scoreTensDigit score).toNat ∈ glyphs score ∧
      scoreGlyph 7 (scoreUnitDigit score).toNat ∈ glyphs score := by
  simp [glyphs]

/-- **The two score digits always show the score.**  With the shipped pellet map and score, in every
    state of every run of the design that starts with Reset, for any keys and any later Resets,
    there are digits `t` and `u` with `10*t + u` the number of pellets eaten since Reset, the two
    8-bit character codes are `0x30 + t` and `0x30 + u`, and at every pixel of row `j` of the tens
    and of the units box the ROM address is `16*(0x30 + t) + j` and `16*(0x30 + u) + j`. -/
theorem score_digits_shown (T : Tables) (hfood : T.foodTemp = foodTxt)
    (hscore : T.scoreTemp = scoreTxt) (d : Design) (i : DesignIn) (hi : i.reset = true)
    (ins : Nat → DesignIn) (n : Nat) :
    let f := (Clocked.run (Design.clk T) ins (d.clk T i) n).board.food
    ∃ t u, t ≤ 9 ∧ u ≤ 9 ∧ 10 * t + u = (Latch.raised foodTxt f.food).card ∧
      (scoreTensDigit f.score).toNat = 0x30 + t ∧ (scoreUnitDigit f.score).toNat = 0x30 + u ∧
      (∀ drawX drawY, (scoreGlyph 6 (0x30 + t)).covers drawX drawY = true →
        (displayLetters f.score drawX drawY).scoreAddr.toNat =
          16 * (0x30 + t) + (drawY.toNat - 360)) ∧
      (∀ drawX drawY, (scoreGlyph 7 (0x30 + u)).covers drawX drawY = true →
        (displayLetters f.score drawX drawY).scoreAddr.toNat =
          16 * (0x30 + u) + (drawY.toNat - 360)) := by
  intro f
  have hcounts : f.Counts T := by
    show (Clocked.run (Design.clk T) ins (d.clk T i) n).board.food.Counts T
    rw [Design.board_run]
    exact counts_run hscore d.board (i := d.clkIn i) hi _ n
  have heaten : f.score.toNat = (Latch.raised foodTxt f.food).card := by
    rw [hcounts.score, hfood]
  -- the pellet map bounds the score, and so the tens digit
  have hle : (Latch.raised foodTxt f.food).card ≤ 86 := by
    rw [← card_down_foodTxt]
    exact Latch.card_raised_le _ _
  have htens := scoreTensDigit_toNat f.score
  have hunit := scoreUnitDigit_toNat f.score
  have hshown : ∀ {g : Glyph}, g ∈ glyphs f.score → ∀ drawX drawY,
      g.covers drawX drawY = true → (displayLetters f.score drawX drawY).scoreAddr.toNat =
        16 * g.code + (drawY.toNat - g.y) := by
    intro g hg drawX drawY hin
    rw [displayLetters_covered hg hin]
    exact Glyph.scoreAddr_toNat (glyphs_bounds f.score g hg).2.2.2
      ((g.covers_iff drawX drawY).mp hin).2
  obtain ⟨hmem6, hmem7⟩ := digits_mem f.score
  rw [htens] at hmem6
  rw [hunit] at hmem7
  refine ⟨f.score.toNat / 10, f.score.toNat % 10, by omega, by omega, by omega, htens, hunit,
    ?_, ?_⟩
  · exact hshown hmem6
  · exact hshown hmem7

/-- The digits of a game at power-up. -/
theorem score_digits_shown_start :
    ∃ t u, t ≤ 9 ∧ u ≤ 9 ∧ 10 * t + u = (Latch.raised foodTxt
      (Clocked.run (Design.clk .shipped) (fun _ => ⟨false, 0x1A⟩)
        (Design.clk .shipped ⟨true, 0⟩ default) 2).board.food.food).card := by
  obtain ⟨t, u, ht, hu, hsum, _⟩ := score_digits_shown .shipped rfl rfl default ⟨true, 0⟩ rfl
    (fun _ => ⟨false, 0x1A⟩) 2
  exact ⟨t, u, ht, hu, hsum⟩

end Lab8
