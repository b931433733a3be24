/-
  Sprite addressing: which ROM word a pixel of the 26x26 box reads.

  Position and pixel are unsigned 10-bit numbers, their differences are `int`s, and the address is
  cut back to 10 bits.  Inside the box nothing is lost on the way:

  1. **Straight** (`StraightLaw`) — the flag is the box, and the address is `26*dy + dx`.
  2. **Rotated** (`MirrorLaw`) — the address should be that of the point-reflected pixel,
     `26*(25-dy) + (25-dx)`.  The code reflects about `Size`, not about `Size - 1`, so every address
     is 27 too high (`readAddressSpecial_toNat`): the corner pixel reads word 702 of 676, and the
     words 0 to 26 are never shown (`showsWord_iff`).
-/
import Lab8.Design
import Mathlib.Logic.ExistsUnique

namespace Lab8

variable {δ : Type}

/-! ## The box -/

/-- `X <= DrawX < X+26` and `Y <= DrawY < Y+26`, as numbers. -/
def InBox (pos : BitVec 10 × BitVec 10) (drawX drawY : BitVec 10) : Prop :=
  (pos.1.toNat ≤ drawX.toNat ∧ drawX.toNat < pos.1.toNat + 26) ∧
    (pos.2.toNat ≤ drawY.toNat ∧ drawY.toNat < pos.2.toNat + 26)

instance (pos : BitVec 10 × BitVec 10) (drawX drawY : BitVec 10) :
    Decidable (InBox pos drawX drawY) := inferInstanceAs (Decidable (_ ∧ _))

/-- An integer that ten bits hold is not truncated. -/
theorem toNat_ofInt_ten {z : Int} (h0 : 0 ≤ z) (h1 : z < 1024) :
    (BitVec.ofInt 10 z).toNat = z.toNat := by
  rw [BitVec.toNat_ofInt]
  congr 1
  exact Int.emod_eq_of_lt h0 h1

/-- The straight address, inside the box. -/
theorem readAddress_toNat {pos : BitVec 10 × BitVec 10} {drawX drawY : BitVec 10}
    (h : InBox pos drawX drawY) : (readAddress drawX drawY pos).toNat =
      26 * (drawY.toNat - pos.2.toNat) + (drawX.toNat - pos.1.toNat) := by
  rw [readAddress, if_pos ((onSprite_iff drawX drawY pos).mpr h)]
  unfold InBox at h
  rw [toNat_ofInt_ten]
  · unfold dist intDiff ballSize; omega
  · unfold dist intDiff ballSize; omega
  · unfold dist intDiff ballSize; omega

/-- **The rotated address is 27 words behind the reflected pixel.** -/
theorem readAddressSpecial_toNat {pos : BitVec 10 × BitVec 10} {drawX drawY : BitVec 10}
    (h : InBox pos drawX drawY) : (readAddressSpecial drawX drawY pos).toNat =
      26 * (25 - (drawY.toNat - pos.2.toNat)) + (25 - (drawX.toNat - pos.1.toNat)) + 27 := by
  rw [readAddressSpecial, if_pos ((onSprite_iff drawX drawY pos).mpr h)]
  unfold InBox at h
  rw [toNat_ofInt_ten]
  · unfold dist intDiff ballSize; omega
  · unfold dist intDiff ballSize; omega
  · unfold dist intDiff ballSize; omega

/-! ## The two laws -/

/-- The flag of an actor is the box, and inside it the straight address is `26*dy + dx`, below the
    ROM depth. -/
structure StraightLaw (p : Piece δ) (drawX drawY : BitVec 10) : Prop where
  flag : isBall drawX drawY p = true ↔ InBox p.pos drawX drawY
  address : InBox p.pos drawX drawY → (readAddress drawX drawY p.pos).toNat =
    26 * (drawY.toNat - p.pos.2.toNat) + (drawX.toNat - p.pos.1.toNat)
  depth : InBox p.pos drawX drawY → (readAddress drawX drawY p.pos).toNat < 676

/-- Inside the box the rotated address is that of the reflected pixel, below the ROM depth. -/
structure MirrorLaw (p : Piece Direction) (drawX drawY : BitVec 10) : Prop where
  address : InBox p.pos drawX drawY → (readAddressSpecial drawX drawY p.pos).toNat =
    26 * (25 - (drawY.toNat - p.pos.2.toNat)) + (25 - (drawX.toNat - p.pos.1.toNat))
  depth : InBox p.pos drawX drawY → (readAddressSpecial drawX drawY p.pos).toNat < 676

theorem straightLaw (p : Piece δ) (drawX drawY : BitVec 10) : StraightLaw p drawX drawY := by
  refine ⟨onSprite_iff drawX drawY p.pos, readAddress_toNat, ?_⟩
  intro h
  rw [readAddress_toNat h]
  unfold InBox at h
  omega

/-- The mirror law holds of no pixel of the box. -/
theorem mirrorLaw_iff (p : Piece Direction) (drawX drawY : BitVec 10) :
    MirrorLaw p drawX drawY ↔ ¬ InBox p.pos drawX drawY := by
  constructor
  · rintro ⟨haddr, _⟩ h
    have h27 := readAddressSpecial_toNat h
    rw [haddr h] at h27
    omega
  · intro h
    exact ⟨fun hin => absurd hin h, fun hin => absurd hin h⟩

/-! ## Which words are shown -/

/-- With direction `d` the pixel shows word `a` of the memory `mem`, whatever the memories hold. -/
def ShowsWord (d : Direction) (mem : Tables → BitVec 10 → BitVec 24) (pos : BitVec 10 × BitVec 10)
    (a : Fin 676) (pixel : BitVec 10 × BitVec 10) : Prop :=
  InBox pos pixel.1 pixel.2 ∧ ∀ T, pacManCut T d (readAddress pixel.1 pixel.2 pos)
    (readAddressSpecial pixel.1 pixel.2 pos) = mem T (BitVec.ofNat 10 a.val)

/-- Memories that hold their own addresses. -/
def Tables.addressed : Tables :=
  { (default : Tables) with
    pacManLeftMem := fun a => a.setWidth 24
    pacManDownMem := fun a => a.setWidth 24 }

/-- Right and up read the two memories at the rotated address. -/
theorem showsWord_special {d : Direction} {mem : Tables → BitVec 10 → BitVec 24}
    (hread : ∀ T address special, pacManCut T d address special = mem T special)
    (hmem : ∀ a, mem Tables.addressed a = a.setWidth 24) (pos : BitVec 10 × BitVec 10) (a : Fin 676)
    (pixel : BitVec 10 × BitVec 10) : ShowsWord d mem pos a pixel ↔
      InBox pos pixel.1 pixel.2 ∧ (readAddressSpecial pixel.1 pixel.2 pos).toNat = a.val := by
  have ha : (BitVec.ofNat 10 a.val).toNat = a.val := Nat.mod_eq_of_lt (by omega)
  constructor
  · rintro ⟨hin, hT⟩
    refine ⟨hin, ?_⟩
    have h := congrArg BitVec.toNat (hT Tables.addressed)
    rw [hread, hmem, hmem, BitVec.toNat_setWidth, BitVec.toNat_setWidth, ha] at h
    have := (readAddressSpecial pixel.1 pixel.2 pos).isLt
    omega
  · rintro ⟨hin, h⟩
    refine ⟨hin, fun T => ?_⟩
    rw [hread, BitVec.eq_of_toNat_eq (h.trans ha.symm)]

/-- The pixel at which word `a` is shown: the reflected pixel of word `a - 27`. -/
def pixelOf (pos : BitVec 10 × BitVec 10) (a : Nat) : Nat × Nat :=
  (pos.1.toNat + (25 - (a - 1) % 26), pos.2.toNat + (26 - (a - 1) / 26))

/-- **A word is shown exactly once if its number is at least 27** and its pixel is on the screen;
    otherwise it is not shown at all. -/
theorem showsWord_iff {d : Direction} {mem : Tables → BitVec 10 → BitVec 24}
    (hread : ∀ T address special, pacManCut T d address special = mem T special)
    (hmem : ∀ a, mem Tables.addressed a = a.setWidth 24) (pos : BitVec 10 × BitVec 10)
    (a : Fin 676) : (∃! pixel, ShowsWord d mem pos a pixel) ↔
      27 ≤ a.val ∧ (pixelOf pos a.val).1 < 1024 ∧ (pixelOf pos a.val).2 < 1024 := by
  have hpixel : ∀ pixel : BitVec 10 × BitVec 10, ShowsWord d mem pos a pixel ↔
      27 ≤ a.val ∧ pixel.1.toNat = (pixelOf pos a.val).1 ∧
        pixel.2.toNat = (pixelOf pos a.val).2 := by
    intro pixel
    rw [showsWord_special hread hmem]
    constructor
    · rintro ⟨hin, h⟩
      rw [readAddressSpecial_toNat hin] at h
      unfold InBox at hin
      unfold pixelOf
      omega
    · rintro ⟨h27, hx, hy⟩
      have hlt := a.isLt
      have hin : InBox pos pixel.1 pixel.2 := by
        unfold pixelOf at hx hy
        unfold InBox
        omega
      refine ⟨hin, ?_⟩
      rw [readAddressSpecial_toNat hin]
      unfold pixelOf at hx hy
      omega
  constructor
  · rintro ⟨pixel, hshow, _⟩
    obtain ⟨h27, hx, hy⟩ := (hpixel pixel).mp hshow
    rw [← hx, ← hy]
    exact ⟨h27, pixel.1.isLt, pixel.2.isLt⟩
  · rintro ⟨h27, hx, hy⟩
    have hX : (BitVec.ofNat 10 (pixelOf pos a.val).1).toNat = (pixelOf pos a.val).1 :=
      Nat.mod_eq_of_lt hx
    have hY : (BitVec.ofNat 10 (pixelOf pos a.val).2).toNat = (pixelOf pos a.val).2 :=
      Nat.mod_eq_of_lt hy
    refine ⟨(BitVec.ofNat 10 (pixelOf pos a.val).1, BitVec.ofNat 10 (pixelOf pos a.val).2),
      (hpixel _).mpr ⟨h27, hX, hY⟩, ?_⟩
    intro q hq
    obtain ⟨_, hqx, hqy⟩ := (hpixel q).mp hq
    exact Prod.ext (BitVec.eq_of_toNat_eq (hqx.trans hX.symm))
      (BitVec.eq_of_toNat_eq (hqy.trans hY.symm))

/-- **Sprite addressing.**  For every position, direction and pixel:
    (1) the flags and the straight addresses of all four actors are right;
    (2) Pac-Man's rotated address is right as well exactly when the pixel is not in his box, where
        no address is asked for;
    (3) for directions right and up, a word of the 676 is shown exactly once if and only if its
        number is at least 27 and the pixel it is shown at exists. -/
theorem sprite_addressing (p : Piece Direction) (drawX drawY : BitVec 10) :
    (∀ (δ : Type) (q : Piece δ), StraightLaw q drawX drawY) ∧
    ((StraightLaw p drawX drawY ∧ MirrorLaw p drawX drawY) ↔ ¬ InBox p.pos drawX drawY) ∧
    (∀ a : Fin 676,
      ((∃! pixel, ShowsWord 0b010 Tables.pacManLeftMem p.pos a pixel) ↔
        27 ≤ a.val ∧ (pixelOf p.pos a.val).1 < 1024 ∧ (pixelOf p.pos a.val).2 < 1024) ∧
      ((∃! pixel, ShowsWord 0b011 Tables.pacManDownMem p.pos a pixel) ↔
        27 ≤ a.val ∧ (pixelOf p.pos a.val).1 < 1024 ∧ (pixelOf p.pos a.val).2 < 1024)) := by
  refine ⟨fun _ q => straightLaw q drawX drawY, ?_, ?_⟩
  · rw [← mirrorLaw_iff]
    exact and_iff_right (straightLaw p drawX drawY)
  · intro a
    exact ⟨showsWord_iff (fun _ _ _ => rfl) (fun _ => rfl) p.pos a,
      showsWord_iff (fun _ _ _ => rfl) (fun _ => rfl) p.pos a⟩

/-- The corner pixel of Pac-Man's starting box reads word 702. -/
theorem sprite_addressing_corner :
    ¬ (StraightLaw Actors.center.pacMan 320 224 ∧ MirrorLaw Actors.center.pacMan 320 224) ∧
      (readAddressSpecial 320 224 Actors.center.pacMan.pos).toNat = 702 := by
  refine ⟨?_, by decide⟩
  rintro ⟨_, h⟩
  exact absurd (h.depth (by decide)) (by decide)

end Lab8
