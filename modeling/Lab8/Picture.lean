/-
  `png_to_txt.py`, `png_to_3_txt.py` and `$readmemh`: from a picture to a memory.

  The script writes a pixel as `"%x%x%x\n"`: three numerals of one digit or two each, side by side.
  `$readmemh` reads the line as one number, so a channel below 16 moves the channels in front of it a
  digit down.  `text_reads_back` says exactly which pictures survive: a pixel is read back if no channel
  that is written with one digit has anything but zeros in front of it.
-/
import Lab8.Lib.Hex
import Lab8.Lib.Pulse

namespace Lab8

/-! ## Pictures -/

/-- The colour of a pixel; the transparency of `convert("RGBA")` is not used. -/
structure Pixel where
  r : BitVec 8
  g : BitVec 8
  b : BitVec 8
  deriving DecidableEq, Repr

/-- The word a memory should hold: `{R, G, B}`. -/
def Pixel.rgb (p : Pixel) : BitVec 24 := p.r ++ p.g ++ p.b

/-- An image, with `im.size` and `im.getpixel((x, y))`. -/
structure Picture where
  width : Nat
  height : Nat
  getpixel : Nat → Nat → Pixel

/-- The pixels in the order of the loops: `for y`, and in it `for x`. -/
def Picture.pixels (im : Picture) : List Pixel :=
  (List.range im.height).flatMap fun y => (List.range im.width).map fun x => im.getpixel x y

/-! ## The text files -/

/-- `%x`. -/
def hex (n : BitVec 8) : List Char := Nat.toDigits 16 n.toNat

/-- `"%x%x%x" % (r, g, b)`. -/
def Pixel.line (p : Pixel) : List Char := hex p.r ++ hex p.g ++ hex p.b

/-- The file `png_to_txt.py` writes. -/
def pngToTxt (im : Picture) : List Char := im.pixels.flatMap fun p => p.line ++ ['\n']

/-- One of the three files `png_to_3_txt.py` writes. -/
def pngToChannelTxt (channel : Pixel → BitVec 8) (im : Picture) : List Char :=
  im.pixels.flatMap fun p => hex (channel p) ++ ['\n']

/-! ## The memory -/

/-- The numbers of a memory file: numerals between blanks. -/
def memWords (file : List Char) : Option (List Nat) :=
  (Pulse.pulses (fun c => !c.isWhitespace) file).mapM Hex.read

/-- `$readmemh`: the numbers go to the addresses from 0 on, cut to the width of the memory. -/
def readmemh {w : Nat} (file : List Char) (mem : Nat → BitVec w) : Option (Nat → BitVec w) :=
  (memWords file).map fun words a => (words[a]?.map (BitVec.ofNat w)).getD (mem a)

/-- The memory that holds a picture row by row, and `mem` behind it. -/
def Picture.image (im : Picture) (mem : Nat → BitVec 24) (a : Nat) : BitVec 24 :=
  if a < im.height * im.width then (im.getpixel (a % im.width) (a / im.width)).rgb else mem a

/-! ## Reading a file back -/

theorem not_blank_of_digit {c : Char} {d : Nat} (h : Hex.digit c = some d) :
    (!c.isWhitespace) = true := by
  cases hc : c.isWhitespace with
  | false => rfl
  | true =>
    unfold Char.isWhitespace at hc
    simp only [Bool.or_eq_true, decide_eq_true_eq] at hc
    rcases hc with ((rfl | rfl) | rfl) | rfl
    all_goals
      rw [show Hex.digit _ = none by decide] at h
      exact absurd h.symm (Option.some_ne_none d)

/-- **A file of numerals**, one on a line, is read line by line. -/
theorem memWords_lines {α : Type} {line : α → List Char} {value : α → Nat}
    (hread : ∀ x, Hex.read (line x) = some (value x)) (xs : List α) :
    memWords (xs.flatMap fun x => line x ++ ['\n']) = some (xs.map value) := by
  have hpulses : Pulse.pulses (fun c => !c.isWhitespace) ((xs.map line).flatMap (· ++ ['\n'])) =
      xs.map line := by
    refine Pulse.pulses_flatMap ?_ ?_ (by decide)
    · intro l hl
      obtain ⟨x, -, rfl⟩ := List.mem_map.mp hl
      exact (Hex.digits_of_read (hread x)).1
    · intro l hl c hc
      obtain ⟨x, -, rfl⟩ := List.mem_map.mp hl
      obtain ⟨d, hd⟩ := (Hex.digits_of_read (hread x)).2 c hc
      exact not_blank_of_digit hd
  rw [List.flatMap_map] at hpulses
  rw [memWords, hpulses, List.mapM_map, show Hex.read ∘ line = pure ∘ value from funext hread]
  exact List.mapM_pure

/-- The number a line is read as. -/
def Pixel.value (p : Pixel) : Nat :=
  16 ^ (hex p.b).length * (16 ^ (hex p.g).length * p.r.toNat + p.g.toNat) + p.b.toNat

theorem Pixel.read_line (p : Pixel) : Hex.read p.line = some p.value := by
  rw [Hex.read, if_neg (by simp [line, hex, Nat.toDigits_ne_nil]), line, Hex.readFrom_append,
    Hex.readFrom_append, hex, Hex.readFrom_toDigits, Option.bind_some, hex, Hex.readFrom_toDigits,
    Option.bind_some, hex, Hex.readFrom_toDigits, Nat.mul_zero, Nat.zero_add]
  rfl

/-! ## Which pixels survive -/

theorem Pixel.rgb_toNat (p : Pixel) :
    p.rgb.toNat = 65536 * p.r.toNat + 256 * p.g.toNat + p.b.toNat := by
  rw [rgb, BitVec.toNat_append, BitVec.toNat_append, ← Nat.shiftLeft_add_eq_or_of_lt p.b.isLt,
    ← Nat.shiftLeft_add_eq_or_of_lt p.g.isLt, Nat.shiftLeft_eq, Nat.shiftLeft_eq]
  omega

/-- No channel that is written with one digit has anything but zeros in front of it. -/
def Pixel.Spelled (p : Pixel) : Prop :=
  (p.g.toNat < 16 → p.r.toNat = 0) ∧ (p.b.toNat < 16 → p.r.toNat = 0 ∧ p.g.toNat = 0)

instance (p : Pixel) : Decidable p.Spelled := inferInstanceAs (Decidable (_ ∧ _))

theorem Pixel.value_lt (p : Pixel) : p.value < 2 ^ 24 := by
  have hr := p.r.isLt
  have hg := p.g.isLt
  have hb := p.b.isLt
  rw [value, hex, Hex.length_toDigits_byte hb, hex, Hex.length_toDigits_byte hg]
  split <;> split <;> omega

/-- **A pixel is read back exactly if it is spelled.** -/
theorem Pixel.value_eq_iff (p : Pixel) : p.value = p.rgb.toNat ↔ p.Spelled := by
  have hr := p.r.isLt
  have hg := p.g.isLt
  have hb := p.b.isLt
  rw [rgb_toNat, value, hex, Hex.length_toDigits_byte hb, hex, Hex.length_toDigits_byte hg, Spelled]
  split <;> split <;> omega

/-! ## The picture in the memory -/

/-- The pixels by address. -/
theorem Picture.pixels_eq (im : Picture) : im.pixels =
    (List.range (im.height * im.width)).map fun a => im.getpixel (a % im.width) (a / im.width) := by
  obtain ⟨w, h, px⟩ := im
  show ((List.range h).flatMap fun y => (List.range w).map fun x => px x y) =
    (List.range (h * w)).map fun a => px (a % w) (a / w)
  induction h with
  | zero => rw [Nat.zero_mul]; rfl
  | succ h ih =>
    rw [List.range_succ, List.flatMap_append, ih, Nat.succ_mul, List.range_add, List.map_append,
      List.flatMap_singleton, List.map_map]
    congr 1
    apply List.map_congr_left
    intro x hx
    have hx := List.mem_range.mp hx
    show px x h = px ((h * w + x) % w) ((h * w + x) / w)
    rw [Nat.mul_comm h w, Nat.mul_add_mod, Nat.mod_eq_of_lt hx, Nat.mul_add_div (by omega),
      Nat.div_eq_of_lt hx, Nat.add_zero]

/-- What `$readmemh` loads from a file of one number a pixel. -/
theorem readmemh_pixels {im : Picture} {file : List Char} {f : Pixel → Nat}
    (hf : memWords file = some (im.pixels.map f)) (mem : Nat → BitVec 24) :
    readmemh file mem = some fun a => if a < im.height * im.width then
      BitVec.ofNat 24 (f (im.getpixel (a % im.width) (a / im.width))) else mem a := by
  rw [readmemh, hf, im.pixels_eq, List.map_map, Option.map_some]
  congr 1
  funext a
  by_cases ha : a < im.height * im.width
  · rw [if_pos ha, List.getElem?_map, List.getElem?_range ha]
    rfl
  · rw [if_neg ha, List.getElem?_map, List.getElem?_eq_none (by simpa using ha)]
    rfl

/-- The numbers of a file are the words of the picture. -/
def Picture.InFile (im : Picture) (file : List Char) : Prop :=
  memWords file = some (im.pixels.map fun p => p.rgb.toNat)

/-- **`$readmemh` loads the picture** that is in the file. -/
theorem Picture.InFile.loads {im : Picture} {file : List Char} (h : im.InFile file)
    (mem : Nat → BitVec 24) : readmemh file mem = some (im.image mem) := by
  rw [readmemh_pixels h]
  simp only [BitVec.ofNat_toNat, BitVec.setWidth_eq]
  rfl

/-! ## The file of `png_to_txt.py` -/

/-- Every pixel is spelled. -/
def Picture.Spelled (im : Picture) : Prop := ∀ y < im.height, ∀ x < im.width, (im.getpixel x y).Spelled

instance (im : Picture) : Decidable im.Spelled :=
  inferInstanceAs (Decidable (∀ y < im.height, ∀ x < im.width, (im.getpixel x y).Spelled))

theorem Picture.Spelled.inFile {im : Picture} (h : im.Spelled) : im.InFile (pngToTxt im) := by
  rw [Picture.InFile, pngToTxt, memWords_lines Pixel.read_line, Option.some_inj]
  apply List.map_congr_left
  intro p hp
  obtain ⟨y, hy, hp⟩ := List.mem_flatMap.mp hp
  obtain ⟨x, hx, rfl⟩ := List.mem_map.mp hp
  exact (Pixel.value_eq_iff _).mpr (h y (List.mem_range.mp hy) x (List.mem_range.mp hx))

/-- Red is written `ff00`, which is read as green. -/
example : (Pixel.line ⟨0xff, 0, 0⟩, Pixel.value ⟨0xff, 0, 0⟩) = (['f', 'f', '0', '0'], 0x00ff00) := by
  decide

end Lab8
