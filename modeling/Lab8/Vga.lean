/-
  `VGA_controller.sv`: the 800x525 scan and its registered sync signals.

  The sync signals are computed from the NEXT counter values and registered together with them, so
  outside Reset they are always the sync signals of the pixel the counters show.
-/
import Lab8.Lib.Raster

namespace Lab8

/-- The registers of `VGA_controller`; `DrawX` and `DrawY` are the two counters. -/
structure VgaRegs where
  vgaHs : Bool
  vgaVs : Bool
  vgaBlankN : Bool
  hCounter : BitVec 10
  vCounter : BitVec 10
  deriving DecidableEq, Repr, Inhabited

/-- `H_TOTAL`. -/
def hTotal : BitVec 10 := 800

/-- `V_TOTAL`. -/
def vTotal : BitVec 10 := 525

/-- `h_counter_in`. -/
def VgaRegs.hCounterIn (v : VgaRegs) : BitVec 10 := if v.hCounter + 1 = hTotal then 0 else v.hCounter + 1

/-- `v_counter_in`. -/
def VgaRegs.vCounterIn (v : VgaRegs) : BitVec 10 :=
  if v.hCounter + 1 = hTotal then (if v.vCounter + 1 = vTotal then 0 else v.vCounter + 1)
  else v.vCounter

/-- `VGA_HS_in` of a column. -/
def hsOf (h : BitVec 10) : Bool := !(decide (h ≥ 656) && decide (h < 752))

/-- `VGA_VS_in` of a row. -/
def vsOf (v : BitVec 10) : Bool := !(decide (v ≥ 490) && decide (v < 492))

/-- `VGA_BLANK_N_in` of a pixel. -/
def blankNOf (h v : BitVec 10) : Bool := decide (h < 640) && decide (v < 480)

/-- The `always_ff @ (posedge VGA_CLK)` block. -/
def VgaRegs.clk (reset : Bool) (v : VgaRegs) : VgaRegs :=
  if reset then ⟨false, false, false, 0, 0⟩
  else
    { vgaHs := hsOf v.hCounterIn
      vgaVs := vsOf v.vCounterIn
      vgaBlankN := blankNOf v.hCounterIn v.vCounterIn
      hCounter := v.hCounterIn
      vCounter := v.vCounterIn }

/-- The state Reset leaves: counters at the origin, all three signals low. -/
def VgaRegs.cleared : VgaRegs := ⟨false, false, false, 0, 0⟩

/-- The state that shows pixel `(h, v)` with its sync signals. -/
def VgaRegs.at (h v : BitVec 10) : VgaRegs := ⟨hsOf h, vsOf v, blankNOf h v, h, v⟩

end Lab8
