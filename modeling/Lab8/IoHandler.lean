/-
  `io_handler.c`: the software side of the HPI bus.

  The driver reaches the USB chip through six parallel ports (PIOs): plain registers that a store
  from the processor loads.  `PioWrite` is one such store, and `IO_init`, `IO_write` and `IO_read`
  are the sequences of stores the C functions make.  `otg_hpi_address` is two bits wide, so a store
  keeps the two low bits of the 8-bit `Address`.
-/
import Mathlib.Data.Nat.Init

namespace Lab8

/-! ## The parallel ports -/

/-- The output registers of the PIOs. -/
structure PioRegs where
  otgHpiAddress : BitVec 2
  otgHpiData : BitVec 16
  otgHpiR : Bool
  otgHpiW : Bool
  otgHpiCs : Bool
  otgHpiReset : Bool
  deriving DecidableEq, Repr, Inhabited

/-- A store to a PIO. -/
inductive PioWrite where
  | address (v : BitVec 8)
  | data (v : BitVec 16)
  | r (v : Bool)
  | w (v : Bool)
  | cs (v : Bool)
  | reset (v : Bool)
  deriving DecidableEq, Repr

/-- The two bits of `Address` that select a port of the chip. -/
def portOf (address : BitVec 8) : BitVec 2 := address.setWidth 2

/-- The registers after a store. -/
def PioRegs.store (p : PioRegs) : PioWrite → PioRegs
  | .address v => { p with otgHpiAddress := portOf v }
  | .data v => { p with otgHpiData := v }
  | .r v => { p with otgHpiR := v }
  | .w v => { p with otgHpiW := v }
  | .cs v => { p with otgHpiCs := v }
  | .reset v => { p with otgHpiReset := v }

/-! ## The C functions -/

/-- `IO_init`. -/
def ioInit : List PioWrite :=
  [.reset true, .cs true, .r true, .w true, .address 0, .data 0,
   .cs false, .reset false, .reset true, .cs true]

/-- A call of `IO_write` or `IO_read`. -/
inductive IoCall where
  | write (address : BitVec 8) (data : BitVec 16)
  | read (address : BitVec 8)
  deriving DecidableEq, Repr

/-- The chip's port a call goes to. -/
def IoCall.port : IoCall → BitVec 2
  | .write address _ => portOf address
  | .read address => portOf address

/-- The stores a call makes.  `IO_read` loads `*otg_hpi_data` between the third and the fourth; a
    load changes no register. -/
def IoCall.stores : IoCall → List PioWrite
  | .write address data =>
    [.address address, .cs false, .w false, .data data, .w true, .cs true]
  | .read address => [.address address, .cs false, .r false, .r true, .cs true]

/-- `portOf` is the remainder modulo 4. -/
theorem portOf_toNat (address : BitVec 8) : (portOf address).toNat = address.toNat % 4 := by
  rw [portOf, BitVec.toNat_setWidth]

end Lab8
