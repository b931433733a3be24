/-
  `usb.c`: `UsbRead` and `UsbWrite` over the HPI ports.

  The chip is modelled by what its ports do (`usb.h` names them): a write to `HPI_ADDR` latches an
  address, a read or write of `HPI_DATA` accesses the word at the latched address and advances the
  latch by two, and the other two ports leave memory and latch alone.  What a read of a port other
  than `HPI_DATA` returns is not fixed by that; it is the parameter `other`.

  The abstract side is a memory (`memoryRun`): a function from addresses to words, read and updated.
  The driver implements it except for one slip: `UsbRead` passes its own 16-bit `Address` to
  `IO_read`, where `UsbWrite` passes `HPI_DATA`.  Cut to 8 bits and then to the 2 of the port, it
  selects `HPI_DATA` just for the multiples of four (`usb_implements_memory_iff`).
-/
import Lab8.IoHandler
import Mathlib.Logic.Function.Basic

namespace Lab8

/-! ## The chip behind the ports -/

/-- `HPI_DATA`. -/
def hpiData : BitVec 8 := 0

/-- `HPI_ADDR`. -/
def hpiAddr : BitVec 8 := 2

/-- Memory words by address. -/
abbrev Memory := BitVec 16 → BitVec 16

/-- Memory and latched address. -/
structure Chip where
  mem : Memory
  latch : BitVec 16
  deriving Inhabited

/-- A write to a port. -/
def Chip.write (port : BitVec 2) (data : BitVec 16) (c : Chip) : Chip :=
  if port = portOf hpiAddr then { c with latch := data }
  else if port = portOf hpiData then
    { mem := Function.update c.mem c.latch data, latch := c.latch + 2 }
  else c

/-- A read of a port. -/
def Chip.read (other : BitVec 2 → Chip → BitVec 16) (port : BitVec 2) (c : Chip) :
    BitVec 16 × Chip :=
  if port = portOf hpiData then (c.mem c.latch, { c with latch := c.latch + 2 })
  else (other port c, c)

/-! ## The driver -/

/-- `IO_write`, as the chip sees it. -/
def ioWrite (address : BitVec 8) (data : BitVec 16) (c : Chip) : Chip :=
  c.write (IoCall.write address data).port data

/-- `IO_read`, as the chip sees it. -/
def ioRead (other : BitVec 2 → Chip → BitVec 16) (address : BitVec 8) (c : Chip) :
    BitVec 16 × Chip :=
  c.read other (IoCall.read address).port

/-- `UsbWrite`. -/
def usbWrite (address data : BitVec 16) (c : Chip) : Chip :=
  ioWrite hpiData data (ioWrite hpiAddr address c)

/-- `UsbRead`; the parameter of `IO_read` is an `alt_u8`. -/
def usbRead (other : BitVec 2 → Chip → BitVec 16) (address : BitVec 16) (c : Chip) :
    BitVec 16 × Chip :=
  ioRead other (address.setWidth 8) (ioWrite hpiAddr address c)

/-- A call of the driver. -/
inductive UsbCall where
  | write (address data : BitVec 16)
  | read (address : BitVec 16)
  deriving DecidableEq, Repr

/-- What a call returns, and the memory after it. -/
abbrev Served := Option (BitVec 16) × Memory

/-- One call of the driver. -/
def driverCall (other : BitVec 2 → Chip → BitVec 16) (c : Chip) : UsbCall → Option (BitVec 16) × Chip
  | .write address data => (none, usbWrite address data c)
  | .read address => ((some (usbRead other address c).1), (usbRead other address c).2)

/-- A sequence of calls of the driver. -/
def driverRun (other : BitVec 2 → Chip → BitVec 16) (c : Chip) : List UsbCall → List Served
  | [] => []
  | u :: rest =>
    ((driverCall other c u).1, (driverCall other c u).2.mem) ::
      driverRun other (driverCall other c u).2 rest

/-! ## The memory it should be -/

/-- One call, on a memory. -/
def memoryCall (m : Memory) : UsbCall → Served
  | .write address data => (none, Function.update m address data)
  | .read address => (some (m address), m)

/-- A sequence of calls, on a memory. -/
def memoryRun (m : Memory) : List UsbCall → List Served
  | [] => []
  | u :: rest => memoryCall m u :: memoryRun (memoryCall m u).2 rest

/-- The memory a sequence of calls leaves. -/
def memoryAfter (m : Memory) (calls : List UsbCall) : Memory :=
  calls.foldl (fun m u => (memoryCall m u).2) m

/-! ## One call -/

theorem ioWrite_addr (address : BitVec 16) (c : Chip) :
    ioWrite hpiAddr address c = { c with latch := address } := by
  rw [ioWrite, Chip.write]
  exact if_pos rfl

theorem usbWrite_mem (address data : BitVec 16) (c : Chip) :
    (usbWrite address data c).mem = Function.update c.mem address data := by
  rw [usbWrite, ioWrite_addr]
  rfl

/-- `UsbRead` selects `HPI_DATA` just for the multiples of four. -/
theorem portOf_address (address : BitVec 16) :
    portOf (address.setWidth 8) = portOf hpiData ↔ address.toNat % 4 = 0 := by
  rw [← BitVec.toNat_inj, portOf_toNat, portOf_toNat, BitVec.toNat_setWidth]
  show _ % 2 ^ 8 % 4 = 0 ↔ _
  omega

/-- At a multiple of four `UsbRead` returns the word. -/
theorem usbRead_data (other : BitVec 2 → Chip → BitVec 16) {address : BitVec 16}
    (h : address.toNat % 4 = 0) (c : Chip) :
    usbRead other address c = (c.mem address, ⟨c.mem, address + 2⟩) := by
  rw [usbRead, ioWrite_addr]
  exact if_pos ((portOf_address address).mpr h)

/-- Elsewhere it returns what another port holds. -/
theorem usbRead_other (other : BitVec 2 → Chip → BitVec 16) {address : BitVec 16}
    (h : address.toNat % 4 ≠ 0) (c : Chip) :
    usbRead other address c =
      (other (portOf (address.setWidth 8)) ⟨c.mem, address⟩, ⟨c.mem, address⟩) := by
  rw [usbRead, ioWrite_addr]
  exact if_neg (fun hp => h ((portOf_address address).mp hp))

/-- **Every call leaves the memory it should**, whatever port a read goes to. -/
theorem driverCall_mem (other : BitVec 2 → Chip → BitVec 16) (c : Chip) (u : UsbCall) :
    (driverCall other c u).2.mem = (memoryCall c.mem u).2 := by
  cases u with
  | write address data => exact usbWrite_mem address data c
  | read address =>
    by_cases h : address.toNat % 4 = 0
    · rw [driverCall, usbRead_data other h]; rfl
    · rw [driverCall, usbRead_other other h]; rfl

/-! ## Sequences of calls -/

/-- With read addresses that are multiples of four the driver is the memory. -/
theorem driverRun_eq (other : BitVec 2 → Chip → BitVec 16) {calls : List UsbCall}
    (h : ∀ a, UsbCall.read a ∈ calls → a.toNat % 4 = 0) (c : Chip) :
    driverRun other c calls = memoryRun c.mem calls := by
  induction calls generalizing c with
  | nil => rfl
  | cons u rest ih =>
    rw [driverRun, memoryRun, ih (fun a ha => h a (List.mem_cons_of_mem u ha)), driverCall_mem]
    congr 1
    cases u with
    | write address data => rfl
    | read address =>
      have hret : (driverCall other c (.read address)).1 = some (c.mem address) := by
        rw [driverCall, usbRead_data other (h address List.mem_cons_self)]
      rw [hret]
      rfl

/-- The call after `past` is served by a chip whose memory is the one `past` should leave. -/
theorem driverRun_append (other : BitVec 2 → Chip → BitVec 16) (c : Chip)
    (past rest : List UsbCall) : ∃ (served : List Served) (c' : Chip),
    served.length = past.length ∧ c'.mem = memoryAfter c.mem past ∧
      driverRun other c (past ++ rest) = served ++ driverRun other c' rest := by
  induction past generalizing c with
  | nil => exact ⟨[], c, rfl, rfl, rfl⟩
  | cons u past ih =>
    obtain ⟨served, c', hlen, hmem, hrun⟩ := ih (driverCall other c u).2
    refine ⟨_ :: served, c', congrArg Nat.succ hlen, ?_, by
      rw [List.cons_append, driverRun, hrun, List.cons_append]⟩
    rw [hmem, driverCall_mem]
    rfl

theorem memoryRun_append (m : Memory) (past rest : List UsbCall) : ∃ served : List Served,
    served.length = past.length ∧
      memoryRun m (past ++ rest) = served ++ memoryRun (memoryAfter m past) rest := by
  induction past generalizing m with
  | nil => exact ⟨[], rfl, rfl⟩
  | cons u past ih =>
    obtain ⟨served, hlen, hrun⟩ := ih (memoryCall m u).2
    exact ⟨_ :: served, congrArg Nat.succ hlen, by
      rw [List.cons_append, memoryRun, hrun, List.cons_append]; rfl⟩

/-- A read elsewhere returns a wrong word on some chip: let the other ports hold anything but the
    word that was asked for. -/
theorem driverRun_ne {calls : List UsbCall} {a : BitVec 16} (ha : UsbCall.read a ∈ calls)
    (h : a.toNat % 4 ≠ 0) :
    ∃ (other : BitVec 2 → Chip → BitVec 16) (c : Chip),
      driverRun other c calls ≠ memoryRun c.mem calls := by
  obtain ⟨past, rest, rfl⟩ := List.append_of_mem ha
  let c : Chip := default
  refine ⟨fun _ _ => memoryAfter c.mem past a + 1, c, ?_⟩
  intro heq
  obtain ⟨served, c', hlen, hmem, hrun⟩ :=
    driverRun_append (fun _ _ => memoryAfter c.mem past a + 1) c past (.read a :: rest)
  obtain ⟨served', hlen', hrun'⟩ := memoryRun_append c.mem past (.read a :: rest)
  rw [hrun, hrun'] at heq
  have htail := (List.append_inj heq (hlen.trans hlen'.symm)).2
  rw [driverRun, memoryRun, List.cons.injEq, driverCall, usbRead_other _ h] at htail
  have hword : memoryAfter c.mem past a + 1 = memoryAfter c.mem past a :=
    Option.some.inj (congrArg Prod.fst htail.1)
  generalize memoryAfter c.mem past a = v at hword
  bv_omega

/-- **When the driver implements a memory.**  For every sequence of calls, on any addresses: every
    call returns and leaves what it should, on every chip, if and only if every address that the
    sequence reads is a multiple of four. -/
theorem usb_implements_memory_iff (calls : List UsbCall) :
    (∀ (other : BitVec 2 → Chip → BitVec 16) (c : Chip),
      driverRun other c calls = memoryRun c.mem calls) ↔
    ∀ a, UsbCall.read a ∈ calls → a.toNat % 4 = 0 := by
  constructor
  · intro h a ha
    by_contra hne
    obtain ⟨other, c, hc⟩ := driverRun_ne ha hne
    exact hc (h other c)
  · intro h other c
    exact driverRun_eq other h c

/-- The poll of the keycode: the chip holds a word at `0x051e`, and the driver returns what the
    address port holds. -/
theorem usb_read_keycode_wrong :
    ¬ ∀ (calls : List UsbCall), (∀ a, UsbCall.read a ∈ calls → a.toNat % 2 = 0) →
      ∀ (other : BitVec 2 → Chip → BitVec 16) (c : Chip),
        driverRun other c calls = memoryRun c.mem calls := by
  intro h
  have heven : ∀ a, UsbCall.read a ∈ [UsbCall.read 0x051e] → a.toNat % 2 = 0 := by
    intro a ha
    rw [List.mem_singleton, UsbCall.read.injEq] at ha
    rw [ha]
    rfl
  have heq := h [.read 0x051e] heven (fun _ _ => 0) ⟨fun a => if a = 0x051e then 4 else 0, 0⟩
  rw [driverRun, memoryRun, List.cons.injEq, driverCall, usbRead_other _ (by decide)] at heq
  have hword := Option.some.inj (congrArg Prod.fst heq.1)
  exact absurd hword (by decide)

end Lab8
