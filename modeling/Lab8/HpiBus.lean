/-
  Software, ports, interface and chip, closed over the pins.

  `Lab8.Usb` lets a call of `IO_write` or `IO_read` act on the chip at once.  On the board a call is
  a row of stores to the parallel ports; the interface passes them to the pins one Clk later; the
  chip sees strobes, not calls; and the word it drives comes back through two more registers
  (`from_sw_data_in`, and `readdata` of the port) before `IO_read` loads it.  `Bus` is all of that,
  one Clk a step, with the chip as its data sheet has it: an access ends when its strobe rises, a
  write takes the word on the bus at that moment, and a read drives the bus while its strobe is low.

  1. `Bus.tick_view` — the chip changes just where a strobe rises; `Bus.view` is the chip with the
     access that has ended taken into account.
  2. `Bus.settle` — so a store that is held changes it just if it ends an access.
  3. `exec_call`, `exec_calls` — a call, its stores held for a Clk at least and its load three Clks
     after the read strobe, is the call of `Lab8.Usb`: it returns the same word and leaves the same
     chip.
  4. `bus_refines_chip` — from any state of the board, after `IO_init`, for any calls.
  5. `read_latency` — three Clks are needed: an earlier load returns something else on some chip.
-/
import Lab8.HpiIntf
import Lab8.UsbTd

namespace Lab8

/-! ## The board around the bus -/

/-- An access to the chip, as the pins show it. -/
inductive Access where
  | read (port : BitVec 2)
  | write (port : BitVec 2) (data : BitVec 16)
  deriving DecidableEq, Repr

/-- The ports, the interface, `readdata` of the port `otg_hpi_data`, the chip, and the access the
    pins showed at the last Clk. -/
structure Bus where
  pio : PioRegs
  hpi : HpiRegs
  readdata : BitVec 16
  chip : Chip
  access : Option Access

/-- The access the ports ask for: the chip is selected and a strobe is low. -/
def PioRegs.access (p : PioRegs) : Option Access :=
  if p.otgHpiCs then none
  else if !p.otgHpiW then some (.write p.otgHpiAddress p.otgHpiData)
  else if !p.otgHpiR then some (.read p.otgHpiAddress)
  else none

/-- The access the pins show. -/
def HpiRegs.access (r : HpiRegs) : Option Access :=
  if r.otgCsN then none
  else if !r.otgWrN then some (.write r.otgAddr r.fromSwDataOutBuffer)
  else if !r.otgRdN then some (.read r.otgAddr)
  else none

section Chip

variable (other : BitVec 2 → Chip → BitVec 16)

/-- The chip when an access ends. -/
def Chip.finish (c : Chip) : Option Access → Chip
  | none => c
  | some (.read port) => (c.read other port).2
  | some (.write port data) => c.write port data

/-- What the chip side puts on `OTG_DATA`: the word of a read, else whatever the bus floats at. -/
def Chip.drives (c : Chip) (float : BitVec 16) : Option Access → BitVec 16
  | some (.read port) => (c.read other port).1
  | _ => float

/-- One Clk, with Reset inactive. -/
def Bus.tick (float : BitVec 16) (b : Bus) : Bus where
  pio := b.pio
  hpi := b.hpi.clk false ⟨b.pio, b.chip.drives other float b.hpi.access⟩
  readdata := b.hpi.fromSwDataIn
  chip := if b.hpi.access = none then b.chip.finish other b.access else b.chip
  access := b.hpi.access

/-- What the software does, and the Clks in between. -/
inductive BusOp where
  /-- A store to a port. -/
  | store (w : PioWrite)
  /-- `*otg_hpi_data` is loaded. -/
  | load
  /-- A Clk. -/
  | tick (float : BitVec 16)
  deriving DecidableEq, Repr

/-- The board after a list of operations, and the words loaded. -/
def Bus.exec (b : Bus) : List BusOp → Bus × List (BitVec 16)
  | [] => (b, [])
  | .store w :: rest => Bus.exec { b with pio := b.pio.store w } rest
  | .load :: rest => ((Bus.exec b rest).1, b.readdata :: (Bus.exec b rest).2)
  | .tick float :: rest => Bus.exec (b.tick other float) rest

/-- The Clks during which nothing is done; the bus floats at `fs`. -/
def wait (fs : List (BitVec 16)) : List BusOp := fs.map .tick

/-- The board after them. -/
def Bus.ticks (b : Bus) (fs : List (BitVec 16)) : Bus := fs.foldl (fun b f => b.tick other f) b

theorem exec_wait (b : Bus) (fs : List (BitVec 16)) (rest : List BusOp) :
    b.exec other (wait fs ++ rest) = (b.ticks other fs).exec other rest := by
  induction fs generalizing b with
  | nil => rfl
  | cons f fs ih => exact ih (b.tick other f)

theorem exec_append (b : Bus) (xs ys : List BusOp) : b.exec other (xs ++ ys) =
    (((b.exec other xs).1.exec other ys).1,
      (b.exec other xs).2 ++ ((b.exec other xs).1.exec other ys).2) := by
  induction xs generalizing b with
  | nil => rfl
  | cons op rest ih =>
    cases op with
    | store w => exact ih _
    | load => rw [List.cons_append, Bus.exec, ih]; rfl
    | tick f => exact ih _

/-! ## The chip, seen through what has ended -/

/-- The chip once the access that has ended is finished. -/
def Bus.view (b : Bus) : Chip :=
  if b.hpi.access = none then b.chip.finish other b.access else b.chip

/-- The pins show the ports `p`. -/
structure Bus.Shows (b : Bus) (p : PioRegs) : Prop where
  address : b.hpi.otgAddr = p.otgHpiAddress
  data : b.hpi.fromSwDataOutBuffer = p.otgHpiData
  r : b.hpi.otgRdN = p.otgHpiR
  w : b.hpi.otgWrN = p.otgHpiW
  cs : b.hpi.otgCsN = p.otgHpiCs

theorem Bus.Shows.access {b : Bus} {p : PioRegs} (h : b.Shows p) : b.hpi.access = p.access := by
  rw [HpiRegs.access, PioRegs.access, h.address, h.data, h.r, h.w, h.cs]

/-- After a Clk the pins show the ports of before it. -/
theorem Bus.tick_shows (float : BitVec 16) (b : Bus) : (b.tick other float).Shows b.pio :=
  ⟨rfl, rfl, rfl, rfl, rfl⟩

/-- The chip after the pins went from one access, or none, to another. -/
def Chip.passes (c : Chip) (before now : Option Access) : Chip :=
  if now = none then c.finish other before else c

theorem Chip.passes_self (c : Chip) (a : Option Access) : c.passes other a a = c := by
  rw [Chip.passes]
  split
  · rename_i h
    rw [h]
    rfl
  · rfl

/-- **One Clk.**  The chip changes only where an access ends. -/
theorem Bus.tick_view (float : BitVec 16) (b : Bus) :
    (b.tick other float).view other = (b.view other).passes other b.hpi.access b.pio.access := by
  have hnow : (b.tick other float).hpi.access = b.pio.access :=
    (b.tick_shows other float).access
  rw [Bus.view, hnow, Chip.passes]
  show (if b.pio.access = none then
    (if b.hpi.access = none then b.chip.finish other b.access else b.chip).finish other b.hpi.access
    else if b.hpi.access = none then b.chip.finish other b.access else b.chip) = _
  rfl

/-! ## A store that is held -/

theorem Bus.ticks_pio (b : Bus) (fs : List (BitVec 16)) : (b.ticks other fs).pio = b.pio := by
  induction fs generalizing b with
  | nil => rfl
  | cons f fs ih => exact ih (b.tick other f)

/-- While the ports hold still and the pins show them nothing happens to the chip. -/
theorem Bus.ticks_idle {b : Bus} (h : b.Shows b.pio) (fs : List (BitVec 16)) :
    (b.ticks other fs).Shows (b.ticks other fs).pio ∧
      (b.ticks other fs).view other = b.view other := by
  induction fs generalizing b with
  | nil => exact ⟨h, rfl⟩
  | cons f fs ih =>
    obtain ⟨hshows, hview⟩ := ih (b.tick_shows other f)
    refine ⟨hshows, hview.trans ?_⟩
    rw [b.tick_view other f, h.access, Chip.passes_self]

/-- **A store that is held for a Clk at least** reaches the pins, and changes the chip just if it
    ends an access. -/
theorem Bus.settle {b : Bus} (h : b.Shows b.pio) (w : PioWrite) {fs : List (BitVec 16)}
    (hfs : fs ≠ []) : ∃ b' : Bus,
      (∀ rest, b.exec other (.store w :: wait fs ++ rest) = b'.exec other rest) ∧
      b'.pio = b.pio.store w ∧ b'.Shows b'.pio ∧
      b'.view other = (b.view other).passes other b.pio.access (b.pio.store w).access := by
  obtain ⟨f, fs, rfl⟩ := List.exists_cons_of_ne_nil hfs
  let stored : Bus := { b with pio := b.pio.store w }
  have hold : stored.Shows b.pio := ⟨h.address, h.data, h.r, h.w, h.cs⟩
  obtain ⟨hshows, hview⟩ := Bus.ticks_idle other (stored.tick_shows other f) fs
  refine ⟨(stored.tick other f).ticks other fs, ?_, ?_, hshows, ?_⟩
  · exact exec_wait other stored (f :: fs)
  · exact Bus.ticks_pio other _ fs
  · rw [hview, stored.tick_view other f, hold.access]
    rfl

/-! ## A read in progress -/

/-- The pins show a read of `port` from a chip that is `c`. -/
structure Bus.Reading (b : Bus) (port : BitVec 2) (c : Chip) : Prop where
  asks : b.pio.access = some (.read port)
  shows : b.Shows b.pio
  chip : b.chip = c

/-- A Clk of a read brings the word to `from_sw_data_in`, and what was there to `readdata`. -/
theorem Bus.Reading.tick {b : Bus} {port : BitVec 2} {c : Chip} (h : b.Reading port c)
    (f : BitVec 16) : (b.tick other f).Reading port c ∧
      (b.tick other f).hpi.fromSwDataIn = (c.read other port).1 ∧
      (b.tick other f).readdata = b.hpi.fromSwDataIn := by
  have hpins : b.hpi.access = some (.read port) := h.shows.access.trans h.asks
  have hhigh : b.hpi.otgWrN = true := by
    cases hw : b.hpi.otgWrN with
    | true => rfl
    | false =>
      rw [HpiRegs.access, hw] at hpins
      split at hpins <;> simp at hpins
  refine ⟨⟨h.asks, b.tick_shows other f, ?_⟩, ?_, rfl⟩
  · show (if b.hpi.access = none then _ else b.chip) = c
    rw [hpins, if_neg (Option.some_ne_none _), h.chip]
  · show b.hpi.otgData.getD (b.chip.drives other f b.hpi.access) = _
    rw [HpiRegs.otgData, hhigh, if_pos rfl, hpins, h.chip]
    rfl

/-- From the second Clk of a read on the word is there. -/
theorem Bus.Reading.ticks {b : Bus} {port : BitVec 2} {c : Chip} (h : b.Reading port c)
    {fs : List (BitVec 16)} (hlen : 2 ≤ fs.length) :
    (b.ticks other fs).Reading port c ∧ (b.ticks other fs).readdata = (c.read other port).1 := by
  have later : ∀ (fs : List (BitVec 16)) {b : Bus}, b.Reading port c →
      b.hpi.fromSwDataIn = (c.read other port).1 → b.readdata = (c.read other port).1 →
      (b.ticks other fs).Reading port c ∧
        (b.ticks other fs).readdata = (c.read other port).1 := by
    intro fs
    induction fs with
    | nil => exact fun h _ hdata => ⟨h, hdata⟩
    | cons f fs ih =>
      intro b h hin _
      obtain ⟨hnext, hword, hdata⟩ := h.tick other f
      exact ih hnext hword (hdata.trans hin)
  match fs, hlen with
  | f :: g :: fs, _ =>
    obtain ⟨h₁, hword₁, -⟩ := h.tick other f
    obtain ⟨h₂, hword₂, hdata₂⟩ := h₁.tick other g
    exact later fs h₂ hword₂ (hdata₂.trans hword₁)

theorem Bus.Reading.view {b : Bus} {port : BitVec 2} {c : Chip} (h : b.Reading port c) :
    b.view other = c := by
  rw [Bus.view, h.shows.access, h.asks, if_neg (Option.some_ne_none _), h.chip]

/-- **A store that lowers the read strobe**, three Clks on: the word is in `readdata`. -/
theorem Bus.settle_read {b : Bus} {c : Chip} (h : b.Shows b.pio) (hnone : b.pio.access = none)
    (hview : b.view other = c) {w : PioWrite} {port : BitVec 2}
    (hasks : (b.pio.store w).access = some (.read port)) {fs : List (BitVec 16)}
    (hlen : 3 ≤ fs.length) : ∃ b' : Bus,
      (∀ rest, b.exec other (.store w :: wait fs ++ rest) = b'.exec other rest) ∧
      b'.pio = b.pio.store w ∧ b'.Reading port c ∧ b'.readdata = (c.read other port).1 := by
  obtain ⟨f, fs, rfl⟩ := List.exists_cons_of_length_pos (Nat.lt_of_lt_of_le (by decide) hlen)
  let stored : Bus := { b with pio := b.pio.store w }
  -- the first Clk lowers the strobe and finishes what has ended
  have hfirst : (stored.tick other f).Reading port c := by
    refine ⟨hasks, Bus.tick_shows other f _, ?_⟩
    have hpins : b.hpi.access = none := h.access.trans hnone
    rw [← hview, Bus.view]
    show (if b.hpi.access = none then b.chip.finish other b.access else b.chip) = _
    rw [hpins]
  obtain ⟨hread, hdata⟩ := hfirst.ticks other (Nat.le_of_succ_le_succ hlen)
  exact ⟨(stored.tick other f).ticks other fs, exec_wait other stored (f :: fs),
    Bus.ticks_pio other _ fs, hread, hdata⟩

/-! ## Calls -/

/-- The operations of a call: its stores held for a Clk at least each, and the load of a read three
    Clks at least after its strobe. -/
inductive Timed : IoCall → List BusOp → Prop
  | write (address : BitVec 8) (data : BitVec 16) {h₁ h₂ h₃ h₄ h₅ h₆ : List (BitVec 16)}
      (n₁ : h₁ ≠ []) (n₂ : h₂ ≠ []) (n₃ : h₃ ≠ []) (n₄ : h₄ ≠ []) (n₅ : h₅ ≠ []) (n₆ : h₆ ≠ []) :
      Timed (.write address data)
        (.store (.address address) :: wait h₁ ++ (.store (.cs false) :: wait h₂ ++
          (.store (.w false) :: wait h₃ ++ (.store (.data data) :: wait h₄ ++
            (.store (.w true) :: wait h₅ ++ (.store (.cs true) :: wait h₆ ++ []))))))
  | read (address : BitVec 8) {h₁ h₂ h₃ h₄ h₅ h₆ : List (BitVec 16)}
      (n₁ : h₁ ≠ []) (n₂ : h₂ ≠ []) (n₃ : 3 ≤ h₃.length) (n₅ : h₅ ≠ []) (n₆ : h₆ ≠ []) :
      Timed (.read address)
        (.store (.address address) :: wait h₁ ++ (.store (.cs false) :: wait h₂ ++
          (.store (.r false) :: wait h₃ ++ (.load :: wait h₄ ++
            (.store (.r true) :: wait h₅ ++ (.store (.cs true) :: wait h₆ ++ []))))))

/-- Between two calls: the ports are idle, the pins show them, and the chip is `c`. -/
structure Bus.Rests (b : Bus) (c : Chip) : Prop where
  idle : b.pio.Idle
  shows : b.Shows b.pio
  view : b.view other = c

/-- What a call returns. -/
def IoCall.returns (c : Chip) : IoCall → List (BitVec 16)
  | .read address => [(ioRead other address c).1]
  | .write _ _ => []

/-- **A write on the pins is the write of the driver.** -/
theorem exec_write {b : Bus} {c : Chip} (hb : b.Rests other c) (address : BitVec 8)
    (data : BitVec 16) {h₁ h₂ h₃ h₄ h₅ h₆ : List (BitVec 16)} (n₁ : h₁ ≠ []) (n₂ : h₂ ≠ [])
    (n₃ : h₃ ≠ []) (n₄ : h₄ ≠ []) (n₅ : h₅ ≠ []) (n₆ : h₆ ≠ []) :
    ∃ b' : Bus, b'.Rests other (ioWrite address data c) ∧ b.exec other
        (.store (.address address) :: wait h₁ ++ (.store (.cs false) :: wait h₂ ++
          (.store (.w false) :: wait h₃ ++ (.store (.data data) :: wait h₄ ++
            (.store (.w true) :: wait h₅ ++ (.store (.cs true) :: wait h₆ ++ [])))))) = (b', []) := by
  obtain ⟨⟨hr, hw, hcs⟩, hshows, hview⟩ := hb
  obtain ⟨b₁, e₁, p₁, s₁, v₁⟩ := Bus.settle other hshows (.address address) n₁
  obtain ⟨b₂, e₂, p₂, s₂, v₂⟩ := Bus.settle other s₁ (.cs false) n₂
  obtain ⟨b₃, e₃, p₃, s₃, v₃⟩ := Bus.settle other s₂ (.w false) n₃
  obtain ⟨b₄, e₄, p₄, s₄, v₄⟩ := Bus.settle other s₃ (.data data) n₄
  obtain ⟨b₅, e₅, p₅, s₅, v₅⟩ := Bus.settle other s₄ (.w true) n₅
  obtain ⟨b₆, e₆, p₆, s₆, v₆⟩ := Bus.settle other s₅ (.cs true) n₆
  refine ⟨b₆, ⟨?_, s₆, ?_⟩, ?_⟩
  · rw [p₆, p₅, p₄, p₃, p₂, p₁]
    exact ⟨hr, rfl, rfl⟩
  · -- the access ends with the store of `w`, and nowhere else
    rw [p₁] at p₂ v₂
    rw [p₂] at p₃ v₃
    rw [p₃] at p₄ v₄
    rw [p₄] at p₅ v₅
    rw [p₅] at v₆
    simp only [PioRegs.store, PioRegs.access, hr, hw, hcs, Chip.passes, Chip.finish, Bool.not_true,
      Bool.not_false, if_true, if_false, Bool.false_eq_true, reduceCtorEq] at v₁ v₂ v₃ v₄ v₅ v₆
    rw [v₆, v₅, v₄, v₃, v₂, v₁, hview]
    rfl
  · rw [e₁, e₂, e₃, e₄, e₅, e₆]
    rfl

/-- The first half of a read: three Clks after its strobe the word is in `readdata`. -/
theorem exec_strobe {b : Bus} {c : Chip} (hb : b.Rests other c) (address : BitVec 8)
    {h₁ h₂ h₃ : List (BitVec 16)} (n₁ : h₁ ≠ []) (n₂ : h₂ ≠ []) (n₃ : 3 ≤ h₃.length) :
    ∃ b' : Bus, (∀ rest, b.exec other (.store (.address address) :: wait h₁ ++
        (.store (.cs false) :: wait h₂ ++ (.store (.r false) :: wait h₃ ++ rest))) =
          b'.exec other rest) ∧
      (b'.pio.otgHpiW = true ∧ b'.pio.otgHpiCs = false) ∧ b'.Reading (portOf address) c ∧
      b'.readdata = (ioRead other address c).1 := by
  obtain ⟨⟨hr, hw, hcs⟩, hshows, hview⟩ := hb
  obtain ⟨b₁, e₁, p₁, s₁, v₁⟩ := Bus.settle other hshows (.address address) n₁
  obtain ⟨b₂, e₂, p₂, s₂, v₂⟩ := Bus.settle other s₁ (.cs false) n₂
  have hnone : b₂.pio.access = none := by
    rw [p₂, p₁]
    simp [PioRegs.store, PioRegs.access, hw, hr]
  have hasks : (b₂.pio.store (.r false)).access = some (.read (portOf address)) := by
    rw [p₂, p₁]
    simp [PioRegs.store, PioRegs.access, hw]
  have hc : b₂.view other = c := by
    rw [p₁] at v₂
    simp only [PioRegs.store, PioRegs.access, hr, hw, hcs, Chip.passes, Chip.finish, Bool.not_true,
      Bool.false_eq_true, if_true, if_false] at v₁ v₂
    rw [v₂, v₁, hview]
  obtain ⟨b₃, e₃, p₃, hread, hdata⟩ := Bus.settle_read other s₂ hnone hc hasks n₃
  refine ⟨b₃, ?_, ?_, hread, hdata⟩
  · intro rest
    rw [e₁, e₂, e₃]
  · rw [p₃, p₂, p₁]
    exact ⟨hw, rfl⟩

/-- **A read on the pins is the read of the driver**, and the word loaded is the one it returns. -/
theorem exec_read {b : Bus} {c : Chip} (hb : b.Rests other c) (address : BitVec 8)
    {h₁ h₂ h₃ h₄ h₅ h₆ : List (BitVec 16)} (n₁ : h₁ ≠ []) (n₂ : h₂ ≠ []) (n₃ : 3 ≤ h₃.length)
    (n₅ : h₅ ≠ []) (n₆ : h₆ ≠ []) :
    ∃ b' : Bus, b'.Rests other (ioRead other address c).2 ∧ b.exec other
        (.store (.address address) :: wait h₁ ++ (.store (.cs false) :: wait h₂ ++
          (.store (.r false) :: wait h₃ ++ (.load :: wait h₄ ++
            (.store (.r true) :: wait h₅ ++ (.store (.cs true) :: wait h₆ ++ [])))))) =
      (b', [(ioRead other address c).1]) := by
  obtain ⟨b₃, e₃, ⟨hw, hcs⟩, hread, hdata⟩ := exec_strobe other hb address n₁ n₂ n₃
  obtain ⟨s₄, v₄⟩ := Bus.ticks_idle other hread.shows h₄
  have p₄ := Bus.ticks_pio other b₃ h₄
  obtain ⟨b₅, e₅, p₅, s₅, v₅⟩ := Bus.settle other s₄ (.r true) n₅
  obtain ⟨b₆, e₆, p₆, s₆, v₆⟩ := Bus.settle other s₅ (.cs true) n₆
  refine ⟨b₆, ⟨?_, s₆, ?_⟩, ?_⟩
  · rw [p₆, p₅, p₄]
    exact ⟨rfl, hw, rfl⟩
  · -- the access ends with the store of `r`
    rw [p₄, hread.asks, v₄, hread.view] at v₅
    rw [p₅, p₄] at v₆
    simp only [PioRegs.store, PioRegs.access, hw, hcs, Chip.passes, Chip.finish, Bool.not_true,
      if_true, if_false, Bool.false_eq_true] at v₅ v₆
    rw [v₆, v₅]
    rfl
  · rw [e₃, List.cons_append, Bus.exec, exec_wait, e₅, e₆, hdata]
    rfl

/-- **A call on the pins is the call of the driver.** -/
theorem exec_call {b : Bus} {c : Chip} (hb : b.Rests other c) {call : IoCall} {ops : List BusOp}
    (ht : Timed call ops) : ∃ b' : Bus, b'.Rests other (c.serve other call) ∧
      b.exec other ops = (b', call.returns other c) := by
  cases ht with
  | write address data n₁ n₂ n₃ n₄ n₅ n₆ => exact exec_write other hb address data n₁ n₂ n₃ n₄ n₅ n₆
  | read address n₁ n₂ n₃ n₅ n₆ => exact exec_read other hb address n₁ n₂ n₃ n₅ n₆

/-- What a list of calls returns, served one after the other. -/
def returned (c : Chip) : List IoCall → List (BitVec 16)
  | [] => []
  | call :: rest => call.returns other c ++ returned (c.serve other call) rest

/-- **Calls in a row.** -/
theorem exec_calls {b : Bus} {c : Chip} (hb : b.Rests other c) {calls : List IoCall}
    {ops : List (List BusOp)} (ht : List.Forall₂ Timed calls ops) :
    ∃ b' : Bus, b'.Rests other (c.serveAll other calls) ∧
      b.exec other ops.flatten = (b', returned other c calls) := by
  induction ht generalizing b c with
  | nil => exact ⟨b, hb, rfl⟩
  | cons hcall _ ih =>
    obtain ⟨b₁, hb₁, e₁⟩ := exec_call other hb hcall
    obtain ⟨b₂, hb₂, e₂⟩ := ih hb₁
    refine ⟨b₂, hb₂, ?_⟩
    rw [List.flatten_cons, exec_append, e₁, e₂]
    rfl

/-! ## From any state of the board -/

/-- The operations of stores that are held. -/
def heldOps (stores : List TimedStore) : List BusOp :=
  stores.flatMap (fun s => .store s.1 :: wait s.2)

/-- Stores that are held reach the pins, whatever was on them before. -/
theorem exec_held {b : Bus} {stores : List TimedStore} (hheld : ∀ s ∈ stores, s.2 ≠ [])
    (hstart : stores = [] → b.Shows b.pio) :
    (b.exec other (heldOps stores)).1.pio = (stores.map Prod.fst).foldl PioRegs.store b.pio ∧
      (b.exec other (heldOps stores)).1.Shows (b.exec other (heldOps stores)).1.pio ∧
      (b.exec other (heldOps stores)).2 = [] := by
  induction stores generalizing b with
  | nil => exact ⟨rfl, hstart rfl, rfl⟩
  | cons s stores ih =>
    obtain ⟨f, fs, hfs⟩ := List.exists_cons_of_ne_nil (hheld s List.mem_cons_self)
    let stored : Bus := { b with pio := b.pio.store s.1 }
    have hexec : b.exec other (heldOps (s :: stores)) =
        ((stored.tick other f).ticks other fs).exec other (heldOps stores) := by
      rw [heldOps, List.flatMap_cons, hfs]
      exact exec_wait other stored (f :: fs) (heldOps stores)
    have hpio : ((stored.tick other f).ticks other fs).pio = b.pio.store s.1 :=
      Bus.ticks_pio other _ fs
    obtain ⟨hshows, -⟩ := Bus.ticks_idle other (stored.tick_shows other f) fs
    obtain ⟨hp, hs, hl⟩ := ih (b := (stored.tick other f).ticks other fs)
      (fun s' hs' => hheld s' (List.mem_cons_of_mem s hs')) (fun _ => hshows)
    rw [hpio] at hp
    rw [hexec]
    exact ⟨hp, hs, hl⟩

/-- **The bus refines the chip.**  From any state of ports, interface and chip: `IO_init`, each of
    its stores held for a Clk at least; then any calls, each store held for a Clk at least and each
    load three Clks at least after its read strobe, whatever the undriven bus floats at.  Then the
    words loaded are those the calls return when they act on the chip at once and in order, and the
    chip at the end is the one they leave. -/
theorem bus_refines_chip (b : Bus) (init : List TimedStore) (hinit : init.map Prod.fst = ioInit)
    (hheld : ∀ s ∈ init, s.2 ≠ []) (calls : List IoCall) (ops : List (List BusOp))
    (ht : List.Forall₂ Timed calls ops) :
    let c := (b.exec other (heldOps init)).1.view other
    (b.exec other (heldOps init ++ ops.flatten)).2 = returned other c calls ∧
      (b.exec other (heldOps init ++ ops.flatten)).1.Rests other (c.serveAll other calls) := by
  intro c
  have hne : init ≠ [] := by
    rintro rfl
    exact absurd hinit (by decide)
  obtain ⟨hpio, hshows, hnone⟩ := exec_held other (b := b) hheld (fun h => absurd h hne)
  have hrests : (b.exec other (heldOps init)).1.Rests other c := by
    refine ⟨?_, hshows, rfl⟩
    rw [hpio, hinit]
    exact ⟨rfl, rfl, rfl⟩
  obtain ⟨b', hb', he⟩ := exec_calls other hrests ht
  rw [exec_append, hnone, he]
  exact ⟨rfl, hb'⟩

end Chip

/-- A board at rest. -/
def Bus.atRest : Bus where
  pio := ⟨0, 0, true, true, true, true⟩
  hpi := ⟨0, 0, true, true, true, true, 1⟩
  readdata := 1
  chip := ⟨fun _ => 0, 0⟩
  access := none

/-- A call with every store held for one Clk, and its load after three. -/
def quickest : IoCall → List BusOp
  | .write address data =>
    .store (.address address) :: wait [0] ++ (.store (.cs false) :: wait [0] ++
      (.store (.w false) :: wait [0] ++ (.store (.data data) :: wait [0] ++
        (.store (.w true) :: wait [0] ++ (.store (.cs true) :: wait [0] ++ [])))))
  | .read address =>
    .store (.address address) :: wait [0] ++ (.store (.cs false) :: wait [0] ++
      (.store (.r false) :: wait [0, 0, 0] ++ (.load :: wait [] ++
        (.store (.r true) :: wait [0] ++ (.store (.cs true) :: wait [0] ++ [])))))

theorem quickest_timed (call : IoCall) : Timed call (quickest call) := by
  have hone : ([0] : List (BitVec 16)) ≠ [] := List.cons_ne_nil _ _
  cases call with
  | write address data => exact .write address data hone hone hone hone hone hone
  | read address => exact .read address hone hone (Nat.le_refl 3) hone hone

/-- A word written and read back. -/
theorem bus_refines_chip_word : (Bus.exec (fun _ _ => 0) .atRest (heldOps (heldOnce ioInit) ++
    [quickest (.write hpiAddr 0x0500), quickest (.write hpiData 7),
      quickest (.write hpiAddr 0x0500), quickest (.read hpiData)].flatten)).2 = [7] :=
  (bus_refines_chip (fun _ _ => 0) .atRest (heldOnce ioInit) rfl (heldOnce_held _)
    [.write hpiAddr 0x0500, .write hpiData 7, .write hpiAddr 0x0500, .read hpiData] _
    (.cons (quickest_timed _) (.cons (quickest_timed _) (.cons (quickest_timed _)
      (.cons (quickest_timed _) .nil))))).1

/-! ## How long a read takes -/

/-- What `IO_read` does up to its load. -/
def upToLoad (address : BitVec 8) (h₁ h₂ h₃ : List (BitVec 16)) : List BusOp :=
  .store (.address address) :: wait h₁ ++ (.store (.cs false) :: wait h₂ ++
    (.store (.r false) :: wait h₃ ++ [.load]))

/-- **A read takes three Clks.**  A load `k` Clks after the read strobe returns the word of the chip,
    on every chip that is at rest before it and whatever the bus floats at, if and only if `k` is 3
    at least. -/
theorem read_latency (k : Nat) :
    (∀ (other : BitVec 2 → Chip → BitVec 16) (b : Bus) (c : Chip) (address : BitVec 8)
      (h₁ h₂ h₃ : List (BitVec 16)), b.Rests other c → h₁ ≠ [] → h₂ ≠ [] → h₃.length = k →
        (b.exec other (upToLoad address h₁ h₂ h₃)).2 = [(ioRead other address c).1]) ↔ 3 ≤ k := by
  constructor
  · intro h
    -- an undriven bus at 1, and a memory of zeros
    have hword := h (fun _ _ => 0) .atRest ⟨fun _ => 0, 0⟩ hpiData [1] [1] (List.replicate k 1)
      ⟨⟨rfl, rfl, rfl⟩, ⟨rfl, rfl, rfl, rfl, rfl⟩, rfl⟩ (List.cons_ne_nil _ _)
      (List.cons_ne_nil _ _) List.length_replicate
    match k, hword with
    | 0, hword => exact absurd hword (by decide)
    | 1, hword => exact absurd hword (by decide)
    | 2, hword => exact absurd hword (by decide)
    | k + 3, _ => exact Nat.le_add_left 3 k
  · intro hk other b c address h₁ h₂ h₃ hb n₁ n₂ hlen
    obtain ⟨b', he, -, -, hdata⟩ := exec_strobe other hb address n₁ n₂ (hlen ▸ hk)
    rw [upToLoad, he, Bus.exec, Bus.exec, hdata]

end Lab8
