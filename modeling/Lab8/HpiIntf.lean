/-
  `hpi_io_intf.sv`: from the parallel ports to the pins of the USB chip.

  Each signal of the bus passes through one register, so the pins show the ports one tick late, and
  the data bus is driven exactly while the registered write strobe is low.

  1. `pinTrace` is what the pins show while the software makes its stores, each held for any
     positive number of ticks.
  2. `pinTrace_eq` — apart from the one-tick delay the pins are a function of the ports.
  3. `hpi_transactions` — cut at the strobes, the waveform is the list of calls: one pulse per call,
     in order, each with the address of its call, and a write pulse ends with its data.  The data
     port still holds the previous word when the write strobe falls; what the chip latches is the
     word at the END of the pulse.
-/
import Lab8.IoHandler
import Lab8.Lib.Pulse

namespace Lab8

/-! ## The interface -/

/-- The registers of `hpi_io_intf`. -/
structure HpiRegs where
  fromSwDataOutBuffer : BitVec 16
  otgAddr : BitVec 2
  otgRdN : Bool
  otgWrN : Bool
  otgCsN : Bool
  otgRstN : Bool
  fromSwDataIn : BitVec 16
  deriving DecidableEq, Repr, Inhabited

/-- `assign OTG_DATA = OTG_WR_N ? 16'hZZZZ : from_sw_data_out_buffer`; `none` is high impedance. -/
def HpiRegs.otgData (r : HpiRegs) : Option (BitVec 16) :=
  if r.otgWrN then none else some r.fromSwDataOutBuffer

/-- What one tick samples: the ports, and the word on the bus while the FPGA does not drive it. -/
structure HpiIn where
  pio : PioRegs
  chip : BitVec 16

/-- The `always_ff` block. -/
def HpiRegs.clk (reset : Bool) (i : HpiIn) (r : HpiRegs) : HpiRegs :=
  if reset then ⟨0, 0, true, true, true, true, 0⟩
  else
    { fromSwDataOutBuffer := i.pio.otgHpiData
      otgAddr := i.pio.otgHpiAddress
      otgRdN := i.pio.otgHpiR
      otgWrN := i.pio.otgHpiW
      otgCsN := i.pio.otgHpiCs
      otgRstN := i.pio.otgHpiReset
      fromSwDataIn := r.otgData.getD i.chip }

/-- The OTG pins; `otgData` is what the FPGA drives. -/
structure Pins where
  otgAddr : BitVec 2
  otgRdN : Bool
  otgWrN : Bool
  otgCsN : Bool
  otgRstN : Bool
  otgData : Option (BitVec 16)
  deriving DecidableEq, Repr

def HpiRegs.pins (r : HpiRegs) : Pins :=
  ⟨r.otgAddr, r.otgRdN, r.otgWrN, r.otgCsN, r.otgRstN, r.otgData⟩

/-- What the pins show one tick after the ports show `p`. -/
def PioRegs.pins (p : PioRegs) : Pins :=
  ⟨p.otgHpiAddress, p.otgHpiR, p.otgHpiW, p.otgHpiCs, p.otgHpiReset,
    if p.otgHpiW then none else some p.otgHpiData⟩

theorem HpiRegs.clk_pins (i : HpiIn) (r : HpiRegs) : (r.clk false i).pins = i.pio.pins := rfl

/-! ## Waveforms -/

/-- A store, and what the chip side of the bus holds at each tick until the next one. -/
abbrev TimedStore := PioWrite × List (BitVec 16)

/-- The inputs of the interface while the software makes its stores. -/
def pioTicks : PioRegs → List TimedStore → List HpiIn
  | _, [] => []
  | p, (s, held) :: rest => held.map (fun c => ⟨p.store s, c⟩) ++ pioTicks (p.store s) rest

/-- The ports after the stores. -/
def pioAfter (p : PioRegs) (stores : List TimedStore) : PioRegs :=
  (stores.map Prod.fst).foldl PioRegs.store p

/-- The registers after a list of ticks with Reset inactive. -/
def hpiAfter (r : HpiRegs) (ticks : List HpiIn) : HpiRegs :=
  ticks.foldl (fun r i => r.clk false i) r

/-- The pins before the first tick and after each tick. -/
def pinTrace (r : HpiRegs) : List HpiIn → List Pins
  | [] => [r.pins]
  | i :: rest => r.pins :: pinTrace (r.clk false i) rest

/-- **The pins are the ports, one tick late.** -/
theorem pinTrace_eq (r : HpiRegs) (ticks : List HpiIn) :
    pinTrace r ticks = r.pins :: ticks.map (fun i => i.pio.pins) := by
  induction ticks generalizing r with
  | nil => rfl
  | cons i rest ih => rw [pinTrace, ih, HpiRegs.clk_pins, List.map_cons]

/-- The trace ends with the registers the ticks leave. -/
theorem pinTrace_getLast (r : HpiRegs) (ticks : List HpiIn) :
    (pinTrace r ticks).getLast? = some (hpiAfter r ticks).pins := by
  induction ticks generalizing r with
  | nil => rfl
  | cons i rest ih =>
    rw [pinTrace, List.getLast?_cons, ih]
    rfl

theorem hpiAfter_append (r : HpiRegs) (ticks ticks' : List HpiIn) :
    hpiAfter r (ticks ++ ticks') = hpiAfter (hpiAfter r ticks) ticks' := List.foldl_append

/-- Once the ports have held still for a tick the pins show them. -/
theorem hpiAfter_held (r : HpiRegs) (p : PioRegs) {held : List (BitVec 16)} (h : held ≠ []) :
    (hpiAfter r (held.map (fun c => ⟨p, c⟩))).pins = p.pins := by
  induction held generalizing r with
  | nil => exact absurd rfl h
  | cons c held ih =>
    cases held with
    | nil => rfl
    | cons c' held => exact ih (r.clk false ⟨p, c⟩) (List.cons_ne_nil c' held)

/-- **Drained**: after any stores, each held for a tick at least, the pins show the ports. -/
theorem hpiAfter_drained {r : HpiRegs} {p : PioRegs} {stores : List TimedStore}
    (hstart : stores = [] → r.pins = p.pins) (hheld : ∀ s ∈ stores, s.2 ≠ []) :
    (hpiAfter r (pioTicks p stores)).pins = (pioAfter p stores).pins := by
  induction stores generalizing r p with
  | nil => exact hstart rfl
  | cons s stores ih =>
    rw [pioTicks, hpiAfter_append]
    apply ih
    · intro _
      exact hpiAfter_held r _ (hheld s List.mem_cons_self)
    · intro s' hs'
      exact hheld s' (List.mem_cons_of_mem s hs')

/-! ## Strobes -/

/-- A read or a write strobe is low. -/
def strobing (x : Pins) : Bool := !x.otgRdN || !x.otgWrN

/-- **What the pins show of a call.**  A write: the write strobe alone, the chip selected, the port
    on the address pins throughout, and the data on the bus in the last tick.  A read: the read
    strobe alone, the same address, and the bus never driven. -/
def IoCall.Shows : IoCall → List Pins → Prop
  | .write address data, pulse =>
    (∀ x ∈ pulse, x.otgWrN = false ∧ x.otgRdN = true ∧ x.otgCsN = false ∧
      x.otgAddr = portOf address) ∧
    ∃ x, pulse.getLast? = some x ∧ x.otgData = some data
  | .read address, pulse =>
    ∀ x ∈ pulse, x.otgRdN = false ∧ x.otgWrN = true ∧ x.otgCsN = false ∧
      x.otgAddr = portOf address ∧ x.otgData = none

/-- Between two calls: nothing is selected and no strobe is low. -/
structure PioRegs.Idle (p : PioRegs) : Prop where
  r : p.otgHpiR = true
  w : p.otgHpiW = true
  cs : p.otgHpiCs = true

/-- What a stretch of stores puts on the pins. -/
def pioPins (p : PioRegs) (stores : List TimedStore) : List Pins :=
  (pioTicks p stores).map (fun i => i.pio.pins)

theorem pioPins_cons (p : PioRegs) (s : TimedStore) (stores : List TimedStore) :
    pioPins p (s :: stores) =
      s.2.map (fun _ => (p.store s.1).pins) ++ pioPins (p.store s.1) stores := by
  rw [pioPins, pioTicks, List.map_append, List.map_map]
  rfl

/-- A held store shows one sample over and over. -/
theorem mem_held {held : List (BitVec 16)} {x y : Pins} (h : x ∈ held.map (fun _ => y)) : x = y := by
  obtain ⟨_, _, rfl⟩ := List.mem_map.mp h
  rfl

/-- An idle stretch in front of a waveform adds no pulse. -/
theorem pulses_held_idle {held : List (BitVec 16)} {y : Pins} (hy : strobing y = false)
    (w : List Pins) :
    Pulse.pulses strobing (held.map (fun _ => y) ++ w) = Pulse.pulses strobing w := by
  apply Pulse.pulses_idle_append
  intro x hx
  rw [mem_held hx]
  exact hy

/-- What one call does to an idle bus: it adds the pulse of the call and leaves the bus idle. -/
structure OnePulse (c : IoCall) (p : PioRegs) (stores : List TimedStore) (pulse : List Pins)
    (p' : PioRegs) : Prop where
  idle : p'.Idle
  shows : c.Shows pulse
  pulses : ∀ rest, Pulse.pulses strobing (pioPins p (stores ++ rest)) =
    pulse :: Pulse.pulses strobing (pioPins p' rest)
  after : ∀ rest, pioAfter p (stores ++ rest) = pioAfter p' rest

/-- **A write is one pulse.** -/
theorem onePulse_write {p : PioRegs} (hp : p.Idle) (address : BitVec 8) (data : BitVec 16)
    {h₁ h₂ h₃ h₄ h₅ h₆ : List (BitVec 16)} (hw : h₃ ≠ []) (hd : h₄ ≠ []) (he : h₅ ≠ []) :
    ∃ pulse p', OnePulse (.write address data) p
      [(.address address, h₁), (.cs false, h₂), (.w false, h₃), (.data data, h₄), (.w true, h₅),
        (.cs true, h₆)] pulse p' := by
  obtain ⟨a, d, r, w, cs, rst⟩ := p
  obtain ⟨hr, hww, hcs⟩ := hp
  simp only at hr hww hcs
  subst hr hww hcs
  -- while the write strobe is low: first the old word on the bus, then the new one
  let old : Pins := ⟨portOf address, true, false, false, rst, some d⟩
  let new : Pins := ⟨portOf address, true, false, false, rst, some data⟩
  refine ⟨h₃.map (fun _ => old) ++ h₄.map (fun _ => new),
    ⟨portOf address, data, true, true, true, rst⟩, ⟨rfl, rfl, rfl⟩, ⟨?_, new, ?_, rfl⟩, ?_,
    fun _ => rfl⟩
  · intro x hx
    rcases List.mem_append.mp hx with hx | hx
    · rw [mem_held hx]; exact ⟨rfl, rfl, rfl, rfl⟩
    · rw [mem_held hx]; exact ⟨rfl, rfl, rfl, rfl⟩
  · obtain ⟨c, h₄, rfl⟩ := List.exists_cons_of_ne_nil hd
    have hlast := List.getLast?_eq_some_getLast
      (l := (c :: h₄).map (fun _ => new)) (by simp)
    have hmem := List.getLast_mem (l := (c :: h₄).map (fun _ => new)) (by simp)
    rw [List.getLast?_append, hlast, mem_held hmem]
    rfl
  · intro rest
    simp only [List.cons_append, List.nil_append, pioPins_cons]
    rw [pulses_held_idle rfl, pulses_held_idle rfl, ← List.append_assoc]
    rw [Pulse.pulses_pulse (by simp [hw]) ?_ (show h₅.map _ ≠ [] by simp [he]) ?_]
    · rw [pulses_held_idle rfl]
      rfl
    · intro x hx
      rcases List.mem_append.mp hx with hx | hx
      · rw [mem_held hx]; rfl
      · rw [mem_held hx]; rfl
    · intro x hx
      rw [mem_held hx]; rfl

/-- **A read is one pulse.** -/
theorem onePulse_read {p : PioRegs} (hp : p.Idle) (address : BitVec 8)
    {h₁ h₂ h₃ h₄ h₅ : List (BitVec 16)} (hr : h₃ ≠ []) (he : h₄ ≠ []) :
    ∃ pulse p', OnePulse (.read address) p
      [(.address address, h₁), (.cs false, h₂), (.r false, h₃), (.r true, h₄), (.cs true, h₅)]
      pulse p' := by
  obtain ⟨a, d, r, w, cs, rst⟩ := p
  obtain ⟨hrr, hww, hcs⟩ := hp
  simp only at hrr hww hcs
  subst hrr hww hcs
  let low : Pins := ⟨portOf address, false, true, false, rst, none⟩
  refine ⟨h₃.map (fun _ => low), ⟨portOf address, d, true, true, true, rst⟩, ⟨rfl, rfl, rfl⟩,
    ?_, ?_, fun _ => rfl⟩
  · intro x hx
    rw [mem_held hx]
    exact ⟨rfl, rfl, rfl, rfl, rfl⟩
  · intro rest
    simp only [List.cons_append, List.nil_append, pioPins_cons]
    rw [pulses_held_idle rfl, pulses_held_idle rfl]
    rw [Pulse.pulses_pulse (by simp [hr]) ?_ (show h₄.map _ ≠ [] by simp [he]) ?_]
    · rw [pulses_held_idle rfl]
      rfl
    · intro x hx
      rw [mem_held hx]; rfl
    · intro x hx
      rw [mem_held hx]; rfl

/-- **A call is one pulse**, however long its stores are held. -/
theorem onePulse_call {p : PioRegs} (hp : p.Idle) (c : IoCall) {stores : List TimedStore}
    (hmap : stores.map Prod.fst = c.stores) (hheld : ∀ s ∈ stores, s.2 ≠ []) :
    ∃ pulse p', OnePulse c p stores pulse p' := by
  cases c with
  | write address data =>
    simp only [IoCall.stores, List.map_eq_cons_iff, List.map_eq_nil_iff] at hmap
    obtain ⟨⟨_, h₁⟩, _, rfl, rfl, ⟨_, h₂⟩, _, rfl, rfl, ⟨_, h₃⟩, _, rfl, rfl, ⟨_, h₄⟩, _, rfl, rfl,
      ⟨_, h₅⟩, _, rfl, rfl, ⟨_, h₆⟩, _, rfl, rfl, rfl⟩ := hmap
    exact onePulse_write hp address data (hheld (.w false, h₃) (by simp))
      (hheld (.data data, h₄) (by simp)) (hheld (.w true, h₅) (by simp))
  | read address =>
    simp only [IoCall.stores, List.map_eq_cons_iff, List.map_eq_nil_iff] at hmap
    obtain ⟨⟨_, h₁⟩, _, rfl, rfl, ⟨_, h₂⟩, _, rfl, rfl, ⟨_, h₃⟩, _, rfl, rfl, ⟨_, h₄⟩, _, rfl, rfl,
      ⟨_, h₅⟩, _, rfl, rfl, rfl⟩ := hmap
    exact onePulse_read hp address (hheld (.r false, h₃) (by simp)) (hheld (.r true, h₄) (by simp))

/-- The pulses of a sequence of calls are the calls, and the bus is idle afterwards. -/
theorem pulses_calls {calls : List IoCall} {p : PioRegs} (hp : p.Idle) {stores : List TimedStore}
    (hmap : stores.map Prod.fst = calls.flatMap IoCall.stores) (hheld : ∀ s ∈ stores, s.2 ≠ []) :
    List.Forall₂ IoCall.Shows calls (Pulse.pulses strobing (pioPins p stores)) ∧
      (pioAfter p stores).Idle := by
  induction calls generalizing p stores with
  | nil =>
    rw [List.flatMap_nil, List.map_eq_nil_iff] at hmap
    subst hmap
    exact ⟨by rw [pioPins, pioTicks, List.map_nil, Pulse.pulses_nil]; exact List.Forall₂.nil, hp⟩
  | cons c calls ih =>
    rw [List.flatMap_cons, List.map_eq_append_iff] at hmap
    obtain ⟨here, rest, rfl, hhere, hrest⟩ := hmap
    obtain ⟨pulse, p', h⟩ := onePulse_call hp c hhere
      (fun s hs => hheld s (List.mem_append_left rest hs))
    obtain ⟨hpulses, hidle⟩ := ih h.idle hrest (fun s hs => hheld s (List.mem_append_right here hs))
    rw [h.pulses, h.after]
    exact ⟨List.Forall₂.cons h.shows hpulses, hidle⟩

/-! ## Every transaction -/

/-- `IO_init` leaves an idle bus, whatever the ports showed before. -/
theorem pioAfter_init (p : PioRegs) {init : List TimedStore} (hinit : init.map Prod.fst = ioInit) :
    pioAfter p init = ⟨0, 0, true, true, true, true⟩ := by
  rw [pioAfter, hinit]
  rfl

/-- In a pulse that shows a call one of the two strobes is high. -/
theorem IoCall.Shows.not_both {c : IoCall} {pulse : List Pins} (h : c.Shows pulse) {x : Pins}
    (hx : x ∈ pulse) : ¬ (x.otgRdN = false ∧ x.otgWrN = false) := by
  rintro ⟨hr, hw⟩
  cases c with
  | write address data => rw [(h.1 x hx).2.1] at hr; exact absurd hr.symm Bool.false_ne_true
  | read address => rw [(h x hx).2.1] at hw; exact absurd hw.symm Bool.false_ne_true

/-- Every pulse of a waveform that shows the calls shows one of them. -/
theorem shows_of_mem {calls : List IoCall} {ps : List (List Pins)}
    (h : List.Forall₂ IoCall.Shows calls ps) {pulse : List Pins} (hp : pulse ∈ ps) :
    ∃ c, IoCall.Shows c pulse := by
  induction h with
  | nil => exact absurd hp List.not_mem_nil
  | cons hc _ ih =>
    rcases List.mem_cons.mp hp with rfl | hp
    · exact ⟨_, hc⟩
    · exact ih hp

/-- **Every bus transaction arrives.**  `IO_init` has run, each of its stores held for a tick at
    least, from any state of ports and interface; then the software makes any calls, each store
    held for a tick at least, with Reset inactive.  On the pins, from the last tick of `IO_init` on:
    (1) the strobe pulses are the calls, one each and in order, as `IoCall.Shows` says;
    (2) the read and the write strobe are never low together;
    (3) at the end, the last store drained, all strobes and the chip select are high. -/
theorem hpi_transactions (p : PioRegs) (r : HpiRegs) (init : List TimedStore)
    (hinit : init.map Prod.fst = ioInit) (hheld : ∀ s ∈ init, s.2 ≠ []) (calls : List IoCall)
    (stores : List TimedStore) (hstores : stores.map Prod.fst = calls.flatMap IoCall.stores)
    (hheld' : ∀ s ∈ stores, s.2 ≠ []) :
    let trace := pinTrace (hpiAfter r (pioTicks p init)) (pioTicks (pioAfter p init) stores)
    List.Forall₂ IoCall.Shows calls (Pulse.pulses strobing trace) ∧
    (∀ x ∈ trace, ¬ (x.otgRdN = false ∧ x.otgWrN = false)) ∧
    ∃ x, trace.getLast? = some x ∧ x.otgRdN = true ∧ x.otgWrN = true ∧ x.otgCsN = true := by
  intro trace
  have hp : pioAfter p init = ⟨0, 0, true, true, true, true⟩ := pioAfter_init p hinit
  have hidle : (pioAfter p init).Idle := by rw [hp]; exact ⟨rfl, rfl, rfl⟩
  have hne : init ≠ [] := by
    rintro rfl
    exact absurd hinit (by decide)
  have hstart : (hpiAfter r (pioTicks p init)).pins = (pioAfter p init).pins :=
    hpiAfter_drained (fun h => absurd h hne) hheld
  have htrace : trace = (pioAfter p init).pins :: pioPins (pioAfter p init) stores := by
    show pinTrace _ _ = _
    rw [pinTrace_eq, hstart]
    rfl
  obtain ⟨hpulses, hend⟩ := pulses_calls hidle hstores hheld'
  have hshow : List.Forall₂ IoCall.Shows calls (Pulse.pulses strobing trace) := by
    rw [htrace, Pulse.pulses_idle (by rw [hp]; rfl)]
    exact hpulses
  refine ⟨hshow, ?_, (pioAfter (pioAfter p init) stores).pins, ?_, hend.r, hend.w, hend.cs⟩
  · intro x hx
    cases hs : strobing x with
    | true =>
      obtain ⟨pulse, hpulse, hxp⟩ := Pulse.mem_pulses hx hs
      obtain ⟨c, hc⟩ := shows_of_mem hshow hpulse
      exact hc.not_both hxp
    | false =>
      rintro ⟨hr, _⟩
      rw [strobing, hr] at hs
      exact absurd hs.symm Bool.false_ne_true
  · show (pinTrace _ _).getLast? = _
    rw [pinTrace_getLast, hpiAfter_drained (fun _ => hstart) hheld']

/-- Stores that are each held for a single tick. -/
def heldOnce (stores : List PioWrite) : List TimedStore := stores.map (fun s => (s, [0]))

theorem heldOnce_held (stores : List PioWrite) : ∀ s ∈ heldOnce stores, s.2 ≠ [] := by
  intro s hs
  obtain ⟨_, _, rfl⟩ := List.mem_map.mp hs
  exact List.cons_ne_nil _ _

/-- The two calls of a memory access, at full speed. -/
theorem hpi_transactions_access :
    List.Forall₂ IoCall.Shows [.write 2 0x051e, .read 0] (Pulse.pulses strobing
      (pinTrace (hpiAfter default (pioTicks default (heldOnce ioInit)))
        (pioTicks (pioAfter default (heldOnce ioInit))
          (heldOnce ([IoCall.write 2 0x051e, .read 0].flatMap IoCall.stores))))) :=
  (hpi_transactions default default (heldOnce ioInit) rfl (heldOnce_held _)
    [.write 2 0x051e, .read 0] (heldOnce ([IoCall.write 2 0x051e, .read 0].flatMap IoCall.stores))
    rfl (heldOnce_held _)).1

end Lab8
