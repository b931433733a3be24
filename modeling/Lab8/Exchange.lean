/-
  `main` and the chip, closed: what `main` reads is what it finds.

  `Lab8.Main` lets the reads return anything.  Here they return what the chip holds, and the engine
  of the chip may write its memory before any call.  `main` asks for the endpoint descriptor of the
  keyboard to learn the size of its packets; but right before it reads the size it writes a block of
  words over it, and the size it reads is its own.

  1. `Heard.serveAll` — calls served amid the writes of the engine.
  2. `Main.step_sized` — from the read of the size on `data_size` does not change.
  3. `packet_size` — every poll asks for 8 bytes, whatever keyboard is plugged in.
-/
import Lab8.Main
import Lab8.Lib.Clocked

namespace Lab8

open Emit

/-! ## Calls amid the engine -/

/-- Writes of the engine to the memory. -/
def Chip.engine (c : Chip) (writes : List (BitVec 16 × BitVec 16)) : Chip :=
  { c with mem := writes.foldl (fun m w => Function.update m w.1 w.2) c.mem }

@[simp] theorem Chip.engine_latch (c : Chip) (writes : List (BitVec 16 × BitVec 16)) :
    (c.engine writes).latch = c.latch := rfl

/-- A word that the engine does not write. -/
theorem Chip.engine_mem {a : BitVec 16} {writes : List (BitVec 16 × BitVec 16)}
    (h : ∀ w ∈ writes, w.1 ≠ a) (c : Chip) : (c.engine writes).mem a = c.mem a := by
  show writes.foldl (fun m w => Function.update m w.1 w.2) c.mem a = c.mem a
  induction writes generalizing c with
  | nil => rfl
  | cons w rest ih =>
    rw [List.foldl_cons, ih (fun w' hw' => h w' (List.mem_cons_of_mem w hw'))
      ⟨Function.update c.mem w.1 w.2, c.latch⟩]
    exact Function.update_of_ne (h w List.mem_cons_self).symm _ _

/-- The chip, and the word that `IO_read` returned last. -/
structure Heard where
  chip : Chip
  word : BitVec 16

section Chip

variable (other : BitVec 2 → Chip → BitVec 16)

/-- A call, after the engine has written. -/
def Heard.serve (h : Heard) (writes : List (BitVec 16 × BitVec 16)) : IoCall → Heard
  | .write address data => ⟨ioWrite address data (h.chip.engine writes), h.word⟩
  | .read address =>
    ⟨(ioRead other address (h.chip.engine writes)).2, (ioRead other address (h.chip.engine writes)).1⟩

/-- Calls in a row; `engine j` is what the engine writes before call `j`. -/
def Heard.serveAll (h : Heard) (engine : Nat → List (BitVec 16 × BitVec 16)) : List IoCall → Heard
  | [] => h
  | call :: rest => (h.serve other (engine 0) call).serveAll (fun j => engine (j + 1)) rest

theorem Heard.serve_addr (h : Heard) (writes : List (BitVec 16 × BitVec 16)) (a : BitVec 16) :
    h.serve other writes (.write hpiAddr a) = ⟨⟨(h.chip.engine writes).mem, a⟩, h.word⟩ := by
  rw [Heard.serve, ioWrite_addr]

theorem Heard.serve_data (h : Heard) (writes : List (BitVec 16 × BitVec 16)) (v : BitVec 16) :
    h.serve other writes (.write hpiData v) =
      ⟨⟨Function.update (h.chip.engine writes).mem h.chip.latch v, h.chip.latch + 2⟩, h.word⟩ := rfl

theorem Heard.serve_read (h : Heard) (writes : List (BitVec 16 × BitVec 16)) :
    (h.serve other writes (.read hpiData)).word = (h.chip.engine writes).mem h.chip.latch := rfl

/-- **The block that is written over the descriptor** is what the size is read from. -/
theorem size_heard (h : Heard) {engine : Nat → List (BitVec 16 × BitVec 16)}
    (hquiet : ∀ j, ∀ w ∈ engine j, w.1 ≠ 0x057c) :
    (h.serveAll other engine
      (blockCalls 0x0576 [0x073F, 0x8105, 0x0003, 0x0008, 0xAC0A] ++
        usbWriteCalls husbSie1PCurrentTDPtr 0x0576 ++
        [.write hpiAddr 0x057c, .read hpiData])).word = 0x0008 := by
  have hmem := fun j (c : Chip) => Chip.engine_mem (hquiet j) c
  simp only [blockCalls, usbWriteCalls, List.map_cons, List.map_nil, List.cons_append,
    List.nil_append, Heard.serveAll, Heard.serve_addr, Heard.serve_data, Heard.serve_read, hmem,
    Function.update_apply]
  -- of the words written the fourth is at that address
  rw [if_neg (by decide), if_neg (by decide), if_pos (by decide)]

end Chip

/-! ## The size, from its read on -/

/-- The requests after the read of the size. -/
def Request.sized : Request → Bool
  | .setConfig | .classRequest | .getHidDesc | .getReportDesc => true
  | _ => false

/-- The points from the read of the size to the last poll before a removal. -/
def Point.sized : Point → Bool
  | .requestFlag r | .requestDone r | .statusByte r | .controlByte r | .retryStatus r | .retryMsg r
  | .retryFlag r | .retryControl r => r.sized
  | .pollFlag | .pollDone | .keycode | .pollDevice | .pollDeviceAgain _ => true
  | _ => false

/-- What a step does for the size: it is read at one point only, and kept from there on. -/
def Sizes (s : Main) (v : BitVec 16) (out : Main) : Prop :=
  (out.point = .dataSize → s.point = .deviceInfo) ∧
  (out.point.sized = true →
    (s.point = .dataSize ∧ out.dataSize = (v &&& 0x0ff).setWidth 8) ∨
    (s.point.sized = true ∧ out.dataSize = s.dataSize))

theorem Sizes.goto {s : Main} (v : BitVec 16) {p : Point} (acts : List Act)
    (hp : p = .dataSize → s.point = .deviceInfo) (hs : p.sized = true → s.point.sized = true) :
    Sizes s v (s.goto p acts).1 := ⟨hp, fun h => .inr ⟨hs h, rfl⟩⟩

theorem Sizes.hotPlug (s : Main) (v : BitVec 16) : Sizes s v s.hotPlug.1 :=
  .goto v _ Point.noConfusion (fun h => Bool.noConfusion h)

theorem Sizes.post {s : Main} (v : BitVec 16) (r : Request)
    (hs : r.sized = true → s.point.sized = true) : Sizes s v (s.post r).1 :=
  .goto v _ Point.noConfusion hs

theorem Sizes.retry {s : Main} (v : BitVec 16) (r : Request)
    (hs : r.sized = true → s.point.sized = true) : Sizes s v (s.retry r).1 :=
  .goto v _ Point.noConfusion hs

theorem Sizes.poll {s : Main} (v : BitVec 16) (hs : s.point.sized = true) : Sizes s v s.poll.1 :=
  ⟨Point.noConfusion, fun _ => .inr ⟨hs, rfl⟩⟩

/-- What follows a request is after the size only if the request is, or is the last before it. -/
theorem Sizes.next {s : Main} (v : BitVec 16) (r : Request)
    (hs : r.sized = true → s.point.sized = true) : Sizes s v (s.next r).1 := by
  cases r
  case getConfigDesc2 => exact .goto v _ Point.noConfusion (fun h => Bool.noConfusion h)
  case getReportDesc => exact .poll v (hs rfl)
  case setConfig | classRequest | getHidDesc => exact .post v _ (fun _ => hs rfl)
  all_goals exact .post v _ (fun h => Bool.noConfusion h)

/-- **The step lemma.** -/
theorem Main.step_sizes (s : Main) (v : BitVec 16) : Sizes s v (s.step v).1 := by
  cases hp : s.point
  all_goals simp only [Main.step, hp]
  case initError | resetError => exact .hotPlug s v
  case deviceWait | removed3 =>
    split
    · exact .hotPlug s v
    · exact .goto v _ Point.noConfusion (fun h => Bool.noConfusion h)
  case device | deviceAgain =>
    repeat' split
    all_goals first
      | exact .post v _ (fun h => Bool.noConfusion h)
      | exact .goto v _ Point.noConfusion (fun h => Bool.noConfusion h)
  case requestFlag r =>
    have hs : r.sized = true → s.point.sized = true := fun h => by rw [hp]; exact h
    split
    · exact .post v r hs
    · exact .goto v _ Point.noConfusion hs
  case controlByte r =>
    have hs : r.sized = true → s.point.sized = true := fun h => by rw [hp]; exact h
    split
    · exact .retry v r hs
    · exact .next v r hs
  case retryControl r =>
    have hs : r.sized = true → s.point.sized = true := fun h => by rw [hp]; exact h
    repeat' split
    · exact .hotPlug s v
    · exact .retry v r hs
    · exact .next v r hs
  case deviceInfo => exact .goto v _ (fun _ => hp) (fun h => Bool.noConfusion h)
  case dataSize => exact ⟨Point.noConfusion, fun _ => .inl ⟨hp, rfl⟩⟩
  case pollDevice | pollDeviceAgain =>
    have hs : s.point.sized = true := by rw [hp]; rfl
    repeat' split
    all_goals first
      | exact .poll v hs
      | exact .goto v _ Point.noConfusion (fun _ => hs)
  all_goals
    repeat' split
    all_goals exact .goto v _ Point.noConfusion (fun h => by rw [hp]; exact h)

/-! ## The loop -/

/-- `main`, the chip, and the word that `main` is given next. -/
structure Exchange where
  main : Main
  heard : Heard

/-- What `main` does when it is given the word. -/
def Exchange.acts (x : Exchange) : List Act := (x.main.step x.heard.word).2

section Loop

variable (other : BitVec 2 → Chip → BitVec 16)

/-- From one read to the next. -/
def Exchange.step (engine : Nat → List (BitVec 16 × BitVec 16)) (x : Exchange) : Exchange where
  main := (x.main.step x.heard.word).1
  heard := x.heard.serveAll other engine (x.acts.flatMap Act.calls)

/-- The size is the 8 that was written: where it is about to be read, and from there on. -/
structure Exchange.Sized (x : Exchange) : Prop where
  word : x.main.point = .dataSize → x.heard.word = 0x0008
  size : x.main.point.sized = true → x.main.dataSize = 8

theorem Exchange.Sized.step {x : Exchange} (hx : x.Sized)
    {engine : Nat → List (BitVec 16 × BitVec 16)}
    (hquiet : x.main.point = .deviceInfo → ∀ j, ∀ w ∈ engine j, w.1 ≠ 0x057c) :
    (x.step other engine).Sized := by
  obtain ⟨hread, hkept⟩ := x.main.step_sizes x.heard.word
  constructor
  · intro hp
    have hinfo := hread hp
    have hcalls : x.acts.flatMap Act.calls =
        blockCalls 0x0576 [0x073F, 0x8105, 0x0003, 0x0008, 0xAC0A] ++
          usbWriteCalls husbSie1PCurrentTDPtr 0x0576 ++
          [.write hpiAddr 0x057c, .read hpiData] := by
      simp only [Exchange.acts, Main.step, hinfo]
      rfl
    show (x.heard.serveAll other engine (x.acts.flatMap Act.calls)).word = 0x0008
    rw [hcalls]
    exact size_heard other x.heard (hquiet hinfo)
  · intro hs
    rcases hkept hs with ⟨hp, hsize⟩ | ⟨hp, hsize⟩
    · show (x.main.step x.heard.word).1.dataSize = 8
      rw [hsize, hx.word hp]
      rfl
    · exact hsize.trans (hx.size hp)

/-- `main` at its first read. -/
def Exchange.start (d : BitVec 8) (h : Heard) : Exchange := ⟨(Main.init d).hotPlug.1, h⟩

variable (d : BitVec 8) (h : Heard) (engines : Nat → Nat → List (BitVec 16 × BitVec 16))

/-- The words that the first `n` reads return. -/
def heardWords (n : Nat) : List (BitVec 16) :=
  (List.range n).map fun k =>
    (Clocked.run (Exchange.step other) engines (Exchange.start d h) k).heard.word

theorem heardWords_succ (n : Nat) : heardWords other d h engines (n + 1) =
    heardWords other d h engines n ++
      [(Clocked.run (Exchange.step other) engines (Exchange.start d h) n).heard.word] := by
  rw [heardWords, List.range_succ, List.map_append]
  rfl

/-- **The loop is a run of `main`** on the words heard. -/
theorem exchange_run (n : Nat) :
    reached d (heardWords other d h engines n) =
        (Clocked.run (Exchange.step other) engines (Exchange.start d h) n).main ∧
      trace d (heardWords other d h engines n) = [.init] ++ (Main.init d).hotPlug.2 ++
        (List.range n).flatMap fun k =>
          (Clocked.run (Exchange.step other) engines (Exchange.start d h) k).acts := by
  induction n with
  | zero => exact ⟨rfl, rfl⟩
  | succ n ih =>
    obtain ⟨hreached, htrace⟩ := ih
    rw [reached] at hreached
    rw [heardWords_succ, reached, after_append, trace, emit_append, ← List.append_assoc, ← trace,
      htrace, hreached, List.range_succ, List.flatMap_append]
    refine ⟨rfl, ?_⟩
    rw [List.append_assoc]
    rfl

end Loop

/-- **Every poll asks for 8 bytes.**  Let `main` run on what it reads from the chip, from any state of
    the chip and any value of `data_size`, while the engine writes what it likes before any call; only
    while the size is read back it leaves that word alone.  Then every poll, and every repetition of
    one, asks for 8 bytes, whatever descriptors the keyboard has. -/
theorem packet_size (other : BitVec 2 → Chip → BitVec 16) (d : BitVec 8) (h : Heard)
    (engines : Nat → Nat → List (BitVec 16 × BitVec 16))
    (hquiet : ∀ n, (Clocked.run (Exchange.step other) engines (Exchange.start d h) n).main.point =
      .deviceInfo → ∀ j, ∀ w ∈ engines n j, w.1 ≠ 0x057c)
    (n : Nat) (a : Act) (ha : a ∈ trace d (heardWords other d h engines n)) (td : List (BitVec 16))
    (htd : a = .poll td ∨ a = .resend td) : td[1]? = some 8 := by
  have hsized : ∀ k,
      (Clocked.run (Exchange.step other) engines (Exchange.start d h) k).Sized := by
    intro k
    induction k with
    | zero => exact ⟨Point.noConfusion, fun hs => Bool.noConfusion hs⟩
    | succ k ih => exact ih.step other (hquiet k)
  rw [(exchange_run other d h engines n).2] at ha
  rcases List.mem_append.mp ha with hstart | hrun
  · rcases List.mem_cons.mp hstart with rfl | hplug
    · rcases htd with h | h <;> exact Act.noConfusion h
    · exact Point.noConfusion (Main.Moves.hotPlug.poll_here hplug htd).2
  · obtain ⟨k, -, hk⟩ := List.mem_flatMap.mp hrun
    obtain ⟨rfl, hpoint⟩ := (Main.step_moves _ _).poll_here hk htd
    have hsize := ((hsized k).step other (hquiet k)).size (congrArg Point.sized hpoint)
    show some (0x000f &&& BitVec.setWidth 16 (Main.step _ _).1.dataSize) = some 8
    rw [show (Main.step _ _).1.dataSize = 8 from hsize]
    rfl

/-- A chip that answers at once. -/
def readyEngine (_ j : Nat) : List (BitVec 16 × BitVec 16) :=
  if j = 0 then [(hpiSie1MsgAdr, husbTDListDone), (0x0508, 0x0003)] else []

/-- Its mailbox, and its other ports. -/
def readyPort (port : BitVec 2) (_ : Chip) : BitVec 16 := if port = 1 then commAck else 0x2010

/-- The first 46 words that `main` reads from it. -/
def readyWords : List (BitVec 16) := heardWords readyPort 0 ⟨⟨fun _ => 0, 0⟩, 0⟩ readyEngine 46

/-- After them it is asked for the first packet. -/
theorem ready_polls : ∃ td, Act.poll td ∈ trace 0 readyWords := by
  rw [readyWords, (exchange_run readyPort 0 ⟨⟨fun _ => 0, 0⟩, 0⟩ readyEngine 46).2]
  refine ⟨[0x051c, 8, 0x0291, 0x0001, 0x0013, 0], List.mem_append_right _
    (List.mem_flatMap.mpr ⟨45, List.mem_range.mpr (by decide), ?_⟩)⟩
  decide +kernel

/-- It is polled, and for 8 bytes. -/
theorem packet_size_ready : ∃ td, Act.poll td ∈ trace 0 readyWords ∧ td[1]? = some 8 := by
  obtain ⟨td, htd⟩ := ready_polls
  refine ⟨td, htd, packet_size readyPort 0 ⟨⟨fun _ => 0, 0⟩, 0⟩ readyEngine ?_ 46 _ htd _
    (Or.inl rfl)⟩
  intro n _ j w hw
  rw [readyEngine] at hw
  split at hw
  · rcases List.mem_cons.mp hw with rfl | hw
    · decide
    · rw [List.mem_singleton.mp hw]
      decide
  · exact absurd hw List.not_mem_nil

end Lab8
