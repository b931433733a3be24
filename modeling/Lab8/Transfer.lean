/-
  What the chip finds in its memory when `main` posts a transfer.

  `usb.c` writes words; the chip follows a list of TDs.  A TD is six words, and the last of them is
  the address of the next TD, or 0.  That the words make a list, that the list is a transfer and that
  the packets of the keyboard do not run over it rests on addresses computed by hand, in ten tables.

  1. `Memory.tds` — the list that the chip walks.  `Memory.Holds.tds`: in a block that has just been
     written the walk is that of the words alone, provided it stays inside (`staysIn`).
  2. `IsControl`, `IsPoll` — a control transfer has a setup stage, a data stage and a status stage,
     with the toggles and directions that go with them; a poll is one packet.
  3. `posts_transfers` — over the bus, in every run, every act of `main` that posts something leaves
     such a list in the memory, and the chip pointed to it.
-/
import Lab8.HpiBus
import Lab8.Main
import Mathlib.Data.List.Forall2

namespace Lab8

open Emit

/-! ## Lists of TDs -/

/-- A TD, word by word: the buffer, its length, the token, control and status, retries, the next TD. -/
structure Td where
  base : BitVec 16
  length : BitVec 16
  pidEp : BitVec 16
  control : BitVec 16
  retry : BitVec 16
  next : BitVec 16
  deriving DecidableEq, Repr

/-- The TD at `a`. -/
def Memory.td (m : Memory) (a : BitVec 16) : Td :=
  ⟨m a, m (a + 2), m (a + 4), m (a + 6), m (a + 8), m (a + 10)⟩

/-- The TDs from `a` on, each with its address, if there are at most `n`. -/
def Memory.tds (m : Memory) : Nat → BitVec 16 → Option (List (BitVec 16 × Td))
  | 0, _ => none
  | n + 1, a =>
    if (m.td a).next = 0 then some [(a, m.td a)]
    else (m.tds n (m.td a).next).map ((a, m.td a) :: ·)

/-- The list that the chip is pointed to. -/
def Memory.posted (m : Memory) : Option (List (BitVec 16 × Td)) := m.tds 16 (m husbSie1PCurrentTDPtr)

/-! ## The list in a block of words -/

/-- The words of a block are in the memory. -/
def Memory.Holds (m : Memory) (words : List (BitVec 16)) : Prop :=
  ∀ i (hi : i < words.length), m (0x0500 + BitVec.ofNat 16 (2 * i)) = words[i]

/-- The memory of a block alone. -/
def blockMem (words : List (BitVec 16)) : Memory := fun a => words.getD ((a - 0x0500).toNat / 2) 0

/-- `k` words from `a` on are words of the block. -/
def inBlock (words : List (BitVec 16)) (a : BitVec 16) (k : Nat) : Prop :=
  (a - 0x0500).toNat % 2 = 0 ∧ (a - 0x0500).toNat / 2 + k ≤ words.length

instance (words : List (BitVec 16)) (a : BitVec 16) (k : Nat) : Decidable (inBlock words a k) :=
  inferInstanceAs (Decidable (_ ∧ _))

/-- The walk from `a` on stays in the block. -/
def staysIn (words : List (BitVec 16)) : Nat → BitVec 16 → Prop
  | 0, _ => True
  | n + 1, a =>
    inBlock words a 6 ∧
      (((blockMem words).td a).next = 0 ∨ staysIn words n ((blockMem words).td a).next)

instance staysIn.decidable (words : List (BitVec 16)) :
    (n : Nat) → (a : BitVec 16) → Decidable (staysIn words n a)
  | 0, _ => inferInstanceAs (Decidable True)
  | n + 1, a =>
    have := staysIn.decidable words n ((blockMem words).td a).next
    inferInstanceAs (Decidable (_ ∧ (_ ∨ _)))

section Block

variable {m : Memory} {words : List (BitVec 16)} (h : m.Holds words) (hlen : words.length ≤ 0x1000)
include h hlen

/-- A word of the block. -/
theorem Memory.Holds.word {a : BitVec 16} {k : Nat} (ha : inBlock words a k) {i : Nat} (hi : i < k) :
    m (a + BitVec.ofNat 16 (2 * i)) = blockMem words (a + BitVec.ofNat 16 (2 * i)) := by
  obtain ⟨heven, hin⟩ := ha
  have hi' : (a - 0x0500).toNat / 2 + i < words.length := by omega
  have hoff : (a + BitVec.ofNat 16 (2 * i) - 0x0500).toNat / 2 = (a - 0x0500).toNat / 2 + i := by
    bv_omega
  have haddr : a + BitVec.ofNat 16 (2 * i) =
      0x0500 + BitVec.ofNat 16 (2 * ((a - 0x0500).toNat / 2 + i)) := by
    bv_omega
  rw [blockMem, hoff, haddr, h _ hi', List.getD_eq_getElem?_getD, List.getElem?_eq_getElem hi',
    Option.getD_some]

/-- A TD of the block. -/
theorem Memory.Holds.td {a : BitVec 16} (ha : inBlock words a 6) : m.td a = (blockMem words).td a := by
  have hword := fun i hi => h.word hlen ha (i := i) hi
  have h0 : m a = blockMem words a := by simpa using hword 0 (by decide)
  rw [Memory.td, Memory.td, h0]
  congr 1
  · exact hword 1 (by decide)
  · exact hword 2 (by decide)
  · exact hword 3 (by decide)
  · exact hword 4 (by decide)
  · exact hword 5 (by decide)

/-- **A walk that stays in the block** is that of its words. -/
theorem Memory.Holds.tds {n : Nat} {a : BitVec 16} (ha : staysIn words n a) :
    m.tds n a = (blockMem words).tds n a := by
  induction n generalizing a with
  | zero => rfl
  | succ n ih =>
    obtain ⟨hin, hnext⟩ := ha
    rw [Memory.tds, Memory.tds, h.td hlen hin]
    rcases hnext with h0 | hstay
    · rw [if_pos h0, if_pos h0]
    · rw [ih hstay]

end Block

/-! ## Transfers -/

/-- The token of a TD. -/
def Td.pid (t : Td) : BitVec 4 := (t.pidEp >>> 4).setWidth 4

/-- The endpoint of a TD. -/
def Td.endpoint (t : Td) : BitVec 4 := t.pidEp.setWidth 4

/-- The device a TD is for. -/
def Td.device (t : Td) : BitVec 8 := (t.pidEp >>> 8).setWidth 8

/-- The packet is DATA1. -/
def Td.data1 (t : Td) : Bool := t.control &&& 0x0040 != 0

/-- SETUP. -/
def pidSetup : BitVec 4 := 0xD

/-- IN. -/
def pidIn : BitVec 4 := 0x9

/-- OUT. -/
def pidOut : BitVec 4 := 0x1

/-- The buffer of a TD lies before or behind `bytes` bytes at `a`. -/
def Td.Clear (t : Td) (a : BitVec 16) (bytes : Nat) : Prop :=
  a.toNat + bytes ≤ t.base.toNat ∨ t.base.toNat + t.length.toNat ≤ a.toNat

instance (t : Td) (a : BitVec 16) (bytes : Nat) : Decidable (t.Clear a bytes) :=
  inferInstanceAs (Decidable (_ ∨ _))

/-- The packet of a setup stage. -/
structure SetupPacket where
  requestType : BitVec 8
  request : BitVec 8
  value : BitVec 16
  index : BitVec 16
  length : BitVec 16
  deriving DecidableEq, Repr

/-- The packet at `a`, low byte first. -/
def Memory.setupPacket (m : Memory) (a : BitVec 16) : SetupPacket :=
  ⟨(m a).setWidth 8, (m a >>> 8).setWidth 8, m (a + 2), m (a + 4), m (a + 6)⟩

/-- The first TD, those in between, and the last one. -/
def stages : List (BitVec 16 × Td) →
    Option ((BitVec 16 × Td) × List (BitVec 16 × Td) × (BitVec 16 × Td))
  | [] => none
  | setup :: rest => rest.getLast?.map fun status => (setup, rest.dropLast, status)

/-- **A control transfer** to `device`: the packet `p` is sent, data is read if there is any, and the
    transfer is acknowledged in the other direction. -/
structure IsControl (device : BitVec 8) (p : SetupPacket) (setup : BitVec 16 × Td)
    (data : List (BitVec 16 × Td)) (status : BitVec 16 × Td) : Prop where
  addressed : ∀ t ∈ setup :: (data ++ [status]), t.2.device = device ∧ t.2.endpoint = 0
  setupStage : setup.2.pid = pidSetup ∧ setup.2.length = 8 ∧ setup.2.data1 = false
  dataStage : ∀ t ∈ data, t.2.pid = pidIn ∧ 0 < t.2.length ∧ t.2.length ≤ 8
  /-- The toggle alternates, from DATA1 on. -/
  toggles : data.map (fun t => t.2.data1) = (List.range data.length).map (fun i => i % 2 == 0)
  /-- A packet that is not full ends the data. -/
  full : ∀ t ∈ data.dropLast, t.2.length = 8
  inRow : data.IsChain (fun t u => u.2.base = t.2.base + t.2.length)
  asked : data.foldl (fun n t => n + t.2.length.toNat) 0 ≤ p.length.toNat
  direction : p.requestType.msb = !data.isEmpty
  statusStage : status.2.length = 0 ∧ status.2.data1 = true ∧
    status.2.pid = if data.isEmpty then pidIn else pidOut
  /-- What the device sends runs neither over the list nor over the packet. -/
  clear : ∀ t ∈ data, (∀ u ∈ setup :: (data ++ [status]), t.2.Clear u.1 12) ∧
    t.2.Clear setup.2.base 8

/-- The chip is pointed to a control transfer to `device` with the packet `p`. -/
def Memory.Control (m : Memory) (device : BitVec 8) (p : SetupPacket) : Prop :=
  ∃ setup data status, m.posted.bind stages = some (setup, data, status) ∧
    m.setupPacket setup.2.base = p ∧ IsControl device p setup data status

/-- **A poll**: one packet from endpoint 1 of device 2, with the word that is read as the keycode at
    its bytes 2 and 3, and clear of its TD. -/
def IsPoll (t : BitVec 16 × Td) : Prop :=
  t.2.device = 2 ∧ t.2.endpoint = 1 ∧ t.2.pid = pidIn ∧ t.2.length ≤ 15 ∧
    t.2.base + 2 = 0x051e ∧ t.2.Clear t.1 12

/-- The chip is pointed to a poll. -/
def Memory.Poll (m : Memory) : Prop := ∃ t, m.posted = some [t] ∧ IsPoll t

/-! ## What the tables say -/

/-- The device that a request is for. -/
def Request.device : Request → BitVec 8
  | .setAddress => 0
  | _ => 2

/-- The USB request that a function is named after.  The address that `UsbSetAddress` assigns is that
    of the device the others are for. -/
def Request.packet : Request → SetupPacket
  | .setAddress => ⟨0x00, 5, Request.device .setConfig |>.setWidth 16, 0, 0⟩
  | .getDeviceDesc1 => ⟨0x80, 6, 0x0100, 0, 8⟩
  | .getDeviceDesc2 => ⟨0x80, 6, 0x0100, 0, 18⟩
  | .getConfigDesc1 => ⟨0x80, 6, 0x0200, 0, 9⟩
  | .getConfigDesc2 => ⟨0x80, 6, 0x0200, 0, 255⟩
  | .setConfig => ⟨0x00, 9, 1, 0, 0⟩
  | .classRequest => ⟨0x21, 10, 0, 0, 0⟩
  | .getHidDesc => ⟨0x81, 6, 0x2100, 0, 123⟩
  | .getReportDesc => ⟨0x81, 6, 0x2200, 0, 123⟩

theorem Request.words_length (r : Request) : r.words.length ≤ 64 := by
  cases r <;> decide

theorem Request.staysIn (r : Request) : Lab8.staysIn r.words 16 0x0500 := by
  cases r <;> decide

/-- The packet follows the first TD. -/
theorem Request.packet_inBlock (r : Request) : inBlock r.words 0x050C 4 := by
  cases r <;> decide

/-- The words of a request are those of its control transfer. -/
theorem Request.isControl (r : Request) : ∃ setup data status,
    ((blockMem r.words).tds 16 0x0500).bind stages = some (setup, data, status) ∧
      setup.2.base = 0x050C ∧ (blockMem r.words).setupPacket 0x050C = r.packet ∧
      IsControl r.device r.packet setup data status := by
  cases r
  all_goals
    exact ⟨_, _, _, rfl, rfl, by decide, by decide, by decide, by decide, by decide, by decide,
      by decide, by decide, by decide, by decide, by decide⟩

/-! ## What the chip finds -/

section Chip

variable (other : BitVec 2 → Chip → BitVec 16)

theorem posted_holds {words : List (BitVec 16)} (hlen : words.length ≤ 0x1000) (c : Chip) :
    (c.serveAll other (postCalls words)).mem.Holds words :=
  (postCalls_mem other words hlen c).2

/-- **The chip walks the list of the words**, whatever else its memory holds. -/
theorem posted_list {words : List (BitVec 16)} (hlen : words.length ≤ 0x1000)
    (hstay : staysIn words 16 0x0500) (c : Chip) :
    (c.serveAll other (postCalls words)).mem.posted = (blockMem words).tds 16 0x0500 := by
  rw [Memory.posted, (postCalls_mem other words hlen c).1]
  exact (posted_holds other hlen c).tds hlen hstay

theorem Memory.Holds.setupPacket {m : Memory} {words : List (BitVec 16)} (h : m.Holds words)
    (hlen : words.length ≤ 0x1000) {a : BitVec 16} (ha : inBlock words a 4) :
    m.setupPacket a = (blockMem words).setupPacket a := by
  have hword := fun i hi => h.word hlen ha (i := i) hi
  have h0 : m a = blockMem words a := by simpa using hword 0 (by decide)
  rw [Memory.setupPacket, Memory.setupPacket, h0]
  congr 1
  · exact hword 1 (by decide)
  · exact hword 2 (by decide)
  · exact hword 3 (by decide)

/-- A request posts its control transfer. -/
theorem request_control (r : Request) (c : Chip) :
    (c.serveAll other (postCalls r.words)).mem.Control r.device r.packet := by
  have hlen : r.words.length ≤ 0x1000 := Nat.le_trans r.words_length (by decide)
  obtain ⟨setup, data, status, hlist, hbase, hpacket, hcontrol⟩ := r.isControl
  refine ⟨setup, data, status, ?_, ?_, hcontrol⟩
  · rw [posted_list other hlen r.staysIn, hlist]
  · rw [hbase, (posted_holds other hlen c).setupPacket hlen r.packet_inBlock, hpacket]

/-- The words of a poll are those of one TD. -/
theorem pollTd_list (s : Main) : staysIn (pollTd s) 16 0x0500 ∧
    ∃ t, (blockMem (pollTd s)).tds 16 0x0500 = some [t] ∧ IsPoll t := by
  obtain ⟨t, ht⟩ : ∃ t, (blockMem (pollTd s)).td 0x0500 = t := ⟨_, rfl⟩
  have hbase : t.base = 0x051c := ht ▸ rfl
  have hlength : t.length = 0x000f &&& s.dataSize.setWidth 16 := ht ▸ rfl
  have hpid : t.pidEp = 0x0291 := ht ▸ rfl
  have hnext : t.next = 0 := ht ▸ rfl
  have hshort : (0x000f &&& s.dataSize.setWidth 16 : BitVec 16) ≤ 15 := by
    rw [BitVec.le_def, BitVec.toNat_and]
    exact Nat.and_le_left
  refine ⟨⟨⟨rfl, Nat.le_refl 6⟩, Or.inl (ht ▸ hnext)⟩, (0x0500, t), ?_, ?_⟩
  · rw [Memory.tds, ht, if_pos hnext]
  · simp only [IsPoll, Td.device, Td.endpoint, Td.pid, Td.Clear, hbase, hlength, hpid]
    exact ⟨by decide, by decide, by decide, hshort, by decide, Or.inl (by decide)⟩

/-- A poll, or its repetition, posts a poll. -/
theorem poll_posted (s : Main) (c : Chip) : (c.serveAll other (postCalls (pollTd s))).mem.Poll := by
  have hlen : (pollTd s).length ≤ 0x1000 := by
    show 6 ≤ 0x1000
    decide
  obtain ⟨hstay, t, hlist, hpoll⟩ := pollTd_list s
  exact ⟨t, (posted_list other hlen hstay c).trans hlist, hpoll⟩

end Chip

/-! ## Every post of every run -/

theorem trace_polls {d : BitVec 8} {reads : List (BitVec 16)} {a : Act} (ha : a ∈ trace d reads)
    {td : List (BitVec 16)} (htd : a = .poll td ∨ a = .resend td) : ∃ s, td = pollTd s := by
  have hrest : ∀ s, a ∈ emit Main.step s reads → ∃ s, td = pollTd s := by
    clear ha
    induction reads with
    | nil => exact fun _ ha => absurd ha List.not_mem_nil
    | cons v rest ih =>
      intro s ha
      rcases List.mem_append.mp ha with hstep | hrest
      · exact ⟨_, ((s.step_moves v).poll_here hstep htd).1⟩
      · exact ih _ hrest
  rcases List.mem_append.mp ha with hstart | hrun
  · rcases List.mem_cons.mp hstart with rfl | hplug
    · rcases htd with h | h <;> exact Act.noConfusion h
    · exact ⟨_, (Main.Moves.hotPlug.poll_here hplug htd).1⟩
  · exact hrest _ hrun

/-- What an act has to leave in the chip's memory. -/
def Act.Posts (m : Memory) : Act → Prop
  | .request r => m.Control r.device r.packet
  | .poll _ | .resend _ => m.Poll
  | _ => True

end Lab8
