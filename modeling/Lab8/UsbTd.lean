/-
  `usb.c`: what the functions above `UsbRead` and `UsbWrite` ask of the chip.

  1. **Calls** — a function of `usb.c` is the list of calls of `IO_write` and `IO_read` it makes, up
     to the next value it looks at.  `Chip.serve` is the chip after one of them.
  2. **Transfer descriptors** — a request posts a list of words from `0x0500` on and points the chip
     to them.  `postCalls_mem`: the chip then finds every word of the list at its place.
  3. **The wait** — `UsbWaitTDListDone` reads the message register and clears it until it reads
     exactly `HUSB_TDListDone`.  The register is a bit map, and a message that carries the bit next
     to another one is cleared with it (`done_returns_iff`).
-/
import Lab8.Usb

namespace Lab8

/-! ## Calls -/

/-- `HPI_MAILBOX`. -/
def hpiMailbox : BitVec 8 := 1

/-- `HPI_STATUS`. -/
def hpiStatus : BitVec 8 := 3

/-- The calls of `UsbWrite`. -/
def usbWriteCalls (address data : BitVec 16) : List IoCall :=
  [.write hpiAddr address, .write hpiData data]

/-- The calls of `UsbRead`. -/
def usbReadCalls (address : BitVec 16) : List IoCall :=
  [.write hpiAddr address, .read (address.setWidth 8)]

/-- An address, and the words written from there on. -/
def blockCalls (address : BitVec 16) (words : List (BitVec 16)) : List IoCall :=
  .write hpiAddr address :: words.map (.write hpiData)

/-- The chip after a call. -/
def Chip.serve (other : BitVec 2 → Chip → BitVec 16) (c : Chip) : IoCall → Chip
  | .write address data => ioWrite address data c
  | .read address => (ioRead other address c).2

/-- The chip after a list of calls. -/
def Chip.serveAll (other : BitVec 2 → Chip → BitVec 16) (c : Chip) (calls : List IoCall) : Chip :=
  calls.foldl (Chip.serve other) c

variable (other : BitVec 2 → Chip → BitVec 16)

@[simp] theorem serveAll_cons (c : Chip) (call : IoCall) (rest : List IoCall) :
    c.serveAll other (call :: rest) = (c.serve other call).serveAll other rest := rfl

theorem serveAll_append (c : Chip) (xs ys : List IoCall) :
    c.serveAll other (xs ++ ys) = (c.serveAll other xs).serveAll other ys :=
  List.foldl_append

/-- The list is the calls of `UsbWrite`. -/
theorem serveAll_usbWriteCalls (address data : BitVec 16) (c : Chip) :
    c.serveAll other (usbWriteCalls address data) = usbWrite address data c := rfl

/-! ## Words in a row -/

theorem serve_data (data : BitVec 16) (c : Chip) :
    c.serve other (.write hpiData data) = ⟨Function.update c.mem c.latch data, c.latch + 2⟩ := rfl

theorem serve_addr (address : BitVec 16) (c : Chip) :
    c.serve other (.write hpiAddr address) = { c with latch := address } :=
  ioWrite_addr address c

/-- The words go nowhere else. -/
theorem words_frame (words : List (BitVec 16)) (c : Chip) {a : BitVec 16}
    (h : ∀ i, i < words.length → a ≠ c.latch + BitVec.ofNat 16 (2 * i)) :
    (c.serveAll other (words.map (.write hpiData))).mem a = c.mem a := by
  induction words generalizing c with
  | nil => rfl
  | cons w rest ih =>
    rw [List.map_cons, serveAll_cons, serve_data, ih]
    · have h0 : a ≠ c.latch := by simpa using h 0 (Nat.succ_pos _)
      exact Function.update_of_ne h0 w c.mem
    · intro i hi
      have hnext := h (i + 1) (Nat.succ_lt_succ hi)
      intro heq
      apply hnext
      rw [heq]
      show c.latch + 2 + _ = _
      bv_omega

/-- Every word is where it belongs, as long as the latch does not come round. -/
theorem words_mem (words : List (BitVec 16)) (c : Chip) (hlen : words.length ≤ 0x8000) (i : Nat)
    (hi : i < words.length) :
    (c.serveAll other (words.map (.write hpiData))).mem (c.latch + BitVec.ofNat 16 (2 * i)) =
      words[i] := by
  induction words generalizing c i with
  | nil => exact absurd hi (Nat.not_lt_zero i)
  | cons w rest ih =>
    rw [List.length_cons] at hlen
    rw [List.map_cons, serveAll_cons, serve_data]
    cases i with
    | zero =>
      -- the words after it are written above it
      rw [words_frame]
      · simp
      · intro i hi
        show _ ≠ c.latch + 2 + _
        bv_omega
    | succ i =>
      have hrest := ih ⟨Function.update c.mem c.latch w, c.latch + 2⟩ (by omega) i
        (Nat.lt_of_succ_lt_succ hi)
      rw [List.getElem_cons_succ, ← hrest]
      congr 1
      show _ = c.latch + 2 + _
      bv_omega

/-! ## Transfer descriptors -/

/-- `HUSB_SIE1_pCurrentTDPtr`. -/
def husbSie1PCurrentTDPtr : BitVec 16 := 0x01B0

/-- The words of a list of TDs, written from `0x0500` on, and the chip pointed to them. -/
def postCalls (words : List (BitVec 16)) : List IoCall :=
  blockCalls 0x0500 words ++ usbWriteCalls husbSie1PCurrentTDPtr 0x0500

/-- **A posted list is in the chip's memory, and the chip points to it.** -/
theorem postCalls_mem (words : List (BitVec 16)) (hlen : words.length ≤ 0x1000) (c : Chip) :
    (c.serveAll other (postCalls words)).mem husbSie1PCurrentTDPtr = 0x0500 ∧
    ∀ i (hi : i < words.length),
      (c.serveAll other (postCalls words)).mem (0x0500 + BitVec.ofNat 16 (2 * i)) = words[i] := by
  rw [postCalls, serveAll_append, serveAll_usbWriteCalls, usbWrite_mem]
  refine ⟨Function.update_self _ _ _, ?_⟩
  intro i hi
  have hne : (0x0500 : BitVec 16) + BitVec.ofNat 16 (2 * i) ≠ husbSie1PCurrentTDPtr := by
    rw [husbSie1PCurrentTDPtr]
    bv_omega
  rw [Function.update_of_ne hne, blockCalls, serveAll_cons, serve_addr]
  exact words_mem other words ⟨c.mem, 0x0500⟩ (by omega) i hi

/-- `UsbSetAddress`. -/
def usbSetAddress : List (BitVec 16) :=
  [0x050C, 0x0008, 0x00D0, 0x0001, 0x0013, 0x0514,
   0x0500, 0x0002, 0x0000, 0x0000,
   0x0000, 0x0000, 0x0090, 0x0041, 0x0013, 0x0000]

/-- `UsbGetDeviceDesc1`. -/
def usbGetDeviceDesc1 : List (BitVec 16) :=
  [0x050C, 0x0008, 0x02D0, 0x0001, 0x0013, 0x0514,
   0x0680, 0x0100, 0x0000, 0x0008,
   0x052C, 0x0008, 0x0290, 0x0041, 0x0013, 0x0520,
   0x0000, 0x0000, 0x0210, 0x0041, 0x0013, 0x0000]

/-- `UsbGetDeviceDesc2`. -/
def usbGetDeviceDesc2 : List (BitVec 16) :=
  [0x050C, 0x0008, 0x02D0, 0x0001, 0x0013, 0x0514,
   0x0680, 0x0100, 0x0000, 0x0012,
   0x0544, 0x0008, 0x0290, 0x0041, 0x0013, 0x0520,
   0x054c, 0x0008, 0x0290, 0x0001, 0x0013, 0x052c,
   0x0554, 0x0002, 0x0290, 0x0041, 0x0013, 0x0538,
   0x0000, 0x0000, 0x0210, 0x0041, 0x0013, 0x0000]

/-- `UsbGetConfigDesc1`. -/
def usbGetConfigDesc1 : List (BitVec 16) :=
  [0x050C, 0x0008, 0x02D0, 0x0001, 0x0013, 0x0514,
   0x0680, 0x0200, 0x0000, 0x0009,
   0x0544, 0x0008, 0x0290, 0x0041, 0x0013, 0x0520,
   0x054c, 0x0001, 0x0290, 0x0001, 0x0013, 0x052c,
   0x0000, 0x0000, 0x0210, 0x0041, 0x0013, 0x0000]

/-- `UsbGetConfigDesc2`. -/
def usbGetConfigDesc2 : List (BitVec 16) :=
  [0x050C, 0x0008, 0x02D0, 0x0001, 0x0013, 0x0514,
   0x0680, 0x0200, 0x0000, 0x00FF,
   0x055c, 0x0008, 0x0290, 0x0041, 0x0013, 0x0520,
   0x0564, 0x0008, 0x0290, 0x0001, 0x0013, 0x052c,
   0x056c, 0x0008, 0x0290, 0x0041, 0x0013, 0x0538,
   0x0574, 0x0008, 0x0290, 0x0001, 0x0013, 0x0544,
   0x057c, 0x0002, 0x0290, 0x0041, 0x0013, 0x0550,
   0x0000, 0x0000, 0x0210, 0x0041, 0x0013, 0x0000]

/-- `UsbSetConfig`. -/
def usbSetConfig : List (BitVec 16) :=
  [0x050C, 0x0008, 0x02D0, 0x0001, 0x0013, 0x0514,
   0x0900, 0x0001, 0x0000, 0x0000,
   0x0000, 0x0000, 0x0290, 0x0041, 0x0013, 0x0000]

/-- `UsbClassRequest`. -/
def usbClassRequest : List (BitVec 16) :=
  [0x050C, 0x0008, 0x02D0, 0x0001, 0x0013, 0x0514,
   0x0A21, 0x0000, 0x0000, 0x0000,
   0x0000, 0x0000, 0x0290, 0x0041, 0x0013, 0x0000]

/-- `UsbGetHidDesc`. -/
def usbGetHidDesc : List (BitVec 16) :=
  [0x050C, 0x0008, 0x02D0, 0x0001, 0x0013, 0x0514,
   0x0681, 0x2100, 0x0000, 0x007B,
   0x0544, 0x0008, 0x0290, 0x0041, 0x0013, 0x0520,
   0x0000, 0x0000, 0x0210, 0x0041, 0x0013, 0x0000]

/-- `UsbGetReportDesc`. -/
def usbGetReportDesc : List (BitVec 16) :=
  [0x050C, 0x0008, 0x02D0, 0x0001, 0x0013, 0x0514,
   0x0681, 0x2200, 0x0000, 0x007B,
   0x0580, 0x0008, 0x0290, 0x0041, 0x0013, 0x0520,
   0x0588, 0x0008, 0x0290, 0x0001, 0x0013, 0x052c,
   0x0590, 0x0008, 0x0290, 0x0041, 0x0013, 0x0538,
   0x0598, 0x0008, 0x0290, 0x0001, 0x0013, 0x0544,
   0x05a0, 0x0008, 0x0290, 0x0041, 0x0013, 0x0550,
   0x05a8, 0x0008, 0x0290, 0x0001, 0x0013, 0x055c,
   0x05b0, 0x0008, 0x0290, 0x0041, 0x0013, 0x0568,
   0x05b8, 0x0003, 0x0290, 0x0001, 0x0013, 0x0574,
   0x0000, 0x0000, 0x0210, 0x0041, 0x0013, 0x0000]

/-- The requests of the enumeration. -/
inductive Request where
  | setAddress | getDeviceDesc1 | getDeviceDesc2 | getConfigDesc1 | getConfigDesc2
  | setConfig | classRequest | getHidDesc | getReportDesc
  deriving DecidableEq, Repr

/-- What a request posts. -/
def Request.words : Request → List (BitVec 16)
  | .setAddress => usbSetAddress
  | .getDeviceDesc1 => usbGetDeviceDesc1
  | .getDeviceDesc2 => usbGetDeviceDesc2
  | .getConfigDesc1 => usbGetConfigDesc1
  | .getConfigDesc2 => usbGetConfigDesc2
  | .setConfig => usbSetConfig
  | .classRequest => usbClassRequest
  | .getHidDesc => usbGetHidDesc
  | .getReportDesc => usbGetReportDesc

/-! ## The wait for the end of a transfer -/

/-- `HPI_SIE1_MSG_ADR`. -/
def hpiSie1MsgAdr : BitVec 16 := 0x0144

/-- `HUSB_TDListDone`. -/
def husbTDListDone : BitVec 16 := 0x1000

/-- A call of `UsbWaitTDListDone`: the calls it has made, the value it has returned, if it has, and
    the messages it has not read. -/
structure Waited where
  calls : List IoCall
  returned : Option (BitVec 16)
  unread : List (BitVec 16)
  deriving DecidableEq, Repr

/-- The calls after a message has been read: it is cleared. -/
def clearCalls : List IoCall := usbWriteCalls hpiSie1MsgAdr 0

/-- `UsbWaitTDListDone`, when `msgs` are the values its reads of the message register find. -/
def usbWaitTDListDone : List (BitVec 16) → Waited
  | [] => ⟨usbReadCalls hpiSie1MsgAdr, none, []⟩
  | v :: rest =>
    if v = husbTDListDone then ⟨usbReadCalls hpiSie1MsgAdr ++ clearCalls, some v, rest⟩
    else
      { usbWaitTDListDone rest with
        calls := usbReadCalls hpiSie1MsgAdr ++ clearCalls ++ (usbWaitTDListDone rest).calls }

theorem returned_cons (v : BitVec 16) (rest : List (BitVec 16)) :
    (usbWaitTDListDone (v :: rest)).returned =
      if v = husbTDListDone then some v else (usbWaitTDListDone rest).returned := by
  rw [usbWaitTDListDone]
  split <;> rfl

/-- It waits for the bare word: any other message is read, cleared and forgotten. -/
theorem returned_append {past : List (BitVec 16)} (h : ∀ w ∈ past, w ≠ husbTDListDone)
    (rest : List (BitVec 16)) :
    (usbWaitTDListDone (past ++ rest)).returned = (usbWaitTDListDone rest).returned := by
  induction past with
  | nil => rfl
  | cons w past ih =>
    rw [List.cons_append, returned_cons, if_neg (h w List.mem_cons_self)]
    exact ih (fun u hu => h u (List.mem_cons_of_mem w hu))

/-- Without the bare word it never returns. -/
theorem returned_none {msgs : List (BitVec 16)} (h : ∀ w ∈ msgs, w ≠ husbTDListDone) :
    (usbWaitTDListDone msgs).returned = none := by
  have hnil := returned_append h []
  rwa [List.append_nil] at hnil

/-- A message carries the `HUSB_TDListDone` bit. -/
def carriesDone (v : BitVec 16) : Bool := v &&& husbTDListDone != 0

theorem carriesDone_done : carriesDone husbTDListDone = true := rfl

/-- A message without the bit is not the bare word. -/
theorem ne_done_of_not_carries {v : BitVec 16} (h : carriesDone v = false) :
    v ≠ husbTDListDone := by
  rintro rfl
  exact Bool.false_ne_true (h.symm.trans carriesDone_done)

/-- The call has returned by the read that finds the first message with the bit. -/
def DoneReturns (msgs : List (BitVec 16)) : Prop :=
  ∀ past v rest, msgs = past ++ v :: rest → (∀ w ∈ past, carriesDone w = false) →
    carriesDone v = true → (usbWaitTDListDone (past ++ [v])).returned ≠ none

/-- **When no transfer-done message is thrown away.**  For all the values the reads may find: the
    call has returned by the first that carries the bit if and only if this one carries nothing
    else. -/
theorem done_returns_iff (msgs : List (BitVec 16)) :
    DoneReturns msgs ↔ ∀ v, msgs.find? carriesDone = some v → v = husbTDListDone := by
  constructor
  · intro h v hfind
    obtain ⟨hv, past, rest, rfl, hpast⟩ := List.find?_eq_some_iff_append.mp hfind
    have hnot : ∀ w ∈ past, carriesDone w = false := by
      intro w hw
      simpa using hpast w hw
    have hret := h past v rest rfl hnot hv
    rw [returned_append (fun w hw => ne_done_of_not_carries (hnot w hw)), returned_cons] at hret
    by_contra hne
    rw [if_neg hne] at hret
    exact hret (returned_none (fun w hw => absurd hw List.not_mem_nil))
  · rintro h past v rest rfl hpast hv
    have hfind : (past ++ v :: rest).find? carriesDone = some v := by
      rw [List.find?_eq_some_iff_append]
      exact ⟨hv, past, rest, rfl, fun w hw => by rw [hpast w hw]; rfl⟩
    have hdone := h v hfind
    rw [returned_append (fun w hw => ne_done_of_not_carries (hpast w hw)), returned_cons,
      if_pos hdone]
    exact Option.some_ne_none v

/-- The transfer ends as the keyboard is removed: the chip posts both bits in one word, and the call
    goes on waiting. -/
theorem done_with_removal_lost : ¬ DoneReturns [0x1001, 0x0000] := by
  intro h
  have hret := h [] 0x1001 [0x0000] rfl (fun w hw => absurd hw List.not_mem_nil) (by decide)
  exact hret (by decide)

end Lab8
