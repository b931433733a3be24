/-
  `main.c`: the enumeration of the keyboard and the loop that polls it.

  `main` takes its course by the values it reads, so it is a machine that is given one value after
  the other: a `Point` is a read that `main` waits for, and `Main.step` is everything it does from
  that value to the next read.  The reads may return anything.

  A poll posts one TD whose control word names the data packet expected, DATA0 or DATA1.  The word
  follows the parity of `toggle`, a counter that lives through `goto USB_HOT_PLUG`:

  1. **Ledger** — on every run the word follows the number of ALL polls so far, and `toggle` is that
     number modulo 256 (`run_ledger`).
  2. **Step** — the device expects the word to follow the number of polls since the last
     enumeration (`InStep`).  The two agree just if every enumeration that leads to a poll began on
     an even `toggle` (`toggle_in_step`).

  The reads at `requestDone` and `pollDone` are those of `UsbWaitTDListDone` (`after_wait`); a lost
  message leaves `main` there for good (`poll_hangs`).
-/
import Lab8.UsbTd
import Lab8.Lib.Emit
import Mathlib.Data.List.Induction

namespace Lab8

open Emit

/-! ## The program -/

/-- The reads of `main`. -/
inductive Point where
  -- UsbSoftReset
  | resetMailbox | resetStatus | resetSie1 | resetSie2
  -- steps 1 and 2
  | initStatus | initAck | initError | resetAck | resetError
  -- the search for a device; `n` is `hot_plug_count`
  | device | deviceAgain (n : Nat) | deviceWait
  -- a request, and UsbGetRetryCnt
  | requestFlag (r : Request) | requestDone (r : Request)
  | statusByte (r : Request) | controlByte (r : Request)
  | retryStatus (r : Request) | retryMsg (r : Request) | retryFlag (r : Request)
  | retryControl (r : Request)
  -- the device info
  | deviceInfo | dataSize
  -- a poll
  | pollFlag | pollDone | keycode
  -- hot plug; `n` is `hot_plug_count`
  | pollDevice | pollDeviceAgain (n : Nat) | removed1 | removed2 | removed3
  deriving DecidableEq, Repr

/-- The point `main` waits at, and the locals that live from one read to the next. -/
structure Main where
  point : Point
  toggle : BitVec 8
  dataSize : BitVec 8
  deriving DecidableEq, Repr

/-- What `main` does. -/
inductive Act where
  /-- `IO_init`. -/
  | init
  /-- Control passes the label `USB_HOT_PLUG`. -/
  | hotPlug
  /-- A call of `IO_write` or `IO_read`. -/
  | io (call : IoCall)
  /-- The function of a request is called. -/
  | request (r : Request)
  /-- The TD of a new poll is posted. -/
  | poll (td : List (BitVec 16))
  /-- The TD of the poll under way is posted again. -/
  | resend (td : List (BitVec 16))
  /-- A store to `keycode_base`. -/
  | keycode (v : BitVec 8)
  deriving DecidableEq, Repr

/-- The calls an act makes. -/
def Act.calls : Act → List IoCall
  | .io call => [call]
  | .request r => postCalls r.words
  | .poll td | .resend td => postCalls td
  | .init | .hotPlug | .keycode _ => []

/-- `USB1_CTL_REG`. -/
def ctlReg : BitVec 16 := 0xC08A

/-- `no_device`, that is `A_DP_STAT | A_DM_STAT`. -/
def noDevice : BitVec 16 := 0x2000 ||| 0x1000

/-- The port sees a device. -/
def present (usbCtlVal : BitVec 16) : Bool := usbCtlVal &&& noDevice != 0

/-- `HPI_STATUS_SIE1msg_FLAG` is up. -/
def sie1MsgFlag (status : BitVec 16) : Bool := status &&& 0x0010 != 0

/-- `COMM_ACK`. -/
def commAck : BitVec 16 := 0x0FED

/-- `IO_write`, `UsbWrite`, ... in a list of acts. -/
def ios (calls : List IoCall) : List Act := calls.map .io

/-- `IO_read`, in a list of acts. -/
def ioReadAct (address : BitVec 8) : List Act := ios [.read address]

/-- `IO_write(HPI_ADDR, a)`, `IO_read(HPI_DATA)`. -/
def peek (address : BitVec 16) : List Act := ios [.write hpiAddr address, .read hpiData]

/-- `UsbWrite`s of a table of addresses and values. -/
def usbWrites (table : List (BitVec 16 × BitVec 16)) : List Act :=
  ios (table.flatMap fun e => usbWriteCalls e.1 e.2)

/-- The registers `COMM_R1` to `COMM_R13`, cleared. -/
def commClear : List (BitVec 16 × BitVec 16) :=
  [0x01C6, 0x01C8, 0x01CA, 0x01CC, 0x01CE, 0x01D0, 0x01D2, 0x01D4, 0x01D6, 0x01D8, 0x01DA, 0x01DC,
   0x01DE].map fun a => (a, 0)

/-- The end of `UsbSoftReset`, and step 1. -/
def initTable : List (BitVec 16 × BitVec 16) :=
  [(0x0148, 0),                      -- HPI_SIE2_MSG_ADR
   (0xC090, 0xFFFF), (0xC0B0, 0xFFFF), -- HOST1_STAT_REG, HOST2_STAT_REG
   (hpiSie1MsgAdr, 0), (0xC090, 0xFFFF),
   (0x01B4, 600),                    -- HUSB_pEOT
   (0x0142, 0x0400 ||| 0x0040),      -- HPI_IRQ_ROUTING_REG
   (0xC08C, 0x0010 ||| 0x0200),      -- HOST1_IRQ_EN_REG
   (0x01C4, 0)] ++ commClear ++ [(0x01C2, 0x0072)] -- COMM_INT_NUM, HUSB_SIE1_INIT_INT

/-- Step 2. -/
def resetTable : List (BitVec 16 × BitVec 16) :=
  [(0x01C2, 0x0074), (0x01C4, 0x003c)] ++ commClear -- HUSB_RESET_INT, the reset time

/-- `IO_write(HPI_MAILBOX, COMM_EXEC_INT)`. -/
def execInt : List Act := ios [.write hpiMailbox 0xCE01]

/-- The TD of a poll. -/
def pollTd (s : Main) : List (BitVec 16) :=
  [0x051c, 0x000f &&& s.dataSize.setWidth 16, 0x0291,
   if s.toggle % 2 != 0 then 0x0001 else 0x0041, 0x0013, 0x0000]

/-! ## From one read to the next -/

/-- Acts, and the read that ends them. -/
def Main.goto (s : Main) (p : Point) (acts : List Act) : Main × List Act :=
  ({ s with point := p }, acts)

/-- `goto USB_HOT_PLUG`. -/
def Main.hotPlug (s : Main) : Main × List Act :=
  s.goto .resetMailbox ([.hotPlug] ++ ios [.write hpiMailbox 0xFA50, .read hpiMailbox])

/-- A request is posted. -/
def Main.post (s : Main) (r : Request) : Main × List Act :=
  s.goto (.requestFlag r) ([.request r] ++ ioReadAct hpiStatus)

/-- The top of the polling loop. -/
def Main.poll (s : Main) : Main × List Act :=
  let s' := { s with toggle := s.toggle + 1, point := .pollFlag }
  (s', [.poll (pollTd s')] ++ ioReadAct hpiStatus)

/-- `UsbGetRetryCnt` is called. -/
def Main.retry (s : Main) (r : Request) : Main × List Act :=
  s.goto (.retryStatus r) (ioReadAct hpiStatus)

/-- What follows a request that is done. -/
def Main.next (s : Main) : Request → Main × List Act
  | .setAddress => s.post .getDeviceDesc1
  | .getDeviceDesc1 => s.post .getDeviceDesc2
  | .getDeviceDesc2 => s.post .getConfigDesc1
  | .getConfigDesc1 => s.post .getConfigDesc2
  | .getConfigDesc2 => s.goto .deviceInfo (peek 0x056c)
  | .setConfig => s.post .classRequest
  | .classRequest => s.post .getHidDesc
  | .getHidDesc => s.post .getReportDesc
  | .getReportDesc => s.poll

/-- `main`, given the value its read returns. -/
def Main.step (s : Main) (v : BitVec 16) : Main × List Act :=
  match s.point with
  | .resetMailbox => s.goto .resetStatus (ioReadAct hpiStatus)
  | .resetStatus => s.goto .resetSie1 (ios (usbReadCalls hpiSie1MsgAdr))
  | .resetSie1 => s.goto .resetSie2 (ios clearCalls ++ ios (usbReadCalls 0x0148))
  | .resetSie2 => s.goto .initStatus (usbWrites initTable ++ execInt ++ ioReadAct hpiStatus)
  | .initStatus =>
    if v &&& 0xFFFF = 0 then s.goto .initStatus (ioReadAct hpiStatus)
    else s.goto .initAck (ioReadAct hpiMailbox)
  | .initAck =>
    if v ≠ commAck then s.goto .initError (ioReadAct hpiMailbox)
    else s.goto .resetAck (usbWrites resetTable ++ execInt ++ ioReadAct hpiMailbox)
  | .initError => s.hotPlug
  | .resetAck =>
    if v ≠ commAck then s.goto .resetError (ioReadAct hpiMailbox)
    else s.goto .device (ios (usbReadCalls ctlReg))
  | .resetError => s.hotPlug
  | .device =>
    if !present v then s.goto (.deviceAgain 0) (ios (usbReadCalls ctlReg)) else s.post .setAddress
  | .deviceAgain n =>
    if present v then s.post .setAddress
    else if n + 1 < 5 then s.goto (.deviceAgain (n + 1)) (ios (usbReadCalls ctlReg))
    else s.goto .deviceWait (ios (usbReadCalls ctlReg))
  | .deviceWait =>
    if present v then s.hotPlug else s.goto .deviceWait (ios (usbReadCalls ctlReg))
  | .requestFlag r =>
    if !sie1MsgFlag v then s.post r else s.goto (.requestDone r) (ios (usbReadCalls hpiSie1MsgAdr))
  | .requestDone r =>
    if v ≠ husbTDListDone then
      s.goto (.requestDone r) (ios clearCalls ++ ios (usbReadCalls hpiSie1MsgAdr))
    else s.goto (.statusByte r) (ios clearCalls ++ peek 0x0506)
  | .statusByte r => s.goto (.controlByte r) (peek 0x0508)
  | .controlByte r => if v ≠ 0x03 then s.retry r else s.next r
  | .retryStatus r => s.goto (.retryMsg r) (ios (usbReadCalls hpiSie1MsgAdr))
  | .retryMsg r =>
    if v = husbTDListDone then s.goto (.retryFlag r) (ios clearCalls ++ ioReadAct hpiStatus)
    else s.goto (.retryControl r) (peek 0x0508)
  | .retryFlag r =>
    if !sie1MsgFlag v then s.goto (.retryFlag r) (ioReadAct hpiStatus)
    else s.goto (.retryControl r) (peek 0x0508)
  | .retryControl r =>
    -- after UsbSetAddress the value is not looked at again
    if r = .setAddress then s.hotPlug else if v ≠ 0x03 then s.retry r else s.next r
  | .deviceInfo =>
    s.goto .dataSize (ios (blockCalls 0x0576 [0x073F, 0x8105, 0x0003, 0x0008, 0xAC0A]) ++
      ios (usbWriteCalls husbSie1PCurrentTDPtr 0x0576) ++ peek 0x057c)
  | .dataSize => { s with dataSize := (v &&& 0x0ff).setWidth 8 }.post .setConfig
  | .pollFlag =>
    if !sie1MsgFlag v then s.goto .pollFlag ([.resend (pollTd s)] ++ ioReadAct hpiStatus)
    else s.goto .pollDone (ios (usbReadCalls hpiSie1MsgAdr))
  | .pollDone =>
    if v ≠ husbTDListDone then
      s.goto .pollDone (ios clearCalls ++ ios (usbReadCalls hpiSie1MsgAdr))
    else s.goto .keycode (ios clearCalls ++ ios (usbReadCalls 0x051e))
  | .keycode =>
    s.goto .pollDevice ([.keycode ((v &&& 0xff).setWidth 8)] ++ ios (usbReadCalls ctlReg))
  | .pollDevice =>
    if !present v then s.goto (.pollDeviceAgain 0) (ios (usbReadCalls ctlReg)) else s.poll
  | .pollDeviceAgain n =>
    if present v then s.poll
    else if n + 1 < 7 then s.goto (.pollDeviceAgain (n + 1)) (ios (usbReadCalls ctlReg))
    else s.goto .removed1 (ios (usbReadCalls ctlReg))
  | .removed1 => s.goto .removed2 (ios (usbReadCalls ctlReg))
  | .removed2 => s.goto .removed3 (ios (usbReadCalls ctlReg))
  | .removed3 => if present v then s.hotPlug else s.goto .removed1 (ios (usbReadCalls ctlReg))

/-- `main` at the label, with `toggle` 0.  `data_size` has no value yet. -/
def Main.init (dataSize : BitVec 8) : Main := ⟨.resetMailbox, 0, dataSize⟩

/-- Everything `main` does when its reads return `reads`. -/
def trace (dataSize : BitVec 8) (reads : List (BitVec 16)) : List Act :=
  [.init] ++ (Main.init dataSize).hotPlug.2 ++ emit Main.step (Main.init dataSize).hotPlug.1 reads

/-- The machine after `reads`. -/
def reached (dataSize : BitVec 8) (reads : List (BitVec 16)) : Main :=
  after Main.step (Main.init dataSize).hotPlug.1 reads

/-! ## What a step can do -/

/-- The value `v` sends `main` back to the label. -/
def Main.replugs (s : Main) (v : BitVec 16) : Bool :=
  match s.point with
  | .initError | .resetError => true
  | .retryControl r => r = .setAddress
  | .deviceWait | .removed3 => present v
  | _ => false

/-- Neither a poll nor a pass of the label. -/
def Act.quiet : Act → Bool
  | .hotPlug | .poll _ | .resend _ => false
  | _ => true

@[simp] theorem quiet_ios (calls : List IoCall) : (ios calls).all Act.quiet = true := by
  rw [ios, List.all_map]
  exact List.all_eq_true.mpr (fun _ _ => rfl)

@[simp] theorem quiet_ioReadAct (address : BitVec 8) : (ioReadAct address).all Act.quiet = true :=
  quiet_ios _

@[simp] theorem quiet_peek (address : BitVec 16) : (peek address).all Act.quiet = true :=
  quiet_ios _

@[simp] theorem quiet_usbWrites (table : List (BitVec 16 × BitVec 16)) :
    (usbWrites table).all Act.quiet = true := quiet_ios _

@[simp] theorem quiet_execInt : execInt.all Act.quiet = true := quiet_ios _

/-- The four kinds of step; the flag says that the step passes the label. -/
inductive Main.Moves (s : Main) : Bool → Main × List Act → Prop
  | hotPlug : Moves s true s.hotPlug
  | poll : Moves s false s.poll
  | resend (hp : s.point = .pollFlag) :
      Moves s false (s.goto .pollFlag ([.resend (pollTd s)] ++ ioReadAct hpiStatus))
  | quiet {p : Point} {d : BitVec 8} {acts : List Act} (hp : p ≠ .pollFlag)
      (ha : acts.all Act.quiet = true) :
      Moves s false ({ s with point := p, dataSize := d }, acts)

/-- A step that goes elsewhere and does nothing of note. -/
theorem Main.Moves.goto (s : Main) {p : Point} {acts : List Act} (hp : p ≠ .pollFlag)
    (ha : acts.all Act.quiet = true) : s.Moves false (s.goto p acts) :=
  .quiet hp ha

theorem Main.Moves.post (s : Main) (r : Request) : s.Moves false (s.post r) :=
  .goto s Point.noConfusion (by simp [Act.quiet])

theorem Main.Moves.retry (s : Main) (r : Request) : s.Moves false (s.retry r) :=
  .goto s Point.noConfusion (by simp)

theorem Main.Moves.next (s : Main) (r : Request) : s.Moves false (s.next r) := by
  cases r
  case getConfigDesc2 => exact .goto s Point.noConfusion (by simp)
  case getReportDesc => exact .poll
  all_goals exact .post s _

/-- Every step is of one of the four kinds. -/
theorem Main.step_moves (s : Main) (v : BitVec 16) : s.Moves (s.replugs v) (s.step v) := by
  cases hp : s.point
  all_goals simp only [Main.step, Main.replugs, hp]
  case initError | resetError => exact .hotPlug
  case deviceWait | removed3 =>
    cases hv : present v with
    | true => exact .hotPlug
    | false => exact .goto s Point.noConfusion (by simp)
  case retryControl r =>
    by_cases hr : r = .setAddress
    · rw [if_pos hr, decide_eq_true hr]
      exact .hotPlug
    · rw [if_neg hr, decide_eq_false hr]
      split
      · exact .retry s r
      · exact .next s r
  case pollFlag =>
    split
    · exact .resend hp
    · exact .goto s Point.noConfusion (by simp)
  case dataSize => exact .quiet Point.noConfusion (by simp [Act.quiet])
  case keycode => exact .goto s Point.noConfusion (by simp [Act.quiet])
  case device | deviceAgain | requestFlag =>
    repeat' split
    all_goals first | exact .post s _ | exact .goto s Point.noConfusion (by simp)
  case controlByte r =>
    split
    · exact .retry s r
    · exact .next s r
  case pollDevice | pollDeviceAgain =>
    repeat' split
    all_goals first | exact .poll | exact .goto s Point.noConfusion (by simp)
  all_goals
    repeat' split
    all_goals exact .goto s Point.noConfusion (by simp)

/-- The posts of a step are those of the state it ends in. -/
theorem Main.Moves.poll_here {s : Main} {b : Bool} {out : Main × List Act} (h : s.Moves b out)
    {a : Act} (ha : a ∈ out.2) {td : List (BitVec 16)} (htd : a = .poll td ∨ a = .resend td) :
    td = pollTd out.1 ∧ out.1.point = .pollFlag := by
  have hloud : a.quiet = false := by
    rcases htd with rfl | rfl
    · rfl
    · rfl
  have hnot : ∀ acts : List Act, acts.all Act.quiet = true → a ∉ acts := by
    intro acts hall hmem
    exact Bool.false_ne_true (hloud.symm.trans (List.all_eq_true.mp hall a hmem))
  cases h with
  | hotPlug =>
    rcases List.mem_cons.mp ha with rfl | ha
    · rcases htd with h | h <;> exact Act.noConfusion h
    · exact absurd ha (hnot _ (quiet_ios _))
  | poll =>
    rcases List.mem_cons.mp ha with rfl | ha
    · rcases htd with h | h
      · exact ⟨(Act.poll.inj h).symm, rfl⟩
      · exact Act.noConfusion h
    · exact absurd ha (hnot _ (quiet_ios _))
  | resend hp =>
    rcases List.mem_cons.mp ha with rfl | ha
    · rcases htd with h | h
      · exact Act.noConfusion h
      · exact ⟨(Act.resend.inj h).symm, rfl⟩
    · exact absurd ha (hnot _ (quiet_ios _))
  | quiet hp hall => exact absurd ha (hnot _ hall)

/-! ## The wait, inside `main` -/

/-- A state that goes on to `t` at the bare word and stays at every other one runs
    `UsbWaitTDListDone`. -/
theorem after_wait {s t : Main}
    (hstep : ∀ v, (s.step v).1 = if v = husbTDListDone then t else s) (msgs : List (BitVec 16)) :
    after Main.step s msgs =
      if (usbWaitTDListDone msgs).returned = none then s
      else after Main.step t (usbWaitTDListDone msgs).unread := by
  induction msgs with
  | nil => rfl
  | cons v rest ih =>
    rw [after, hstep, usbWaitTDListDone]
    by_cases hv : v = husbTDListDone
    · rw [if_pos hv, if_pos hv]
      rfl
    · rw [if_neg hv, if_neg hv]
      exact ih

/-- The two waits of `main`: `p` is the read of the message, `q` the next one. -/
theorem Main.goto_waits {s : Main} {p : Point} (hp : s.point = p) (q : Point) (again on : List Act)
    (v : BitVec 16) : (if v ≠ husbTDListDone then s.goto p again else s.goto q on).1 =
      if v = husbTDListDone then { s with point := q } else s := by
  by_cases hv : v = husbTDListDone
  · rw [if_neg (not_not_intro hv), if_pos hv, Main.goto]
  · rw [if_pos hv, if_neg hv, Main.goto, ← hp]

theorem requestDone_waits {s : Main} {r : Request} (hp : s.point = .requestDone r)
    (v : BitVec 16) : (s.step v).1 =
      if v = husbTDListDone then { s with point := .statusByte r } else s := by
  simp only [Main.step, hp]
  exact Main.goto_waits hp _ _ _ v

theorem pollDone_waits {s : Main} (hp : s.point = .pollDone) (v : BitVec 16) : (s.step v).1 =
    if v = husbTDListDone then { s with point := .keycode } else s := by
  simp only [Main.step, hp]
  exact Main.goto_waits hp _ _ _ v

/-- **A lost message hangs the keyboard.**  While the bare word does not come, a poll stays where it
    is: it sends nothing again and does not look for a removal. -/
theorem poll_hangs {s : Main} (hp : s.point = .pollDone) {msgs : List (BitVec 16)}
    (h : ∀ w ∈ msgs, w ≠ husbTDListDone) : after Main.step s msgs = s := by
  rw [after_wait (pollDone_waits hp), if_pos (returned_none h)]

/-- So does a request of the enumeration. -/
theorem request_hangs {s : Main} {r : Request} (hp : s.point = .requestDone r)
    {msgs : List (BitVec 16)} (h : ∀ w ∈ msgs, w ≠ husbTDListDone) :
    after Main.step s msgs = s := by
  rw [after_wait (requestDone_waits hp), if_pos (returned_none h)]

/-! ## The ledger of the polls -/

/-- A poll is posted. -/
def Act.isPoll : Act → Bool
  | .poll _ => true
  | _ => false

/-- The polls of a trace. -/
def polls (t : List Act) : Nat := t.countP Act.isPoll

/-- The count of the polls, begun again at each pass of the label. -/
def countPoll (k : Nat) : Act → Nat
  | .hotPlug => 0
  | .poll _ => k + 1
  | _ => k

/-- The polls of a trace since its last pass of the label. -/
def sincePlug (t : List Act) : Nat := t.foldl countPoll 0

/-- DATA0 for an odd poll, DATA1 for an even one. -/
def controlWord (k : Nat) : BitVec 16 := if k % 2 = 1 then 0x0001 else 0x0041

/-- The control word of a TD, the one at `0x0506`. -/
def tdControl (td : List (BitVec 16)) : Option (BitVec 16) := td[3]?

theorem polls_append (t u : List Act) : polls (t ++ u) = polls t + polls u := List.countP_append

theorem polls_cons (a : Act) (t : List Act) : polls (a :: t) = polls [a] + polls t :=
  polls_append [a] t

theorem polls_quiet {acts : List Act} (ha : acts.all Act.quiet = true) : polls acts = 0 := by
  rw [polls, List.countP_eq_zero]
  intro a hmem hpoll
  have hquiet := List.all_eq_true.mp ha a hmem
  cases a <;> first | exact Bool.noConfusion hpoll | exact Bool.noConfusion hquiet

theorem sincePlug_append (t u : List Act) : sincePlug (t ++ u) = u.foldl countPoll (sincePlug t) :=
  List.foldl_append

theorem controlWord_eq_iff (m n : Nat) : controlWord m = controlWord n ↔ m % 2 = n % 2 := by
  rw [controlWord, controlWord]
  rcases Nat.mod_two_eq_zero_or_one m with hm | hm <;>
    rcases Nat.mod_two_eq_zero_or_one n with hn | hn <;> rw [hm, hn] <;> decide

/-- The word follows the parity of `toggle`. -/
theorem tdControl_pollTd (s : Main) : tdControl (pollTd s) = some (controlWord s.toggle.toNat) := by
  have hodd : (s.toggle % 2 != 0) = decide (s.toggle.toNat % 2 = 1) := by
    rw [Bool.eq_iff_iff, bne_iff_ne, decide_eq_true_iff, ne_eq, ← BitVec.toNat_inj,
      BitVec.toNat_umod]
    show ¬ s.toggle.toNat % 2 = 0 ↔ _
    omega
  show some (if s.toggle % 2 != 0 then 0x0001#16 else 0x0041#16) = _
  rw [hodd, controlWord]
  by_cases h : s.toggle.toNat % 2 = 1 <;> simp [h]

/-- The chip finds the word where it looks for it. -/
theorem pollTd_mem (other : BitVec 2 → Chip → BitVec 16) (s : Main) (c : Chip) :
    (c.serveAll other (Act.poll (pollTd s)).calls).mem 0x0506 = controlWord s.toggle.toNat := by
  have hlen : (pollTd s).length = 6 := rfl
  obtain ⟨-, hwords⟩ := postCalls_mem other (pollTd s) (by omega) c
  have htd := tdControl_pollTd s
  rw [tdControl, List.getElem?_eq_getElem (by omega), Option.some.injEq] at htd
  rw [← htd, ← hwords 3 (by omega)]
  rfl

/-- What every run keeps to: the word follows the count of all polls, and nothing is sent again
    before a first poll after the label. -/
def ledgerOk (past : List Act) : Act → Prop
  | .poll td => tdControl td = some (controlWord (polls past + 1))
  | .resend td => tdControl td = some (controlWord (polls past)) ∧ 0 < sincePlug past
  | _ => True

/-- `toggle` is the number of polls, modulo 256. -/
structure Ledger (past : List Act) (s : Main) : Prop where
  toggle_eq : s.toggle = BitVec.ofNat 8 (polls past)
  polling : s.point = .pollFlag → 0 < sincePlug past

theorem controlWord_toggle (n : Nat) :
    controlWord (BitVec.ofNat 8 n).toNat = controlWord n := by
  rw [controlWord_eq_iff, BitVec.toNat_ofNat]
  omega

theorem obeys_quiet {ok : List Act → Act → Prop} (hok : ∀ past a, a.quiet = true → ok past a)
    {acts : List Act} (ha : acts.all Act.quiet = true) (past : List Act) : Obeys ok past acts := by
  rw [obeys_iff]
  rintro x a y rfl
  refine hok _ a (List.all_eq_true.mp ha a ?_)
  exact List.mem_append_right x List.mem_cons_self

theorem ledgerOk_quiet (past : List Act) (a : Act) (ha : a.quiet = true) : ledgerOk past a := by
  cases a <;> first | exact Bool.noConfusion ha | trivial

/-- **The step lemma.**  Each kind of step keeps the ledger, and posts what it allows. -/
theorem Main.Moves.ledger {s : Main} {b : Bool} {out : Main × List Act} (h : s.Moves b out)
    {past : List Act} (hs : Ledger past s) :
    Obeys ledgerOk past out.2 ∧ Ledger (past ++ out.2) out.1 := by
  have hios := fun calls => obeys_quiet ledgerOk_quiet (quiet_ios calls)
  cases h with
  | hotPlug =>
    refine ⟨⟨trivial, hios _ _⟩, ?_, Point.noConfusion⟩
    rw [polls_append, Main.hotPlug, Main.goto]
    exact hs.toggle_eq
  | poll =>
    have htoggle : s.poll.1.toggle = BitVec.ofNat 8 (polls past + 1) := by
      show s.toggle + 1 = _
      rw [hs.toggle_eq]
      bv_omega
    refine ⟨⟨?_, hios _ _⟩, ?_, ?_⟩
    · show tdControl (pollTd s.poll.1) = _
      rw [tdControl_pollTd, htoggle, controlWord_toggle]
    · rw [htoggle, polls_append]
      rfl
    · intro _
      rw [sincePlug_append]
      exact Nat.succ_pos _
  | resend hp =>
    refine ⟨⟨⟨?_, hs.polling hp⟩, hios _ _⟩, ?_, ?_⟩
    · rw [tdControl_pollTd, hs.toggle_eq, controlWord_toggle]
    · rw [polls_append]
      exact hs.toggle_eq
    · intro _
      rw [sincePlug_append]
      exact hs.polling hp
  | quiet hp ha =>
    refine ⟨obeys_quiet ledgerOk_quiet ha past, ?_, fun h => absurd h hp⟩
    rw [polls_append, polls_quiet ha]
    exact hs.toggle_eq

theorem ledger_start (d : BitVec 8) :
    Obeys ledgerOk [] ([.init] ++ (Main.init d).hotPlug.2) ∧
      Ledger ([.init] ++ (Main.init d).hotPlug.2) (Main.init d).hotPlug.1 := by
  have h0 : Ledger [.init] (Main.init d) := ⟨rfl, Point.noConfusion⟩
  obtain ⟨hok, hL⟩ := Main.Moves.hotPlug.ledger h0
  exact ⟨⟨trivial, hok⟩, hL⟩

/-- **The ledger of a run.**  For all reads: every word posted follows the count of all polls, and
    `toggle` is that count at the end. -/
theorem run_ledger (d : BitVec 8) (reads : List (BitVec 16)) :
    Obeys ledgerOk [] (trace d reads) ∧ Ledger (trace d reads) (reached d reads) := by
  obtain ⟨hok, hL⟩ := ledger_start d
  obtain ⟨hrun, hend⟩ := emit_obeys (fun _ s v hs => (s.step_moves v).ledger hs) hL reads
  exact ⟨obeys_append.mpr ⟨hok, hrun⟩, hend⟩

/-! ## In step with the device -/

/-- What the device expects: the `k`-th poll after the label carries the word of `k`, and so does
    everything sent again in it. -/
def stepOk (past : List Act) : Act → Prop
  | .poll td => tdControl td = some (controlWord (sincePlug past + 1))
  | .resend td => tdControl td = some (controlWord (sincePlug past))
  | _ => True

/-- Every TD posted to poll carries the word the device expects. -/
def InStep (t : List Act) : Prop := Obeys stepOk [] t

/-- The polls of a trace are those before its last pass of the label and those since. -/
theorem polls_eq_sincePlug (t : List Act) :
    polls t = sincePlug t ∨
      ∃ p q, t = p ++ .hotPlug :: q ∧ polls t = polls p + sincePlug t := by
  induction t using List.reverseRecOn with
  | nil => exact .inl rfl
  | append_singleton t a ih =>
    rw [polls_append, sincePlug_append, List.foldl_cons, List.foldl_nil]
    by_cases ha : a = .hotPlug
    · subst ha
      exact .inr ⟨t, [], rfl, rfl⟩
    · have hcount : countPoll (sincePlug t) a = sincePlug t + polls [a] := by
        cases a <;> first | rfl | exact absurd rfl ha
      rw [hcount]
      rcases ih with h | ⟨p, q, rfl, h⟩
      · exact .inl (by rw [h])
      · exact .inr ⟨p, q ++ [a], by simp, by rw [h, Nat.add_assoc]⟩

theorem foldl_countPoll_le (t : List Act) (k : Nat) : t.foldl countPoll k ≤ k + polls t := by
  induction t generalizing k with
  | nil => exact Nat.le_refl k
  | cons a rest ih =>
    have hrest := ih (countPoll k a)
    have hstep : countPoll k a ≤ k + polls [a] := by
      cases a <;> first | exact Nat.le_refl _ | exact Nat.zero_le _
    rw [List.foldl_cons, polls_cons]
    omega

theorem polls_plug (p q : List Act) : polls (p ++ .hotPlug :: q) = polls p + polls q := by
  rw [polls_append, polls_cons]
  exact congrArg (polls p + ·) (Nat.zero_add _)

/-- The first poll of a trace that has one. -/
theorem exists_first_poll {t : List Act} (h : 0 < polls t) :
    ∃ p td q, t = p ++ .poll td :: q ∧ polls p = 0 := by
  obtain ⟨a, ha, hpoll⟩ := List.countP_pos_iff.mp h
  obtain ⟨b, p, q, hp, hb, rfl, -⟩ := List.exists_of_eraseP ha hpoll
  cases b
  case poll td => exact ⟨p, td, q, rfl, List.countP_eq_zero.mpr hp⟩
  all_goals exact Bool.noConfusion hb

/-- Up to the first poll after the label the count since is zero. -/
theorem sincePlug_plug {p q : List Act} (hq : polls q = 0) :
    sincePlug (p ++ .hotPlug :: q) = 0 := by
  have hle := foldl_countPoll_le q 0
  rw [hq] at hle
  rw [sincePlug_append]
  exact Nat.le_zero.mp hle

/-- Every pass of the label that a poll follows has an even number of polls before it. -/
def EvenPlugs (t : List Act) : Prop :=
  ∀ p q, t = p ++ .hotPlug :: q → 0 < polls q → polls p % 2 = 0

/-- Then the two counts have the same parity wherever a poll is under way or posted. -/
theorem EvenPlugs.parity {past rest : List Act} {a : Act} (h : EvenPlugs (past ++ a :: rest))
    (hpos : 0 < polls [a] + sincePlug past) : polls past % 2 = sincePlug past % 2 := by
  rcases polls_eq_sincePlug past with heq | ⟨p, q, rfl, heq⟩
  · rw [heq]
  · have hq : 0 < polls (q ++ a :: rest) := by
      rw [polls_plug] at heq
      rw [polls_append, polls_cons]
      omega
    have heven := h p (q ++ a :: rest) (by rw [List.append_assoc, List.cons_append]) hq
    omega

/-- **On a trace that keeps the ledger** every word is in step if and only if every pass of the
    label that a poll follows is even. -/
theorem inStep_iff {t : List Act} (ht : Obeys ledgerOk [] t) : InStep t ↔ EvenPlugs t := by
  constructor
  · rintro h p q rfl hq
    -- the first poll after the label: the device expects the word of 1
    obtain ⟨q, td, rest, rfl, hnone⟩ := exists_first_poll hq
    have hsplit : p ++ .hotPlug :: (q ++ .poll td :: rest) =
        (p ++ .hotPlug :: q) ++ .poll td :: rest := by
      rw [List.append_assoc, List.cons_append]
    have hword := obeys_iff.mp h _ _ _ hsplit
    have hledger := obeys_iff.mp ht _ _ _ hsplit
    rw [List.nil_append, stepOk, sincePlug_plug hnone] at hword
    rw [List.nil_append, ledgerOk, polls_plug, hnone, hword, Option.some.injEq,
      controlWord_eq_iff] at hledger
    omega
  · intro h
    rw [InStep, obeys_iff]
    rintro past a rest rfl
    have hledger := obeys_iff.mp ht past a rest rfl
    rw [List.nil_append] at hledger ⊢
    cases a
    case poll td =>
      have hsame := h.parity (Nat.lt_of_lt_of_le Nat.one_pos (Nat.le_add_right _ _))
      rw [ledgerOk] at hledger
      rw [stepOk, hledger, Option.some.injEq, controlWord_eq_iff]
      omega
    case resend td =>
      have hsame := h.parity (Nat.lt_of_lt_of_le hledger.2 (Nat.le_add_left _ _))
      rw [stepOk, hledger.1, Option.some.injEq, controlWord_eq_iff]
      omega
    all_goals trivial

/-! ## Where `main` passes the label -/

theorem Main.step_of_replugs {s : Main} {v : BitVec 16} (h : s.replugs v = true) :
    s.step v = s.hotPlug := by
  have hm := s.step_moves v
  rw [h] at hm
  generalize s.step v = out at hm
  cases hm
  rfl

theorem Main.Moves.no_plug {s : Main} {out : Main × List Act} (h : s.Moves false out) :
    Act.hotPlug ∉ out.2 := by
  have hios : ∀ calls, Act.hotPlug ∉ ios calls := by
    intro calls hmem
    exact Bool.noConfusion (List.all_eq_true.mp (quiet_ios calls) _ hmem)
  cases h with
  | poll => exact List.not_mem_cons_of_ne_of_not_mem Act.noConfusion (hios _)
  | resend hp => exact List.not_mem_cons_of_ne_of_not_mem Act.noConfusion (hios _)
  | quiet hp ha =>
    intro hmem
    exact Bool.noConfusion (List.all_eq_true.mp ha _ hmem)

/-- A step passes the label just if it is sent back to it. -/
theorem Main.plug_mem_iff (s : Main) (v : BitVec 16) :
    Act.hotPlug ∈ (s.step v).2 ↔ s.replugs v = true := by
  constructor
  · intro hmem
    cases hb : s.replugs v with
    | true => rfl
    | false => exact absurd hmem (hb ▸ s.step_moves v).no_plug
  · intro h
    rw [Main.step_of_replugs h]
    exact List.mem_cons_self

theorem toggle_parity (d : BitVec 8) (reads : List (BitVec 16)) :
    (reached d reads).toggle.toNat % 2 = polls (trace d reads) % 2 := by
  rw [(run_ledger d reads).2.toggle_eq, BitVec.toNat_ofNat]
  omega

theorem trace_append (d : BitVec 8) (past : List (BitVec 16)) (v : BitVec 16)
    (rest : List (BitVec 16)) : trace d (past ++ v :: rest) =
      trace d past ++ (((reached d past).step v).2 ++
        emit Main.step ((reached d past).step v).1 rest) := by
  rw [trace, emit_append, ← List.append_assoc]
  rfl

/-- In a run that is in step, a replug that a poll follows finds an even `toggle`. -/
theorem even_of_inStep {d : BitVec 8} {past : List (BitVec 16)} {v : BitVec 16}
    {rest : List (BitVec 16)} (h : InStep (trace d (past ++ v :: rest)))
    (hplug : (reached d past).replugs v = true)
    (hpolls : 0 < polls (emit Main.step ((reached d past).step v).1 rest)) :
    (reached d past).toggle.toNat % 2 = 0 := by
  rw [inStep_iff (run_ledger d _).1, trace_append, Main.step_of_replugs hplug] at h
  rw [Main.step_of_replugs hplug] at hpolls
  rw [toggle_parity]
  refine h (trace d past) (ios [.write hpiMailbox 0xFA50, .read hpiMailbox] ++ _) rfl ?_
  rw [polls_append]
  exact Nat.add_pos_right _ hpolls

/-- **When the data toggle is in step.**  For all reads, with any number of removals and of failed
    enumerations: every TD posted to poll carries the word the device expects if and only if
    `toggle` is even whenever `main` goes back to the label and a poll follows. -/
theorem toggle_in_step (d : BitVec 8) (reads : List (BitVec 16)) :
    InStep (trace d reads) ↔ ∀ past v rest, reads = past ++ v :: rest →
      (reached d past).replugs v = true →
      0 < polls (emit Main.step ((reached d past).step v).1 rest) →
      (reached d past).toggle.toNat % 2 = 0 := by
  constructor
  · rintro h past v rest rfl hplug hpolls
    exact even_of_inStep h hplug hpolls
  · intro h
    rw [inStep_iff (run_ledger d reads).1]
    intro p q htrace hq
    rcases split_append htrace with ⟨y, hstart, rfl⟩ | ⟨x, rfl, hrun⟩
    · -- the first enumeration: nothing has been polled
      have hle : polls p ≤ polls ([.init] ++ (Main.init d).hotPlug.2) := by
        rw [hstart, polls_plug]
        exact Nat.le_add_right _ _
      rw [Nat.le_zero.mp hle]
    · obtain ⟨past, v, rest, x, y, rfl, hs, rfl, rfl⟩ := emit_split hrun
      have hplug : (reached d past).replugs v = true := by
        rw [← Main.plug_mem_iff]
        exact hs ▸ List.mem_append_right x List.mem_cons_self
      have hnone : polls x + polls y = 0 := by
        rw [← polls_plug, ← hs]
        exact congrArg (polls ·.2) (Main.step_of_replugs hplug)
      rw [polls_append] at hq
      have heven := h past v rest rfl hplug (by unfold reached; omega)
      rw [toggle_parity] at heven
      rw [← List.append_assoc, polls_append, show polls x = 0 by omega]
      exact heven

/-- The reads of a request that is done at once. -/
def requestReads : List (BitVec 16) := [0x0010, husbTDListDone, 0x0000, 0x0003]

/-- The reads of an enumeration without a mishap. -/
def enumReads : List (BitVec 16) :=
  [0, 0, 0, 0, 0x0001, commAck, commAck, 0x2000] ++
    requestReads ++ requestReads ++ requestReads ++ requestReads ++ requestReads ++
    [0x0001, 0x0008] ++ requestReads ++ requestReads ++ requestReads ++ requestReads

/-- The reads of one poll, of its removal of the keyboard and of the wait for another. -/
def removalReads : List (BitVec 16) :=
  [0x0010, husbTDListDone, 0x0004] ++ List.replicate 8 0 ++ [0, 0]

/-- One poll, and the keyboard is removed and put back: the first poll after it carries DATA1. -/
theorem toggle_out_of_step :
    ¬ InStep (trace 0 (enumReads ++ removalReads ++ 0x2000 :: enumReads)) := by
  intro h
  have heven := even_of_inStep h (by decide) (by decide)
  exact absurd heven (by decide)

end Lab8
