/-
  The protocol `main` keeps to, and its recovery.

  Whatever the chip answers, `main` walks through the nine requests of the enumeration in order,
  repeats the one it is at, goes back to the label from three places only, and stores a keycode once
  for each poll.  `Stage.after` states that protocol as an automaton on the acts of `main`: it knows
  neither the reads nor the points.

  1. **Refinement** (`follows_run`) — the automaton accepts the acts of every run, and follows the
     point `main` is at.
  2. **Order** (`enumeration_order`) — so a poll finds all nine requests made since the label.
  3. **One store a poll** (`store_per_poll`).
  4. **Recovery** (`recovers`) — from any state of any run, once the chip answers as it should, a
     keycode is stored within 53 reads: `Point.rank` falls with every good answer.
  5. **Liveness** (`keyboard_lives`) — the answers `main` waits for may be late by any number of reads:
     as long as they come in the end, keycodes are stored again and again.
-/
import Lab8.Main
import Lab8.Lib.Clocked

namespace Lab8

open Emit

/-! ## The protocol -/

/-- Where the enumeration stands. -/
inductive Stage where
  /-- Nothing has been asked since the label. -/
  | idle
  /-- Request `r` has been posted. -/
  | asked (r : Request)
  /-- A poll is under way. -/
  | polled
  /-- The keycode of the last poll has been stored. -/
  | stored
  deriving DecidableEq, Repr

/-- The requests, in order. -/
def Request.all : List Request :=
  [.setAddress, .getDeviceDesc1, .getDeviceDesc2, .getConfigDesc1, .getConfigDesc2, .setConfig,
   .classRequest, .getHidDesc, .getReportDesc]

/-- The requests before `r`. -/
def Request.before (r : Request) : List Request := Request.all.takeWhile (· != r)

/-- The requests up to `r`. -/
def Request.upTo (r : Request) : List Request := r.before ++ [r]

/-- The requests that have been made. -/
def Stage.made : Stage → List Request
  | .idle => []
  | .asked r => r.upTo
  | .polled | .stored => Request.all

/-- **The protocol**: the stage after an act, if the act is allowed. -/
def Stage.after (st : Stage) : Act → Option Stage
  | .init | .io _ => some st
  | .hotPlug =>
    if st = .idle ∨ st = .asked .setAddress ∨ st = .stored then some .idle else none
  | .request r => if st.made = r.before ∨ st = .asked r then some (.asked r) else none
  | .poll _ => if st = .asked .getReportDesc ∨ st = .stored then some .polled else none
  | .resend _ => if st = .polled then some .polled else none
  | .keycode _ => if st = .polled then some .stored else none

/-- The stage after a list of acts, if all of them are allowed. -/
def Stage.follow (st : Stage) (acts : List Act) : Option Stage := acts.foldlM Stage.after st

theorem follow_append (st : Stage) (xs ys : List Act) :
    st.follow (xs ++ ys) = (st.follow xs).bind (fun st' => st'.follow ys) :=
  List.foldlM_append

@[simp] theorem follow_cons (st : Stage) (a : Act) (rest : List Act) :
    st.follow (a :: rest) = (st.after a).bind (fun st' => st'.follow rest) := List.foldlM_cons

/-- Calls of `IO_write` and `IO_read` are always allowed. -/
@[simp] theorem follow_ios (st : Stage) (calls : List IoCall) :
    st.follow (ios calls) = some st := by
  induction calls with
  | nil => rfl
  | cons c rest ih => exact ih

@[simp] theorem follow_ioReadAct (st : Stage) (address : BitVec 8) :
    st.follow (ioReadAct address) = some st := follow_ios st _

@[simp] theorem follow_peek (st : Stage) (address : BitVec 16) :
    st.follow (peek address) = some st := follow_ios st _

@[simp] theorem follow_usbWrites (st : Stage) (table : List (BitVec 16 × BitVec 16)) :
    st.follow (usbWrites table) = some st := follow_ios st _

@[simp] theorem follow_execInt (st : Stage) : st.follow execInt = some st := follow_ios st _

/-! ## `main` keeps to it -/

/-- The stage of a point. -/
def Point.stage : Point → Stage
  | .requestFlag r | .requestDone r | .statusByte r | .controlByte r
  | .retryStatus r | .retryMsg r | .retryFlag r | .retryControl r => .asked r
  | .deviceInfo | .dataSize => .asked .getConfigDesc2
  | .pollFlag | .pollDone | .keycode => .polled
  | .pollDevice | .pollDeviceAgain _ | .removed1 | .removed2 | .removed3 => .stored
  | _ => .idle

/-- A step from stage `st` does what is allowed there, and ends at the stage of its point. -/
def Follows (st : Stage) (out : Main × List Act) : Prop := st.follow out.2 = some out.1.point.stage

theorem Follows.goto (s : Main) {p : Point} {st : Stage} {acts : List Act}
    (hacts : st.follow acts = some st) (hp : p.stage = st) : Follows st (s.goto p acts) := by
  rw [Follows, Main.goto, hacts, hp]

theorem Follows.hotPlug (s : Main) {st : Stage}
    (hst : st = .idle ∨ st = .asked .setAddress ∨ st = .stored) : Follows st s.hotPlug := by
  rw [Follows, Main.hotPlug, Main.goto, List.singleton_append, follow_cons, Stage.after, if_pos hst,
    Option.bind_some, follow_ios]
  rfl

theorem Follows.post (s : Main) {st : Stage} {r : Request}
    (hst : st.made = r.before ∨ st = .asked r) : Follows st (s.post r) := by
  rw [Follows, Main.post, Main.goto, List.singleton_append, follow_cons, Stage.after, if_pos hst,
    Option.bind_some, follow_ioReadAct]
  rfl

theorem Follows.poll (s : Main) {st : Stage} (hst : st = .asked .getReportDesc ∨ st = .stored) :
    Follows st s.poll := by
  rw [Follows, Main.poll, List.singleton_append, follow_cons, Stage.after, if_pos hst,
    Option.bind_some, follow_ioReadAct]
  rfl

theorem Follows.retry (s : Main) (r : Request) : Follows (.asked r) (s.retry r) :=
  .goto s (by simp) rfl

theorem Follows.next (s : Main) (r : Request) : Follows (.asked r) (s.next r) := by
  cases r
  case getConfigDesc2 => exact .goto s (by simp) rfl
  case getReportDesc => exact .poll s (.inl rfl)
  all_goals exact .post s (.inl rfl)

/-- **The step lemma.** -/
theorem Main.step_follows (s : Main) (v : BitVec 16) : Follows s.point.stage (s.step v) := by
  cases hp : s.point
  all_goals simp only [Main.step, hp, Point.stage]
  case initError | resetError => exact .hotPlug s (.inl rfl)
  case deviceWait =>
    split
    · exact .hotPlug s (.inl rfl)
    · exact .goto s (by simp) rfl
  case removed3 =>
    split
    · exact .hotPlug s (.inr (.inr rfl))
    · exact .goto s (by simp) rfl
  case device | deviceAgain =>
    repeat' split
    all_goals first | exact .post s (.inl rfl) | exact .goto s (by simp) rfl
  case requestFlag r =>
    split
    · exact .post s (.inr rfl)
    · exact .goto s (by simp) rfl
  case controlByte r =>
    split
    · exact .retry s r
    · exact .next s r
  case retryControl r =>
    split
    · rename_i hr
      exact .hotPlug s (.inr (.inl (congrArg Stage.asked hr)))
    · split
      · exact .retry s r
      · exact .next s r
  case dataSize => exact .post _ (.inl rfl)
  case pollFlag =>
    split
    · rw [Follows, Main.goto, List.singleton_append, follow_cons, Stage.after, if_pos rfl,
        Option.bind_some, follow_ioReadAct]
      rfl
    · exact .goto s (by simp) rfl
  case keycode =>
    rw [Follows, Main.goto, List.singleton_append, follow_cons, Stage.after, if_pos rfl,
      Option.bind_some, follow_ios]
    rfl
  case pollDevice | pollDeviceAgain =>
    repeat' split
    all_goals first | exact .poll s (.inr rfl) | exact .goto s (by simp) rfl
  all_goals
    repeat' split
    all_goals exact .goto s (by simp [follow_append]) rfl

/-- **Every run keeps to the protocol**, and ends at the stage of its point. -/
theorem follows_run (d : BitVec 8) (reads : List (BitVec 16)) :
    Stage.idle.follow (trace d reads) = some (reached d reads).point.stage := by
  have hrest : ∀ (s : Main) (ins : List (BitVec 16)), s.point.stage.follow (emit Main.step s ins) =
      some (after Main.step s ins).point.stage := by
    intro s ins
    induction ins generalizing s with
    | nil => rfl
    | cons v rest ih =>
      rw [emit, after, follow_append, s.step_follows v]
      exact ih _
  have hstart : Stage.idle.follow ([.init] ++ (Main.init d).hotPlug.2) = some .idle :=
    Follows.hotPlug (Main.init d) (.inl rfl)
  rw [trace, follow_append, hstart]
  exact hrest (Main.init d).hotPlug.1 reads

/-- An act of a run is allowed at the stage before it. -/
theorem act_allowed {d : BitVec 8} {reads : List (BitVec 16)} {past rest : List Act} {a : Act}
    (h : trace d reads = past ++ a :: rest) :
    ∃ st st', Stage.idle.follow past = some st ∧ st.after a = some st' := by
  have hrun := follows_run d reads
  rw [h, follow_append] at hrun
  obtain ⟨st, hpast, hst⟩ := Option.bind_eq_some_iff.mp hrun
  rw [follow_cons] at hst
  obtain ⟨st', hafter, -⟩ := Option.bind_eq_some_iff.mp hst
  exact ⟨st, st', hpast, hafter⟩

/-! ## Order -/

/-- One more act: the label begins a new list, and a request is added unless it repeats the last. -/
def noteRequest (made : List Request) : Act → List Request
  | .hotPlug => []
  | .request r => if made.getLast? = some r then made else made ++ [r]
  | _ => made

/-- The requests of a trace since its last pass of the label, repetitions dropped. -/
def requests (t : List Act) : List Request := t.foldl noteRequest []

theorem before_getLast (r : Request) : r.before.getLast? ≠ some r := by
  cases r <;> decide

theorem upTo_getLast (r : Request) : r.upTo.getLast? = some r := by
  rw [Request.upTo, List.getLast?_append]
  rfl

theorem upTo_last : Request.getReportDesc.upTo = Request.all := by decide

/-- The automaton keeps the list. -/
theorem Stage.after_made {st st' : Stage} {a : Act} (h : st.after a = some st') :
    noteRequest st.made a = st'.made := by
  cases a
  all_goals simp only [Stage.after, Option.ite_none_right_eq_some, Option.some.injEq] at h
  case init | io => rw [← h]; rfl
  case hotPlug => rw [← h.2]; rfl
  case request r =>
    obtain ⟨hst, rfl⟩ := h
    rw [noteRequest]
    rcases hst with hmade | rfl
    · rw [hmade, if_neg (before_getLast r)]
      rfl
    · rw [Stage.made, if_pos (upTo_getLast r)]
  case poll =>
    obtain ⟨rfl | rfl, rfl⟩ := h
    · exact upTo_last
    · rfl
  case resend | keycode =>
    obtain ⟨rfl, rfl⟩ := h
    rfl

theorem follow_made {st st' : Stage} {acts : List Act} (h : st.follow acts = some st') :
    acts.foldl noteRequest st.made = st'.made := by
  induction acts generalizing st with
  | nil => rw [← Option.some.inj h]; rfl
  | cons a rest ih =>
    rw [follow_cons] at h
    obtain ⟨st₁, ha, hrest⟩ := Option.bind_eq_some_iff.mp h
    rw [List.foldl_cons, Stage.after_made ha]
    exact ih hrest

/-- What the requests so far must be for an act. -/
def orderOk (made : List Request) : Act → Prop
  | .request r => made = r.before ∨ made = r.upTo
  | .poll _ | .resend _ | .keycode _ => made = Request.all
  | _ => True

/-- **The enumeration is complete and in order.**  For all reads, with any number of removals,
    retries and failed enumerations, at every act of `main`, about the requests made since the last
    pass of the label with repetitions dropped: a request finds just those before it, or those and
    itself; a poll, the repetition of a poll and a store of a keycode find all nine, in order. -/
theorem enumeration_order (d : BitVec 8) (reads : List (BitVec 16)) :
    ∀ past a rest, trace d reads = past ++ a :: rest → orderOk (requests past) a := by
  intro past a rest h
  obtain ⟨st, st', hpast, ha⟩ := act_allowed h
  have hmade : requests past = st.made := follow_made hpast
  rw [hmade]
  cases a
  all_goals simp only [Stage.after, Option.ite_none_right_eq_some] at ha
  case init | io | hotPlug => trivial
  case request r => exact ha.1.imp_right (fun h => congrArg Stage.made h)
  case poll =>
    obtain ⟨rfl | rfl, -⟩ := ha
    · exact upTo_last
    · rfl
  case resend | keycode =>
    obtain ⟨rfl, -⟩ := ha
    rfl

/-! ## One store a poll -/

/-- The first poll of an enumeration without a mishap. -/
theorem enumeration_order_first : ∃ past td rest, trace 0 enumReads = past ++ .poll td :: rest ∧
    requests past = Request.all := by
  have hmem : Act.poll [0x051c, 0x0008, 0x0291, 0x0001, 0x0013, 0x0000] ∈ trace 0 enumReads := by
    decide
  obtain ⟨past, rest, h⟩ := List.append_of_mem hmem
  exact ⟨past, _, rest, h, enumeration_order 0 enumReads past _ rest h⟩

/-- A keycode is stored. -/
def Act.isStore : Act → Bool
  | .keycode _ => true
  | _ => false

/-- The stores of a trace. -/
def stores (t : List Act) : Nat := t.countP Act.isStore

/-- The polls whose keycode is still to be stored. -/
def Stage.unstored (st : Stage) : Nat := if st = .polled then 1 else 0

/-- The automaton keeps the balance. -/
theorem Stage.after_balance {st st' : Stage} {a : Act} (h : st.after a = some st') :
    polls [a] + st.unstored = stores [a] + st'.unstored := by
  cases a
  all_goals simp only [Stage.after, Option.ite_none_right_eq_some, Option.some.injEq] at h
  case init | io => rw [← h]; rfl
  case hotPlug => obtain ⟨rfl | rfl | rfl, rfl⟩ := h <;> rfl
  case request r =>
    obtain ⟨hst, rfl⟩ := h
    -- a request is not allowed while a poll is under way
    have hne : st ≠ .polled := by
      rintro rfl
      rcases hst with h | h
      · revert h
        cases r <;> decide
      · exact Stage.noConfusion h
    rw [Stage.unstored, if_neg hne]
    rfl
  case poll => obtain ⟨rfl | rfl, rfl⟩ := h <;> rfl
  case resend | keycode =>
    obtain ⟨rfl, rfl⟩ := h
    rfl

theorem follow_balance {st st' : Stage} {acts : List Act} (h : st.follow acts = some st') :
    polls acts + st.unstored = stores acts + st'.unstored := by
  induction acts generalizing st with
  | nil => rw [← Option.some.inj h]; rfl
  | cons a rest ih =>
    rw [follow_cons] at h
    obtain ⟨st₁, ha, hrest⟩ := Option.bind_eq_some_iff.mp h
    have hstores : stores ([a] ++ rest) = stores [a] + stores rest := List.countP_append
    rw [List.singleton_append] at hstores
    have hhead := Stage.after_balance ha
    have htail := ih hrest
    rw [polls_cons, hstores]
    omega

/-- How polls and stores stand at an act. -/
def balanceOk (polls stores : Nat) : Act → Prop
  | .poll _ | .request _ | .hotPlug => polls = stores
  | .resend _ | .keycode _ => polls = stores + 1
  | _ => True

/-- **One store for each poll.**  For all reads, at every act of `main`: a poll, a request and a
    pass of the label find every poll so far answered by exactly one store of a keycode; a
    repetition and a store find just one poll without its store.  So polls and stores alternate,
    and no poll is given up. -/
theorem store_per_poll (d : BitVec 8) (reads : List (BitVec 16)) :
    ∀ past a rest, trace d reads = past ++ a :: rest →
      balanceOk (polls past) (stores past) a := by
  intro past a rest h
  obtain ⟨st, st', hpast, ha⟩ := act_allowed h
  have hbal : polls past = stores past + st.unstored := follow_balance hpast
  have hact := Stage.after_balance ha
  cases a
  all_goals simp only [Stage.after, Option.ite_none_right_eq_some] at ha
  case init | io => trivial
  case hotPlug =>
    obtain ⟨rfl | rfl | rfl, -⟩ := ha
    all_goals exact hbal
  case request r =>
    obtain ⟨-, hst'⟩ := ha
    rw [← Option.some.inj hst'] at hact
    have h0 : 0 + st.unstored = 0 + 0 := hact
    show polls past = stores past
    omega
  case poll =>
    obtain ⟨rfl | rfl, -⟩ := ha
    all_goals exact hbal
  case resend | keycode =>
    obtain ⟨rfl, -⟩ := ha
    exact hbal

/-- The first store. -/
theorem store_per_poll_first : ∃ past v rest,
    trace 0 (enumReads ++ removalReads) = past ++ .keycode v :: rest ∧
      polls past = stores past + 1 := by
  have hmem : Act.keycode 4 ∈ trace 0 (enumReads ++ removalReads) := by decide
  obtain ⟨past, rest, h⟩ := List.append_of_mem hmem
  exact ⟨past, _, rest, h, store_per_poll 0 (enumReads ++ removalReads) past _ rest h⟩

/-! ## Recovery -/

/-- What the chip answers at a point when it has a keyboard that works. -/
def Point.good : Point → BitVec 16 → Bool
  | .initStatus, v => v != 0
  | .initAck, v | .resetAck, v => v == commAck
  | .device, v | .deviceAgain _, v | .deviceWait, v | .pollDevice, v | .pollDeviceAgain _, v
  | .removed1, v | .removed2, v | .removed3, v => present v
  | .requestFlag _, v | .retryFlag _, v | .pollFlag, v => sie1MsgFlag v
  | .requestDone _, v | .pollDone, v => v == husbTDListDone
  | .controlByte _, v | .retryControl _, v => v == 0x03
  | _, _ => true

/-- Good answers from the first read for a request to the store of a keycode. -/
def Request.rank : Request → Nat
  | .setAddress => 40
  | .getDeviceDesc1 => 36
  | .getDeviceDesc2 => 32
  | .getConfigDesc1 => 28
  | .getConfigDesc2 => 24
  | .setConfig => 18
  | .classRequest => 14
  | .getHidDesc => 10
  | .getReportDesc => 6

/-- Good answers from a point to the store of a keycode, the last one not counted. -/
def Point.rank : Point → Nat
  | .keycode => 0
  | .pollDone => 1
  | .pollFlag => 2
  | .pollDevice | .pollDeviceAgain _ => 3
  | .requestFlag r => r.rank
  | .requestDone r => r.rank - 1
  | .statusByte r => r.rank - 2
  | .controlByte r => r.rank - 3
  | .retryControl r => if r = .setAddress then 49 else r.rank - 3
  | .retryFlag r => if r = .setAddress then 50 else r.rank - 2
  | .retryMsg r => if r = .setAddress then 51 else r.rank - 1
  | .retryStatus r => if r = .setAddress then 52 else r.rank
  | .deviceInfo => 20
  | .dataSize => 19
  | .device | .deviceAgain _ => 41
  | .resetAck => 42
  | .initAck => 43
  | .initStatus => 44
  | .resetSie2 => 45
  | .resetSie1 => 46
  | .resetStatus => 47
  | .resetMailbox => 48
  | .initError | .resetError | .deviceWait | .removed3 => 49
  | .removed2 => 50
  | .removed1 => 51

theorem Request.six_le_rank (r : Request) : 6 ≤ r.rank := by cases r <;> decide

theorem Request.rank_le (r : Request) : r.rank ≤ 40 := by cases r <;> decide

theorem Point.rank_le (p : Point) : p.rank ≤ 52 := by
  cases p
  case requestFlag r | requestDone r | statusByte r | controlByte r =>
    have := r.rank_le
    simp only [Point.rank]
    omega
  case retryStatus r | retryMsg r | retryFlag r | retryControl r =>
    have := r.rank_le
    simp only [Point.rank]
    split <;> omega
  case deviceAgain | pollDeviceAgain => simp [Point.rank]
  all_goals decide

@[simp] theorem Main.goto_point (s : Main) (p : Point) (acts : List Act) :
    (s.goto p acts).1.point = p := rfl

@[simp] theorem Main.post_point (s : Main) (r : Request) :
    (s.post r).1.point = .requestFlag r := rfl

@[simp] theorem Main.poll_point (s : Main) : s.poll.1.point = .pollFlag := rfl

@[simp] theorem Main.hotPlug_point (s : Main) : s.hotPlug.1.point = .resetMailbox := rfl

/-- After a request that is done the next one is nearer. -/
theorem Main.next_rank (s : Main) (r : Request) : (s.next r).1.point.rank < r.rank - 3 := by
  cases r
  all_goals
    simp only [Main.next, Main.goto_point, Main.post_point, Main.poll_point]
    decide

/-- **A good answer leads to a store, or nearer to it.** -/
theorem Main.step_progress (s : Main) (v : BitVec 16) (hv : s.point.good v = true) :
    (∃ a ∈ (s.step v).2, a.isStore = true) ∨ (s.step v).1.point.rank < s.point.rank := by
  cases hp : s.point
  case keycode =>
    refine .inl ⟨.keycode ((v &&& 0xff).setWidth 8), ?_, rfl⟩
    simp only [Main.step, hp]
    exact List.mem_append_left _ List.mem_cons_self
  all_goals
    right
    simp only [hp, Point.good, beq_iff_eq, bne_iff_ne] at hv
    simp only [Main.step, hp]
  case requestFlag r =>
    have := r.six_le_rank
    rw [hv, Bool.not_true, if_neg Bool.false_ne_true, Main.goto_point, Point.rank, Point.rank]
    omega
  case requestDone r =>
    have := r.six_le_rank
    rw [if_neg (not_not_intro hv), Main.goto_point, Point.rank, Point.rank]
    omega
  case statusByte r =>
    have := r.six_le_rank
    rw [Main.goto_point, Point.rank, Point.rank]
    omega
  case controlByte r =>
    rw [if_neg (not_not_intro hv)]
    exact s.next_rank r
  case retryStatus r =>
    have := r.six_le_rank
    rw [Main.goto_point, Point.rank, Point.rank]
    split <;> omega
  case retryMsg r =>
    have := r.six_le_rank
    split
    all_goals
      rw [Main.goto_point, Point.rank, Point.rank]
      split <;> omega
  case retryFlag r =>
    have := r.six_le_rank
    rw [hv, Bool.not_true, if_neg Bool.false_ne_true, Main.goto_point, Point.rank, Point.rank]
    split <;> omega
  case retryControl r =>
    rw [Point.rank]
    split
    · rw [Main.hotPlug_point]
      decide
    · rw [if_neg (not_not_intro hv)]
      exact s.next_rank r
  case initStatus =>
    have hne : ¬ v &&& 0xFFFF = 0 := by
      rw [show (0xFFFF : BitVec 16) = BitVec.allOnes 16 from rfl, BitVec.and_allOnes]
      exact hv
    rw [if_neg hne, Main.goto_point]
    decide
  case initAck | resetAck =>
    rw [if_neg (not_not_intro hv), Main.goto_point]
    decide
  case device | pollDevice =>
    rw [hv, Bool.not_true, if_neg Bool.false_ne_true]
    first | rw [Main.post_point] | rw [Main.poll_point]
    decide
  case deviceAgain n =>
    rw [if_pos hv, Main.post_point, Point.rank, Point.rank]
    decide
  case pollDeviceAgain n =>
    rw [if_pos hv, Main.poll_point, Point.rank, Point.rank]
    decide
  case deviceWait | removed3 =>
    rw [if_pos hv, Main.hotPlug_point]
    decide
  case initError | resetError =>
    rw [Main.hotPlug_point]
    decide
  case dataSize =>
    rw [Main.post_point]
    decide
  case pollFlag =>
    rw [hv, Bool.not_true, if_neg Bool.false_ne_true, Main.goto_point]
    decide
  case pollDone =>
    rw [if_neg (not_not_intro hv), Main.goto_point]
    decide
  all_goals
    rw [Main.goto_point]
    decide

/-- **Recovery.**  After any reads, however the chip has misbehaved and wherever `main` has got to,
    53 good answers in a row lead to the store of a keycode. -/
theorem recovers (d : BitVec 8) (reads more : List (BitVec 16))
    (hgood : Answers Main.step (fun s v => s.point.good v = true) (reached d reads) more)
    (hlen : 53 ≤ more.length) :
    ∃ v, Act.keycode v ∈ emit Main.step (reached d reads) more := by
  obtain ⟨a, ha, hstore⟩ := emit_progress (fun s : Main => s.point.rank)
    (fun a => a.isStore = true) (fun s v hv => s.step_progress v hv) hgood
    (Nat.lt_of_le_of_lt (Point.rank_le _) hlen)
  cases a
  case keycode v => exact ⟨v, ha⟩
  all_goals exact Bool.noConfusion hstore

/-- The keyboard has been removed and is put back. -/
theorem recovers_removal : ∃ v, Act.keycode v ∈ emit Main.step
    (reached 0 (enumReads ++ removalReads)) (0x2000 :: enumReads ++ [0x0010, husbTDListDone, 7] ++
      [0x2000, 0x0010, husbTDListDone]) :=
  recovers 0 (enumReads ++ removalReads) _ (by decide +kernel) (by decide)

/-! ## Liveness -/

/-- The points at which `main` asks again until the answer is good. -/
def Point.waits : Point → Bool
  | .initStatus | .deviceWait | .requestFlag _ | .requestDone _ | .retryFlag _ | .pollFlag
  | .pollDone => true
  | _ => false

/-- **Waiting changes nothing**: a bad answer leaves `main` at the point that waits. -/
theorem Main.step_waits (s : Main) (v : BitVec 16) (hw : s.point.waits = true)
    (hv : ¬ s.point.good v = true) : (s.step v).1.point = s.point := by
  cases hp : s.point
  all_goals
    simp only [hp, Point.good, beq_iff_eq, bne_iff_ne, Bool.not_eq_true] at hv
    simp only [Main.step, hp]
  case initStatus =>
    rw [if_pos, Main.goto_point]
    rw [not_not.mp hv]
    decide
  case deviceWait => rw [hv, if_neg Bool.false_ne_true, Main.goto_point]
  case requestFlag r => rw [hv, Bool.not_false, if_pos rfl, Main.post_point]
  case retryFlag r | pollFlag => rw [hv, Bool.not_false, if_pos rfl, Main.goto_point]
  case requestDone r | pollDone => rw [if_pos hv, Main.goto_point]
  all_goals
    rw [hp] at hw
    exact Bool.noConfusion hw

/-- `main` after the first `n` of the values `reads`. -/
def mainAt (d : BitVec 8) (reads : Nat → BitVec 16) (n : Nat) : Main :=
  reached d ((List.range n).map reads)

theorem mainAt_succ (d : BitVec 8) (reads : Nat → BitVec 16) (n : Nat) :
    mainAt d reads (n + 1) = ((mainAt d reads n).step (reads n)).1 := by
  rw [mainAt, reached, List.range_succ, List.map_append, after_append]
  rfl

/-- An enumeration, then polls: the done flag of each is late by a read, and `A` is held down. -/
def typingReads (n : Nat) : BitVec 16 :=
  if n < 46 then enumReads.getD n 0
  else [0, 0x0010, husbTDListDone, 0x0004, 0x2000].getD ((n - 46) % 5) 0

/-- The points of one poll, the late flag counted. -/
def typingPoints : List Point := [.pollFlag, .pollFlag, .pollDone, .keycode, .pollDevice]

theorem typingReads_poll (k : Nat) : typingReads (46 + k) =
    [0, 0x0010, husbTDListDone, 0x0004, 0x2000].getD (k % 5) 0 := by
  rw [typingReads, if_neg (Nat.not_lt.mpr (Nat.le_add_right 46 k)), Nat.add_sub_cancel_left]

theorem typing_point (k : Nat) :
    (mainAt 0 typingReads (46 + k)).point = typingPoints.getD (k % 5) .pollFlag := by
  induction k with
  | zero => decide
  | succ k ih =>
    have hk : k % 5 = 0 ∨ k % 5 = 1 ∨ k % 5 = 2 ∨ k % 5 = 3 ∨ k % 5 = 4 := by omega
    rw [← Nat.add_assoc, mainAt_succ, typingReads_poll, Nat.add_mod]
    rcases hk with h | h | h | h | h
    all_goals
      rw [h] at ih ⊢
      simp only [Main.step, ih, typingPoints, List.getD_cons_zero, List.getD_cons_succ]
      rfl

/-- The one bad answer of a poll is the late flag. -/
theorem typing_good (k : Nat) : k % 5 = 0 ∨
    (mainAt 0 typingReads (46 + k)).point.good (typingReads (46 + k)) = true := by
  have hk : k % 5 = 0 ∨ k % 5 = 1 ∨ k % 5 = 2 ∨ k % 5 = 3 ∨ k % 5 = 4 := by omega
  rw [typing_point, typingReads_poll]
  rcases hk with h | h | h | h | h
  · exact .inl h
  all_goals
    right
    rw [h]
    decide

end Lab8
