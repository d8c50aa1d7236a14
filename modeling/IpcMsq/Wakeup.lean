import IpcMsq.CoreHandler
import IpcMsq.KeyMap

/-!
Receivers that sleep in `ipc_msg_rcv` and what wakes them. A sleeper looks at its
condition again only when it is woken: by the handler after a post, in the mode
that the last receiver of the queue left, and by nobody after a release. A
receiver, the handler and the calls on the table take turns at the points where
the code can be interrupted.
-/
namespace IpcMsq.Wakeup
open IpcMsq.Memory IpcMsq.Common IpcMsq.Table IpcMsq.Elements IpcMsq.Api IpcMsq.Communicator IpcMsq.CoreHandler
open IpcMsq.Runs IpcMsq.KeyMap

/-- Linux's `ERESTARTSYS`. -/
@[simp] abbrev ERESTARTSYS : INT32 := 512

/-- The locals of a receive. The queue was found, so its id is that of a slot. -/
structure Call where
  msqid : UINT32
  inside : msqid.toNat < 12
  timeout_ms : UINT32
  sharekey : UINT32
deriving DecidableEq

def Call.pmsgque (c : Call) : Option Nat := some (msgQueTbl c.msqid.toNat)

/-- The condition that both waits are given. -/
def waitCondition (tbl : Mem) (c : Call) : Bool :=
  !ipc_msgque_isempty tbl c.pmsgque || !ipc_msgque_isvalid tbl c.sharekey c.pmsgque

/-- Where a receiver is in `ipc_msg_rcv`; `ret` is what its wait returned. -/
inductive Phase
  | outside
  | found (c : Call)
  | atLoop (c : Call)
  | atWait (c : Call)
  | asleep (c : Call)
  | awake (c : Call) (ret : INT32)
  | atValid (c : Call) (ret : INT32)
  | atEmpty (c : Call)
  | atDequeue (c : Call)
deriving DecidableEq

/-- The steps of a receiver that change its place only. A wait evaluates its
    condition before it sleeps, whenever it is woken, and when a timeout or a
    signal ends it. -/
inductive Moves (info : IPC_MSQINFO) : Phase → Phase → Prop
  | call {c : Call} : ipc_msgque_getQuebyID (some info) c.msqid = c.pmsgque → Moves info .outside (.found c)
  | key {c : Call} : Moves info (.found c) (.atLoop { c with sharekey := sharekey info.tbl (msgQueTbl c.msqid.toNat) })
  | loop {c : Call} : Moves info (.atLoop c) (if ipc_msgque_isempty info.tbl c.pmsgque then .atWait c else .atDequeue c)
  | done {c : Call} {ret : INT32} : waitCondition info.tbl c = true → (ret = 0 ↔ c.timeout_ms = 0) →
      Moves info (.atWait c) (.awake c ret)
  | sleep {c : Call} : waitCondition info.tbl c = false → Moves info (.atWait c) (.asleep c)
  | timeout {c : Call} {p : Phase} : p = .atWait c ∨ p = .asleep c → c.timeout_ms ≠ 0 →
      Moves info p (.awake c (if waitCondition info.tbl c then 1 else 0))
  | signal {c : Call} {p : Phase} : p = .atWait c ∨ p = .asleep c → c.timeout_ms = 0 →
      Moves info p (.awake c (if waitCondition info.tbl c then 0 else -ERESTARTSYS))
  | valid {c : Call} {ret : INT32} : Moves info (.atValid c ret)
      (if !ipc_msgque_isvalid info.tbl c.sharekey c.pmsgque then .outside
       else if ret = 0 ∧ c.timeout_ms ≠ 0 then .outside else .atEmpty c)
  | empty {c : Call} : Moves info (.atEmpty c) (if ipc_msgque_isempty info.tbl c.pmsgque then .outside else .atLoop c)

/-- A wakeup of the receivers of a queue; without a timeout a wait is interruptible. -/
def wakeUp (w : Wake) (msqid : UINT32) : Phase → Phase
  | .asleep c => if c.msqid = msqid ∧ (w = .wake_up ∨ c.timeout_ms = 0) then .atWait c else .asleep c
  | p => p

/-- The driver with its receivers. -/
structure Waiting (Thread : Type) where
  info : IPC_MSQINFO
  m_ctrl : IPC_CTRL
  phase : Thread → Phase
  /-- The queue that the handler posted to and has not woken yet. -/
  posted : Option UINT32

inductive WaitEvent (Thread : Type)
  | receive (r : Thread)
  | post (cmd : IPC_CC_CMD_T) (posted : Option UINT32)
  | wake
  | table (e : TableEvent)

variable {sign : CharSign} {Thread : Type}

inductive WaitStep [DecidableEq Thread] (sign : CharSign) : Waiting Thread → WaitEvent Thread → Waiting Thread → Prop
  | move {s : Waiting Thread} {r : Thread} {p : Phase} : Moves s.info (s.phase r) p →
      WaitStep sign s (.receive r) { s with phase := Function.update s.phase r p }
  | flag {s : Waiting Thread} {r : Thread} {c : Call} {ret : INT32} : s.phase r = .awake c ret →
      WaitStep sign s (.receive r) { s with
        m_ctrl.readwait_interruptible :=
          Function.update s.m_ctrl.readwait_interruptible c.msqid.toNat (c.timeout_ms == 0),
        phase := Function.update s.phase r (.atValid c ret) }
  | dequeue {s : Waiting Thread} {r : Thread} {c : Call} {msg after : IPC_MSG} {ret : INT32} {tbl : Mem} :
      s.phase r = .atDequeue c → ipc_msgque_dequeue s.info.tbl c.pmsgque msg = (ret,after,tbl) →
      WaitStep sign s (.receive r) { s with info.tbl := tbl, phase := Function.update s.phase r .outside }
  | post {s : Waiting Thread} {info : IPC_MSQINFO} {posted : Option UINT32} {bases : SharedBases}
      {memory : UINT32 → Mem} {core_getfrom : IPC_CC_CORE_T}
      {get_cmd_func : IPC_CC_CORE_T → IPC_CC_CMD_T → INT32 × IPC_CC_CMD_T} {cmd : IPC_CC_CMD_T} {rcvmsg : IPC_MSG} :
      s.posted = none →
      postEvent (some s.info) bases memory core_getfrom get_cmd_func cmd rcvmsg = (some info,posted) →
      WaitStep sign s (.post (get_cmd_func core_getfrom cmd).2 posted) { s with info := info, posted := posted }
  | wake {s : Waiting Thread} {msqid : UINT32} : s.posted = some msqid →
      WaitStep sign s .wake { s with
        phase := fun r => wakeUp (wakeAfter s.m_ctrl msqid) msqid (s.phase r), posted := none }
  | table {s : Waiting Thread} {e : TableEvent} {info : IPC_MSQINFO} : TableStep sign (some s.info) e (some info) →
      WaitStep sign s (.table e) { s with info := info }

/-- No receiver sleeps while its condition is true, but where the handler is
    between its post and its wakeup. -/
def NoMissed (s : Waiting Thread) : Prop :=
  ∀ r c, s.phase r = .asleep c → waitCondition s.info.tbl c = true → s.posted = some c.msqid

/-- A message that is posted fits an element; a wakeup of all, or of a queue where nobody
    sleeps with a timeout; a release of a queue where nobody sleeps, or that no
    stored token lets go. -/
def InOrder (sign : CharSign) (s : Waiting Thread) : WaitEvent Thread → Prop
  | .receive _ => True
  | .post cmd posted => posted ≠ none → cmd.data_size.toNat ≤ 12
  | .wake => ∀ msqid, s.posted = some msqid → s.m_ctrl.readwait_interruptible msqid.toNat = false ∨
      ∀ r c, s.phase r = .asleep c → c.msqid = msqid → c.timeout_ms = 0
  | .table (.rel id _) => (∀ r c, s.phase r = .asleep c → c.msqid ≠ id) ∨
      ipc_msgque_getTokenByKey sign (some s.info) (sharekey s.info.tbl (msgQueTbl id.toNat)) = none
  | .table _ => True

/-! ### The condition of a sleeper -/

section
variable {tbl tbl' : Mem} {c : Call}

theorem waitCondition_same (same : SameQueue tbl tbl' c.msqid.toNat) : waitCondition tbl' c = waitCondition tbl c := by
  obtain ⟨init,share,_,indx,outdx,_⟩ := header_congr fun a (low : msgQueTbl c.msqid.toNat ≤ a) high =>
    same a low (by simp only [msgQueTbl_eq] at *; omega)
  simp only [waitCondition,Call.pmsgque,ipc_msgque_isempty,ipc_msgque_isvalid,init,share,indx,outdx]

/-- A condition is false on an empty queue with the receiver's key. -/
theorem waitCondition_false : waitCondition tbl c = false ↔
    indx tbl (msgQueTbl c.msqid.toNat) = outdx tbl (msgQueTbl c.msqid.toNat) ∧ HasKey tbl c.msqid.toNat c.sharekey := by
  simp only [waitCondition,Call.pmsgque,ipc_msgque_isempty,ipc_msgque_isvalid,Bool.or_eq_false_iff,Bool.not_eq_false',
    Bool.and_eq_true,beq_iff_eq,HasKey,Live,c.inside,true_and]
  exact and_congr_right fun _ => and_congr_right fun _ => eq_comm

theorem dead_waitCondition (dead : ¬ Live tbl (msgQueTbl c.msqid.toNat)) : waitCondition tbl c = true := by
  by_contra quiet
  exact dead (waitCondition_false.mp (Bool.eq_false_iff.mpr quiet)).2.2.1

/-- A dequeue makes no condition true: it leaves an empty queue and every other. -/
theorem waitCondition_dequeue {d : Call} {msg after : IPC_MSG} {ret : INT32}
    (called : ipc_msgque_dequeue tbl d.pmsgque msg = (ret,after,tbl')) (loud : waitCondition tbl' c = true) :
    waitCondition tbl c = true := by
  rcases dequeue_returned called with ⟨_,_,rfl,_⟩ | ⟨_,some,taken⟩
  · exact loud
  · obtain rfl : (takeElement tbl (msgQueTbl d.msqid.toNat) msg).2 = tbl' := congrArg Prod.snd taken
    by_cases own : c.msqid.toNat = d.msqid.toNat
    · by_contra quiet
      have empty := (waitCondition_false.mp (Bool.eq_false_iff.mpr quiet)).1
      rw [own] at empty
      exact some empty
    · rwa [waitCondition_same (takeElement_sameQueue msg own)] at loud

/-- A call on the table makes a condition true only by a release of the queue. -/
theorem waitCondition_table {info info' : IPC_MSQINFO} {e : TableEvent} (step : TableStep sign (some info) e (some info'))
    (loud : waitCondition info'.tbl c = true) : waitCondition info.tbl c = true ∨
      ∃ id ret, e = .rel id ret ∧ c.msqid = id ∧
        ipc_msgque_getTokenByKey sign (some info) (sharekey info.tbl (msgQueTbl id.toNat)) ≠ none := by
  by_cases live : Live info.tbl (msgQueTbl c.msqid.toNat)
  · rcases step_keeps step c.inside live with same | ⟨id,ret,released,own,stored⟩
    · exact .inl (waitCondition_same same ▸ loud)
    · exact .inr ⟨id,ret,released,UInt32.toNat_inj.mp own.symm,stored⟩
  · exact .inl (dead_waitCondition live)

end

/-! ### What misses a wakeup -/

section
variable {s : Waiting Thread}

/-- A receiver falls asleep only where its condition is false. -/
theorem moves_asleep {info : IPC_MSQINFO} {p p' : Phase} {c : Call} (moves : Moves info p p') (asleep : p' = .asleep c) :
    waitCondition info.tbl c = false := by
  cases moves with
  | sleep quiet => cases asleep; exact quiet
  | call | key | done | timeout | signal => cases asleep
  | loop | empty => split at asleep <;> cases asleep
  | valid =>
    split at asleep
    · cases asleep
    · split at asleep <;> cases asleep

/-- After a wakeup only those of other queues sleep, and those the mode leaves out. -/
theorem wakeUp_asleep {w : Wake} {msqid : UINT32} {p : Phase} {c : Call} (asleep : wakeUp w msqid p = .asleep c) :
    p = .asleep c ∧ (c.msqid = msqid → w = .wake_up_interruptible ∧ c.timeout_ms ≠ 0) := by
  cases p with
  | asleep d =>
    simp only [wakeUp] at asleep
    split at asleep
    · cases asleep
    · rename_i left
      cases asleep
      refine ⟨rfl,fun own => ?_⟩
      cases w with
      | wake_up => exact absurd ⟨own,.inl rfl⟩ left
      | wake_up_interruptible => exact ⟨rfl,fun zero => left ⟨own,.inr zero⟩⟩
  | outside | found | atLoop | atWait | awake | atValid | atEmpty | atDequeue => cases asleep

/-- A release misses every receiver that sleeps on the queue. -/
theorem release_missed {r : Thread} {c : Call} {info : IPC_MSQINFO} (asleep : s.phase r = .asleep c)
    (free : s.posted = none) (released : ipc_msgque_rel sign (some s.info) c.msqid = (0,some info)) :
    ¬ NoMissed { s with info := info } := by
  intro inv
  obtain ⟨_,⟨⟩,⟨refused,_⟩ | ⟨_,_,dead,_⟩⟩ := rel_effect released
  · exact refused rfl
  · cases free.symm.trans (inv r c asleep (dead_waitCondition dead))

/-- A wakeup of interruptible receivers misses one that sleeps with a timeout. -/
theorem wake_missed {r : Thread} {c : Call} (asleep : s.phase r = .asleep c) (timed : c.timeout_ms ≠ 0)
    (mode : s.m_ctrl.readwait_interruptible c.msqid.toNat = true) (loud : waitCondition s.info.tbl c = true) :
    wakeUp (wakeAfter s.m_ctrl c.msqid) c.msqid (s.phase r) = .asleep c ∧
      ¬ NoMissed { s with phase := fun r => wakeUp (wakeAfter s.m_ctrl c.msqid) c.msqid (s.phase r), posted := none } := by
  have left : wakeUp (wakeAfter s.m_ctrl c.msqid) c.msqid (s.phase r) = .asleep c := by
    simp [asleep,wakeUp,wakeAfter,mode,timed]
  refine ⟨left,fun inv => ?_⟩
  cases inv r c left loud

/-! ### Runs without a missed wakeup -/

variable [DecidableEq Thread]

/-- A receiver that leaves its sleep, or was awake, misses nothing. -/
theorem noMissed_receive (inv : NoMissed s) {m_ctrl : IPC_CTRL} {tbl : Mem} {r : Thread} {p : Phase}
    (own : ∀ c, p = .asleep c → waitCondition tbl c = false)
    (others : ∀ c, waitCondition tbl c = true → waitCondition s.info.tbl c = true) :
    NoMissed { s with info.tbl := tbl, m_ctrl := m_ctrl, phase := Function.update s.phase r p } := by
  intro r' c asleep loud
  by_cases same : r' = r
  · subst same
    simp only [Function.update_self] at asleep
    exact absurd loud (by rw [own c asleep]; simp)
  · simp only [Function.update_of_ne same] at asleep
    exact inv r' c asleep (others c loud)

theorem noMissed_step {s' : Waiting Thread} {e : WaitEvent Thread} (inv : NoMissed s)
    (step : Guarded (WaitStep sign) (InOrder sign) s e s') : NoMissed s' := by
  obtain ⟨step,order⟩ := step
  cases step with
  | move moves => exact noMissed_receive inv (fun c => moves_asleep moves) fun c loud => loud
  | flag _ => exact noMissed_receive inv (fun c asleep => by cases asleep) fun c loud => loud
  | dequeue _ called =>
    exact noMissed_receive inv (fun c asleep => by cases asleep) fun c => waitCondition_dequeue called
  | @post info posted bases memory core_getfrom get_cmd_func cmd rcvmsg free called =>
    intro r c asleep loud
    rcases postEvent_cases s.info bases memory core_getfrom get_cmd_func cmd rcvmsg with same | ⟨id,q,data,live,done⟩
    · cases called.symm.trans same
      exact free.symm.trans (inv r c asleep loud)
    · cases called.symm.trans done
      obtain ⟨_,_,rfl⟩ := getQuebyID_some.mp live
      by_cases own : c.msqid = id
      · rw [own]
      · have other : c.msqid.toNat ≠ id.toNat := fun same => own (UInt32.toNat_inj.mp same)
        have same : SameQueue s.info.tbl (putElement s.info.tbl (msgQueTbl id.toNat)
            ⟨(get_cmd_func core_getfrom cmd).2.data_size,data⟩) c.msqid.toNat := putElement_sameQueue (order nofun) other
        have before := inv r c asleep (waitCondition_same same ▸ loud)
        rw [free] at before
        cases before
  | @wake msqid pending =>
    intro r c asleep loud
    obtain ⟨before,left⟩ := wakeUp_asleep asleep
    obtain rfl : msqid = c.msqid := Option.some.inj (pending.symm.trans (inv r c before loud))
    obtain ⟨mode,timed⟩ := left rfl
    rcases order c.msqid pending with all | untimed
    · simp [wakeAfter,all] at mode
    · exact absurd (untimed r c before rfl) timed
  | @table e info called =>
    intro r c asleep loud
    rcases waitCondition_table called loud with before | ⟨id,ret,rfl,own,stored⟩
    · exact inv r c asleep before
    · exact absurd own (order.resolve_right stored r c asleep)

/-! ### Short runs -/

theorem receive_move {r : Thread} {p p' : Phase} (moves : Moves s.info p p') :
    Guarded (WaitStep sign) (InOrder sign) { s with phase := Function.update s.phase r p } (.receive r)
      { s with phase := Function.update s.phase r p' } := by
  refine ⟨?_,trivial⟩
  rw [← Function.update_idem p p' s.phase]
  refine .move ?_
  simpa only [Function.update_self] using moves

/-- A receiver that calls on a queue whose condition is false falls asleep. -/
theorem falls_asleep (sign : CharSign) {r : Thread} {c : Call} (outside : s.phase r = .outside) (quiet : waitCondition s.info.tbl c = false) :
    Run (Guarded (WaitStep sign) (InOrder sign)) s [.receive r,.receive r,.receive r,.receive r]
      { s with phase := Function.update s.phase r (.asleep c) } := by
  obtain ⟨empty,inside,live,share⟩ := waitCondition_false.mp quiet
  have call : Moves s.info .outside (.found c) := .call (getQuebyID_some.mpr ⟨inside,live,rfl⟩)
  have key : Moves s.info (.found c) (.atLoop c) := by
    have read : { c with sharekey := sharekey s.info.tbl (msgQueTbl c.msqid.toNat) } = c := by rw [share]
    have moves : Moves s.info (.found c) (.atLoop { c with sharekey := _ }) := .key
    rwa [read] at moves
  have loop : Moves s.info (.atLoop c) (.atWait c) := by
    have moves : Moves s.info (.atLoop c) _ := .loop
    have test : ipc_msgque_isempty s.info.tbl c.pmsgque = true := isempty_iff.mpr empty
    rwa [if_pos test] at moves
  have first : Run (Guarded (WaitStep sign) (InOrder sign)) s [.receive r]
      { s with phase := Function.update s.phase r (.found c) } := by
    refine .one ⟨.move ?_,trivial⟩
    rw [outside]
    exact call
  exact ((first.snoc (receive_move key)).snoc (receive_move loop)).snoc (receive_move (.sleep quiet))

/-- In every run whose releases, wakeups and messages are in order no receiver
    misses a wakeup. -/
theorem no_missed_wakeup {start : Waiting Thread} {es : List (WaitEvent Thread)} (outside : ∀ r, start.phase r = .outside)
    (run : Run (Guarded (WaitStep sign) (InOrder sign)) start es s) : NoMissed s := by
  refine run.preserves (I := NoMissed) ?_ fun _ _ _ => noMissed_step
  intro r c asleep
  cases (outside r).symm.trans asleep

/-- A signal to a receiver without a timeout: it leaves its mode behind. -/
theorem signal_ends (sign : CharSign) {r : Thread} {c : Call} (asleep : s.phase r = .asleep c) (untimed : c.timeout_ms = 0) :
    ∃ ret, Run (WaitStep sign) s [.receive r,.receive r] { s with
      m_ctrl.readwait_interruptible := Function.update s.m_ctrl.readwait_interruptible c.msqid.toNat true,
      phase := Function.update s.phase r (.atValid c ret) } := by
  have signal : Moves s.info (s.phase r) _ := asleep ▸ Moves.signal (.inr rfl) untimed
  generalize (if waitCondition s.info.tbl c then 0 else -ERESTARTSYS) = ret at signal
  have flag : WaitStep sign { s with phase := Function.update s.phase r (.awake c ret) } (.receive r) _ :=
    .flag (Function.update_self ..)
  have mode : (c.timeout_ms == 0) = true := by rw [untimed]; rfl
  simp only [Function.update_idem,mode] at flag
  exact ⟨ret,(Run.one (.move signal)).snoc flag⟩

/-- A receiver with a timeout may sleep in the mode that another left. -/
theorem sleeps_in_mode (sign : CharSign) {r r' : Thread} {c d : Call} (asleep : s.phase r = .asleep c) (untimed : c.timeout_ms = 0)
    (other : r' ≠ r) (outside : s.phase r' = .outside) (quiet : waitCondition s.info.tbl d = false) :
    ∃ es s', Run (WaitStep sign) s es s' ∧ s'.info = s.info ∧ s'.posted = s.posted ∧ s'.phase r' = .asleep d ∧
      s'.m_ctrl.readwait_interruptible c.msqid.toNat = true := by
  obtain ⟨ret,signalled⟩ := signal_ends sign asleep untimed
  have left : Function.update s.phase r (.atValid c ret) r' = .outside := by rw [Function.update_of_ne other,outside]
  have slept := (falls_asleep sign (s := { s with
    m_ctrl.readwait_interruptible := Function.update s.m_ctrl.readwait_interruptible c.msqid.toNat true,
    phase := Function.update s.phase r (.atValid c ret) }) left quiet).mono fun _ _ _ step => step.1
  exact ⟨_,_,signalled.append slept,rfl,rfl,Function.update_self ..,Function.update_self ..⟩

end

/-! ### A queue of one name -/

/-- The event of a message of four bytes for that queue. -/
def postMessage (info : IPC_MSQINFO) : Option IPC_MSQINFO × Option UINT32 :=
  postEvent (some info) ⟨0,0⟩ (fun _ _ => 1) .IPC_CC_CORE_CPU1 (fun _ _ => (0,⟨97,0x00100004,4⟩)) ⟨0,0,0⟩ ⟨0,fun _ => 0⟩

/-- The queue after one message; by its indices it is empty. -/
def oneMessage : IPC_MSQINFO := (postMessage namedQueue).1.get (by decide +kernel)

def twoMessages : IPC_MSQINFO := (postMessage oneMessage).1.get (by decide +kernel)

/-- The driver with nobody in a receive. -/
def undisturbed (info : IPC_MSQINFO) : Waiting Bool where
  info := info
  m_ctrl := ⟨fun _ => false⟩
  phase _ := .outside
  posted := none

theorem postMessage_named : postMessage namedQueue = (some oneMessage,some 0) :=
  Prod.ext (Option.some_get _).symm (by decide +kernel)

theorem postMessage_one : postMessage oneMessage = (some twoMessages,some 0) :=
  Prod.ext (Option.some_get _).symm (by decide +kernel)

/-- A receive from that queue. -/
def callOf (timeout_ms : UINT32) : Call := ⟨0,by decide,timeout_ms,97⟩

theorem callOf_quiet (timeout_ms : UINT32) : waitCondition oneMessage.tbl (callOf timeout_ms) = false := by
  have quiet : waitCondition oneMessage.tbl (callOf 0) = false := by decide +kernel
  exact quiet

theorem callOf_loud (timeout_ms : UINT32) : waitCondition twoMessages.tbl (callOf timeout_ms) = true := by
  have loud : waitCondition twoMessages.tbl (callOf 0) = true := by decide +kernel
  exact loud

theorem post_step {s : Waiting Bool} {info : IPC_MSQINFO} {msqid : UINT32} (free : s.posted = none)
    (posted : postMessage s.info = (some info,some msqid)) :
    Guarded (WaitStep .signed) (InOrder .signed) s (.post ⟨97,0x00100004,4⟩ (some msqid)) { s with info := info, posted := some msqid } :=
  ⟨.post free posted,fun _ => show (4 : UINT32).toNat ≤ 12 by decide⟩

/-- A message while all receivers slept with a timeout at last wakes all. -/
theorem post_wake {s : Waiting Bool} {info : IPC_MSQINFO} {msqid : UINT32} (free : s.posted = none)
    (posted : postMessage s.info = (some info,some msqid)) (mode : s.m_ctrl.readwait_interruptible = fun _ => false) :
    Run (Guarded (WaitStep .signed) (InOrder .signed)) s [.post ⟨97,0x00100004,4⟩ (some msqid),.wake]
      { s with info := info, phase := fun r => wakeUp .wake_up msqid (s.phase r), posted := none } := by
  have all : wakeAfter s.m_ctrl msqid = .wake_up := by simp [wakeAfter,mode]
  rw [← all]
  refine (Run.one (post_step free posted)).snoc ⟨.wake rfl,fun id _ => .inl ?_⟩
  simp only [mode]

/-- After the first message one receiver sleeps without a timeout. -/
def sleeping : Waiting Bool where
  info := oneMessage
  m_ctrl := ⟨fun _ => false⟩
  phase := Function.update (fun _ => .outside) true (.asleep (callOf 0))
  posted := none

theorem sleeping_reached : ∃ es, Run (Guarded (WaitStep .signed) (InOrder .signed)) (undisturbed namedQueue) es sleeping := by
  have posted := post_wake (s := undisturbed namedQueue) rfl postMessage_named rfl
  exact ⟨_,posted.append (falls_asleep .signed (r := true) rfl (callOf_quiet 0))⟩

/-- A receiver without a timeout is woken for the second message. -/
theorem no_missed_wakeup_second_message : ∃ es s, Run (WaitStep .signed) (undisturbed namedQueue) es s ∧
    s.phase true = .atWait (callOf 0) ∧ waitCondition s.info.tbl (callOf 0) = true ∧ NoMissed s := by
  obtain ⟨es,reached⟩ := sleeping_reached
  have run := reached.append (post_wake (s := sleeping) rfl postMessage_one rfl)
  exact ⟨_,_,run.mono fun _ _ _ step => step.1,rfl,callOf_loud 0,no_missed_wakeup (fun _ => rfl) run⟩

/-- A release under a sleeper, and a message for a sleeper with a timeout after a
    receive without one, are missed. -/
theorem wakeups_missed : Reachable .signed (some namedQueue) ∧
    (∃ es s, Run (WaitStep .signed) (undisturbed namedQueue) es s ∧ s.phase true = .asleep (callOf 0) ∧ ¬ NoMissed s) ∧
    ∃ es s, Run (WaitStep .signed) (undisturbed namedQueue) es s ∧ s.phase false = .asleep (callOf 1000) ∧ ¬ NoMissed s := by
  obtain ⟨es,reached⟩ := sleeping_reached
  have run := reached.mono fun _ _ _ step => step.1
  refine ⟨namedQueue_reachable,?_,?_⟩
  · obtain ⟨info,released⟩ : ∃ info, ipc_msgque_rel .signed (some oneMessage) 0 = (0,some info) := by
      have returns : (ipc_msgque_rel .signed (some oneMessage) 0).1 = 0 := by decide +kernel
      have table : (ipc_msgque_rel .signed (some oneMessage) 0).2.isSome := by decide +kernel
      exact ⟨_,Prod.ext returns (Option.some_get table).symm⟩
    have missed : ¬ NoMissed { sleeping with info := info } :=
      release_missed (r := true) (c := callOf 0) rfl rfl released
    exact ⟨_,_,run.snoc (.table (.rel released)),rfl,missed⟩
  · obtain ⟨_,s,slept,table,free,asleep,mode⟩ := sleeps_in_mode .signed (s := sleeping) (c := callOf 0)
      (d := callOf 1000) rfl rfl (show false ≠ true by decide) rfl (callOf_quiet 1000)
    have posted : postMessage s.info = (some twoMessages,some 0) := by
      rw [table]
      exact postMessage_one
    have woken := ((run.append slept).snoc (post_step free posted).1).snoc (.wake rfl)
    exact ⟨_,_,woken,wake_missed (s := { s with info := twoMessages, posted := some 0 }) asleep (by decide) mode
      (callOf_loud 1000)⟩

end IpcMsq.Wakeup
