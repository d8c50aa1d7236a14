import IpcMsq.CoreHandler
import IpcMsq.Files
import IpcMsq.Overflow
import IpcMsq.Wakeup

/-!
The driver as a whole: the opens and ioctls of any number of files and threads, the
closes slot by slot, sends taken apart into their uses of the send buffers, receives
taken apart into their tests, waits, dequeue and return, the events of the other cores,
and kernel code that obtains queues. Its entries use the table through the calls of
`drv_ipc_msgque.c` only (`entries_calls`), so a run of the driver is a run of these, and
what holds of every run of the module holds of the driver (`driver_is_mailboxes`,
`answers_in_order`).
-/
namespace IpcMsq.Entries
open IpcMsq.Memory IpcMsq.Common IpcMsq.Table IpcMsq.Elements IpcMsq.SendBuff IpcMsq.Communicator IpcMsq.Runs IpcMsq.KeyMap
open IpcMsq.Api IpcMsq.Device IpcMsq.CoreHandler IpcMsq.Mailboxes IpcMsq.Service IpcMsq.Overflow
open IpcMsq.Files (Driver FileEvent FileStep SecondCall)
open IpcMsq.Wakeup (Call Phase Moves wakeUp)

variable {sign : CharSign} {second : SecondCall} {overshift : UINT32 → UINT32}
variable {File Thread : Type}

/-- Where a thread is in a receive: in front of its dequeue or in none, or behind it with
    what the dequeue gave. -/
inductive Receiving
  | before (p : Phase)
  | behind (c : Call) (ret : INT32) (msg_drv : IPC_MSG)

/-- A wakeup of the receivers of a queue. -/
def Receiving.woken (wake : Option (UINT32 × Wake)) : Receiving → Receiving
  | .before p => .before (wake.elim p fun w => wakeUp w.2 w.1 p)
  | .behind c ret msg_drv => .behind c ret msg_drv

/-- What a receive of up to `msg_size` bytes returns behind its dequeue: an error if that
    failed or gave more, and else how much it gave. -/
def rcvReturn (ret : INT32) (msg_size size : UINT32) : INT32 :=
  if ret ≠ 0 then -4 else if msg_size < size then -5 else size.toInt32

structure DriverState (File Thread : Type) extends Driver File Thread where
  m_ctrl : IPC_CTRL
  receiving : Thread → Receiving

/-- An entry of the driver: an event of another core with the queue and the message that
    it acknowledged, a receive in front of its dequeue, that, and the return behind it with
    the size that the user has room for. -/
inductive DriverEvent (File Thread : Type)
  | file (e : FileEvent File Thread)
  | ftok (path : List UInt8) (key : UINT16)
  | get (key ret : INT32)
  | buffers (sendTo : UINT32)
  | receive (t : Thread)
  | dequeue (t : Thread) (msqid : UINT32) (ret : INT32) (msg : Content)
  | rcv (t : Thread) (msqid msg_size : UINT32) (ret : INT32)
  | core (acked : Option (UINT32 × Content))

/-- The command that the handler of an event reads. -/
def command (evt_comefrom : IPC_CC_EVENT_T) (ipc_cc_get_cmd : IPC_CC_CORE_T → IPC_CC_CMD_T → INT32 × IPC_CC_CMD_T)
    (cmd : IPC_CC_CMD_T) : IPC_CC_CMD_T :=
  if evt_comefrom = .IPC_CC_EVT_FROM_CPU1 then (ipc_cc_get_cmd .IPC_CC_CORE_CPU1 cmd).2
  else (ipc_cc_get_cmd .IPC_CC_CORE_DSP cmd).2

/-- The message that a command leads to. -/
def commanded (bases : SharedBases) (memory : UINT32 → Mem) (cmd : IPC_CC_CMD_T) : Content :=
  (cmd.data_size,bytes (memory (ipc_get_noncache_addr bases cmd.data_addr)) 0 cmd.data_size.toNat)

/-- The copies of an ioctl's struct from and to the user change nothing here, and a receive
    that fails in front of its dequeue is just over. A send happens at once, or its uses of
    the send buffers happen one by one. -/
inductive DriverStep [DecidableEq File] [DecidableEq Thread] (sign : CharSign) (second : SecondCall) (overshift : UINT32 → UINT32) :
    DriverState File Thread → DriverEvent File Thread → DriverState File Thread → Prop
  | file {s : DriverState File Thread} {d : Driver File Thread} {e : FileEvent File Thread} :
      FileStep sign second overshift s.toDriver e d → DriverStep sign second overshift s (.file e) { s with toDriver := d }
  | ftok {s : DriverState File Thread} {info : IPC_MSQINFO} {path : List UInt8} {key : UINT16} :
      ipc_msgque_ftok sign (some s.info) path = (key,some info) →
      DriverStep sign second overshift s (.ftok path key) { s with info := info }
  | get {s : DriverState File Thread} {info : IPC_MSQINFO} {key ret : INT32} :
      ipc_msgque_get (some s.info) key = (ret,some info) → DriverStep sign second overshift s (.get key ret) { s with info := info }
  | snd {s : DriverState File Thread} {info : IPC_MSQINFO} {msqid sendTo msg_size : UINT32} {msg_data : Option Mem}
      {signal : Bool} {noReturn : INT32} {sent : Sent} :
      Api.ipc_msg_snd (some s.info) msqid sendTo msg_data msg_size signal noReturn = .returned sent → sent.g = some info →
      DriverStep sign second overshift s (.buffers sendTo) { s with info := info }
  | lock {s : DriverState File Thread} {info : IPC_MSQINFO} {sendTo : UINT32} {signal : Bool} {p : Option UINT32} :
      ipc_msgque_lockSndMsgBuff (some s.info) sendTo signal = .returned (p,some info) →
      DriverStep sign second overshift s (.buffers sendTo) { s with info := info }
  | fill {s : DriverState File Thread} {p sendTo msg_size : UINT32} {msg_data : Mem} :
      DriverStep sign second overshift s (.buffers sendTo) { s with info := fillSndMsg s.info p sendTo msg_data msg_size }
  | unlock {s : DriverState File Thread} {info : IPC_MSQINFO} {sendTo : UINT32} :
      ipc_msgque_unlockSndMsgBuff (some s.info) sendTo = .returned (some info) →
      DriverStep sign second overshift s (.buffers sendTo) { s with info := info }
  | receive {s : DriverState File Thread} {t : Thread} {p p' : Phase} : s.receiving t = .before p → Moves s.info p p' →
      DriverStep sign second overshift s (.receive t) { s with receiving := Function.update s.receiving t (.before p') }
  | flag {s : DriverState File Thread} {t : Thread} {c : Call} {ret : INT32} : s.receiving t = .before (.awake c ret) →
      DriverStep sign second overshift s (.receive t) { s with
        m_ctrl.readwait_interruptible :=
          Function.update s.m_ctrl.readwait_interruptible c.msqid.toNat (c.timeout_ms == 0),
        receiving := Function.update s.receiving t (.before (.atValid c ret)) }
  | dequeue {s : DriverState File Thread} {t : Thread} {c : Call} {msg_drv after : IPC_MSG} {ret : INT32} {tbl : Mem} :
      s.receiving t = .before (.atDequeue c) → ipc_msgque_dequeue s.info.tbl c.pmsgque msg_drv = (ret,after,tbl) →
      DriverStep sign second overshift s (.dequeue t c.msqid ret after.content) { s with
        info.tbl := tbl, receiving := Function.update s.receiving t (.behind c ret after) }
  | rcv {s : DriverState File Thread} {t : Thread} {c : Call} {msg_drv : IPC_MSG} {msg_size : UINT32} {ret : INT32} :
      s.receiving t = .behind c ret msg_drv →
      DriverStep sign second overshift s (.rcv t c.msqid msg_size (rcvReturn ret msg_size msg_drv.size)) { s with
        receiving := Function.update s.receiving t (.before .outside) }
  | core {s : DriverState File Thread} {info : IPC_MSQINFO} {bases : SharedBases} {memory : UINT32 → Mem}
      {evt_comefrom : IPC_CC_EVENT_T} {ipc_cc_get_cmd : IPC_CC_CORE_T → IPC_CC_CMD_T → INT32 × IPC_CC_CMD_T}
      {cmd : IPC_CC_CMD_T} {rcvmsg : IPC_MSG} {h : Handled} :
      ipc_core_handler (some s.info) s.m_ctrl bases memory evt_comefrom ipc_cc_get_cmd cmd rcvmsg = h → h.g = some info →
      DriverStep sign second overshift s
        (.core (h.wake.map fun w => (w.1,commanded bases memory (command evt_comefrom ipc_cc_get_cmd cmd))))
        { s with info := info, receiving := fun t => (s.receiving t).woken h.wake }

/-! ### What an entry calls -/

section
variable {info : IPC_MSQINFO}

/-- A send uses the send buffers, or is refused before. -/
theorem snd_calls {msqid sendTo msg_size : UINT32} {msg_data : Option Mem} {signal : Bool} {noReturn : INT32} {sent : Sent}
    {info' : IPC_MSQINFO} (called : Api.ipc_msg_snd (some info) msqid sendTo msg_data msg_size signal noReturn = .returned sent)
    (after : sent.g = some info') : ∃ fs, Run (ServiceStep sign) info fs info' ∧
      ∀ f ∈ fs, f = .lock sendTo ∨ f = .fill sendTo ∨ f = .unlock sendTo := by
  rcases snd_returned called with ⟨_,same,_⟩ | ⟨q,payload,c,p,locked,_,_,_,_,dest,lock,⟨_,_,_,kept⟩ | ⟨_,⟨_,_,_,given⟩ | ⟨_,_,kept⟩⟩⟩
  · cases after.symm.trans same
    exact ⟨[],.nil,by simp⟩
  · cases after.symm.trans kept
    exact ⟨_,.one (.lock lock),by simp⟩
  · cases after.symm.trans given
    exact ⟨_,((Run.one (.lock lock)).snoc .fill).snoc (.unlock (unlock_some dest)),by simp⟩
  · cases after.symm.trans kept
    exact ⟨_,(Run.one (.lock lock)).snoc .fill,by simp⟩

/-- An event leaves the table, or posts the message of its command. -/
theorem postEvent_calls (bases : SharedBases) (memory : UINT32 → Mem) (core_getfrom : IPC_CC_CORE_T)
    (get_cmd_func : IPC_CC_CORE_T → IPC_CC_CMD_T → INT32 × IPC_CC_CMD_T) (cmd : IPC_CC_CMD_T) (rcvmsg : IPC_MSG) :
    postEvent (some info) bases memory core_getfrom get_cmd_func cmd rcvmsg = (some info,none) ∨
    ∃ info' id, postEvent (some info) bases memory core_getfrom get_cmd_func cmd rcvmsg = (some info',some id) ∧
      ServiceStep sign info (.post id (some (commanded bases memory (get_cmd_func core_getfrom cmd).2)) 0) info' := by
  simp only [postEvent]
  generalize (get_cmd_func core_getfrom cmd).2 = cmd
  by_cases absent : ipc_msgque_getIDbyKey (some info) cmd.opcode.toInt32 < 0
  · exact .inl (if_pos absent)
  rw [if_neg absent]
  generalize (ipc_msgque_getIDbyKey (some info) cmd.opcode.toInt32).toUInt32 = id
  cases place : pointer memory (ipc_get_noncache_addr bases cmd.data_addr) with
  | none => exact .inl rfl
  | some payload =>
    have there : payload = memory (ipc_get_noncache_addr bases cmd.data_addr) := by
      rw [pointer] at place
      split at place <;> cases place
      rfl
    by_cases large : 24 < cmd.data_size.toNat
    · have big : cmd.data_size > IPC_MSG_ELEMENT_SIZE := size_refused.mpr large
      simp [ipc_msgque_msgpost,big]
    · rcases msgpost_cases info id payload (show cmd.data_size.toNat ≤ 24 by omega) rcvmsg with
        ⟨_,refused⟩ | ⟨_,_,_,refused⟩ | ⟨q,_,_,done⟩
      · simp [refused]
      · simp [refused]
      · refine .inr ⟨_,id,by simp only [done]; rfl,?_⟩
        rw [commanded,← there]
        exact @ServiceStep.post sign _ _ id cmd.data_size (some payload) rcvmsg 0 done

/-- An event posts the message of its command and wakes the receivers, or changes nothing. -/
theorem core_calls {m_ctrl : IPC_CTRL} {bases : SharedBases} {memory : UINT32 → Mem} {evt_comefrom : IPC_CC_EVENT_T}
    {ipc_cc_get_cmd : IPC_CC_CORE_T → IPC_CC_CMD_T → INT32 × IPC_CC_CMD_T} {cmd : IPC_CC_CMD_T} {rcvmsg : IPC_MSG} {h : Handled}
    (handled : ipc_core_handler (some info) m_ctrl bases memory evt_comefrom ipc_cc_get_cmd cmd rcvmsg = h) :
    h.g = some info ∧ h.wake = none ∨ ∃ info' id wake, h.g = some info' ∧ h.wake = some (id,wake) ∧
      ServiceStep sign info (.post id (some (commanded bases memory (command evt_comefrom ipc_cc_get_cmd cmd))) 0) info' := by
  have one (core : IPC_CC_CORE_T) : (ipc_core_handle_func (some info) m_ctrl bases memory core ipc_cc_get_cmd cmd rcvmsg).g =
        some info ∧ (ipc_core_handle_func (some info) m_ctrl bases memory core ipc_cc_get_cmd cmd rcvmsg).wake = none ∨
      ∃ info' id wake, (ipc_core_handle_func (some info) m_ctrl bases memory core ipc_cc_get_cmd cmd rcvmsg).g = some info' ∧
        (ipc_core_handle_func (some info) m_ctrl bases memory core ipc_cc_get_cmd cmd rcvmsg).wake = some (id,wake) ∧
        ServiceStep sign info (.post id (some (commanded bases memory (ipc_cc_get_cmd core cmd).2)) 0) info' := by
    rcases postEvent_calls bases memory core ipc_cc_get_cmd cmd rcvmsg with same | ⟨info',id,done,posts⟩
    · rw [ipc_core_handle_func,same]
      exact .inl ⟨rfl,rfl⟩
    · rw [ipc_core_handle_func,done]
      exact .inr ⟨info',id,_,rfl,rfl,posts⟩
  subst handled
  rw [ipc_core_handler,command]
  split_ifs
  · exact one .IPC_CC_CORE_CPU1
  · exact one .IPC_CC_CORE_DSP
  · exact .inl ⟨rfl,rfl⟩

end

/-! ### What a run accounts for -/

/-- The message that a call put into a queue, with the queue's id. -/
def accepted : ServiceEvent → Option (UINT32 × Content)
  | .post msqid (some msg) ret => if ret = 0 then some (msqid,msg) else none
  | .post _ none _ | .table _ | .lookup _ _ | .dequeue _ _ _ | .stale _ _ _ | .lock _ | .fill _ | .unlock _ => none

/-- The message that a call took from a queue. -/
def handed : ServiceEvent → Option (UINT32 × Content)
  | .dequeue msqid ret msg | .stale msqid ret msg => if ret = 0 then some (msqid,msg) else none
  | .post _ _ _ | .table _ | .lookup _ _ | .lock _ | .fill _ | .unlock _ => none

def DriverEvent.acked : DriverEvent File Thread → Option (UINT32 × Content)
  | .core acked => acked
  | .file _ | .ftok _ _ | .get _ _ | .buffers _ | .receive _ | .dequeue _ _ _ _ | .rcv _ _ _ _ => none

/-- The message that a receive took. -/
def DriverEvent.taken : DriverEvent File Thread → Option (UINT32 × Content)
  | .dequeue _ msqid ret msg => if ret = 0 then some (msqid,msg) else none
  | .file _ | .ftok _ _ | .get _ _ | .buffers _ | .receive _ | .rcv _ _ _ _ | .core _ => none

/-- A REL or a turn of a close for the id. -/
def DriverEvent.Releases (id : UINT32) : DriverEvent File Thread → Prop
  | .file (.rel _ _ msqid _) => msqid = id
  | .file (.turn _ i) => UInt32.ofNat i = id
  | _ => False

/-- The calls `fs` are those of the entries `es`: what was put is what was acknowledged,
    what was taken was taken by receives, and nothing was released otherwise. -/
structure Accounts (es : List (DriverEvent File Thread)) (fs : List ServiceEvent) : Prop where
  acked : fs.filterMap accepted = es.filterMap DriverEvent.acked
  taken : fs.filterMap handed = es.filterMap DriverEvent.taken
  released : ∀ id, .table (.rel id 0) ∈ fs → ∃ e ∈ es, e.Releases id

section
variable {es es' : List (DriverEvent File Thread)} {fs fs' : List ServiceEvent} {e : DriverEvent File Thread}

theorem accounts_append (first : Accounts es fs) (more : Accounts es' fs') : Accounts (es ++ es') (fs ++ fs') where
  acked := by rw [List.filterMap_append,List.filterMap_append,first.acked,more.acked]
  taken := by rw [List.filterMap_append,List.filterMap_append,first.taken,more.taken]
  released id listed := by
    rcases List.mem_append.mp listed with before | after
    · obtain ⟨e,member,releases⟩ := first.released id before
      exact ⟨e,List.mem_append_left _ member,releases⟩
    · obtain ⟨e,member,releases⟩ := more.released id after
      exact ⟨e,List.mem_append_right _ member,releases⟩

/-- Calls that move no message are of any entry that may make them. -/
theorem accounts_calls (quiet : e.acked = none) (silent : e.taken = none)
    (still : ∀ f ∈ fs, accepted f = none ∧ handed f = none ∧ ∀ id, f = .table (.rel id 0) → e.Releases id) : Accounts [e] fs where
  acked := by
    rw [List.filterMap_eq_nil_iff.mpr fun f listed => (still f listed).1]
    simp [quiet]
  taken := by
    rw [List.filterMap_eq_nil_iff.mpr fun f listed => (still f listed).2.1]
    simp [silent]
  released id listed := ⟨e,by simp,(still _ listed).2.2 id rfl⟩

theorem accounts_nil (quiet : e.acked = none) (silent : e.taken = none) : Accounts [e] [] := accounts_calls quiet silent (by simp)

theorem accounts_one {f : ServiceEvent} (quiet : e.acked = none) (silent : e.taken = none) (puts : accepted f = none)
    (takes : handed f = none) (releases : ∀ id, f = .table (.rel id 0) → e.Releases id) : Accounts [e] [f] := by
  refine accounts_calls quiet silent fun f' listed => ?_
  rw [List.mem_singleton.mp listed]
  exact ⟨puts,takes,releases⟩

end

/-! ### Runs -/

section
variable [DecidableEq File] [DecidableEq Thread] {s s' start : DriverState File Thread} {e : DriverEvent File Thread}
variable {es : List (DriverEvent File Thread)}

/-- Every entry makes calls of the module, and those that its event tells. -/
theorem entry_calls (step : DriverStep sign second overshift s e s') :
    ∃ fs, Run (ServiceStep sign) s.info fs s'.info ∧ Accounts [e] fs := by
  cases step with
  | file step =>
    cases step with
    | ipc_open | lookup | got | cleared | close | closed => exact ⟨[],.nil,accounts_nil rfl rfl⟩
    | rel _ _ called =>
      exact ⟨_,.one (.table (.rel called)),accounts_one rfl rfl rfl rfl (by rintro id ⟨⟩; rfl)⟩
    | turn _ _ called =>
      split at called
      · obtain ⟨ret,called⟩ := called
        exact ⟨_,.one (.table (.rel called)),accounts_one rfl rfl rfl rfl (by rintro id ⟨⟩; rfl)⟩
      · rw [called]
        exact ⟨[],.nil,accounts_nil rfl rfl⟩
  | ftok called => exact ⟨_,.one (.table (.ftok called)),accounts_one rfl rfl rfl rfl (by simp)⟩
  | get called => exact ⟨_,.one (.table (.get called)),accounts_one rfl rfl rfl rfl (by simp)⟩
  | snd called table =>
    obtain ⟨fs,uses,only⟩ := snd_calls called table
    refine ⟨fs,uses,accounts_calls rfl rfl fun f listed => ?_⟩
    rcases only f listed with rfl | rfl | rfl <;> simp [accepted,handed]
  | lock called => exact ⟨_,.one (.lock called),accounts_one rfl rfl rfl rfl (by simp)⟩
  | @fill _ sendTo _ _ => exact ⟨[.fill sendTo],.one .fill,accounts_one rfl rfl rfl rfl (by simp)⟩
  | unlock called => exact ⟨_,.one (.unlock called),accounts_one rfl rfl rfl rfl (by simp)⟩
  | receive | flag | rcv => exact ⟨[],.nil,accounts_nil rfl rfl⟩
  | @dequeue _ c _ _ _ _ _ called =>
    by_cases live : Live s.info.tbl (msgQueTbl c.msqid.toNat)
    · exact ⟨_,.one (.dequeue (getQuebyID_some.mpr ⟨c.inside,live,rfl⟩) called),⟨rfl,rfl,by simp⟩⟩
    · exact ⟨_,.one (.stale c.inside live called),⟨rfl,rfl,by simp⟩⟩
  | core handled table =>
    rcases core_calls handled with ⟨same,none⟩ | ⟨_,id,wake,after,woken,posts⟩
    · cases table.symm.trans same
      rw [none]
      exact ⟨[],.nil,accounts_nil rfl rfl⟩
    · cases table.symm.trans after
      rw [woken]
      exact ⟨_,.one posts,⟨by simp [accepted,DriverEvent.acked],rfl,by simp⟩⟩

end

/-! ### The messages of one queue -/

/-- What is paired with the id `i`. -/
def onId {α : Type} (i : Nat) (a : UINT32 × α) : Option α := if a.1.toNat = i then some a.2 else none

/-- The messages to queue `i` that were acknowledged. -/
def acks (i : Nat) (es : List (DriverEvent File Thread)) : List Content := (es.filterMap DriverEvent.acked).filterMap (onId i)

/-- The messages that receives took from queue `i`. -/
def takes (i : Nat) (es : List (DriverEvent File Thread)) : List Content := (es.filterMap DriverEvent.taken).filterMap (onId i)

/-- No receive takes a message from queue `i` before the first message to it was acknowledged. -/
def Begun (i : Nat) (es : List (DriverEvent File Thread)) : Prop :=
  ∀ before t msqid msg, before ++ [.dequeue t msqid 0 msg] <+: es → msqid.toNat = i → acks i before ≠ []

theorem posted_calls (i : Nat) (fs : List ServiceEvent) : posted (calls i fs) = (fs.filterMap accepted).filterMap (onId i) := by
  rw [posted,calls,List.filterMap_filterMap,List.filterMap_filterMap]
  refine congrArg (List.filterMap · fs) (funext fun e => ?_)
  cases e with
  | table | lookup | lock | fill | unlock => rfl
  | dequeue | stale =>
    simp only [ServiceEvent.onQueue,accepted]
    split_ifs <;> rfl
  | post msqid msg ret =>
    cases msg with
    | none => rfl
    | some msg =>
      simp only [ServiceEvent.onQueue,accepted]
      split_ifs <;> simp_all [LineEvent.posted,onId]

theorem received_calls (i : Nat) (fs : List ServiceEvent) : received (calls i fs) = (fs.filterMap handed).filterMap (onId i) := by
  rw [received,calls,List.filterMap_filterMap,List.filterMap_filterMap]
  refine congrArg (List.filterMap · fs) (funext fun e => ?_)
  cases e with
  | table | lookup | lock | fill | unlock => rfl
  | dequeue | stale =>
    simp only [ServiceEvent.onQueue,handed]
    split_ifs <;> simp_all [LineEvent.received,onId]
  | post msqid msg ret =>
    cases msg with
    | none => rfl
    | some msg =>
      simp only [ServiceEvent.onQueue,handed]
      split_ifs <;> rfl

section
variable {es : List (DriverEvent File Thread)} {fs gs : List ServiceEvent} {e : DriverEvent File Thread} {i : Nat}

theorem accounts_acks (accounts : Accounts es fs) (i : Nat) : posted (calls i fs) = acks i es := by
  rw [posted_calls,accounts.acked,acks]

theorem accounts_takes (accounts : Accounts es fs) (i : Nat) : received (calls i fs) = takes i es := by
  rw [received_calls,accounts.taken,takes]

theorem begun_init {es' : List (DriverEvent File Thread)} (begun : Begun i (es ++ es')) : Begun i es :=
  fun before t msqid msg first => begun before t msqid msg (first.trans (List.prefix_append _ _))

/-- A message that is taken from a queue no message was put into is of an early receive. -/
theorem noStray_append (accounts : Accounts es fs) (more : Accounts [e] gs) (begun : Begun i (es ++ [e]))
    (first : NoStray (calls i fs)) : NoStray (calls i (fs ++ gs)) := by
  have split : calls i (fs ++ gs) = calls i fs ++ calls i gs := List.filterMap_append
  intro m head
  rw [split] at head
  cases old : calls i fs with
  | cons f rest =>
    rw [old] at first head
    exact first m head
  | nil =>
    rw [old,List.nil_append] at head
    have member : .receive m ∈ calls i gs := List.mem_of_mem_head? head
    have taken : m ∈ takes i [e] := by
      rw [← accounts_takes more]
      exact List.mem_filterMap.mpr ⟨_,member,rfl⟩
    have none : acks i es = [] := by
      rw [← accounts_acks accounts,old]
      rfl
    cases e with
    | dequeue t msqid ret msg =>
      simp only [takes,List.filterMap_cons,List.filterMap_nil,DriverEvent.taken] at taken
      split_ifs at taken with ok
      · subst ok
        simp only [List.filterMap_cons,List.filterMap_nil,onId] at taken
        split_ifs at taken with own
        · exact begun es t msqid msg List.prefix_rfl own none
        · cases taken
      · cases taken
    | file | ftok | get | buffers | receive | rcv | core => cases taken

end

section
variable [DecidableEq File] [DecidableEq Thread] {s start : DriverState File Thread} {es : List (DriverEvent File Thread)}

/-- A run of the driver is a run of calls that it accounts for. -/
theorem entries_calls (run : Run (DriverStep sign second overshift) start es s) :
    ∃ fs, Run (ServiceStep sign) start.info fs s.info ∧ Accounts es fs ∧ ∀ i, Begun i es → NoStray (calls i fs) := by
  refine run.invariant (I := fun es s =>
    ∃ fs, Run (ServiceStep sign) start.info fs s.info ∧ Accounts es fs ∧ ∀ i, Begun i es → NoStray (calls i fs)) ?_ ?_
  · refine ⟨[],.nil,⟨rfl,rfl,fun _ listed => by cases listed⟩,fun _ _ m head => ?_⟩
    cases head
  · intro es t e u _ inv step
    obtain ⟨fs,before,accounts,noStray⟩ := inv
    obtain ⟨gs,last,more⟩ := entry_calls step
    exact ⟨fs ++ gs,before.append last,accounts_append accounts more,
      fun i begun => noStray_append accounts more begun (noStray i (begun_init begun))⟩

end

/-! ### Answers -/

section
variable [DecidableEq Thread] {s : DriverState File Thread} {es : List (DriverEvent File Thread)}

/-- The dequeues and the returns of one thread. -/
def DriverEvent.ofReceiver (t : Thread) : DriverEvent File Thread → Bool
  | .dequeue u _ _ _ | .rcv u _ _ _ => u = t
  | .file _ | .ftok _ _ | .get _ _ | .buffers _ | .receive _ | .core _ => false

/-- What the thread did last at or behind a dequeue. -/
def lastOf (t : Thread) (es : List (DriverEvent File Thread)) : Option (DriverEvent File Thread) :=
  (es.filter (DriverEvent.ofReceiver t)).getLast?

/-- Every return is of the dequeue before it in its thread: the size of the message that it
    took, or the error for too small a buffer or for no message. -/
def Answered (es : List (DriverEvent File Thread)) : Prop :=
  ∀ before t msqid msg_size ret, before ++ [.rcv t msqid msg_size ret] <+: es →
    ∃ code msg, lastOf t before = some (.dequeue t msqid code msg) ∧ ret = rcvReturn code msg_size msg.1

/-- A receive behind its dequeue holds what that gave. -/
def Holds (es : List (DriverEvent File Thread)) (s : DriverState File Thread) : Prop :=
  ∀ t c code msg, s.receiving t = .behind c code msg → lastOf t es = some (.dequeue t c.msqid code msg.content)

theorem lastOf_snoc (t : Thread) (es : List (DriverEvent File Thread)) (e : DriverEvent File Thread) :
    lastOf t (es ++ [e]) = if e.ofReceiver t then some e else lastOf t es := by
  rw [lastOf,List.filter_append]
  split_ifs with own <;> simp [own,lastOf]

theorem woken_behind {wake : Option (UINT32 × Wake)} {p : Receiving} {c : Call} {code : INT32} {msg : IPC_MSG} :
    p.woken wake = .behind c code msg ↔ p = .behind c code msg := by
  cases p <;> simp [Receiving.woken]

/-- A thread that moves elsewhere holds nothing behind a dequeue. -/
theorem holds_update {e : DriverEvent File Thread} {s' : DriverState File Thread} {t : Thread} {p : Receiving} (holds : Holds es s)
    (now : s'.receiving = Function.update s.receiving t p) (others : ∀ u, u ≠ t → e.ofReceiver u = false)
    (own : ∀ c code msg, p = .behind c code msg → e = .dequeue t c.msqid code msg.content) : Holds (es ++ [e]) s' := by
  intro u c code msg behind
  rw [now] at behind
  by_cases same : u = t
  · subst same
    rw [Function.update_self] at behind
    rw [own c code msg behind,lastOf_snoc]
    simp [DriverEvent.ofReceiver]
  · rw [Function.update_of_ne same] at behind
    rw [lastOf_snoc,others u same]
    exact holds u c code msg behind

end

section
variable [DecidableEq File] [DecidableEq Thread] {s start : DriverState File Thread} {es : List (DriverEvent File Thread)}

/-- Every step keeps what the receives hold. -/
theorem holds_step {e : DriverEvent File Thread} {s' : DriverState File Thread} (holds : Holds es s)
    (step : DriverStep sign second overshift s e s') : Holds (es ++ [e]) s' := by
  have still (quiet : ∀ t, e.ofReceiver t = false) (same : ∀ t c code msg, s'.receiving t = .behind c code msg →
      s.receiving t = .behind c code msg) : Holds (es ++ [e]) s' := by
    intro t c code msg behind
    rw [lastOf_snoc,quiet t]
    exact holds t c code msg (same t c code msg behind)
  cases step with
  | file | ftok | get | snd | lock | fill | unlock => exact still (fun _ => rfl) fun _ _ _ _ behind => behind
  | receive | flag => exact holds_update holds rfl (fun _ _ => rfl) (by simp)
  | dequeue => exact holds_update holds rfl (fun u other => decide_eq_false (Ne.symm other)) (by rintro c code msg ⟨⟩; rfl)
  | rcv => exact holds_update holds rfl (fun u other => decide_eq_false (Ne.symm other)) (by simp)
  | core => exact still (fun _ => rfl) fun _ _ _ _ behind => woken_behind.mp behind

/-- From a driver with no receive every return answers the dequeue of its thread. -/
theorem answered_run (outside : ∀ t, start.receiving t = .before .outside) (run : Run (DriverStep sign second overshift) start es s) :
    Answered es := by
  refine (run.invariant (I := fun es s => Holds es s ∧ Answered es) ⟨?_,?_⟩ ?_).2
  · intro t c code msg behind
    cases (outside t).symm.trans behind
  · intro before t msqid msg_size ret first
    simp at first
  · intro es t e u _ inv step
    obtain ⟨holds,answered⟩ := inv
    refine ⟨holds_step holds step,fun before r msqid msg_size ret first => ?_⟩
    rcases List.prefix_concat_iff.mp first with now | earlier
    · obtain ⟨rfl,same⟩ := List.append_inj' now rfl
      cases same
      cases step with
      | rcv behind => exact ⟨_,_,holds r _ _ _ behind,rfl⟩
    · exact answered before r msqid msg_size ret earlier

/-! ### Receives that nobody disturbs -/

section
variable {t : Thread} {c : Call} {ret : INT32} {user : Mem} {msg_size : UINT32} {msg_drv : IPC_MSG} {r : Received}

theorem receive_move {p p' : Phase} (moves : Moves s.info p p') : DriverStep sign second overshift
    { s with receiving := Function.update s.receiving t (.before p) } (.receive t)
    { s with receiving := Function.update s.receiving t (.before p') } := by
  have step : DriverStep sign second overshift { s with receiving := Function.update s.receiving t (.before p) } (.receive t) _ :=
    .receive (Function.update_self ..) moves
  simpa only [Function.update_idem] using step

/-- A thread comes to its dequeue where a message waits. -/
theorem comes_to_dequeue (at_p : s.receiving t = .before .outside)
    (live : ipc_msgque_getQuebyID (some s.info) c.msqid = c.pmsgque) (waiting : ipc_msgque_isempty s.info.tbl c.pmsgque = false)
    (share : c.sharekey = sharekey s.info.tbl (msgQueTbl c.msqid.toNat)) :
    Run (DriverStep sign second overshift) s [.receive t,.receive t,.receive t]
      { s with receiving := Function.update s.receiving t (.before (.atDequeue c)) } := by
  have key : Moves s.info (.found c) (.atLoop c) := by
    have moves : Moves s.info (.found c) (.atLoop { c with sharekey := _ }) := .key
    rwa [← share] at moves
  have loop : Moves s.info (.atLoop c) (.atDequeue c) := by
    have moves : Moves s.info (.atLoop c) _ := .loop
    rwa [if_neg (by rw [waiting]; exact Bool.false_ne_true)] at moves
  exact ((Run.one (.receive at_p (.call live))).snoc (receive_move key)).snoc (receive_move loop)

/-- The dequeue and the return of a receive. -/
theorem takes_and_returns {after : IPC_MSG} {tbl : Mem} (msg_size : UINT32)
    (called : ipc_msgque_dequeue s.info.tbl c.pmsgque msg_drv = (ret,after,tbl)) : Run (DriverStep sign second overshift)
    { s with receiving := Function.update s.receiving t (.before (.atDequeue c)) }
    [.dequeue t c.msqid ret after.content,.rcv t c.msqid msg_size (rcvReturn ret msg_size after.size)]
    { s with info.tbl := tbl, receiving := Function.update s.receiving t (.before .outside) } := by
  have dequeue : DriverStep sign second overshift { s with receiving := Function.update s.receiving t (.before (.atDequeue c)) } _ _ :=
    .dequeue (Function.update_self ..) called
  have rcv : DriverStep sign second overshift { s with info.tbl := tbl, receiving := Function.update s.receiving t (.behind c ret after) }
      (.rcv t c.msqid msg_size (rcvReturn ret msg_size after.size)) _ := .rcv (Function.update_self ..)
  simp only [Function.update_idem] at dequeue rcv
  exact (Run.one dequeue).snoc rcv

/-- What `ipc_msg_rcv` returns once there is a message to take. -/
theorem rcv_takes {info₀ info : IPC_MSQINFO} {m_ctrl m_ctrl' : IPC_CTRL} {msqid timeout_ms : UINT32} {q : Nat}
    {wait_event : IPC_MSQINFO → Outcome (INT32 × IPC_MSQINFO)} {after : IPC_MSG} {tbl : Mem}
    (live : ipc_msgque_getQuebyID (some info₀) msqid = some q)
    (waited : waitMsg info₀ m_ctrl q msqid (sharekey info₀.tbl q) timeout_ms wait_event = .returned (none,info,m_ctrl'))
    (taken : ipc_msgque_dequeue info.tbl (some q) msg_drv = (ret,after,tbl))
    (called : ipc_msg_rcv (some info₀) m_ctrl msqid (some user) msg_size timeout_ms wait_event msg_drv = .returned r) :
    r.ret = rcvReturn ret msg_size after.size ∧ r.g = some { info with tbl := tbl } ∧ r.m_ctrl = m_ctrl' := by
  simp only [ipc_msg_rcv,live,waited,Outcome.returned_bind,taken] at called
  rw [rcvReturn]
  split_ifs at called ⊢
  all_goals
    cases called
    exact ⟨rfl,rfl,rfl⟩

/-- A receive that need not wait. -/
theorem rcv_steps {timeout_ms : UINT32} (outside : s.receiving t = .before .outside) (share : c.sharekey = sharekey s.info.tbl (msgQueTbl c.msqid.toNat))
    (live : ipc_msgque_getQuebyID (some s.info) c.msqid = c.pmsgque) (waiting : ipc_msgque_isempty s.info.tbl c.pmsgque = false)
    (called : ipc_msg_rcv (some s.info) s.m_ctrl c.msqid (some user) msg_size timeout_ms (fun _ => .asleep) msg_drv = .returned r) :
    ∃ info' code msg, r.g = some info' ∧ Run (DriverStep sign second overshift) s
      [.receive t,.receive t,.receive t,.dequeue t c.msqid code msg,.rcv t c.msqid msg_size r.ret]
      { s with info := info', m_ctrl := r.m_ctrl } := by
  have waited : waitMsg s.info s.m_ctrl (msgQueTbl c.msqid.toNat) c.msqid (sharekey s.info.tbl (msgQueTbl c.msqid.toNat)) timeout_ms
      (fun _ => .asleep) = .returned (none,s.info,s.m_ctrl) := by
    rw [waitMsg,if_neg (by rw [show some (msgQueTbl c.msqid.toNat) = c.pmsgque from rfl,waiting]; exact Bool.false_ne_true)]
  obtain ⟨code,after,tbl,taken⟩ : ∃ code after tbl, ipc_msgque_dequeue s.info.tbl c.pmsgque msg_drv = (code,after,tbl) := ⟨_,_,_,rfl⟩
  obtain ⟨answer,table,mode⟩ := rcv_takes live waited taken called
  have run : Run (DriverStep sign second overshift) s _ _ :=
    (comes_to_dequeue outside live waiting share).append (takes_and_returns msg_size taken)
  have back : Function.update s.receiving t (.before .outside) = s.receiving := by rw [← outside,Function.update_eq_self]
  rw [back] at run
  exact ⟨_,code,after.content,table,by rw [answer,mode]; exact run⟩

/-- A receive whose wait is over goes on with the table as it is then. -/
theorem rcv_goes_on {info₀ : IPC_MSQINFO} (awake : s.receiving t = .before (.awake c ret))
    (share : c.sharekey = sharekey info₀.tbl (msgQueTbl c.msqid.toNat))
    (live : ipc_msgque_getQuebyID (some info₀) c.msqid = c.pmsgque) (empty : ipc_msgque_isempty info₀.tbl c.pmsgque = true)
    (called : ipc_msg_rcv (some info₀) s.m_ctrl c.msqid (some user) msg_size c.timeout_ms (fun _ => .returned (ret,s.info)) msg_drv =
      .returned r) :
    ∃ es info', r.g = some info' ∧ Run (DriverStep sign second overshift) s es
      { s with info := info', m_ctrl := r.m_ctrl, receiving := Function.update s.receiving t (.before .outside) } := by
  let m_ctrl : IPC_CTRL := ⟨Function.update s.m_ctrl.readwait_interruptible c.msqid.toNat (c.timeout_ms == 0)⟩
  let ended : DriverState File Thread := { s with m_ctrl := m_ctrl }
  have flag : DriverStep sign second overshift s (.receive t)
      { ended with receiving := Function.update ended.receiving t (.before (.atValid c ret)) } := .flag awake
  have valid := (Run.one flag).snoc (receive_move (s := ended) .valid)
  have waits (info : IPC_MSQINFO) : waitMsg info₀ s.m_ctrl (msgQueTbl c.msqid.toNat) c.msqid (sharekey info₀.tbl (msgQueTbl c.msqid.toNat))
      c.timeout_ms (fun _ => .returned (ret,info)) =
        if !ipc_msgque_isvalid info.tbl c.sharekey c.pmsgque then .returned (some (-1),info,m_ctrl)
        else if ret = 0 ∧ c.timeout_ms ≠ 0 then .returned (some (-2),info,m_ctrl)
        else if ipc_msgque_isempty info.tbl c.pmsgque then .returned (some (-3),info,m_ctrl)
        else .returned (none,info,m_ctrl) := by
    rw [waitMsg,if_pos (by exact empty),← share]
    rfl
  have waited := waits s.info
  split_ifs at waited valid with gone late still
  -- the receive fails behind its wait
  iterate 2
    simp only [ipc_msg_rcv,live,Call.pmsgque,waited,Outcome.returned_bind] at called
    cases called
    exact ⟨_,_,rfl,valid⟩
  · simp only [ipc_msg_rcv,live,Call.pmsgque,waited,Outcome.returned_bind] at called
    cases called
    have failed := valid.snoc (receive_move (s := ended) .empty)
    rw [if_pos (by exact still)] at failed
    exact ⟨_,_,rfl,failed⟩
  · obtain ⟨code,after,tbl,taken⟩ : ∃ code after tbl, ipc_msgque_dequeue s.info.tbl c.pmsgque msg_drv = (code,after,tbl) := ⟨_,_,_,rfl⟩
    obtain ⟨answer,table,same⟩ := rcv_takes live waited taken called
    have empty := valid.snoc (receive_move (s := ended) .empty)
    rw [if_neg (by exact still)] at empty
    have loop := empty.snoc (receive_move (s := ended) .loop)
    rw [if_neg (by exact still)] at loop
    exact ⟨_,_,table,by rw [same]; exact loop.append (takes_and_returns (s := ended) msg_size taken)⟩

end

/-! ### Results -/

/-- Over every run of the driver from `ipc_msgque_init` whose acknowledged messages fit an
    element, its table is that of a run of the mailboxes, into whose lines the acknowledged
    messages went, in order, and from which only receives took; and every receive answers
    with what it took. -/
theorem driver_is_mailboxes (started : Started (some start.info)) (outside : ∀ t, start.receiving t = .before .outside)
    (run : Run (DriverStep sign second overshift) start es s)
    (fits : ∀ id msg, (id,msg) ∈ es.filterMap DriverEvent.acked → msg.1.toNat ≤ 12) :
    Answered es ∧ ∃ fs B, Run (ServiceStep sign) start.info fs s.info ∧ Accounts es fs ∧
      Run (MailStep 16 1) empty (fs.flatMap meaning) B ∧ Serves s.info B := by
  obtain ⟨fs,run',accounts,_⟩ := entries_calls run
  have allFit : ∀ f ∈ fs, Fits f := by
    intro f listed
    cases f with
    | table | lookup | dequeue | stale | lock | fill | unlock => trivial
    | post msqid msg ret =>
      cases msg with
      | none => trivial
      | some msg =>
        rintro rfl
        refine fits msqid msg ?_
        rw [← accounts.acked]
        exact List.mem_filterMap.mpr ⟨_,listed,rfl⟩
  obtain ⟨B,mails,serves⟩ := queues_refine_mailboxes started run' allFit
  exact ⟨answered_run outside run,fs,B,run',accounts,mails,serves⟩

end

/-- A driver that was just set up, with no open file. -/
def bootedDriver : DriverState Bool Bool where
  info := booted.get booted_some
  file _ := .closed
  ioctl _ := .outside
  ipc_mutex := false
  m_ctrl := ⟨fun _ => false⟩
  receiving _ := .before .outside

/-- The message of an event, of so many bytes. -/
def eventMessage (data_size : UINT32) : Content := (data_size,bytes (fun _ => 7) 0 data_size.toNat)

/-- An event of CPU1 with a message for the first queue. -/
def eventHandled (info : IPC_MSQINFO) (data_size : UINT32) : Handled :=
  ipc_core_handler (some info) ⟨fun _ => false⟩ ⟨0x00100000,0xD0000000⟩ (fun _ _ => 7) .IPC_CC_EVT_FROM_CPU1
    (fun _ _ => (0,⟨5,0x00100004,data_size⟩)) ⟨5,0x00100004,data_size⟩ ⟨0,fun _ => 0⟩

theorem event_step {info info' : IPC_MSQINFO} {data_size : UINT32} (table : (eventHandled info data_size).g = some info')
    (wake : (eventHandled info data_size).wake = some (0,.wake_up)) : DriverStep .signed .mutex_unlock (fun _ => 0)
      { bootedDriver with info := info } (.core (some (0,eventMessage data_size))) { bootedDriver with info := info' } := by
  have step : DriverStep .signed .mutex_unlock (fun _ => 0) { bootedDriver with info := info } _ _ :=
    .core (h := eventHandled info data_size) rfl table
  rw [wake] at step
  exact step

/-- The first queue with messages of four bytes, of two and of one. -/
def oneMessage : IPC_MSQINFO := (eventHandled firstQueue 4).g.get (by decide +kernel)
def twoMessages : IPC_MSQINFO := (eventHandled oneMessage 2).g.get (by decide +kernel)
def threeMessages : IPC_MSQINFO := (eventHandled twoMessages 1).g.get (by decide +kernel)

theorem three_events : Run (DriverStep .signed .mutex_unlock fun _ => 0) { bootedDriver with info := firstQueue }
    [.core (some (0,eventMessage 4)),.core (some (0,eventMessage 2)),.core (some (0,eventMessage 1))]
    { bootedDriver with info := threeMessages } := by
  have first := @event_step firstQueue oneMessage 4 (Option.some_get _).symm (by decide +kernel)
  have second := @event_step oneMessage twoMessages 2 (Option.some_get _).symm (by decide +kernel)
  have third := @event_step twoMessages threeMessages 1 (Option.some_get _).symm (by decide +kernel)
  exact ((Run.one first).snoc second).snoc third

/-- A receive with room for just what it took returns the size of that. -/
theorem takes_size {s : DriverState Bool Bool} {t : Bool} {c : Call} {after : IPC_MSG} (behind : s.receiving t = .behind c 0 after) :
    DriverStep .signed .mutex_unlock (fun _ => 0) s (.rcv t c.msqid after.size after.size.toInt32)
      { s with receiving := Function.update s.receiving t (.before .outside) } := by
  have step : DriverStep .signed .mutex_unlock (fun _ => 0) s (.rcv t c.msqid _ (rcvReturn 0 after.size after.size)) _ := .rcv behind
  rwa [rcvReturn,if_neg (show ¬ (0 : INT32) ≠ 0 by decide),if_neg (UInt32.lt_irrefl _)] at step

/-- Kernel code obtains the first queue and three events bring a message each. Two receives
    take the first two, and the one that was later returns first. -/
theorem two_receives : ∃ t u : DriverState Bool Bool, (∀ w, bootedDriver.receiving w = .before .outside) ∧
    Started (some bootedDriver.info) ∧ DriverStep .signed .mutex_unlock (fun _ => 0) bootedDriver (.get 5 0) t ∧
    Run (DriverStep .signed .mutex_unlock fun _ => 0) t
      ([.core (some (0,eventMessage 4)),.core (some (0,eventMessage 2)),.core (some (0,eventMessage 1))] ++
        [.receive true,.receive true,.receive true] ++ [.receive false,.receive false,.receive false] ++
        [.dequeue true 0 0 (eventMessage 4),.dequeue false 0 0 (eventMessage 2)] ++ [.rcv false 0 2 2,.rcv true 0 4 4]) u := by
  have got : ipc_msgque_get (some bootedDriver.info) 5 = (0,some firstQueue) := by
    rw [bootedDriver,Option.some_get]
    exact firstQueue_got
  let c : Call := ⟨0,by decide,0,5⟩
  -- both threads come to their dequeues
  let full : DriverState Bool Bool := { bootedDriver with info := threeMessages }
  have live : ipc_msgque_getQuebyID (some full.info) c.msqid = c.pmsgque := by decide +kernel
  have waiting : ipc_msgque_isempty full.info.tbl c.pmsgque = false := by decide +kernel
  have share : c.sharekey = sharekey full.info.tbl (msgQueTbl c.msqid.toNat) := by decide +kernel
  let one_ready : DriverState Bool Bool := { full with receiving := Function.update full.receiving true (.before (.atDequeue c)) }
  let both : DriverState Bool Bool :=
    { one_ready with receiving := Function.update one_ready.receiving false (.before (.atDequeue c)) }
  have ready : Run _ _ _ both := (three_events.append (comes_to_dequeue (s := full) (t := true) rfl live waiting share)).append
    (comes_to_dequeue (s := one_ready) (t := false) rfl live waiting share)
  -- each takes a message
  let first := takeElement both.info.tbl (msgQueTbl 0) ⟨0,fun _ => 0⟩
  let one_left : DriverState Bool Bool :=
    { both with info.tbl := first.2, receiving := Function.update both.receiving true (.behind c 0 first.1) }
  have first_taken : DriverStep .signed .mutex_unlock (fun _ => 0) both (.dequeue true 0 0 first.1.content) one_left :=
    .dequeue (c := c) rfl (dequeue_nonempty (by decide +kernel))
  let second := takeElement one_left.info.tbl (msgQueTbl 0) ⟨0,fun _ => 0⟩
  let none_left : DriverState Bool Bool :=
    { one_left with info.tbl := second.2, receiving := Function.update one_left.receiving false (.behind c 0 second.1) }
  have second_taken : DriverStep .signed .mutex_unlock (fun _ => 0) one_left (.dequeue false 0 0 second.1.content) none_left :=
    .dequeue (c := c) rfl (dequeue_nonempty (by decide +kernel))
  have four : first.1.content = eventMessage 4 ∧ first.1.size = 4 := by decide +kernel
  have two_bytes : second.1.content = eventMessage 2 ∧ second.1.size = 2 := by decide +kernel
  -- and returns
  let last_out : DriverState Bool Bool :=
    { none_left with receiving := Function.update none_left.receiving false (.before .outside) }
  have second_given := takes_size (s := none_left) (t := false) (c := c) rfl
  have first_given := takes_size (s := last_out) (t := true) (c := c) rfl
  rw [four.1] at first_taken
  rw [four.2] at first_given
  rw [two_bytes.1] at second_taken
  rw [two_bytes.2] at second_given
  have run := (ready.append ((Run.one first_taken).snoc second_taken)).append ((Run.one second_given).snoc first_given)
  exact ⟨_,_,fun _ => rfl,by rw [bootedDriver,Option.some_get]; exact booted_started,.get got,run⟩

theorem driver_is_mailboxes_two_receives : ∃ (es : List (DriverEvent Bool Bool)) (u : DriverState Bool Bool) (fs : List ServiceEvent)
    (B : Boxes 12 UINT32 Content), Answered es ∧ es.getLast? = some (.rcv true 0 4 4) ∧ Run (MailStep 16 1) empty (fs.flatMap meaning) B ∧
      Serves u.info B ∧ fs.filterMap handed = [(0,eventMessage 4),(0,eventMessage 2)] := by
  obtain ⟨t,u,outside,started,got,run⟩ := two_receives
  obtain ⟨answered,fs,B,_,accounts,mails,serves⟩ := driver_is_mailboxes started outside ((Run.one got).append run) (by
    intro id msg listed
    simp [DriverEvent.acked] at listed
    rcases listed with ⟨_,rfl⟩ | ⟨_,rfl⟩ | ⟨_,rfl⟩ <;> decide)
  exact ⟨_,u,fs,B,answered,rfl,mails,serves,accounts.taken⟩

end IpcMsq.Entries
