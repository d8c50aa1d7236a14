import IpcMsq.CoreHandler

/-!
What an event queues and what it acknowledges. The handler drops the result of
the function that reads the command, so it may queue what its local held before;
and it drops that of the ack, which is refused where the sender is the core that
runs or there is no device.
-/
namespace IpcMsq.Acknowledge
open IpcMsq.Memory IpcMsq.Common IpcMsq.Table IpcMsq.Elements IpcMsq.Api IpcMsq.Communicator IpcMsq.CoreHandler
open IPC_CC_CORE_T

/-- The register writes of the acks that an event asked for. -/
def ackWrites (ipc_cc_dev : Option IPC_CC_DEV_T) (handled : Handled) : List (UINT32 × UINT32) :=
  match handled.ack with
  | none => []
  | some core => (ipc_cc_send_ack ipc_cc_dev core).2.2

/-- The ack register of a core. -/
def ackReg : IPC_CC_CORE_T → UINT32
  | IPC_CC_CORE_CPU1 => CC_CPU1_ACK_REG_OFS
  | IPC_CC_CORE_CPU2 => CC_CPU2_ACK_REG_OFS
  | IPC_CC_CORE_DSP => CC_DSP_ACK_REG_OFS
  | IPC_CC_CORE_MAX => 0

/-- One event, with the locals it starts from and what its calls find. -/
structure Event where
  m_ctrl : IPC_CTRL
  bases : SharedBases
  memory : UINT32 → Mem
  core_getfrom : IPC_CC_CORE_T
  get_cmd_func : IPC_CC_CORE_T → IPC_CC_CMD_T → INT32 × IPC_CC_CMD_T
  cmd : IPC_CC_CMD_T
  rcvmsg : IPC_MSG
  ipc_cc_dev : Option IPC_CC_DEV_T

/-- What `get_cmd_func` returned, and the command that is in the local after it. -/
def Event.got (e : Event) : INT32 × IPC_CC_CMD_T := e.get_cmd_func e.core_getfrom e.cmd

def Event.handled (e : Event) (info : IPC_MSQINFO) : Handled :=
  ipc_core_handle_func (some info) e.m_ctrl e.bases e.memory e.core_getfrom e.get_cmd_func e.cmd e.rcvmsg

/-- `ipc_cc_get_cmd` of a device, as the handler is given it. -/
def fromRegisters (ipc_cc_dev : Option IPC_CC_DEV_T) (locals : GetLocals) (core : IPC_CC_CORE_T) (cmd : IPC_CC_CMD_T) :
    INT32 × IPC_CC_CMD_T :=
  let (ret,read) := ipc_cc_get_cmd ipc_cc_dev core (some cmd) locals
  (ret,read.getD cmd)

/-- One message is queued and one ack written, for a command that was read and in
    the queue of its opcode; or no message is queued and no ack written. -/
def AcksWhatItQueues (info : IPC_MSQINFO) (e : Event) : Prop :=
  (∃ i msg dd, e.got.1 = 0 ∧ HasKey info.tbl i e.got.2.opcode ∧ e.ipc_cc_dev = some dd ∧
    (e.handled info).g = some { info with tbl := putElement info.tbl (msgQueTbl i) msg } ∧
    ackWrites e.ipc_cc_dev (e.handled info) = [(ackReg dd.running_core,ackBit e.core_getfrom)]) ∨
  (e.handled info).g = some info ∧ ackWrites e.ipc_cc_dev (e.handled info) = []

/-- The id that the opcode of a command looks up. -/
def lookedUp (info : IPC_MSQINFO) (cmd : IPC_CC_CMD_T) : INT32 := ipc_msgque_getIDbyKey (some info) cmd.opcode.toInt32

/-- No check refuses the command, and its queue has room. -/
def Accepts (info : IPC_MSQINFO) (bases : SharedBases) (cmd : IPC_CC_CMD_T) : Prop :=
  0 ≤ lookedUp info cmd ∧ ipc_get_noncache_addr bases cmd.data_addr ≠ 0 ∧ cmd.data_size.toNat ≤ 24 ∧
    ∃ q, ipc_msgque_getQuebyID (some info) (lookedUp info cmd).toUInt32 = some q ∧ (count info.tbl q).toNat < 16

/-- The device can acknowledge a command of the core. -/
def CanAck (ipc_cc_dev : Option IPC_CC_DEV_T) (core : IPC_CC_CORE_T) : Prop :=
  ∃ dd, ipc_cc_dev = some dd ∧ core ≠ IPC_CC_CORE_MAX ∧ core ≠ dd.running_core ∧ dd.running_core ≠ IPC_CC_CORE_MAX

/-! ### Queueing -/

/-- A message that a post admits leaves the count of every other queue. -/
theorem putElement_count_other {tbl : Mem} {i j : Nat} {msg : IPC_MSG} (admitted : msg.size.toNat ≤ 24) (other : j ≠ i) :
    count (putElement tbl (msgQueTbl i) msg) (msgQueTbl j) = count tbl (msgQueTbl j) := by
  have slot := nextSlot_lt tbl (msgQueTbl i)
  refine load32_congr fun k inside => putElement_outside ?_ ?_ ?_
  all_goals simp only [element_eq,msgQueTbl_eq] at *; omega

private theorem succ_ne (c : UInt32) : c + 1 ≠ c := by
  intro same
  have one := (UInt32.add_eq_left).mp same
  exact absurd one (by decide)

/-- Queueing changes the table. -/
theorem putElement_ne (tbl : Mem) (q : Nat) (msg : IPC_MSG) : putElement tbl q msg ≠ tbl := by
  intro same
  have counted : count (putElement tbl q msg) q = count tbl q + 1 := putElement_count
  rw [same] at counted
  exact succ_ne _ counted.symm

/-- The queue that a message went to can be read off the table. -/
theorem putElement_queue {tbl : Mem} {i j : Nat} {msg msg' : IPC_MSG} (admitted : msg'.size.toNat ≤ 24)
    (same : putElement tbl (msgQueTbl i) msg = putElement tbl (msgQueTbl j) msg') : i = j := by
  by_contra other
  have counted : count (putElement tbl (msgQueTbl i) msg) (msgQueTbl i) = count tbl (msgQueTbl i) + 1 := putElement_count
  rw [same,putElement_count_other admitted other] at counted
  exact succ_ne _ counted.symm

section
variable {info : IPC_MSQINFO} {e : Event}

/-- With an id for its opcode a command is posted, and an ack asked for if the post succeeds. -/
theorem handled_posted (known : 0 ≤ lookedUp info e.got.2) {ret : INT32} {g : Option IPC_MSQINFO}
    (posted : ipc_msgque_msgpost (some info) (lookedUp info e.got.2).toUInt32
      (pointer e.memory (ipc_get_noncache_addr e.bases e.got.2.data_addr)) e.got.2.data_size e.rcvmsg = (ret,g)) :
    (e.handled info).g = g ∧ (e.handled info).ack = if ret = 0 then some e.core_getfrom else none := by
  have valid : ¬ ipc_msgque_getIDbyKey (some info) (e.get_cmd_func e.core_getfrom e.cmd).2.opcode.toInt32 < 0 :=
    Int32.not_lt.mpr known
  simp only [Event.got,lookedUp] at posted
  simp only [Event.handled,ipc_core_handle_func,postEvent,if_neg valid,posted]
  by_cases ok : ret = 0 <;> simp [ok]

/-- A command that no check refuses is queued in the queue that its opcode looks up,
    and an ack asked for. -/
theorem handled_accepted (accepts : Accepts info e.bases e.got.2) : ∃ msg, msg.size.toNat ≤ 24 ∧
    (e.handled info).g = some { info with tbl := putElement info.tbl (msgQueTbl (lookedUp info e.got.2).toUInt32.toNat) msg } ∧
    (e.handled info).ack = some e.core_getfrom := by
  obtain ⟨known,address,small,q,live,room⟩ := accepts
  have found : pointer e.memory (ipc_get_noncache_addr e.bases e.got.2.data_addr) =
    some (e.memory (ipc_get_noncache_addr e.bases e.got.2.data_addr)) := if_neg address
  rcases msgpost_cases info (lookedUp info e.got.2).toUInt32
      (e.memory (ipc_get_noncache_addr e.bases e.got.2.data_addr)) small e.rcvmsg with
    ⟨none,_⟩ | ⟨q',live',full,_⟩ | ⟨q',live',_,done⟩
  · cases none.symm.trans live
  · cases live'.symm.trans live
    omega
  · obtain ⟨_,_,rfl⟩ := getQuebyID_some.mp live'
    rw [← found] at done
    exact ⟨_,small,handled_posted known done⟩

/-- A command that a check refuses changes nothing. -/
theorem handled_refused (refused : ¬ Accepts info e.bases e.got.2) :
    (e.handled info).g = some info ∧ (e.handled info).ack = none := by
  by_cases known : 0 ≤ lookedUp info e.got.2
  · by_cases address : ipc_get_noncache_addr e.bases e.got.2.data_addr = 0
    · exact handled_posted known (by rw [pointer,if_pos address,ipc_msgque_msgpost])
    · have found : pointer e.memory (ipc_get_noncache_addr e.bases e.got.2.data_addr) =
        some (e.memory (ipc_get_noncache_addr e.bases e.got.2.data_addr)) := if_neg address
      by_cases small : e.got.2.data_size.toNat ≤ 24
      · rcases msgpost_cases info (lookedUp info e.got.2).toUInt32
            (e.memory (ipc_get_noncache_addr e.bases e.got.2.data_addr)) small e.rcvmsg with
          ⟨_,failed⟩ | ⟨_,_,_,failed⟩ | ⟨q,live,room,_⟩
        · exact handled_posted known (found ▸ failed)
        · exact handled_posted known (found ▸ failed)
        · exact absurd ⟨known,address,small,q,live,room⟩ refused
      · have large : e.got.2.data_size > IPC_MSG_ELEMENT_SIZE := size_refused.mpr (by omega)
        have failed : ipc_msgque_msgpost (some info) (lookedUp info e.got.2).toUInt32
            (pointer e.memory (ipc_get_noncache_addr e.bases e.got.2.data_addr)) e.got.2.data_size e.rcvmsg =
            (-2,some info) := by simp only [found,ipc_msgque_msgpost,if_pos large]
        exact handled_posted known failed
  · have unknown : ipc_msgque_getIDbyKey (some info) (e.get_cmd_func e.core_getfrom e.cmd).2.opcode.toInt32 < 0 :=
      Int32.not_le.mp known
    have none : postEvent (some info) e.bases e.memory e.core_getfrom e.get_cmd_func e.cmd e.rcvmsg = (some info,.none) :=
      if_pos unknown
    rw [Event.handled,ipc_core_handle_func,none]
    exact ⟨rfl,rfl⟩

end

/-! ### Acknowledging -/

/-- An ack is one write where the device can make it, and else none. -/
theorem ackWrites_core (ipc_cc_dev : Option IPC_CC_DEV_T) {core : IPC_CC_CORE_T} {handled : Handled}
    (asked : handled.ack = some core) :
    (∃ dd, ipc_cc_dev = some dd ∧ CanAck ipc_cc_dev core ∧
      ackWrites ipc_cc_dev handled = [(ackReg dd.running_core,ackBit core)]) ∨
    (¬ CanAck ipc_cc_dev core ∧ ackWrites ipc_cc_dev handled = []) := by
  simp only [ackWrites,asked]
  cases ipc_cc_dev with
  | none => exact .inr ⟨by rintro ⟨_,⟨⟩,_⟩,rfl⟩
  | some dd =>
    by_cases possible : core ≠ IPC_CC_CORE_MAX ∧ core ≠ dd.running_core ∧ dd.running_core ≠ IPC_CC_CORE_MAX
    · obtain ⟨valid,other,running⟩ := possible
      refine .inl ⟨dd,rfl,⟨dd,rfl,valid,other,running⟩,?_⟩
      simp only [ipc_cc_send_ack,if_neg valid,if_neg other]
      cases runs : dd.running_core with
      | IPC_CC_CORE_MAX => exact absurd runs running
      | IPC_CC_CORE_CPU1 | IPC_CC_CORE_CPU2 | IPC_CC_CORE_CPU3 => rfl
    · refine .inr ⟨?_,?_⟩
      · rintro ⟨_,⟨⟩,can⟩
        exact possible can
      · simp only [ipc_cc_send_ack]
        split
        · rfl
        · split
          · rfl
          · rename_i valid other
            have running : dd.running_core = IPC_CC_CORE_MAX := by
              by_contra running
              exact possible ⟨valid,other,running⟩
            simp only [running]

/-! ### Results -/

/-- An event meets the contract exactly if its command is refused, or was read, is
    for the queue with its opcode, and can be acknowledged. -/
theorem acks_event (info : IPC_MSQINFO) (e : Event) : AcksWhatItQueues info e ↔
    (Accepts info e.bases e.got.2 → e.got.1 = 0 ∧
      HasKey info.tbl (lookedUp info e.got.2).toUInt32.toNat e.got.2.opcode ∧ CanAck e.ipc_cc_dev e.core_getfrom) := by
  by_cases accepts : Accepts info e.bases e.got.2
  · obtain ⟨msg,admitted,queued,asked⟩ := handled_accepted accepts
    simp only [accepts,true_imp_iff]
    constructor
    · rintro (⟨i,msg',dd,ok,has,device,queued',acked⟩ | ⟨unchanged,_⟩)
      · have same := congrArg IPC_MSQINFO.tbl (Option.some.inj (queued'.symm.trans queued))
        obtain rfl : i = _ := putElement_queue admitted same
        refine ⟨ok,has,?_⟩
        rcases ackWrites_core e.ipc_cc_dev asked with ⟨_,_,can,_⟩ | ⟨_,none⟩
        · exact can
        · cases none.symm.trans acked
      · have same := congrArg IPC_MSQINFO.tbl (Option.some.inj (unchanged.symm.trans queued))
        exact absurd same.symm (putElement_ne _ _ _)
    · rintro ⟨ok,has,can⟩
      rcases ackWrites_core e.ipc_cc_dev asked with ⟨dd,device,_,acked⟩ | ⟨cannot,_⟩
      · exact .inl ⟨_,msg,dd,ok,has,device,queued,acked⟩
      · exact absurd can cannot
  · obtain ⟨unchanged,silent⟩ := handled_refused accepts
    exact iff_of_true (.inr ⟨unchanged,by simp only [ackWrites,silent]⟩) fun accepted => absurd accepted accepts

/-- For every table, every event and every function that reads the command: the
    contract holds exactly if the command is refused, or was read, is for the queue
    with its opcode, and can be acknowledged. With the function of `ipc-cc.c` it
    holds exactly if what the local held before is refused. -/
theorem acks_iff (info : IPC_MSQINFO) (e : Event) :
    (AcksWhatItQueues info e ↔ (Accepts info e.bases e.got.2 → e.got.1 = 0 ∧
      HasKey info.tbl (lookedUp info e.got.2).toUInt32.toNat e.got.2.opcode ∧ CanAck e.ipc_cc_dev e.core_getfrom)) ∧
    ∀ locals, AcksWhatItQueues info { e with get_cmd_func := fromRegisters e.ipc_cc_dev locals } ↔
      ¬ Accepts info e.bases e.cmd := by
  refine ⟨acks_event info e,fun locals => (acks_event info _).trans ?_⟩
  obtain ⟨negative,kept⟩ := get_cmd_fails e.ipc_cc_dev e.core_getfrom (some e.cmd) locals
  have failed : (ipc_cc_get_cmd e.ipc_cc_dev e.core_getfrom (some e.cmd) locals).1 ≠ 0 := by
    intro zero
    rw [zero] at negative
    exact absurd negative (by decide)
  have stale : ({ e with get_cmd_func := fromRegisters e.ipc_cc_dev locals } : Event).got.2 = e.cmd := by
    simp only [Event.got,fromRegisters,kept,Option.getD_some]
  rw [stale]
  exact ⟨fun meets accepts => failed (meets accepts).1,fun refused accepts => absurd accepts refused⟩

/-- An event from `CPU1` at a local that still holds a command for the key 5. -/
def staleEvent : Event where
  m_ctrl := ⟨fun _ => false⟩
  bases := ⟨0x00100000,0xC0100000⟩
  memory _ _ := 1
  core_getfrom := IPC_CC_CORE_CPU1
  get_cmd_func := fromRegisters (some ⟨IPC_CC_CORE_CPU2,fun _ => 0⟩) ⟨0,0,0⟩
  cmd := ⟨5,0x00100000,4⟩
  rcvmsg := ⟨0,fun _ => 0⟩
  ipc_cc_dev := some ⟨IPC_CC_CORE_CPU2,fun _ => 0⟩

/-- The registers are empty and the read fails, and a message is queued and acknowledged. -/
theorem stale_command_queued : staleEvent.got = (-1,staleEvent.cmd) ∧
    ((staleEvent.handled firstQueue).g.map fun info => count info.tbl (msgQueTbl 0)) = some 1 ∧
    ackWrites staleEvent.ipc_cc_dev (staleEvent.handled firstQueue) = [(CC_CPU2_ACK_REG_OFS,0x10000)] ∧
    ¬ AcksWhatItQueues firstQueue staleEvent := by
  have failed : staleEvent.got = (-1,staleEvent.cmd) := by decide
  refine ⟨failed,by decide +kernel,by decide +kernel,fun meets => ?_⟩
  have accepts : Accepts firstQueue staleEvent.bases staleEvent.got.2 :=
    ⟨by decide +kernel,by decide,by decide,_,firstQueue_live,by decide +kernel⟩
  have read := ((acks_event firstQueue staleEvent).mp meets accepts).1
  rw [failed] at read
  exact absurd read (by decide)

end IpcMsq.Acknowledge
