import IpcMsq.Api

/-!
The handler that `drv_ipc_main.c` registers for events from the other cores: it
reads a command, posts the message to the queue with the command's key, sends an
ack and wakes receivers of the queue. What memory holds at an address is a
parameter, and so is the function that reads the command.
-/
namespace IpcMsq.CoreHandler
open IpcMsq.Memory IpcMsq.Common IpcMsq.Table IpcMsq.Elements IpcMsq.Api IpcMsq.Communicator

/-- The bases of the shared memory in `IPC_CTRL`, physical and not cached. -/
structure SharedBases where
  shm_phy_base : UINT32
  shm_non_cache_base : UINT32

def ipc_get_noncache_addr (m_ctrl : SharedBases) (physical_addr : UINT32) : UINT32 :=
  physical_addr - (m_ctrl.shm_phy_base - m_ctrl.shm_non_cache_base)

/-- An address as a pointer, with `memory` from each address on. -/
def pointer (memory : UINT32 → Mem) (addr : UINT32) : Option Mem := if addr = 0 then none else some (memory addr)

/-- Which sleepers a wakeup is for. -/
inductive Wake
  | wake_up_interruptible
  | wake_up
deriving DecidableEq

/-- The table after an event, the core that got an ack, and the wakeup with its queue. -/
structure Handled where
  g : Option IPC_MSQINFO
  ack : Option IPC_CC_CORE_T
  wake : Option (UINT32 × Wake)

/-- The event up to the post: the table after it, and the queue that got the
    message. `cmd` is the uninitialised local, and `rcvmsg` that of the post. What
    `get_cmd_func` returns is not read. -/
def postEvent (g : Option IPC_MSQINFO) (bases : SharedBases) (memory : UINT32 → Mem) (core_getfrom : IPC_CC_CORE_T)
    (get_cmd_func : IPC_CC_CORE_T → IPC_CC_CMD_T → INT32 × IPC_CC_CMD_T) (cmd : IPC_CC_CMD_T) (rcvmsg : IPC_MSG) :
    Option IPC_MSQINFO × Option UINT32 :=
  let cmd := (get_cmd_func core_getfrom cmd).2
  let msqid := ipc_msgque_getIDbyKey g cmd.opcode.toInt32
  if msqid < 0 then (g,none)
  else
    let noncache_addr := ipc_get_noncache_addr bases cmd.data_addr
    let (ret,g) := ipc_msgque_msgpost g msqid.toUInt32 (pointer memory noncache_addr) cmd.data_size rcvmsg
    if ret ≠ 0 then (g,none) else (g,some msqid.toUInt32)

/-- The wakeup of the receivers of a queue, by the way the last one slept. -/
def wakeAfter (m_ctrl : IPC_CTRL) (msqid : UINT32) : Wake :=
  if m_ctrl.readwait_interruptible msqid.toNat then .wake_up_interruptible else .wake_up

def ipc_core_handle_func (g : Option IPC_MSQINFO) (m_ctrl : IPC_CTRL) (bases : SharedBases) (memory : UINT32 → Mem)
    (core_getfrom : IPC_CC_CORE_T) (get_cmd_func : IPC_CC_CORE_T → IPC_CC_CMD_T → INT32 × IPC_CC_CMD_T)
    (cmd : IPC_CC_CMD_T) (rcvmsg : IPC_MSG) : Handled :=
  match postEvent g bases memory core_getfrom get_cmd_func cmd rcvmsg with
  | (g,none) => ⟨g,none,none⟩
  | (g,some msqid) => ⟨g,some core_getfrom,some (msqid,wakeAfter m_ctrl msqid)⟩

def ipc_core_handler (g : Option IPC_MSQINFO) (m_ctrl : IPC_CTRL) (bases : SharedBases) (memory : UINT32 → Mem)
    (evt_comefrom : IPC_CC_EVENT_T) (ipc_cc_get_cmd : IPC_CC_CORE_T → IPC_CC_CMD_T → INT32 × IPC_CC_CMD_T)
    (cmd : IPC_CC_CMD_T) (rcvmsg : IPC_MSG) : Handled :=
  if evt_comefrom = .IPC_CC_EVT_FROM_CPU1 then
    ipc_core_handle_func g m_ctrl bases memory .IPC_CC_CORE_CPU1 ipc_cc_get_cmd cmd rcvmsg
  else if evt_comefrom = .IPC_CC_EVT_FROM_DSP then
    ipc_core_handle_func g m_ctrl bases memory .IPC_CC_CORE_DSP ipc_cc_get_cmd cmd rcvmsg
  else ⟨g,none,none⟩

/-- An event leaves the table, or puts a message of the command's size into a queue. -/
theorem postEvent_cases (info : IPC_MSQINFO) (bases : SharedBases) (memory : UINT32 → Mem) (core_getfrom : IPC_CC_CORE_T)
    (get_cmd_func : IPC_CC_CORE_T → IPC_CC_CMD_T → INT32 × IPC_CC_CMD_T) (cmd : IPC_CC_CMD_T) (rcvmsg : IPC_MSG) :
    postEvent (some info) bases memory core_getfrom get_cmd_func cmd rcvmsg = (some info,none) ∨
    ∃ id q data, ipc_msgque_getQuebyID (some info) id = some q ∧
      postEvent (some info) bases memory core_getfrom get_cmd_func cmd rcvmsg =
        (some { info with tbl := putElement info.tbl q ⟨(get_cmd_func core_getfrom cmd).2.data_size,data⟩ },some id) := by
  simp only [postEvent]
  generalize (get_cmd_func core_getfrom cmd).2 = cmd
  split
  · exact .inl rfl
  · generalize (ipc_msgque_getIDbyKey (some info) cmd.opcode.toInt32).toUInt32 = id
    cases pointer memory (ipc_get_noncache_addr bases cmd.data_addr) with
    | none => exact .inl rfl
    | some payload =>
      by_cases small : cmd.data_size.toNat ≤ 24
      · rcases msgpost_cases info id payload small rcvmsg with ⟨_,refused⟩ | ⟨_,_,_,refused⟩ | ⟨q,live,_,done⟩
        · simp [refused]
        · simp [refused]
        · exact .inr ⟨id,q,_,live,by simp only [done]; rfl⟩
      · have big : cmd.data_size > IPC_MSG_ELEMENT_SIZE := size_refused.mpr (by omega)
        simp [ipc_msgque_msgpost,big]

end IpcMsq.CoreHandler
