import IpcMsq.Locking

/-!
The call chains that reach the spinlock of `drv_ipc_msgque.c` from the driver's
entry points. `ipc_msgque_msgpost` calls `ipc_msgque_enqueue` with the lock held,
and the lock is not recursive, so a post that gets so far never ends. No other
chain acquires the lock twice.
-/
namespace IpcMsq.Deadlock
open IpcMsq.Memory IpcMsq.Common IpcMsq.Spinlock IpcMsq.Locking IpcMsq.CoreHandler
open Table (CharSign ipc_msgque_getIDbyKey ipc_msgque_getQuebyID)
open SendBuff (Outcome)
open Api (IPC_CTRL Received Sent waitMsg)
open Communicator (IPC_CC_CORE_T IPC_CC_CMD_T)

/-- No call of a send takes the lock. -/
def ipc_msg_snd (msqid sendTo : UINT32) (msg_data : Option Mem) (msg_size : UINT32) (signal : Bool) (noReturn : INT32) :
    Chain (Outcome Sent) := do
  match Api.ipc_msg_snd (← shared) msqid sendTo msg_data msg_size signal noReturn with
  | .returned sent =>
    store sent.g
    return .returned sent
  | .asleep => return .asleep
  | .undefined => return .undefined

/-- The wait and its tests do not take the lock, the dequeue does. -/
def ipc_msg_rcv (m_ctrl : IPC_CTRL) (msqid : UINT32) (msg_data : Option Mem) (msg_size timeout_ms : UINT32)
    (wait_event : IPC_MSQINFO → Outcome (INT32 × IPC_MSQINFO)) (msg_drv : IPC_MSG) : Chain (Outcome Received) := do
  let g ← shared
  match msg_data, g, ipc_msgque_getQuebyID g msqid with
  | some user, some info, some pmsgque =>
    match waitMsg info m_ctrl pmsgque msqid (sharekey info.tbl pmsgque) timeout_ms wait_event with
    | .returned (some err,info,m_ctrl) =>
      store (some info)
      return .returned ⟨err,some info,m_ctrl,msg_data⟩
    | .returned (none,info,m_ctrl) =>
      store (some info)
      let (ret,msg_drv) ← ipc_msgque_dequeue (some pmsgque) msg_drv
      let g ← shared
      if ret ≠ 0 then return .returned ⟨-4,g,m_ctrl,msg_data⟩
      else if msg_size < msg_drv.size then return .returned ⟨-5,g,m_ctrl,msg_data⟩
      else return .returned ⟨msg_drv.size.toInt32,g,m_ctrl,some (copy user 0 msg_drv.data 4)⟩
    | .asleep => return .asleep
    | .undefined => return .undefined
  | _, _, _ => return .returned ⟨-EFAULT,g,m_ctrl,msg_data⟩

def ipc_core_handle_func (m_ctrl : IPC_CTRL) (bases : SharedBases) (memory : UINT32 → Mem) (core_getfrom : IPC_CC_CORE_T)
    (get_cmd_func : IPC_CC_CORE_T → IPC_CC_CMD_T → INT32 × IPC_CC_CMD_T) (cmd : IPC_CC_CMD_T) (rcvmsg : IPC_MSG) :
    Chain (Option IPC_CC_CORE_T × Option (UINT32 × Wake)) := do
  let cmd := (get_cmd_func core_getfrom cmd).2
  let msqid := ipc_msgque_getIDbyKey (← shared) cmd.opcode.toInt32
  if msqid < 0 then return (none,none)
  else
    let noncache_addr := ipc_get_noncache_addr bases cmd.data_addr
    let ret ← ipc_msgque_msgpost msqid.toUInt32 (pointer memory noncache_addr) cmd.data_size rcvmsg
    if ret ≠ 0 then return (none,none)
    else
      let readwait_interruptible := m_ctrl.readwait_interruptible msqid.toUInt32.toNat
      return (some core_getfrom,
        some (msqid.toUInt32,if readwait_interruptible then .wake_up_interruptible else .wake_up))

/-- A call from outside the file, with its arguments and what the environment gives it. -/
inductive Entry
  | ftok (path : List UInt8)
  | get (key : INT32)
  | rel (id : UINT32)
  | msgpost (msqid : UINT32) (pmsgaddr : Option Mem) (msgsize : UINT32) (rcvmsg : IPC_MSG)
  | snd (msqid sendTo : UINT32) (msg_data : Option Mem) (msg_size : UINT32) (signal : Bool) (noReturn : INT32)
  | rcv (m_ctrl : IPC_CTRL) (msqid : UINT32) (msg_data : Option Mem) (msg_size timeout_ms : UINT32)
    (wait_event : IPC_MSQINFO → Outcome (INT32 × IPC_MSQINFO)) (msg_drv : IPC_MSG)
  | handle (m_ctrl : IPC_CTRL) (bases : SharedBases) (memory : UINT32 → Mem) (core_getfrom : IPC_CC_CORE_T)
    (get_cmd_func : IPC_CC_CORE_T → IPC_CC_CMD_T → INT32 × IPC_CC_CMD_T) (cmd : IPC_CC_CMD_T) (rcvmsg : IPC_MSG)

/-- From a free lock, the chain of the call never waits for the lock that it holds. -/
def Ends (sign : CharSign) (g : Option IPC_MSQINFO) : Entry → Prop
  | .ftok path => (ipc_msgque_ftok sign path).run (g,false) ≠ none
  | .get key => (ipc_msgque_get key).run (g,false) ≠ none
  | .rel id => (ipc_msgque_rel sign id).run (g,false) ≠ none
  | .msgpost msqid pmsgaddr msgsize rcvmsg => (ipc_msgque_msgpost msqid pmsgaddr msgsize rcvmsg).run (g,false) ≠ none
  | .snd msqid sendTo msg_data msg_size signal noReturn =>
    (ipc_msg_snd msqid sendTo msg_data msg_size signal noReturn).run (g,false) ≠ none
  | .rcv m_ctrl msqid msg_data msg_size timeout_ms wait_event msg_drv =>
    (ipc_msg_rcv m_ctrl msqid msg_data msg_size timeout_ms wait_event msg_drv).run (g,false) ≠ none
  | .handle m_ctrl bases memory core_getfrom get_cmd_func cmd rcvmsg =>
    (ipc_core_handle_func m_ctrl bases memory core_getfrom get_cmd_func cmd rcvmsg).run (g,false) ≠ none

/-- A post gets as far as its enqueue. -/
def Posts (g : Option IPC_MSQINFO) (msqid : UINT32) (pmsgaddr : Option Mem) (msgsize : UINT32) : Prop :=
  pmsgaddr ≠ none ∧ msgsize ≤ IPC_MSG_ELEMENT_SIZE ∧ ipc_msgque_getQuebyID g msqid ≠ none

/-- The call accepts no incoming message. -/
def PostsNothing (g : Option IPC_MSQINFO) : Entry → Prop
  | .msgpost msqid pmsgaddr msgsize _ => ¬ Posts g msqid pmsgaddr msgsize
  | .handle _ bases memory core_getfrom get_cmd_func cmd _ =>
    let cmd := (get_cmd_func core_getfrom cmd).2
    let msqid := ipc_msgque_getIDbyKey g cmd.opcode.toInt32
    msqid < 0 ∨ ¬ Posts g msqid.toUInt32 (pointer memory (ipc_get_noncache_addr bases cmd.data_addr)) cmd.data_size
  | _ => True

section
variable {g : Option IPC_MSQINFO}

/-- The enqueue of a post asks for the lock that the post holds. -/
theorem msgpost_stuck_iff (msqid : UINT32) (pmsgaddr : Option Mem) (msgsize : UINT32) (rcvmsg : IPC_MSG) :
    (ipc_msgque_msgpost msqid pmsgaddr msgsize rcvmsg).run (g,false) = none ↔ Posts g msqid pmsgaddr msgsize := by
  cases pmsgaddr with
  | none => exact iff_of_false (by rintro ⟨⟩) fun posts => posts.1 rfl
  | some payload =>
    by_cases large : msgsize > IPC_MSG_ELEMENT_SIZE
    · refine iff_of_false ?_ fun posts => absurd posts.2.1 (by simpa using large)
      simp only [ipc_msgque_msgpost,if_pos large]
      rintro ⟨⟩
    · simp only [ipc_msgque_msgpost,if_neg large,bind_run (spin_lock_free _),bind_run (shared_run _ _)]
      cases found : ipc_msgque_getQuebyID g msqid with
      | none => exact iff_of_false (by rintro ⟨⟩) fun posts => posts.2.2 found
      | some q =>
        have stuck (msg : IPC_MSG) : (ipc_msgque_enqueue (some q) msg).run (g,true) = none := by
          rw [ipc_msgque_enqueue,bind_stuck (spin_lock_held _)]
        exact iff_of_true (bind_stuck (stuck _)) ⟨by simp,by simpa using large,by simp [found]⟩

theorem snd_ends (msqid sendTo : UINT32) (msg_data : Option Mem) (msg_size : UINT32) (signal : Bool) (noReturn : INT32) :
    (ipc_msg_snd msqid sendTo msg_data msg_size signal noReturn).run (g,false) ≠ none := by
  rw [ipc_msg_snd,bind_run (shared_run _ _)]
  cases Api.ipc_msg_snd g msqid sendTo msg_data msg_size signal noReturn with
  | returned sent => rintro ⟨⟩
  | asleep => rintro ⟨⟩
  | undefined => rintro ⟨⟩

theorem rcv_ends (m_ctrl : IPC_CTRL) (msqid : UINT32) (msg_data : Option Mem) (msg_size timeout_ms : UINT32)
    (wait_event : IPC_MSQINFO → Outcome (INT32 × IPC_MSQINFO)) (msg_drv : IPC_MSG) :
    (ipc_msg_rcv m_ctrl msqid msg_data msg_size timeout_ms wait_event msg_drv).run (g,false) ≠ none := by
  rw [ipc_msg_rcv,bind_run (shared_run _ _)]
  split
  · rename_i user info pmsgque found
    cases waitMsg info m_ctrl pmsgque msqid (sharekey info.tbl pmsgque) timeout_ms wait_event with
    | asleep => rintro ⟨⟩
    | undefined => rintro ⟨⟩
    | returned result =>
      obtain ⟨_ | err,info',m_ctrl'⟩ := result
      · simp only
        rw [bind_run (store_run _ _ _),bind_run (dequeue_run info' (some pmsgque) msg_drv),bind_run (shared_run _ _)]
        split
        · rintro ⟨⟩
        · split <;> rintro ⟨⟩
      · rintro ⟨⟩
  · rintro ⟨⟩

theorem handle_stuck_iff (m_ctrl : IPC_CTRL) (bases : SharedBases) (memory : UINT32 → Mem) (core_getfrom : IPC_CC_CORE_T)
    (get_cmd_func : IPC_CC_CORE_T → IPC_CC_CMD_T → INT32 × IPC_CC_CMD_T) (cmd : IPC_CC_CMD_T) (rcvmsg : IPC_MSG) :
    (ipc_core_handle_func m_ctrl bases memory core_getfrom get_cmd_func cmd rcvmsg).run (g,false) = none ↔
      ¬ PostsNothing g (.handle m_ctrl bases memory core_getfrom get_cmd_func cmd rcvmsg) := by
  simp only [ipc_core_handle_func,PostsNothing,not_or,not_not,bind_run (shared_run _ _)]
  by_cases unknown : ipc_msgque_getIDbyKey g (get_cmd_func core_getfrom cmd).2.opcode.toInt32 < 0
  · simp only [unknown,if_true,not_true,false_and,iff_false]
    rintro ⟨⟩
  · simp only [unknown,if_false,not_false_eq_true,true_and]
    rw [← msgpost_stuck_iff _ _ _ rcvmsg]
    constructor
    · intro stuck
      cases posted : (ipc_msgque_msgpost (ipc_msgque_getIDbyKey g (get_cmd_func core_getfrom cmd).2.opcode.toInt32).toUInt32
          (pointer memory (ipc_get_noncache_addr bases (get_cmd_func core_getfrom cmd).2.data_addr))
          (get_cmd_func core_getfrom cmd).2.data_size rcvmsg).run (g,false) with
      | none => rfl
      | some result =>
        obtain ⟨ret,t⟩ := result
        rw [bind_run posted] at stuck
        split at stuck <;> cases stuck
    · exact fun stuck => bind_stuck stuck

end

/-- For every table, argument and entry point: the chain acquires no lock that it
    holds exactly if it accepts no incoming message. -/
theorem no_self_deadlock_iff (sign : CharSign) (g : Option IPC_MSQINFO) (call : Entry) :
    Ends sign g call ↔ PostsNothing g call := by
  cases call with
  | ftok path => exact iff_of_true (by simp [Ends,ftok_run]) trivial
  | get key => exact iff_of_true (by simp [Ends,get_run]) trivial
  | rel id => exact iff_of_true (by simp [Ends,rel_run]) trivial
  | msgpost msqid pmsgaddr msgsize rcvmsg => exact not_congr (msgpost_stuck_iff msqid pmsgaddr msgsize rcvmsg)
  | snd msqid sendTo msg_data msg_size signal noReturn =>
    exact iff_of_true (snd_ends msqid sendTo msg_data msg_size signal noReturn) trivial
  | rcv m_ctrl msqid msg_data msg_size timeout_ms wait_event msg_drv =>
    exact iff_of_true (rcv_ends m_ctrl msqid msg_data msg_size timeout_ms wait_event msg_drv) trivial
  | handle m_ctrl bases memory core_getfrom get_cmd_func cmd rcvmsg =>
    rw [Ends,ne_eq,handle_stuck_iff,not_not]

/-- A message of four bytes for a live queue: its handler waits for the lock that it holds. -/
theorem post_self_deadlocks : ∃ get_cmd_func,
    (ipc_msgque_msgpost 0 (some fun _ => 1) 4 ⟨0,fun _ => 0⟩).run (some Table.firstQueue,false) = none ∧
    (ipc_core_handle_func ⟨fun _ => false⟩ ⟨0x00100000,0xC0100000⟩ (fun _ _ => 1) .IPC_CC_CORE_CPU1 get_cmd_func ⟨0,0,0⟩
      ⟨0,fun _ => 0⟩).run (some Table.firstQueue,false) = none := by
  refine ⟨fun _ _ => (0,⟨5,0x00100004,4⟩),(msgpost_stuck_iff _ _ _ _).mpr ?_,(handle_stuck_iff _ _ _ _ _ _ _).mpr ?_⟩
  · exact ⟨by simp,by decide,by decide +kernel⟩
  · rintro (unknown | refused)
    · exact absurd unknown (by decide +kernel)
    · exact refused ⟨by simp only [pointer]; decide +kernel,by decide,by decide +kernel⟩

end IpcMsq.Deadlock
