import IpcMsq.Elements
import IpcMsq.SendBuff
import IpcMsq.Communicator

/-!
The two calls of `drv_ipc_api.c`. A send fills a message slot and gives a command
to the communicator; a receive waits for a message and copies it out. What the
environment decides is a parameter: whether a signal ends a wait, what a sleep
returns and the table at its end, and the value a missing `return` leaves.
-/
namespace IpcMsq.Api
open IpcMsq.Memory IpcMsq.Common IpcMsq.Table IpcMsq.Elements IpcMsq.SendBuff IpcMsq.Communicator

/-! ### Sending -/

/-- What a send returned, the state after it, and the commands it gave to `ipc_cc_send_cmd`. -/
structure Sent where
  ret : INT32
  g : Option IPC_MSQINFO
  cmds : List (IPC_CC_CORE_T × IPC_CC_CMD_T)

/-- The two writes to the slot at `p_sendmsg`. -/
def fillSndMsg (info : IPC_MSQINFO) (p_sendmsg sendTo : UINT32) (msg_data : Mem) (msg_size : UINT32) : IPC_MSQINFO :=
  let at_p := slotOffset info p_sendmsg
  { info with syscmdbuf := copy (store32 info.syscmdbuf at_p sendTo) (at_p + 4) msg_data msg_size.toNat }

/-- The command about the message in the slot at `p_sendmsg`. -/
def ccCmd (info : IPC_MSQINFO) (pmsgque : Nat) (p_sendmsg msg_size : UINT32) : IPC_CC_CMD_T where
  opcode := sharekey info.tbl pmsgque
  data_addr := ipc_msgque_getPhyAddr (some info) (p_sendmsg + 4)
  data_size := msg_size

/-- A slot may lie at the address 0, where the allocation wraps. The second branch
    compares the slot's address with a core number, as the source does; the errors
    after the lock keep the semaphore. After a dispatch the function ends without a
    `return`. -/
def ipc_msg_snd (g : Option IPC_MSQINFO) (msqid sendTo : UINT32) (msg_data : Option Mem) (msg_size : UINT32)
    (signal : Bool) (noReturn : INT32) : Outcome Sent :=
  match ipc_msgque_getQuebyID g msqid, msg_data with
  | none, _ => .returned ⟨-1,g,[]⟩
  | _, none => .returned ⟨-2,g,[]⟩
  | some pmsgque, some msg_data =>
    if sendTo > IPC_SENDTO_MAX then .returned ⟨-3,g,[]⟩
    else if msg_size > IPC_MSG_ELEMENT_SIZE then .returned ⟨-4,g,[]⟩
    else (ipc_msgque_lockSndMsgBuff g sendTo signal).bind fun
      | (some p_sendmsg,some info) =>
        if p_sendmsg = 0 then .returned ⟨-5,some info,[]⟩ else
        let info := fillSndMsg info p_sendmsg sendTo msg_data msg_size
        if load32 info.syscmdbuf (slotOffset info p_sendmsg) = IPC_SENDTO_CORE1 then
          (ipc_msgque_unlockSndMsgBuff (some info) sendTo).bind fun g =>
            .returned ⟨noReturn,g,[(.IPC_CC_CORE_CPU1,ccCmd info pmsgque p_sendmsg msg_size)]⟩
        else if p_sendmsg = IPC_SENDTO_CORE3 then
          (ipc_msgque_unlockSndMsgBuff (some info) sendTo).bind fun g =>
            .returned ⟨noReturn,g,[(.IPC_CC_CORE_DSP,ccCmd info pmsgque p_sendmsg msg_size)]⟩
        else .returned ⟨-6,some info,[]⟩
      | (_,g) => .returned ⟨-5,g,[]⟩

/-- A core that passes the check of a send. -/
theorem sendTo_admitted {sendTo : UINT32} (valid : sendTo.toNat ≤ 3) : ¬ sendTo > IPC_SENDTO_MAX := by
  simp only [gt_iff_lt,UInt32.lt_iff_toNat_lt,IPC_SENDTO_MAX,IPC_SENDTO_CORE3,UInt32.reduceToNat]
  omega

section
variable (info : IPC_MSQINFO) (p sendTo msg_size : UINT32) (payload : Mem)

@[simp] theorem fill_tbl : (fillSndMsg info p sendTo payload msg_size).tbl = info.tbl := rfl
@[simp] theorem fill_buffTbl : (fillSndMsg info p sendTo payload msg_size).sndmsg_buffTbl = info.sndmsg_buffTbl := rfl

theorem fill_syscmdbuf : (fillSndMsg info p sendTo payload msg_size).syscmdbuf =
    copy (store32 info.syscmdbuf (slotOffset info p) sendTo) (slotOffset info p + 4) payload msg_size.toNat := rfl

/-- A fill leaves every byte outside the slot's first word and the payload. -/
theorem fill_outside {a : Nat} (apart : a < slotOffset info p ∨ slotOffset info p + 4 + msg_size.toNat ≤ a) :
    (fillSndMsg info p sendTo payload msg_size).syscmdbuf a = info.syscmdbuf a := by
  rw [fill_syscmdbuf,copy_outside (by omega),store32_outside (by omega)]

/-- The payload is behind the first word. -/
theorem fill_payload :
    bytes (fillSndMsg info p sendTo payload msg_size).syscmdbuf (slotOffset info p + 4) msg_size.toNat =
      bytes payload 0 msg_size.toNat := bytes_copy

end

/-- A send that returns was refused before the lock, or got a null slot, or filled
    its slot and then gave its one command or refused the destination. -/
theorem snd_returned {info : IPC_MSQINFO} {msqid sendTo msg_size : UINT32} {msg_data : Option Mem} {signal : Bool}
    {noReturn : INT32} {sent : Sent}
    (called : ipc_msg_snd (some info) msqid sendTo msg_data msg_size signal noReturn = .returned sent) :
    (sent.ret < 0 ∧ sent.g = some info ∧ sent.cmds = []) ∨
    ∃ q payload c p locked, ipc_msgque_getQuebyID (some info) msqid = some q ∧ msg_data = some payload ∧
      sendTo.toNat ≤ 3 ∧ msg_size.toNat ≤ 24 ∧ destination sendTo = some c ∧
      ipc_msgque_lockSndMsgBuff (some info) sendTo signal = .returned (some p,some locked) ∧
      (p = 0 ∧ sent.ret = -5 ∧ sent.cmds = [] ∧ sent.g = some locked ∨ p ≠ 0 ∧ ((∃ core, sent.ret = noReturn ∧ sent.cmds = [(core,ccCmd (fillSndMsg locked p sendTo payload msg_size) q p msg_size)] ∧
        sent.g = some (setBuff (fillSndMsg locked p sendTo payload msg_size) c
          { locked.sndmsg_buffTbl c with semid := (locked.sndmsg_buffTbl c).semid + 1 })) ∨
      sent.ret = -6 ∧ sent.cmds = [] ∧ sent.g = some (fillSndMsg locked p sendTo payload msg_size))) := by
  simp only [ipc_msg_snd] at called
  cases found : ipc_msgque_getQuebyID (some info) msqid with
  | none =>
    simp only [found,Outcome.returned.injEq] at called
    exact .inl (by simp [← called])
  | some q =>
    cases msg_data with
    | none =>
      simp only [found,Outcome.returned.injEq] at called
      exact .inl (by simp [← called])
    | some payload =>
      simp only [found] at called
      split at called
      · simp only [Outcome.returned.injEq] at called
        exact .inl (by simp [← called])
      rename_i valid
      split at called
      · simp only [Outcome.returned.injEq] at called
        exact .inl (by simp [← called])
      rename_i small
      simp only [gt_iff_lt,UInt32.lt_iff_toNat_lt,IPC_SENDTO_MAX,IPC_SENDTO_CORE3,IPC_MSG_ELEMENT_SIZE,UInt32.reduceToNat,
        not_lt] at valid small
      obtain ⟨⟨buff,g⟩,lock,rest⟩ := Outcome.bind_returned.mp called
      obtain ⟨c,p,locked,at_c,rfl,rfl⟩ : ∃ c p locked, destination sendTo = some c ∧ buff = some p ∧ g = some locked := by
        obtain ⟨c,_,at_c,_,given,after⟩ := lock_returned lock
        exact ⟨c,_,_,at_c,given,after⟩
      refine .inr ⟨q,payload,c,p,locked,rfl,rfl,valid,small,at_c,lock,?_⟩
      simp only [unlock_some at_c,Outcome.returned_bind,fill_buffTbl] at rest
      split at rest
      · rename_i null
        cases rest
        exact .inl ⟨null,rfl,rfl,rfl⟩
      rename_i slot
      refine .inr ⟨slot,?_⟩
      split at rest
      · cases rest
        exact .inl ⟨_,rfl,rfl,rfl⟩
      · split at rest
        · cases rest
          exact .inl ⟨_,rfl,rfl,rfl⟩
        · cases rest
          exact .inr ⟨rfl,rfl,rfl⟩

/-- A send leaves the table, and its commands carry the key of the queue. -/
theorem snd_table {info : IPC_MSQINFO} {msqid sendTo msg_size : UINT32} {msg_data : Option Mem} {signal : Bool}
    {noReturn : INT32} {sent : Sent}
    (called : ipc_msg_snd (some info) msqid sendTo msg_data msg_size signal noReturn = .returned sent) :
    (∃ info', sent.g = some info' ∧ info'.tbl = info.tbl) ∧
      ∀ core cmd, (core,cmd) ∈ sent.cmds → ∃ q, ipc_msgque_getQuebyID (some info) msqid = some q ∧
        cmd.opcode = sharekey info.tbl q := by
  rcases snd_returned called with ⟨_,same,none⟩ | ⟨q,payload,c,p,locked,live,_,_,_,_,lock,done⟩
  · exact ⟨⟨info,same,rfl⟩,by simp [none]⟩
  · have table := (lock_memory lock).1
    rcases done with ⟨_,_,none,after⟩ | ⟨_,⟨core,_,one,after⟩ | ⟨_,none,after⟩⟩
    · exact ⟨⟨_,after,table⟩,by simp [none]⟩
    · refine ⟨⟨_,after,table⟩,fun core' cmd listed => ⟨q,live,?_⟩⟩
      rw [one,List.mem_singleton] at listed
      cases listed
      simp only [ccCmd,fill_tbl,table]
    · exact ⟨⟨_,after,table⟩,by simp [none]⟩

/-- With a queue, an admitted size and a slot from the lock that is not null, a send
    returns and leaves the send buffers as the fill does. -/
theorem snd_fills {info locked : IPC_MSQINFO} {msqid sendTo msg_size p : UINT32} {signal : Bool}
    {q : Nat} {c : Fin 3} (live : ipc_msgque_getQuebyID (some info) msqid = some q) (valid : sendTo.toNat ≤ 3)
    (admitted : msg_size.toNat ≤ 24) (at_c : destination sendTo = some c) (payload : Mem)
    (noReturn : INT32) (slot : p ≠ 0)
    (lock : ipc_msgque_lockSndMsgBuff (some info) sendTo signal = .returned (some p,some locked)) :
    ∃ sent, ipc_msg_snd (some info) msqid sendTo (some payload) msg_size signal noReturn = .returned sent ∧
      ∀ info', sent.g = some info' → info'.syscmdbuf = (fillSndMsg locked p sendTo payload msg_size).syscmdbuf := by
  simp only [ipc_msg_snd,live,if_neg (sendTo_admitted valid),if_neg (size_admitted admitted),lock,Outcome.returned_bind,
    if_neg slot,unlock_some at_c]
  split
  · exact ⟨_,rfl,by rintro _ ⟨⟩; rfl⟩
  · split
    · exact ⟨_,rfl,by rintro _ ⟨⟩; rfl⟩
    · exact ⟨_,rfl,by rintro _ ⟨⟩; rfl⟩

/-! ### Receiving -/

/-- The driver's control block: how a receiver of each queue sleeps. -/
structure IPC_CTRL where
  readwait_interruptible : Nat → Bool

/-- What a receive returned, and the state and the caller's buffer after it. -/
structure Received where
  ret : INT32
  g : Option IPC_MSQINFO
  m_ctrl : IPC_CTRL
  msg_data : Option Mem

/-- The wait of a receive: `none` when there is a message, else the error it
    returns. A second turn of the loop finds the queue as the first left it. -/
def waitMsg (info : IPC_MSQINFO) (m_ctrl : IPC_CTRL) (pmsgque : Nat) (msqid sharekey timeout_ms : UINT32)
    (wait_event : IPC_MSQINFO → Outcome (INT32 × IPC_MSQINFO)) : Outcome (Option INT32 × IPC_MSQINFO × IPC_CTRL) :=
  if ipc_msgque_isempty info.tbl (some pmsgque) then
    (wait_event info).bind fun (ret,info) =>
      let m_ctrl : IPC_CTRL :=
        { m_ctrl with readwait_interruptible := Function.update m_ctrl.readwait_interruptible msqid.toNat (timeout_ms == 0) }
      if !ipc_msgque_isvalid info.tbl sharekey (some pmsgque) then .returned (some (-1),info,m_ctrl)
      else if ret = 0 ∧ timeout_ms ≠ 0 then .returned (some (-2),info,m_ctrl)
      else if ipc_msgque_isempty info.tbl (some pmsgque) then .returned (some (-3),info,m_ctrl)
      else .returned (none,info,m_ctrl)
  else .returned (none,info,m_ctrl)

/-- `msg_drv` is the uninitialised local. The last copy is as long as the size
    word is wide, not as long as the size says. -/
def ipc_msg_rcv (g : Option IPC_MSQINFO) (m_ctrl : IPC_CTRL) (msqid : UINT32) (msg_data : Option Mem)
    (msg_size timeout_ms : UINT32) (wait_event : IPC_MSQINFO → Outcome (INT32 × IPC_MSQINFO)) (msg_drv : IPC_MSG) :
    Outcome Received :=
  match msg_data, g, ipc_msgque_getQuebyID g msqid with
  | some user, some info, some pmsgque =>
    (waitMsg info m_ctrl pmsgque msqid (sharekey info.tbl pmsgque) timeout_ms wait_event).bind fun
      | (some err,info,m_ctrl) => .returned ⟨err,some info,m_ctrl,msg_data⟩
      | (none,info,m_ctrl) =>
        let (ret,msg_drv,tbl) := ipc_msgque_dequeue info.tbl (some pmsgque) msg_drv
        let g := some { info with tbl := tbl }
        if ret ≠ 0 then .returned ⟨-4,g,m_ctrl,msg_data⟩
        else if msg_size < msg_drv.size then .returned ⟨-5,g,m_ctrl,msg_data⟩
        else .returned ⟨msg_drv.size.toInt32,g,m_ctrl,some (copy user 0 msg_drv.data 4)⟩
  | _, _, _ => .returned ⟨-EFAULT,g,m_ctrl,msg_data⟩

/-- With a message in the queue a receive does not wait. -/
theorem rcv_nonempty {info : IPC_MSQINFO} {msqid : UINT32} {q : Nat}
    (live : ipc_msgque_getQuebyID (some info) msqid = some q) (waiting : ipc_msgque_isempty info.tbl (some q) = false)
    (m_ctrl : IPC_CTRL) (user : Mem) (msg_size timeout_ms : UINT32)
    (wait_event : IPC_MSQINFO → Outcome (INT32 × IPC_MSQINFO)) (msg_drv : IPC_MSG) :
    ipc_msg_rcv (some info) m_ctrl msqid (some user) msg_size timeout_ms wait_event msg_drv =
      if msg_size < (takeElement info.tbl q msg_drv).1.size then
        .returned ⟨-5,some { info with tbl := (takeElement info.tbl q msg_drv).2 },m_ctrl,some user⟩
      else .returned ⟨(takeElement info.tbl q msg_drv).1.size.toInt32,
        some { info with tbl := (takeElement info.tbl q msg_drv).2 },m_ctrl,
        some (copy user 0 (takeElement info.tbl q msg_drv).1.data 4)⟩ := by
  simp [ipc_msg_rcv,live,waitMsg,waiting,ipc_msgque_dequeue]

/-- With none, and a wait that does not end, it does not return. -/
theorem rcv_asleep {info : IPC_MSQINFO} {msqid : UINT32} {q : Nat}
    (live : ipc_msgque_getQuebyID (some info) msqid = some q) (empty : ipc_msgque_isempty info.tbl (some q) = true)
    (m_ctrl : IPC_CTRL) (user : Mem) (msg_size timeout_ms : UINT32) (msg_drv : IPC_MSG) :
    ipc_msg_rcv (some info) m_ctrl msqid (some user) msg_size timeout_ms (fun _ => .asleep) msg_drv = .asleep := by
  simp [ipc_msg_rcv,live,waitMsg,empty,Outcome.bind]

end IpcMsq.Api
