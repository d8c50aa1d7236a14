import IpcMsq.Device

/-!
The user-space library `ipclib.c` with its statics and its system calls. What
`open` and `ioctl` return is a parameter, and so is the content of the struct on
the stack. The mutex of `ipc_open` is no part of the state: calls do not overlap.
-/
namespace IpcMsq.Process
open IpcMsq.Memory IpcMsq.Common IpcMsq.SendBuff IpcMsq.Device

@[simp] abbrev IPC_ERR_OK : INT32 := 0
@[simp] abbrev IPC_ERR_SND_MSG : INT32 := -3
@[simp] abbrev IPC_ERR_RCV_MSG : INT32 := -4
@[simp] abbrev IPC_ERR_SNDSIZE_OVER_LIMIT : INT32 := -9
@[simp] abbrev IPC_ERR_NOT_OPENED : INT32 := -11

structure Statics where
  ipcfd : INT32
  msqcnt : INT32
deriving DecidableEq

/-- A system call: an `open` with the descriptor it returned, an `ioctl` or a
    `close` with the descriptor it is on. -/
inductive Syscall
  | sys_open (fd : INT32)
  | sys_ioctl (fd : INT32)
  | sys_close (fd : INT32)
deriving DecidableEq

/-- What a library call returned, the statics after it and the system calls it made. -/
structure Returned (α : Type) where
  ret : α
  statics : Statics
  calls : List Syscall

/-! ### Opening and closing -/

def ipc_open (opened : INT32) (s : Statics) : Returned INT32 :=
  if s.ipcfd < 0 then
    let s := { s with ipcfd := opened }
    if s.ipcfd < 0 then ⟨IPC_ERR_NOT_OPENED,s,[.sys_open opened]⟩ else ⟨s.ipcfd,s,[.sys_open opened]⟩
  else ⟨s.ipcfd,s,[]⟩

/-- `ipcfd` keeps its value. -/
def ipc_close (s : Statics) : Returned INT32 :=
  ⟨IPC_ERR_OK,s,if 0 ≤ s.ipcfd then [.sys_close s.ipcfd] else []⟩

/-! ### Names and queues -/

/-- `strncpy` into the 33 bytes of the struct, and a NUL in the last of them. -/
def userPath (path old : List UInt8) : List UInt8 :=
  ((List.range IPC_MSG_QUEUE_TOKEN_STR_MAXLEN).map fun k => (cstr path).getD k 0) ++ 0 :: old.drop 33

/-- A null `path` is `none`. -/
def ipc_ftok (path : Option (List UInt8)) (opened : INT32)
    (ioctl : IPC_IOC_MSGQUE_FTOK → INT32 × IPC_IOC_MSGQUE_FTOK) (msg : IPC_IOC_MSGQUE_FTOK) (s : Statics) : Returned INT16 :=
  match path with
  | none => ⟨-1,s,[]⟩
  | some path =>
    let msg := { msg with path := userPath path msg.path }
    let o := ipc_open opened s
    if o.ret < 0 then ⟨-2,o.statics,o.calls⟩
    else
      let calls := o.calls ++ [.sys_ioctl o.statics.ipcfd]
      let (ret,msg) := ioctl msg
      if ret < 0 then ⟨-3,o.statics,calls⟩ else ⟨msg.rtn_key.toInt16,o.statics,calls⟩

def ipc_msg_get (key : INT16) (opened : INT32) (ioctl : IPC_IOC_MSGQUE_GET → INT32 × IPC_IOC_MSGQUE_GET)
    (msg : IPC_IOC_MSGQUE_GET) (s : Statics) : Returned INT32 :=
  let msg := { msg with key := key.toUInt16 }
  let o := ipc_open opened s
  if o.ret < 0 then ⟨-1,o.statics,o.calls⟩
  else
    let calls := o.calls ++ [.sys_ioctl o.statics.ipcfd]
    let (ret,msg) := ioctl msg
    if ret < 0 then ⟨-2,o.statics,calls⟩
    else if msg.rtn ≥ 0 then ⟨msg.rtn,{ o.statics with msqcnt := o.statics.msqcnt + 1 },calls⟩
    else ⟨msg.rtn,o.statics,calls⟩

/-- It does not open the device, and an `ioctl` that never returns leaves it waiting. -/
def ipc_msg_rel (msqid : UINT32) (ioctl : IPC_IOC_MSGQUE_REL → Outcome (INT32 × IPC_IOC_MSGQUE_REL))
    (msg : IPC_IOC_MSGQUE_REL) (s : Statics) : Returned (Outcome INT32) :=
  let msg := { msg with msqid := msqid }
  match ioctl msg with
  | .returned (ret,msg) =>
    if ret < 0 then ⟨.returned (-1),s,[.sys_ioctl s.ipcfd]⟩
    else if msg.rtn = IPC_ERR_OK then
      let msqcnt := s.msqcnt - 1
      if msqcnt = 0 then ⟨.returned msg.rtn,⟨-1,msqcnt⟩,[.sys_ioctl s.ipcfd,.sys_close s.ipcfd]⟩
      else ⟨.returned msg.rtn,{ s with msqcnt := msqcnt },[.sys_ioctl s.ipcfd]⟩
    else ⟨.returned msg.rtn,s,[.sys_ioctl s.ipcfd]⟩
  | .asleep => ⟨.asleep,s,[.sys_ioctl s.ipcfd]⟩
  | .undefined => ⟨.undefined,s,[.sys_ioctl s.ipcfd]⟩

/-! ### Messages -/

def ipc_msg_snd (msqid sendTo : UINT32) (pmsg_data : Option Mem) (msg_size : UINT32) (opened : INT32)
    (ioctl : IPC_IOC_MSGQUE_SND → Outcome (INT32 × IPC_IOC_MSGQUE_SND)) (msg : IPC_IOC_MSGQUE_SND) (s : Statics) :
    Returned (Outcome INT32) :=
  let o := ipc_open opened s
  if o.ret < 0 then ⟨.returned IPC_ERR_SND_MSG,o.statics,o.calls⟩
  else if msg_size > IPC_MSG_ELEMENT_SIZE then ⟨.returned IPC_ERR_SNDSIZE_OVER_LIMIT,o.statics,o.calls⟩
  else
    match pmsg_data with
    | none => ⟨.returned IPC_ERR_SND_MSG,o.statics,o.calls⟩
    | some data =>
      let msg := { msg with
        msqid := msqid, sendTo := sendTo, msg_size := msg_size, msg_data := copy msg.msg_data 0 data msg_size.toNat }
      let ret := (ioctl msg).bind fun (ret,msg) => .returned (if ret < 0 then IPC_ERR_SND_MSG else msg.rtn)
      ⟨ret,o.statics,o.calls ++ [.sys_ioctl o.statics.ipcfd]⟩

/-- The rest of `ipc_msg_rcv` behind its `ipc_open`, with the descriptor that returned.
    `msg` is the uninitialised local. -/
def ipc_msg_rcvOpened (ipc_open : INT32) (ioctl : IPC_IOC_MSGQUE_RCV → Outcome Ioctl) (msqid : UINT32)
    (pmsg_data : Option Mem) (msg_size : UINT32) (msg : IPC_IOC_MSGQUE_RCV) : Outcome (INT32 × Option Mem) :=
  if ipc_open < 0 then .returned (IPC_ERR_RCV_MSG,pmsg_data)
  else
    match pmsg_data with
    | none => .returned (IPC_ERR_RCV_MSG,none)
    | some buffer =>
      (ioctl { msg with msqid := msqid, msg_size := msg_size }).bind fun r =>
        if r.ret < 0 then .returned (IPC_ERR_RCV_MSG,some buffer)
        else if r.msg_user.rtn > 0 then
          .returned (r.msg_user.rtn,some (copy buffer 0 r.msg_user.msg_data r.msg_user.rtn.toUInt32.toNat))
        else .returned (r.msg_user.rtn,some buffer)

def ipc_msg_rcv (msqid : UINT32) (pmsg_data : Option Mem) (msg_size : UINT32) (opened : INT32)
    (ioctl : IPC_IOC_MSGQUE_RCV → Outcome Ioctl) (msg : IPC_IOC_MSGQUE_RCV) (s : Statics) :
    Returned (Outcome (INT32 × Option Mem)) :=
  let o := ipc_open opened s
  let calls := if o.ret < 0 ∨ pmsg_data.isNone then o.calls else o.calls ++ [.sys_ioctl o.statics.ipcfd]
  ⟨ipc_msg_rcvOpened o.ret ioctl msqid pmsg_data msg_size msg,o.statics,calls⟩

end IpcMsq.Process
