import IpcMsq.Api
import IpcMsq.Bits

/-!
The character device of `drv_ipc_main.c`: its ioctls, and the bitmap of ids that
each open file keeps. The user's struct is copied in and out whole; each copy
succeeds or fails as the environment decides, and after the `break` of a case
`ipc_ioctl` ends without a `return`. The call to `ipc_msg_rcv` is read with the
core it leaves out.
-/
namespace IpcMsq.Device
open IpcMsq.Memory IpcMsq.Common IpcMsq.Table IpcMsq.SendBuff IpcMsq.Api
open Bits (one_shiftLeft)

/-- `msg_data` is the memory from that member on, as in `IPC_MSG`. -/
structure IPC_IOC_MSGQUE_RCV where
  msqid : UINT32
  msg_data : Mem
  msg_size : UINT32
  rtn : INT32

/-- What an ioctl returned, the user's struct after it, and the driver's state. -/
structure Ioctl where
  ret : INT32
  msg_user : IPC_IOC_MSGQUE_RCV
  g : Option IPC_MSQINFO
  m_ctrl : IPC_CTRL

/-- The case `IOC_IPC_MSGQUE_RCV` of `ipc_ioctl`. -/
def ioctl_MSGQUE_RCV (g : Option IPC_MSQINFO) (m_ctrl : IPC_CTRL) (msg_user : IPC_IOC_MSGQUE_RCV)
    (copy_from_user copy_to_user : Bool) (noReturn : INT32)
    (wait_event : IPC_MSQINFO → Outcome (INT32 × IPC_MSQINFO)) (msg_drv : IPC_MSG) : Outcome Ioctl :=
  if copy_from_user = false then .returned ⟨-EFAULT,msg_user,g,m_ctrl⟩
  else
    let msg_kernel := msg_user
    (ipc_msg_rcv g m_ctrl msg_kernel.msqid (some msg_kernel.msg_data) msg_kernel.msg_size 0 wait_event msg_drv).bind fun r =>
      let msg_kernel := { msg_kernel with msg_data := r.msg_data.getD msg_kernel.msg_data, rtn := r.ret }
      if msg_kernel.rtn < 0 then .returned ⟨msg_kernel.rtn,msg_user,r.g,r.m_ctrl⟩
      else if copy_to_user = false then .returned ⟨-EFAULT,msg_user,r.g,r.m_ctrl⟩
      else .returned ⟨noReturn,msg_kernel,r.g,r.m_ctrl⟩

/-! ### Names and sends -/

/-- `path` is the memory from that member on. -/
structure IPC_IOC_MSGQUE_FTOK where
  path : List UInt8
  rtn_key : UINT16
deriving DecidableEq

def ioctl_MSGQUE_FTOK (sign : CharSign) (g : Option IPC_MSQINFO) (msg_user : IPC_IOC_MSGQUE_FTOK)
    (copy_from_user copy_to_user : Bool) (noReturn : INT32) : INT32 × Option IPC_MSQINFO × IPC_IOC_MSGQUE_FTOK :=
  if copy_from_user = false then (-EFAULT,g,msg_user)
  else
    let msg_kernel := msg_user
    let (rtn_key,g) := ipc_msgque_ftok sign g msg_kernel.path
    let msg_kernel := { msg_kernel with rtn_key := rtn_key }
    if copy_to_user = false then (-EFAULT,g,msg_user) else (noReturn,g,msg_kernel)

/-- `msg_data` is the memory from that member on. -/
structure IPC_IOC_MSGQUE_SND where
  msqid : UINT32
  sendTo : UINT32
  msg_data : Mem
  msg_size : UINT32
  rtn : INT32

/-- What the ioctl returned, the user's struct and what the send did. -/
structure SndIoctl where
  ret : INT32
  msg_user : IPC_IOC_MSGQUE_SND
  sent : Sent

/-- `noRtn` is the value that `ipc_msg_snd` leaves where its `return` is missing.
    Without a call to it there is nothing sent. -/
def ioctl_MSGQUE_SND (g : Option IPC_MSQINFO) (msg_user : IPC_IOC_MSGQUE_SND) (copy_from_user copy_to_user signal : Bool)
    (noRtn noReturn : INT32) : Outcome SndIoctl :=
  if copy_from_user = false then .returned ⟨-EFAULT,msg_user,⟨0,g,[]⟩⟩
  else
    let msg_kernel := msg_user
    (ipc_msg_snd g msg_kernel.msqid msg_kernel.sendTo (some msg_kernel.msg_data) msg_kernel.msg_size signal noRtn).bind
      fun sent =>
        let msg_kernel := { msg_kernel with rtn := sent.ret }
        if copy_to_user = false then .returned ⟨-EFAULT,msg_user,sent⟩ else .returned ⟨noReturn,msg_kernel,sent⟩

/-! ### The bitmap of a file -/

structure ipc_device where
  storequebit : UINT32

/-- `1 << n`, and from 32 on what the machine makes of it. -/
def shiftOne (overshift : UINT32 → UINT32) (n : UINT32) : UINT32 := if n.toNat < 32 then 1 <<< n else overshift n

/-- The test `storequebit & (1 << i)`. -/
def ipc_device.stored (pdev : ipc_device) (i : Nat) : Bool := pdev.storequebit &&& (1 <<< UInt32.ofNat i) != 0

/-- `storequebit |= (1 << msqid)`. -/
def ipc_device.store (pdev : ipc_device) (overshift : UINT32 → UINT32) (msqid : UINT32) : ipc_device where
  storequebit := pdev.storequebit ||| shiftOne overshift msqid

/-- `storequebit &= ~(1 << msqid)`. -/
def ipc_device.clear (pdev : ipc_device) (overshift : UINT32 → UINT32) (msqid : UINT32) : ipc_device where
  storequebit := pdev.storequebit &&& ~~~ shiftOne overshift msqid

structure IPC_IOC_MSGQUE_GET where
  key : UINT16
  rtn : INT32

structure IPC_IOC_MSGQUE_REL where
  msqid : UINT32
  rtn : INT32

/-- The `int` parameter that the ioctl's key is passed in. -/
def IPC_IOC_MSGQUE_GET.keyArg (msg : IPC_IOC_MSGQUE_GET) : INT32 := msg.key.toUInt32.toInt32

/-- The case `IOC_IPC_MSGQUE_GET`. -/
def ioctl_MSGQUE_GET (overshift : UINT32 → UINT32) (g : Option IPC_MSQINFO) (private_data : Option ipc_device)
    (msg_user : IPC_IOC_MSGQUE_GET) (copy_from_user copy_to_user : Bool) (noReturn : INT32) :
    INT32 × Option ipc_device × IPC_IOC_MSGQUE_GET :=
  match private_data with
  | none => (-EFAULT,none,msg_user)
  | some pdev =>
    if copy_from_user = false then (-EFAULT,some pdev,msg_user)
    else
      let msg_kernel := msg_user
      let msqid := ipc_msgque_getIDbyKey g msg_kernel.keyArg
      let pdev := if 0 ≤ msqid then pdev.store overshift msqid.toUInt32 else pdev
      let msg_kernel := { msg_kernel with rtn := msqid }
      if copy_to_user = false then (-EFAULT,some pdev,msg_user) else (noReturn,some pdev,msg_kernel)

section
variable {pdev : ipc_device} {overshift : UINT32 → UINT32} {msqid : UINT32} {i : Nat}

/-- The test reads the bit. -/
theorem stored_getLsbD (inside : i < 32) : pdev.stored i = pdev.storequebit.toBitVec.getLsbD i := by
  have number : (UInt32.ofNat i).toNat = i := by
    rw [UInt32.toNat_ofNat']
    omega
  have shift := one_shiftLeft (n := UInt32.ofNat i) (by omega)
  rw [number] at shift
  have bit : (BitVec.twoPow 32 i).getLsbD i = true := by simp [inside]
  have nonzero : BitVec.twoPow 32 i ≠ 0#32 := by
    intro zero
    simp [zero] at bit
  rw [Bool.eq_iff_iff,ipc_device.stored,bne_iff_ne,ne_eq,← UInt32.toBitVec_inj,UInt32.toBitVec_and,shift,BitVec.and_twoPow]
  by_cases set : pdev.storequebit.toBitVec.getLsbD i = true
  · simpa [set] using nonzero
  · simp [set]

theorem shiftOne_getLsbD (small : msqid.toNat < 32) :
    (shiftOne overshift msqid).toBitVec.getLsbD i = decide (msqid.toNat = i) := by
  rw [shiftOne,if_pos small,one_shiftLeft small,BitVec.getLsbD_twoPow]
  simp [small]

/-- A GET sets the bit of its id and no other. -/
theorem stored_store (inside : i < 32) (small : msqid.toNat < 32) :
    (pdev.store overshift msqid).stored i = (pdev.stored i || decide (msqid.toNat = i)) := by
  rw [stored_getLsbD inside,stored_getLsbD inside,ipc_device.store,UInt32.toBitVec_or,BitVec.getLsbD_or,
    shiftOne_getLsbD small]

/-- A REL clears the bits of its shift. -/
theorem stored_clear_shift (inside : i < 32) :
    (pdev.clear overshift msqid).stored i = (pdev.stored i && !(shiftOne overshift msqid).toBitVec.getLsbD i) := by
  rw [stored_getLsbD inside,stored_getLsbD inside,ipc_device.clear,UInt32.toBitVec_and,UInt32.toBitVec_not,
    BitVec.getLsbD_and,BitVec.getLsbD_not]
  simp [inside]

/-- So it clears the bit of an id below 32, and no other. -/
theorem stored_clear_small (inside : i < 32) (small : msqid.toNat < 32) :
    (pdev.clear overshift msqid).stored i = (pdev.stored i && decide (msqid.toNat ≠ i)) := by
  rw [stored_clear_shift inside,shiftOne_getLsbD small,decide_not]

/-- A REL sets no bit, and clears that of its id. -/
theorem stored_clear (inside : i < 32) (still : (pdev.clear overshift msqid).stored i = true) :
    pdev.stored i = true ∧ msqid.toNat ≠ i := by
  rw [stored_clear_shift inside,Bool.and_eq_true,Bool.not_eq_true'] at still
  refine ⟨still.1,?_⟩
  rintro rfl
  rw [shiftOne_getLsbD inside] at still
  simp at still

end

end IpcMsq.Device
