import IpcMsq.Files

/-!
The bits that a REL ioctl clears. The bit of its id is cleared whether or not the
queue was released, and an id from 32 on clears whatever the shift gives.
-/
namespace IpcMsq.Records
open IpcMsq.Memory IpcMsq.Common IpcMsq.Table IpcMsq.SendBuff IpcMsq.Device IpcMsq.KeyMap IpcMsq.Files

/-- What a REL ioctl returned, the user's struct after it, the driver's state and
    the file's private data. -/
structure RelIoctl where
  ret : Outcome INT32
  msg_user : IPC_IOC_MSGQUE_REL
  g : Option IPC_MSQINFO
  private_data : Option ipc_device

/-- The case `IOC_IPC_MSGQUE_REL` of `ipc_ioctl`. -/
def ioctl_MSGQUE_REL (sign : CharSign) (second : SecondCall) (overshift : UINT32 → UINT32) (g : Option IPC_MSQINFO)
    (private_data : Option ipc_device) (msg_user : IPC_IOC_MSGQUE_REL) (copy_from_user copy_to_user : Bool)
    (noReturn : INT32) : RelIoctl :=
  match private_data with
  | none => ⟨.returned (-EFAULT),msg_user,g,none⟩
  | some pdev =>
    if copy_from_user = false then ⟨.returned (-EFAULT),msg_user,g,some pdev⟩
    else
      let msg_kernel := msg_user
      let (rtn,g) := ipc_msgque_rel sign g msg_kernel.msqid
      let msg_kernel := { msg_kernel with rtn := rtn }
      let pdev := pdev.clear overshift msg_kernel.msqid
      if second = .mutex_lock then ⟨.asleep,msg_user,g,some pdev⟩
      else if copy_to_user = false then ⟨.returned (-EFAULT),msg_user,g,some pdev⟩
      else ⟨.returned noReturn,msg_kernel,g,some pdev⟩

/-- What `ipc_release` returned, the driver's state, and the slots for which it
    called `ipc_msgque_rel`. -/
structure Closed where
  ret : INT32
  g : Option IPC_MSQINFO
  released : List Nat

def releaseTurn (sign : CharSign) (pdev : ipc_device) (s : Closed) (i : Nat) : Closed :=
  if pdev.stored i then
    let (ret,g) := ipc_msgque_rel sign s.g (UInt32.ofNat i)
    ⟨ret,g,s.released ++ [i]⟩
  else s

/-- `ret` is uninitialised. -/
def ipc_release (sign : CharSign) (g : Option IPC_MSQINFO) (private_data : Option ipc_device) (ret : INT32) : Closed :=
  match private_data with
  | none => ⟨-1,g,[]⟩
  | some pdev => (List.range IPC_MSG_QUEUE_NUM).foldl (releaseTurn sign pdev) ⟨ret,g,[]⟩

/-- The queue with the id has a token. -/
def CanRelease (sign : CharSign) (info : IPC_MSQINFO) (msqid : UINT32) : Prop :=
  ∃ q, ipc_msgque_getQuebyID (some info) msqid = some q ∧
    ipc_msgque_getTokenByKey sign (some info) (sharekey info.tbl q) ≠ none

variable {sign : CharSign} {second : SecondCall} {overshift : UINT32 → UINT32}

section
variable {info : IPC_MSQINFO} {pdev : ipc_device} {msqid : UINT32}

/-! ### The loop of a close -/

theorem releaseTurn_released (s : Closed) (i : Nat) :
    (releaseTurn sign pdev s i).released = s.released ++ if pdev.stored i then [i] else [] := by
  rw [releaseTurn]
  split <;> simp

/-- The first `n` turns release the recorded slots among the first `n`. -/
theorem turns_released (s : Closed) (n : Nat) :
    ((List.range n).foldl (releaseTurn sign pdev) s).released = s.released ++ (List.range n).filter pdev.stored := by
  induction n with
  | zero => simp
  | succ n ih =>
    rw [List.range_succ,List.foldl_append,List.foldl_cons,List.foldl_nil,releaseTurn_released,ih,List.filter_append,
      List.append_assoc]
    simp [List.filter_cons]

theorem mem_released (g : Option IPC_MSQINFO) (ret : INT32) (i : Nat) :
    i ∈ (ipc_release sign g (some pdev) ret).released ↔ i < 12 ∧ pdev.stored i = true := by
  rw [ipc_release,turns_released]
  simp

/-! ### What a REL does -/

theorem canRelease_iff : CanRelease sign info msqid ↔ (ipc_msgque_rel sign (some info) msqid).1 = 0 := by
  rcases rel_cases sign info msqid with ⟨none,refused⟩ | ⟨inside,live,none,refused⟩ | ⟨token,inside,live,found,done⟩
  · rw [refused]
    refine iff_of_false ?_ (show (-1 : INT32) ≠ 0 by decide)
    rintro ⟨q,there,_⟩
    obtain ⟨inside,live,_⟩ := getQuebyID_some.mp there
    exact none ⟨inside,live⟩
  · rw [refused]
    refine iff_of_false ?_ (show (-2 : INT32) ≠ 0 by decide)
    rintro ⟨q,there,stored⟩
    obtain ⟨_,_,rfl⟩ := getQuebyID_some.mp there
    exact stored none
  · rw [done]
    exact iff_of_true ⟨_,getQuebyID_some.mpr ⟨inside,live,rfl⟩,by simp [found]⟩ rfl

/-- The table and the bits after a REL whose struct was copied in. -/
theorem rel_ioctl_effect (sign : CharSign) (second : SecondCall) (overshift : UINT32 → UINT32) (info : IPC_MSQINFO)
    (pdev : ipc_device) (msg_user : IPC_IOC_MSGQUE_REL) (copy_to_user : Bool) (noReturn : INT32) :
    let r := ioctl_MSGQUE_REL sign second overshift (some info) (some pdev) msg_user true copy_to_user noReturn
    r.g = (ipc_msgque_rel sign (some info) msg_user.msqid).2 ∧
      r.private_data = some (pdev.clear overshift msg_user.msqid) := by
  simp only [ioctl_MSGQUE_REL,Bool.true_eq_false,if_false]
  split
  · exact ⟨rfl,rfl⟩
  · split <;> exact ⟨rfl,rfl⟩

/-- A shift from 32 on clears nothing exactly if it meets no bit that is set. -/
theorem clear_large_iff (large : ¬ msqid.toNat < 32) :
    pdev.storequebit &&& overshift msqid = 0 ↔ ∀ i < 32, (pdev.clear overshift msqid).stored i = pdev.stored i := by
  have bit (i : Nat) (inside : i < 32) : (pdev.storequebit &&& overshift msqid).toBitVec.getLsbD i =
      (pdev.stored i && (overshift msqid).toBitVec.getLsbD i) := by
    rw [UInt32.toBitVec_and,BitVec.getLsbD_and,stored_getLsbD inside]
  constructor
  · intro apart i inside
    have unmet := bit i inside
    rw [apart] at unmet
    rw [stored_clear_shift inside,shiftOne,if_neg large]
    cases set : pdev.stored i with
    | false => rfl
    | true => simpa [set] using unmet
  · intro same
    rw [← UInt32.toBitVec_inj]
    apply BitVec.eq_of_getLsbD_eq
    intro i inside
    have kept := same i inside
    rw [stored_clear_shift inside,shiftOne,if_neg large] at kept
    rw [bit i inside]
    cases set : pdev.stored i with
    | false => simp
    | true => simpa [set] using kept

end

end IpcMsq.Records
