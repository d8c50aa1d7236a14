import IpcMsq.Process

/-!
What a receive hands over. The kernel copies as many bytes as the size word is
wide, so a message reaches the caller whole and alone exactly if it has four
bytes: a shorter one is followed by bytes of the kernel stack, a longer one is
cut. The library sees a result only if the ioctl's missing `return` leaves no
negative value.
-/
namespace IpcMsq.Receive
open IpcMsq.Memory IpcMsq.Common IpcMsq.Table IpcMsq.Elements IpcMsq.SendBuff IpcMsq.Api IpcMsq.Device

/-- The buffer holds the bytes, and is otherwise as it was. -/
def Holds (before : Mem) (payload : List UInt8) (after : Mem) : Prop :=
  bytes after 0 payload.length = payload ∧ ∀ k, payload.length ≤ k → after k = before k

theorem holds_copy {payload : List UInt8} {src : Mem} (same : bytes src 0 payload.length = payload) (before : Mem) :
    Holds before payload (copy before 0 src payload.length) :=
  ⟨bytes_copy.trans same,fun k long => copy_outside (by omega)⟩

/-- The size and the bytes of the message at the front of a queue. -/
def head (info : IPC_MSQINFO) (q : Nat) : UINT32 × List UInt8 := contentAt info.tbl (element q (outdx info.tbl q).toNat)

/-- The kernel hands the front message over, whatever the buffer and the local held. -/
def KernelDelivers (info : IPC_MSQINFO) (msqid : UINT32) (q : Nat) : Prop :=
  ∀ m_ctrl msg_data msg_size timeout_ms wait_event msg_drv, (head info q).1 ≤ msg_size → ∃ g m_ctrl' after,
    ipc_msg_rcv (some info) m_ctrl msqid (some msg_data) msg_size timeout_ms wait_event msg_drv =
      .returned ⟨(head info q).1.toInt32,g,m_ctrl',some after⟩ ∧ Holds msg_data (head info q).2 after

/-- So does the library, and its own struct gets nothing else from the kernel. -/
def LibraryDelivers (info : IPC_MSQINFO) (msqid : UINT32) (q : Nat) (noReturn : INT32) : Prop :=
  ∀ fd m_ctrl pmsg_data msg_size wait_event msg_drv msg, 0 ≤ fd → (head info q).1 ≤ msg_size → ∃ after r,
    Process.ipc_msg_rcvOpened fd (fun user => ioctl_MSGQUE_RCV (some info) m_ctrl user true true noReturn wait_event msg_drv)
      msqid (some pmsg_data) msg_size msg = .returned ((head info q).1.toInt32,some after) ∧
    Holds pmsg_data (head info q).2 after ∧
    ioctl_MSGQUE_RCV (some info) m_ctrl { msg with msqid := msqid, msg_size := msg_size } true true noReturn wait_event
      msg_drv = .returned r ∧ Holds msg.msg_data (head info q).2 r.msg_user.msg_data

section
variable {info : IPC_MSQINFO} {msqid : UINT32} {q : Nat}

theorem head_length : (head info q).2.length = (head info q).1.toNat := bytes_length

/-- The message taken from the queue is the front message, followed by what the local held. -/
theorem taken_head (msg_drv : IPC_MSG) : (takeElement info.tbl q msg_drv).1.size = (head info q).1 ∧
    bytes (takeElement info.tbl q msg_drv).1.data 0 (head info q).1.toNat = (head info q).2 ∧
    ∀ k, (head info q).1.toNat ≤ k → (takeElement info.tbl q msg_drv).1.data k = msg_drv.data k := by
  obtain ⟨size,rest⟩ := takeElement_message info.tbl q msg_drv
  have content := congrArg Prod.snd (takeElement_content info.tbl q msg_drv)
  simp only [IPC_MSG.content,size] at content
  exact ⟨size,content,rest⟩

/-- What a receive returns when there is a message and room for it. -/
theorem rcv_head (live : ipc_msgque_getQuebyID (some info) msqid = some q)
    (waiting : ipc_msgque_isempty info.tbl (some q) = false) {msg_size : UINT32} (room : (head info q).1 ≤ msg_size)
    (m_ctrl : IPC_CTRL) (user : Mem) (timeout_ms : UINT32)
    (wait_event : IPC_MSQINFO → Outcome (INT32 × IPC_MSQINFO)) (msg_drv : IPC_MSG) :
    ipc_msg_rcv (some info) m_ctrl msqid (some user) msg_size timeout_ms wait_event msg_drv =
      .returned ⟨(head info q).1.toInt32,some { info with tbl := (takeElement info.tbl q msg_drv).2 },m_ctrl,
        some (copy user 0 (takeElement info.tbl q msg_drv).1.data 4)⟩ := by
  rw [rcv_nonempty live waiting,(taken_head msg_drv).1,if_neg]
  rw [UInt32.lt_iff_toNat_lt]
  rw [UInt32.le_iff_toNat_le] at room
  omega

/-- Four bytes of a four-byte message are the message. -/
theorem copy_four (four : (head info q).1 = 4) (user : Mem) (msg_drv : IPC_MSG) :
    Holds user (head info q).2 (copy user 0 (takeElement info.tbl q msg_drv).1.data 4) := by
  have length : (head info q).2.length = 4 := by rw [head_length,four]; rfl
  have content : bytes (takeElement info.tbl q msg_drv).1.data 0 (head info q).2.length = (head info q).2 := by
    rw [head_length]
    exact (taken_head msg_drv).2.1
  rw [← length]
  exact holds_copy content user

/-- Of any other message the caller gets too little or too much. -/
theorem delivers_four (live : ipc_msgque_getQuebyID (some info) msqid = some q)
    (waiting : ipc_msgque_isempty info.tbl (some q) = false) (delivers : KernelDelivers info msqid q) :
    (head info q).1 = 4 := by
  by_contra other
  have size : (head info q).1.toNat ≠ 4 := fun same => other (UInt32.toNat_inj.mp same)
  rcases Nat.lt_or_gt_of_ne size with short | long
  · -- the byte behind the message comes from the local
    obtain ⟨_,_,after,called,_,rest⟩ := delivers ⟨fun _ => false⟩ (fun _ => 0) (head info q).1 0 (fun _ => .asleep)
      ⟨0,fun _ => 1⟩ (UInt32.le_refl _)
    rw [rcv_head live waiting (UInt32.le_refl _)] at called
    cases called
    have kept := rest (head info q).1.toNat (by rw [head_length])
    rw [copy_inside (Nat.zero_le _) (by omega),Nat.sub_zero,(taken_head _).2.2 _ le_rfl] at kept
    change (1 : UInt8) = 0 at kept
    exact absurd kept (by decide)
  · -- the fifth byte of the message is the buffer's own
    let user : Mem := fun _ => (head info q).2.getD 4 0 + 1
    obtain ⟨_,_,after,called,content,_⟩ := delivers ⟨fun _ => false⟩ user (head info q).1 0 (fun _ => .asleep)
      ⟨0,fun _ => 1⟩ (UInt32.le_refl _)
    rw [rcv_head live waiting (UInt32.le_refl _)] at called
    cases called
    have fifth := congrArg (fun s => s.getD 4 0) content
    change (bytes _ _ _).getD 4 0 = _ at fifth
    rw [bytes_getD (by rw [head_length]; exact long),copy_outside (by omega)] at fifth
    simp [user] at fifth

theorem kernel_delivers (live : ipc_msgque_getQuebyID (some info) msqid = some q)
    (waiting : ipc_msgque_isempty info.tbl (some q) = false) (four : (head info q).1 = 4) :
    KernelDelivers info msqid q := by
  intro m_ctrl msg_data msg_size timeout_ms wait_event msg_drv room
  exact ⟨_,_,_,rcv_head live waiting room m_ctrl msg_data timeout_ms wait_event msg_drv,copy_four four msg_data msg_drv⟩

/-- What the ioctl does when the kernel hands a message over. -/
theorem ioctl_head (live : ipc_msgque_getQuebyID (some info) msqid = some q)
    (waiting : ipc_msgque_isempty info.tbl (some q) = false) (four : (head info q).1 = 4) (user : IPC_IOC_MSGQUE_RCV)
    (of_queue : user.msqid = msqid) (room : (head info q).1 ≤ user.msg_size) (m_ctrl : IPC_CTRL) (noReturn : INT32)
    (wait_event : IPC_MSQINFO → Outcome (INT32 × IPC_MSQINFO)) (msg_drv : IPC_MSG) :
    ∃ g, ioctl_MSGQUE_RCV (some info) m_ctrl user true true noReturn wait_event msg_drv =
      .returned ⟨noReturn,{ user with
        msg_data := copy user.msg_data 0 (takeElement info.tbl q msg_drv).1.data 4, rtn := 4 },g,m_ctrl⟩ := by
  have kernel := rcv_head live waiting room m_ctrl user.msg_data 0 wait_event msg_drv
  rw [four] at kernel
  simp only [ioctl_MSGQUE_RCV,of_queue,kernel,Outcome.returned_bind,Option.getD_some]
  exact ⟨_,rfl⟩

theorem library_delivers (live : ipc_msgque_getQuebyID (some info) msqid = some q)
    (waiting : ipc_msgque_isempty info.tbl (some q) = false) (four : (head info q).1 = 4) {noReturn : INT32}
    (ok : ¬ noReturn < 0) : LibraryDelivers info msqid q noReturn := by
  intro fd m_ctrl pmsg_data msg_size wait_event msg_drv msg opened room
  obtain ⟨g,called⟩ := ioctl_head live waiting four { msg with msqid := msqid, msg_size := msg_size } rfl room m_ctrl
    noReturn wait_event msg_drv
  have length : (head info q).2.length = 4 := by rw [head_length,four]; rfl
  have received := copy_four four msg.msg_data msg_drv
  have passed := holds_copy received.1 pmsg_data
  rw [length] at passed
  refine ⟨_,_,?_,passed,called,received⟩
  simp only [Process.ipc_msg_rcvOpened,Int32.not_lt.mpr opened,if_false,called,Outcome.returned_bind,ok,four]
  rfl

/-- A negative value in place of the ioctl's result hides the message. -/
theorem library_fails (live : ipc_msgque_getQuebyID (some info) msqid = some q)
    (waiting : ipc_msgque_isempty info.tbl (some q) = false) (four : (head info q).1 = 4) {noReturn : INT32}
    (negative : noReturn < 0) : ¬ LibraryDelivers info msqid q noReturn := by
  intro delivers
  let msg : IPC_IOC_MSGQUE_RCV := ⟨msqid,fun _ => 0,4,0⟩
  have room : (head info q).1 ≤ 4 := by rw [four]; exact UInt32.le_refl _
  obtain ⟨_,_,result,_⟩ := delivers 0 ⟨fun _ => false⟩ (fun _ => 0) 4 (fun _ => .asleep) ⟨0,fun _ => 0⟩ msg (by decide) room
  obtain ⟨g,called⟩ := ioctl_head live waiting four { msg with msqid := msqid, msg_size := 4 } rfl room ⟨fun _ => false⟩
    noReturn (fun _ => .asleep) ⟨0,fun _ => 0⟩
  have opened : ¬ (0 : INT32) < 0 := by decide
  simp only [Process.ipc_msg_rcvOpened,opened,if_false,called,Outcome.returned_bind,negative,if_true,four] at result
  cases result

end

/-- A receive from a live queue hands over exactly the front message, through the
    kernel call and through the library, exactly if the queue is not empty by its
    index test, the message has four bytes, and the ioctl's missing `return`
    leaves no negative value. -/
theorem delivers_iff_four {info : IPC_MSQINFO} {msqid : UINT32} {q : Nat}
    (live : ipc_msgque_getQuebyID (some info) msqid = some q) (noReturn : INT32) :
    (KernelDelivers info msqid q ∧ LibraryDelivers info msqid q noReturn) ↔
      ipc_msgque_isempty info.tbl (some q) = false ∧ (head info q).1 = 4 ∧ ¬ noReturn < 0 := by
  constructor
  · rintro ⟨kernel,library⟩
    have waiting : ipc_msgque_isempty info.tbl (some q) = false := by
      rw [← Bool.not_eq_true]
      intro empty
      obtain ⟨_,_,_,called,_⟩ := kernel ⟨fun _ => false⟩ (fun _ => 0) (head info q).1 0 (fun _ => .asleep) ⟨0,fun _ => 0⟩
        (UInt32.le_refl _)
      rw [rcv_asleep live empty] at called
      cases called
    have four := delivers_four live waiting kernel
    exact ⟨waiting,four,fun negative => library_fails live waiting four negative library⟩
  · rintro ⟨waiting,four,ok⟩
    exact ⟨kernel_delivers live waiting four,library_delivers live waiting four ok⟩

/-- A queue of two messages of a size, their bytes counted from 1. -/
def twoMessages (size : UINT32) : IPC_MSQINFO :=
  let post (info : IPC_MSQINFO) : IPC_MSQINFO :=
    ((ipc_msgque_msgpost (some info) 0 (some fun k => UInt8.ofNat (k + 1)) size ⟨0,fun _ => 0⟩).2).getD info
  post (post firstQueue)

/-- Four bytes arrive. -/
theorem delivers_iff_four_bytes :
    KernelDelivers (twoMessages 4) 0 (msgQueTbl 0) ∧ LibraryDelivers (twoMessages 4) 0 (msgQueTbl 0) 0 := by
  have live : ipc_msgque_getQuebyID (some (twoMessages 4)) 0 = some (msgQueTbl 0) := by decide +kernel
  exact (delivers_iff_four live 0).mpr ⟨by decide +kernel,by decide +kernel,by decide⟩

/-- Of eight bytes four arrive, with 8 as the result. -/
theorem eight_bytes_cut : (head (twoMessages 8) (msgQueTbl 0)).2 = [1,2,3,4,5,6,7,8] ∧
    (∃ r, ipc_msg_rcv (some (twoMessages 8)) ⟨fun _ => false⟩ 0 (some fun _ => 0) 24 0 (fun _ => .asleep) ⟨0,fun _ => 0⟩ =
      .returned r ∧ r.ret = 8 ∧ r.msg_data.map (bytes · 0 8) = some [1,2,3,4,0,0,0,0]) ∧
    ¬ KernelDelivers (twoMessages 8) 0 (msgQueTbl 0) := by
  have live : ipc_msgque_getQuebyID (some (twoMessages 8)) 0 = some (msgQueTbl 0) := by decide +kernel
  have waiting : ipc_msgque_isempty (twoMessages 8).tbl (some (msgQueTbl 0)) = false := by decide +kernel
  have room : (head (twoMessages 8) (msgQueTbl 0)).1 ≤ 24 := by decide +kernel
  refine ⟨by decide +kernel,⟨_,rcv_head live waiting room _ _ _ _ _,by decide +kernel,by decide +kernel⟩,fun delivers => ?_⟩
  exact absurd (delivers_four live waiting delivers) (by decide +kernel)

end IpcMsq.Receive
