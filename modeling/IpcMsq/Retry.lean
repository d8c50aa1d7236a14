import IpcMsq.Receive

/-!
What a failed receive leaves of the queue. The message is dequeued before its size
is compared with the request and before the copy to user space, so an error from
either of them, or one that the missing `return` of `ipc_ioctl` leaves, loses it.
-/
namespace IpcMsq.Retry
open IpcMsq.Memory IpcMsq.Common IpcMsq.Table IpcMsq.Elements IpcMsq.SendBuff IpcMsq.Api IpcMsq.Device IpcMsq.Receive

/-- The queue at `q` has the same indices, count and messages in both tables. -/
structure Untouched (tbl tbl' : Mem) (q : Nat) : Prop where
  indx : indx tbl' q = indx tbl q
  outdx : outdx tbl' q = outdx tbl q
  count : count tbl' q = count tbl q
  messages : ∀ p, contentAt tbl' (element q p) = contentAt tbl (element q p)

/-- So has every queue. -/
def AllUntouched : Option IPC_MSQINFO → Option IPC_MSQINFO → Prop
  | some info, some info' => ∀ q, Untouched info.tbl info'.tbl q
  | none, none => True
  | _, _ => False

/-- The state that a receive goes on from: the one it found, or the one in which
    its wait ended. -/
def goesOnFrom (g : Option IPC_MSQINFO) (msqid : UINT32) (copy_from_user : Bool)
    (wait_event : IPC_MSQINFO → Outcome (INT32 × IPC_MSQINFO)) : Outcome (Option IPC_MSQINFO) :=
  match copy_from_user, g, ipc_msgque_getQuebyID g msqid with
  | true, some info, some q =>
    if ipc_msgque_isempty info.tbl (some q) then (wait_event info).bind fun (_,woken) => .returned (some woken)
    else .returned (some info)
  | _, g, _ => .returned g

/-- An ioctl that reports an error leaves every queue as it was. -/
def ErrorKeeps (before : Outcome (Option IPC_MSQINFO)) (called : Outcome Ioctl) : Prop :=
  ∀ r, called = .returned r → r.ret < 0 → ∃ g, before = .returned g ∧ AllUntouched g r.g

/-- The receive comes to the dequeue of `q` in the state `woken`: the queue is
    still valid there and not empty. -/
def Takes (g : Option IPC_MSQINFO) (msqid : UINT32) (copy_from_user : Bool)
    (wait_event : IPC_MSQINFO → Outcome (INT32 × IPC_MSQINFO)) (q : Nat) (woken : IPC_MSQINFO) : Prop :=
  copy_from_user = true ∧ ∃ info, g = some info ∧ ipc_msgque_getQuebyID g msqid = some q ∧
    goesOnFrom g msqid copy_from_user wait_event = .returned (some woken) ∧
    ipc_msgque_isvalid woken.tbl (sharekey info.tbl q) (some q) = true ∧ ipc_msgque_isempty woken.tbl (some q) = false

theorem allUntouched_refl (g : Option IPC_MSQINFO) : AllUntouched g g := by
  cases g with
  | none => trivial
  | some info => exact fun q => ⟨rfl,rfl,rfl,fun p => rfl⟩

/-- Taking a message moves `outdx`, whatever it was. -/
theorem taken_touches {info : IPC_MSQINFO} {q : Nat} {msg : IPC_MSG} :
    ¬ AllUntouched (some info) (some { info with tbl := (takeElement info.tbl q msg).2 }) := by
  intro all
  have moved : (outdx (takeElement info.tbl q msg).2 q).toNat = ((outdx info.tbl q).toNat + 1) % 16 := takeElement_outdx
  rw [(all q).outdx] at moved
  omega

section
variable {g : Option IPC_MSQINFO} {msqid msg_size : UINT32} {m_ctrl : IPC_CTRL} {user : Mem} {msg_drv : IPC_MSG}
variable {wait_event : IPC_MSQINFO → Outcome (INT32 × IPC_MSQINFO)}

/-- The state in which a wait ends is the one the receive goes on from. -/
theorem wait_from {info woken : IPC_MSQINFO} {q : Nat} {err : Option INT32} {m_ctrl' : IPC_CTRL}
    (live : ipc_msgque_getQuebyID (some info) msqid = some q)
    (waited : waitMsg info m_ctrl q msqid (sharekey info.tbl q) 0 wait_event = .returned (err,woken,m_ctrl')) :
    goesOnFrom (some info) msqid true wait_event = .returned (some woken) := by
  simp only [goesOnFrom,live]
  simp only [waitMsg] at waited
  split at waited
  · rename_i empty
    obtain ⟨⟨ret,woken'⟩,ended,rest⟩ := Outcome.bind_returned.mp waited
    rw [if_pos empty,ended]
    dsimp only at rest
    split at rest
    · cases rest
      rfl
    · split at rest
      · cases rest
        rfl
      · split at rest <;> cases rest <;> rfl
  · rename_i waiting
    cases waited
    rw [if_neg waiting]

/-- A wait that ends hands on no error exactly if there is a message in a valid queue. -/
theorem wait_ways (m_ctrl : IPC_CTRL) {info woken : IPC_MSQINFO} {q : Nat}
    (live : ipc_msgque_getQuebyID (some info) msqid = some q)
    (from_woken : goesOnFrom (some info) msqid true wait_event = .returned (some woken)) :
    ∃ err m_ctrl', waitMsg info m_ctrl q msqid (sharekey info.tbl q) 0 wait_event = .returned (err,woken,m_ctrl') ∧
      (err = none ∧ ipc_msgque_isvalid woken.tbl (sharekey info.tbl q) (some q) = true ∧
          ipc_msgque_isempty woken.tbl (some q) = false ∨
        (∃ e < 0, err = some e) ∧ ¬ (ipc_msgque_isvalid woken.tbl (sharekey info.tbl q) (some q) = true ∧
          ipc_msgque_isempty woken.tbl (some q) = false)) := by
  simp only [goesOnFrom,live] at from_woken
  cases empty : ipc_msgque_isempty info.tbl (some q) with
  | false =>
    simp only [empty,Bool.false_eq_true,if_false] at from_woken
    cases from_woken
    have valid : ipc_msgque_isvalid info.tbl (sharekey info.tbl q) (some q) = true := by
      obtain ⟨_,init,rfl⟩ := getQuebyID_some.mp live
      simpa [ipc_msgque_isvalid,Live] using init
    exact ⟨none,m_ctrl,by simp [waitMsg,empty],.inl ⟨rfl,valid,empty⟩⟩
  | true =>
    simp only [empty,if_true] at from_woken
    obtain ⟨⟨ret,woken⟩,ended,same⟩ := Outcome.bind_returned.mp from_woken
    cases same
    cases valid : ipc_msgque_isvalid woken.tbl (sharekey info.tbl q) (some q) with
    | false => exact ⟨some (-1),_,by simp [waitMsg,empty,ended,valid]; rfl,.inr ⟨⟨-1,by decide,rfl⟩,by simp⟩⟩
    | true =>
      cases still : ipc_msgque_isempty woken.tbl (some q) with
      | false => exact ⟨none,_,by simp [waitMsg,empty,ended,valid,still]; rfl,.inl ⟨rfl,rfl,rfl⟩⟩
      | true => exact ⟨some (-3),_,by simp [waitMsg,empty,ended,valid,still]; rfl,.inr ⟨⟨-3,by decide,rfl⟩,by simp⟩⟩

/-- A receive that comes to the dequeue returns the size of the front message, or
    an error if that is more than the request; the message is gone in both cases. -/
theorem rcv_takes (m_ctrl : IPC_CTRL) (user : Mem) (msg_size : UINT32) (msg_drv : IPC_MSG) {q : Nat} {woken : IPC_MSQINFO}
    (takes : Takes g msqid true wait_event q woken) :
    ∃ m_ctrl' data, ipc_msg_rcv g m_ctrl msqid (some user) msg_size 0 wait_event msg_drv =
      .returned ⟨if msg_size < (head woken q).1 then -5 else (head woken q).1.toInt32,
        some { woken with tbl := (takeElement woken.tbl q msg_drv).2 },m_ctrl',data⟩ := by
  obtain ⟨_,info,rfl,live,from_woken,valid,waiting⟩ := takes
  obtain ⟨err,m_ctrl',waited,⟨rfl,_⟩ | ⟨_,fails⟩⟩ := wait_ways m_ctrl live from_woken
  · have size : (takeElement woken.tbl q msg_drv).1.size = (head woken q).1 := (taken_head msg_drv).1
    simp only [ipc_msg_rcv,live,waited,Outcome.returned_bind,ipc_msgque_dequeue,waiting,ne_eq,not_true,if_false,size]
    split
    · exact ⟨_,_,rfl⟩
    · exact ⟨_,_,rfl⟩
  · exact absurd ⟨valid,waiting⟩ fails

/-- One that does not come there returns an error and the state it went on from. -/
theorem rcv_fails {r : Received} (never : ∀ q woken, ¬ Takes g msqid true wait_event q woken)
    (called : ipc_msg_rcv g m_ctrl msqid (some user) msg_size 0 wait_event msg_drv = .returned r) :
    r.ret < 0 ∧ goesOnFrom g msqid true wait_event = .returned r.g := by
  have fault : (-EFAULT : INT32) < 0 := by decide
  cases g with
  | none =>
    cases called
    exact ⟨fault,rfl⟩
  | some info =>
    cases live : ipc_msgque_getQuebyID (some info) msqid with
    | none =>
      simp only [ipc_msg_rcv,live] at called
      cases called
      exact ⟨fault,by simp only [goesOnFrom,live]⟩
    | some q =>
      simp only [ipc_msg_rcv,live] at called
      obtain ⟨⟨err,woken,m_ctrl'⟩,waited,rest⟩ := Outcome.bind_returned.mp called
      have from_woken := wait_from live waited
      obtain ⟨_,_,again,ways⟩ := wait_ways m_ctrl live from_woken
      cases waited.symm.trans again
      rcases ways with ⟨rfl,valid,waiting⟩ | ⟨⟨e,negative,rfl⟩,_⟩
      · exact absurd ⟨rfl,info,rfl,live,from_woken,valid,waiting⟩ (never q woken)
      · cases rest
        exact ⟨negative,from_woken⟩

/-- A size from `2 ^ 31` on is a negative return value. -/
theorem size_negative (size : UINT32) : size.toInt32 < 0 ↔ 2 ^ 31 ≤ size.toNat := by
  have low := size.toNat_lt
  rw [Int32.lt_iff_toInt_lt,← Int32.toInt_toBitVec,UInt32.toBitVec_toInt32,BitVec.toInt_eq_toNat_cond,UInt32.toNat_toBitVec,
    Int32.toInt_zero]
  split <;> omega

end

/-- The front message fits the request and its size is no negative number, the copy
    to user space succeeds and the missing `return` leaves no error. -/
def Succeeds (size msg_size : UINT32) (copy_to_user : Bool) (noReturn : INT32) : Prop :=
  size ≤ msg_size ∧ size.toNat < 2 ^ 31 ∧ copy_to_user = true ∧ ¬ noReturn < 0

section
variable {g : Option IPC_MSQINFO} {msg_user : IPC_IOC_MSGQUE_RCV} {wait_event : IPC_MSQINFO → Outcome (INT32 × IPC_MSQINFO)}

/-- An ioctl that comes to the dequeue takes the message and reports an error
    unless the message reaches the caller. -/
theorem ioctl_takes (m_ctrl : IPC_CTRL) (copy_to_user : Bool) (noReturn : INT32) (msg_drv : IPC_MSG) {q : Nat}
    {woken : IPC_MSQINFO} (takes : Takes g msg_user.msqid true wait_event q woken) :
    ∃ r, ioctl_MSGQUE_RCV g m_ctrl msg_user true copy_to_user noReturn wait_event msg_drv = .returned r ∧
      r.g = some { woken with tbl := (takeElement woken.tbl q msg_drv).2 } ∧
      (r.ret < 0 ↔ ¬ Succeeds (head woken q).1 msg_user.msg_size copy_to_user noReturn) := by
  obtain ⟨m_ctrl',data,received⟩ := rcv_takes m_ctrl msg_user.msg_data msg_user.msg_size msg_drv takes
  have fault : (-EFAULT : INT32) < 0 := by decide
  have minus_five : (-5 : INT32) < 0 := by decide
  simp only [ioctl_MSGQUE_RCV,Bool.true_eq_false,if_false,received,Outcome.returned_bind]
  by_cases large : msg_user.msg_size < (head woken q).1
  · have short : ¬ (head woken q).1 ≤ msg_user.msg_size := by
      rw [UInt32.le_iff_toNat_le]
      rw [UInt32.lt_iff_toNat_lt] at large
      omega
    rw [if_pos large,if_pos minus_five]
    exact ⟨_,rfl,rfl,iff_of_true minus_five fun done => short done.1⟩
  · have room : (head woken q).1 ≤ msg_user.msg_size := by
      rw [UInt32.le_iff_toNat_le]
      rw [UInt32.lt_iff_toNat_lt] at large
      omega
    rw [if_neg large]
    by_cases negative : (head woken q).1.toInt32 < 0
    · rw [if_pos negative]
      refine ⟨_,rfl,rfl,iff_of_true negative fun done => ?_⟩
      have high := (size_negative _).mp negative
      exact absurd done.2.1 (by omega)
    · have low : (head woken q).1.toNat < 2 ^ 31 := by
        have high := mt (size_negative _).mpr negative
        omega
      rw [if_neg negative]
      cases copy_to_user with
      | false => exact ⟨_,rfl,rfl,iff_of_true fault fun done => absurd done.2.2.1 (by decide)⟩
      | true => exact ⟨_,rfl,rfl,by simp only [Succeeds,room,low,true_and,not_not]⟩

/-- A receive comes to one dequeue at most. -/
theorem takes_unique {msqid : UINT32} {q q' : Nat} {woken woken' : IPC_MSQINFO} (takes : Takes g msqid true wait_event q woken)
    (again : Takes g msqid true wait_event q' woken') : q' = q ∧ woken' = woken := by
  obtain ⟨_,_,_,live,from_woken,_⟩ := takes
  obtain ⟨_,_,_,live',from_woken',_⟩ := again
  cases live.symm.trans live'
  cases from_woken.symm.trans from_woken'
  exact ⟨rfl,rfl⟩

end

/-- For every state, id, request and environment: a receive ioctl that reports an
    error leaves every queue as it was exactly if no message is dequeued, or the one
    that is reaches the caller. -/
theorem error_keeps_iff (g : Option IPC_MSQINFO) (m_ctrl : IPC_CTRL) (msg_user : IPC_IOC_MSGQUE_RCV)
    (copy_from_user copy_to_user : Bool) (noReturn : INT32) (wait_event : IPC_MSQINFO → Outcome (INT32 × IPC_MSQINFO))
    (msg_drv : IPC_MSG) :
    ErrorKeeps (goesOnFrom g msg_user.msqid copy_from_user wait_event)
        (ioctl_MSGQUE_RCV g m_ctrl msg_user copy_from_user copy_to_user noReturn wait_event msg_drv) ↔
      ∀ q woken, Takes g msg_user.msqid copy_from_user wait_event q woken →
        Succeeds (head woken q).1 msg_user.msg_size copy_to_user noReturn := by
  cases copy_from_user with
  | false =>
    refine iff_of_true ?_ fun _ _ takes => absurd takes.1 (by decide)
    rintro r called _
    cases called
    exact ⟨g,rfl,allUntouched_refl g⟩
  | true =>
    by_cases reaches : ∃ q woken, Takes g msg_user.msqid true wait_event q woken
    · obtain ⟨q,woken,takes⟩ := reaches
      obtain ⟨r,called,after,reports⟩ := ioctl_takes m_ctrl copy_to_user noReturn msg_drv takes
      rw [called]
      constructor
      · intro keeps q' woken' again
        obtain ⟨rfl,rfl⟩ := takes_unique takes again
        by_contra fails
        obtain ⟨g',before,same⟩ := keeps r rfl (reports.mpr fails)
        obtain ⟨_,_,_,_,from_woken,_⟩ := takes
        cases from_woken.symm.trans before
        rw [after] at same
        exact taken_touches same
      · rintro done r' same error
        cases same
        exact absurd (done q woken takes) (reports.mp error)
    · push Not at reaches
      refine iff_of_true (fun r called _ => ?_) fun q woken takes => absurd takes (reaches q woken)
      simp only [ioctl_MSGQUE_RCV,Bool.true_eq_false,if_false] at called
      obtain ⟨received,rcv,rest⟩ := Outcome.bind_returned.mp called
      obtain ⟨negative,before⟩ := rcv_fails reaches rcv
      rw [if_pos negative] at rest
      cases rest
      exact ⟨_,before,allUntouched_refl _⟩

/-- Of two messages of eight bytes the first is lost in a request for four, and a
    retry finds no message. -/
theorem failed_receive_loses :
    ∃ r, ioctl_MSGQUE_RCV (some (twoMessages 8)) ⟨fun _ => false⟩ ⟨0,fun _ => 0,4,0⟩ true true 0 (fun _ => .asleep)
        ⟨0,fun _ => 0⟩ = .returned r ∧ r.ret = -5 ∧
      ioctl_MSGQUE_RCV r.g r.m_ctrl ⟨0,fun _ => 0,8,0⟩ true true 0 (fun _ => .asleep) ⟨0,fun _ => 0⟩ = .asleep ∧
      ¬ ErrorKeeps (goesOnFrom (some (twoMessages 8)) 0 true fun _ => .asleep) (.returned r) := by
  have live : ipc_msgque_getQuebyID (some (twoMessages 8)) 0 = some (msgQueTbl 0) := by decide +kernel
  have waiting : ipc_msgque_isempty (twoMessages 8).tbl (some (msgQueTbl 0)) = false := by decide +kernel
  have size : (takeElement (twoMessages 8).tbl (msgQueTbl 0) ⟨0,fun _ => 0⟩).1.size = 8 := by decide +kernel
  have received := rcv_nonempty live waiting ⟨fun _ => false⟩ (fun _ => 0) 4 0 (fun _ => .asleep) ⟨0,fun _ => 0⟩
  rw [size,if_pos (by decide)] at received
  refine ⟨_,by simp only [ioctl_MSGQUE_RCV,received]; rfl,rfl,?_,fun keeps => ?_⟩
  · have live' : ipc_msgque_getQuebyID (some { twoMessages 8 with
        tbl := (takeElement (twoMessages 8).tbl (msgQueTbl 0) ⟨0,fun _ => 0⟩).2 }) 0 = some (msgQueTbl 0) := by decide +kernel
    have empty : ipc_msgque_isempty (takeElement (twoMessages 8).tbl (msgQueTbl 0) ⟨0,fun _ => 0⟩).2 (some (msgQueTbl 0)) =
        true := by decide +kernel
    have slept := rcv_asleep live' empty ⟨fun _ => false⟩ (fun _ => 0) 8 0 ⟨0,fun _ => 0⟩
    simp only [ioctl_MSGQUE_RCV,Bool.true_eq_false,if_false]
    rw [slept]
    rfl
  · obtain ⟨g,before,same⟩ := keeps _ rfl (by decide)
    simp only [goesOnFrom,live,waiting] at before
    cases before
    exact taken_touches same

end IpcMsq.Retry
