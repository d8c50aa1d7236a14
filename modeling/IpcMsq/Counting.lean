import IpcMsq.Process
import IpcMsq.Records
import Mathlib.Data.Finset.Card

/-!
The count of queues in the library and the bits of the file behind its descriptor.
The count goes up with every id that `ipc_msg_get` returns and down with every
release that succeeds, the bits are set and cleared whatever the library learns of
it, and the library closes the device when its count comes down to 0.
-/
namespace IpcMsq.Counting
open IpcMsq.Memory IpcMsq.Common IpcMsq.Table IpcMsq.SendBuff IpcMsq.Device IpcMsq.KeyMap IpcMsq.Files IpcMsq.Records
open IpcMsq.Process IpcMsq.Runs

/-- What the environment decides in a call: the descriptor that `open` returns, what
    the struct holds, the two copies, and the value that a missing `return` leaves. -/
structure CallEnv where
  opened : INT32
  rtn : INT32
  copy_from_user : Bool
  copy_to_user : Bool
  noReturn : INT32

/-- The process with the file behind its descriptor and the table. `uses` are the
    ids that it got and has not released, and `lost` those of them that a close by
    the library has released. -/
structure Counted where
  statics : Statics
  file : Option ipc_device
  info : IPC_MSQINFO
  uses : Finset Nat
  lost : List Nat

/-- The file that `ipc_open` leaves open; a new file has no bit set. -/
def Counted.opens (s : Counted) (e : CallEnv) : Option ipc_device :=
  if s.statics.ipcfd < 0 then if e.opened < 0 then none else some ⟨0⟩ else s.file

variable (sign : CharSign) (second : SecondCall) (overshift : UINT32 → UINT32)

def getIoctl (s : Counted) (e : CallEnv) (msg : IPC_IOC_MSGQUE_GET) : INT32 × Option ipc_device × IPC_IOC_MSGQUE_GET :=
  ioctl_MSGQUE_GET overshift (some s.info) (s.opens e) msg e.copy_from_user e.copy_to_user e.noReturn

/-- `ipc_msg_get` on the driver. -/
def libGet (s : Counted) (key : INT16) (e : CallEnv) : Returned INT32 :=
  Process.ipc_msg_get key e.opened (fun msg => ((getIoctl overshift s e msg).1,(getIoctl overshift s e msg).2.2))
    ⟨key.toUInt16,e.rtn⟩ s.statics

/-- An ioctl without a file fails as one on a file without private data. -/
def relIoctl (s : Counted) (e : CallEnv) (msg : IPC_IOC_MSGQUE_REL) : RelIoctl :=
  ioctl_MSGQUE_REL sign second overshift (some s.info) s.file msg e.copy_from_user e.copy_to_user e.noReturn

/-- `ipc_msg_rel` on the driver. -/
def libRel (s : Counted) (msqid : UINT32) (e : CallEnv) : Returned (Outcome INT32) :=
  Process.ipc_msg_rel msqid
    (fun msg => (relIoctl sign second overshift s e msg).ret.bind fun ret =>
      .returned (ret,(relIoctl sign second overshift s e msg).msg_user))
    ⟨msqid,e.rtn⟩ s.statics

/-- The ids in use after a release returned. -/
def Counted.usesAfter (s : Counted) (msqid : UINT32) (ret : INT32) : Finset Nat :=
  if ret = 0 then s.uses.erase msqid.toNat else s.uses

/-- The id of an initialised slot is its number, as `ipc_msgque_get` sets it. -/
def Numbered (info : IPC_MSQINFO) : Prop :=
  ∀ i < 12, Live info.tbl (msgQueTbl i) → msqid info.tbl (msgQueTbl i) = UInt32.ofNat i

inductive CountEvent
  | get (key : INT16) (e : CallEnv)
  | rel (msqid : UINT32) (e : CallEnv) (ret : INT32)
  | others

/-- A call of the process that returned, or what others do to the table. -/
inductive CountStep : Counted → CountEvent → Counted → Prop
  | get {s : Counted} {key : INT16} {e : CallEnv} : CountStep s (.get key e) { s with
      statics := (libGet overshift s key e).statics,
      file := (getIoctl overshift s e ⟨key.toUInt16,e.rtn⟩).2.1,
      uses := if 0 ≤ (libGet overshift s key e).ret then insert (libGet overshift s key e).ret.toUInt32.toNat s.uses
        else s.uses }
  | rel {s : Counted} {msqid : UINT32} {e : CallEnv} {ret : INT32} {info : IPC_MSQINFO} :
      (libRel sign second overshift s msqid e).ret = .returned ret →
      .sys_close s.statics.ipcfd ∉ (libRel sign second overshift s msqid e).calls →
      (relIoctl sign second overshift s e ⟨msqid,e.rtn⟩).g = some info →
      CountStep s (.rel msqid e ret) { s with
        statics := (libRel sign second overshift s msqid e).statics,
        file := (relIoctl sign second overshift s e ⟨msqid,e.rtn⟩).private_data,
        info := info,
        uses := s.usesAfter msqid ret }
  | close {s : Counted} {msqid : UINT32} {e : CallEnv} {ret noRet : INT32} {info : IPC_MSQINFO} {closed : Closed} :
      (libRel sign second overshift s msqid e).ret = .returned ret →
      .sys_close s.statics.ipcfd ∈ (libRel sign second overshift s msqid e).calls →
      ipc_release sign (relIoctl sign second overshift s e ⟨msqid,e.rtn⟩).g
        (relIoctl sign second overshift s e ⟨msqid,e.rtn⟩).private_data noRet = closed →
      closed.g = some info →
      CountStep s (.rel msqid e ret) {
        statics := (libRel sign second overshift s msqid e).statics,
        file := none,
        info := info,
        uses := s.usesAfter msqid ret,
        lost := s.lost ++ closed.released.filter (· ∈ s.usesAfter msqid ret) }
  | others {s : Counted} {info : IPC_MSQINFO} : Numbered info → CountStep s .others { s with info := info }

/-- The ids that the bits of a file record. -/
def recorded (pdev : ipc_device) : Finset Nat := {i ∈ Finset.range 32 | pdev.stored i = true}

/-- While the device is open the count is the number of bits that are set, and no
    close by the library has released a queue in use. -/
def Agrees (s : Counted) : Prop :=
  (∀ pdev, s.file = some pdev → s.statics.msqcnt = Int32.ofNat (recorded pdev).card) ∧ s.lost = []

/-- The answer of the driver reaches the library. -/
def CallEnv.Answers (e : CallEnv) : Prop := e.copy_to_user = true ∧ 0 ≤ e.noReturn

/-- What the GET ioctl looks up. -/
def Counted.found (s : Counted) (key : INT16) : INT32 :=
  ipc_msgque_getIDbyKey (some s.info) (IPC_IOC_MSGQUE_GET.keyArg ⟨key.toUInt16,0⟩)

/-- A GET that finds an id sets a clear bit exactly if the library learns of it, and
    a REL clears a bit exactly if the library learns that the queue was released. -/
def InOrder (s : Counted) : CountEvent → Prop
  | .get key e => ∀ pdev, s.opens e = some pdev → e.copy_from_user = true → 0 ≤ s.found key →
      (pdev.stored (s.found key).toUInt32.toNat = false ↔ e.Answers)
  | .rel msqid e _ => ∀ pdev, s.file = some pdev → e.copy_from_user = true →
      if msqid.toNat < 32 then (pdev.stored msqid.toNat = true ↔ CanRelease sign s.info msqid ∧ e.Answers)
      else pdev.storequebit &&& overshift msqid = 0
  | .others => True

variable {sign second overshift}

section
variable {pdev : ipc_device} {msqid : UINT32} {i : Nat}

@[simp] theorem mem_recorded : i ∈ recorded pdev ↔ i < 32 ∧ pdev.stored i = true := by simp [recorded]

theorem recorded_store (small : msqid.toNat < 32) :
    recorded (pdev.store overshift msqid) = insert msqid.toNat (recorded pdev) := by
  ext i
  rw [mem_recorded,Finset.mem_insert,mem_recorded]
  by_cases inside : i < 32
  · rw [stored_store inside small]
    by_cases same : i = msqid.toNat
    · simp [same,small]
    · simp [same,Ne.symm same]
  · refine iff_of_false (fun both => inside both.1) ?_
    rintro (rfl | both)
    · exact inside small
    · exact inside both.1

theorem recorded_clear (small : msqid.toNat < 32) :
    recorded (pdev.clear overshift msqid) = (recorded pdev).erase msqid.toNat := by
  ext i
  rw [mem_recorded,Finset.mem_erase,mem_recorded]
  by_cases inside : i < 32
  · rw [stored_clear_small inside small]
    by_cases same : i = msqid.toNat
    · simp [same]
    · simp [same,Ne.symm same]
  · exact iff_of_false (fun both => inside both.1) fun both => inside both.2.1

theorem recorded_clear_subset : recorded (pdev.clear overshift msqid) ⊆ recorded pdev := by
  intro i has
  obtain ⟨inside,set⟩ := mem_recorded.mp has
  exact mem_recorded.mpr ⟨inside,(stored_clear inside set).1⟩

/-- A shift from 32 on leaves the record exactly if it meets no bit. -/
theorem recorded_clear_large (large : ¬ msqid.toNat < 32) :
    pdev.storequebit &&& overshift msqid = 0 ↔ recorded (pdev.clear overshift msqid) = recorded pdev := by
  rw [clear_large_iff large]
  constructor
  · intro same
    ext i
    rw [mem_recorded,mem_recorded]
    exact and_congr_right fun inside => by rw [same i inside]
  · intro same i inside
    have bits := congrArg (i ∈ ·) same
    simp only [mem_recorded,inside,true_and,eq_iff_iff] at bits
    exact Bool.eq_iff_iff.mpr bits

end

/-! ### What a call does -/

section
variable {s t : Counted} {key : INT16} {msqid : UINT32} {e : CallEnv} {ret : INT32}

/-- The descriptor after `ipc_open`. -/
def Counted.descriptor (s : Counted) (e : CallEnv) : INT32 := if s.statics.ipcfd < 0 then e.opened else s.statics.ipcfd

theorem opened_statics (s : Counted) (e : CallEnv) :
    (Process.ipc_open e.opened s.statics).statics = ⟨s.descriptor e,s.statics.msqcnt⟩ ∧
      ((Process.ipc_open e.opened s.statics).ret < 0 ↔ s.descriptor e < 0) := by
  simp only [Process.ipc_open,Counted.descriptor]
  by_cases closed : s.statics.ipcfd < 0
  · rw [if_pos closed,if_pos closed]
    by_cases failed : e.opened < 0
    · rw [if_pos failed]
      exact ⟨rfl,iff_of_true (show (-11 : INT32) < 0 by decide) failed⟩
    · rw [if_neg failed]
      exact ⟨rfl,Iff.rfl⟩
  · rw [if_neg closed,if_neg closed]
    exact ⟨rfl,Iff.rfl⟩

theorem opens_failed (failed : s.descriptor e < 0) : s.opens e = none := by
  simp only [Counted.descriptor] at failed
  simp only [Counted.opens]
  by_cases closed : s.statics.ipcfd < 0
  · rw [if_pos closed] at failed ⊢
    rw [if_pos failed]
  · rw [if_neg closed] at failed
    exact absurd failed closed

/-- What the library makes of the ioctl. -/
theorem libGet_cases (overshift : UINT32 → UINT32) (s : Counted) (key : INT16) (e : CallEnv) :
    let r := getIoctl overshift s e ⟨key.toUInt16,e.rtn⟩
    (s.descriptor e < 0 ∨ r.1 < 0 ∨ r.2.2.rtn < 0) ∧
      (libGet overshift s key e).statics = ⟨s.descriptor e,s.statics.msqcnt⟩ ∧ ¬ 0 ≤ (libGet overshift s key e).ret ∨
    (¬ s.descriptor e < 0 ∧ ¬ r.1 < 0 ∧ 0 ≤ r.2.2.rtn) ∧
      (libGet overshift s key e).statics = ⟨s.descriptor e,s.statics.msqcnt + 1⟩ ∧
      (libGet overshift s key e).ret = r.2.2.rtn := by
  obtain ⟨statics,failed⟩ := opened_statics s e
  simp only [libGet,Process.ipc_msg_get,statics,failed]
  by_cases unopened : s.descriptor e < 0
  · rw [if_pos unopened]
    exact .inl ⟨.inl unopened,rfl,show ¬ 0 ≤ (-1 : INT32) by decide⟩
  · rw [if_neg unopened]
    by_cases refused : (getIoctl overshift s e ⟨key.toUInt16,e.rtn⟩).1 < 0
    · rw [if_pos refused]
      exact .inl ⟨.inr (.inl refused),rfl,show ¬ 0 ≤ (-2 : INT32) by decide⟩
    · rw [if_neg refused]
      by_cases found : 0 ≤ (getIoctl overshift s e ⟨key.toUInt16,e.rtn⟩).2.2.rtn
      · rw [if_pos found]
        exact .inr ⟨⟨unopened,refused,found⟩,rfl,rfl⟩
      · rw [if_neg found]
        exact .inl ⟨.inr (.inr (Int32.not_le.mp found)),rfl,found⟩

/-- Without a file or without the struct the driver does nothing. -/
theorem getIoctl_refused (overshift : UINT32 → UINT32) (msg : IPC_IOC_MSGQUE_GET)
    (none : s.opens e = none ∨ e.copy_from_user = false) :
    getIoctl overshift s e msg = (-EFAULT,s.opens e,msg) := by
  rw [getIoctl]
  rcases none with none | lost
  · rw [none,ioctl_MSGQUE_GET]
  · rw [lost]
    cases s.opens e <;> rfl

theorem getIoctl_done (overshift : UINT32 → UINT32) (key : INT16) {pdev : ipc_device} (file : s.opens e = some pdev) (copied : e.copy_from_user = true) :
    getIoctl overshift s e ⟨key.toUInt16,e.rtn⟩ =
      (if e.copy_to_user = false then -EFAULT else e.noReturn,
        some (if 0 ≤ s.found key then pdev.store overshift (s.found key).toUInt32 else pdev),
        if e.copy_to_user = false then ⟨key.toUInt16,e.rtn⟩ else ⟨key.toUInt16,s.found key⟩) := by
  simp only [getIoctl,file,copied,ioctl_MSGQUE_GET]
  cases e.copy_to_user <;> rfl

/-- A get leaves the bits, or sets the bit of the id that it found; the library
    counts the id if the answer reaches it. -/
theorem get_cases (step : CountStep sign second overshift s (.get key e) t) :
    ((s.opens e = none ∨ e.copy_from_user = false ∨ ¬ 0 ≤ s.found key) ∧
      t = { s with statics := ⟨s.descriptor e,s.statics.msqcnt⟩, file := s.opens e }) ∨
    ∃ pdev, s.opens e = some pdev ∧ e.copy_from_user = true ∧ 0 ≤ s.found key ∧
      (e.Answers ∧ t = { s with
          statics := ⟨s.descriptor e,s.statics.msqcnt + 1⟩,
          file := some (pdev.store overshift (s.found key).toUInt32),
          uses := insert (s.found key).toUInt32.toNat s.uses } ∨
        ¬ e.Answers ∧ t = { s with
          statics := ⟨s.descriptor e,s.statics.msqcnt⟩,
          file := some (pdev.store overshift (s.found key).toUInt32) }) := by
  cases step
  have fault : (-EFAULT : INT32) < 0 := by decide
  by_cases none : s.opens e = none ∨ e.copy_from_user = false
  · refine .inl ⟨none.imp_right .inl,?_⟩
    have refused := getIoctl_refused overshift ⟨key.toUInt16,e.rtn⟩ none
    rcases libGet_cases overshift s key e with ⟨_,statics,negative⟩ | ⟨⟨_,positive,_⟩,_⟩
    · rw [statics,if_neg negative,refused]
    · rw [refused] at positive
      exact absurd fault positive
  · push Not at none
    obtain ⟨there,copied⟩ := none
    obtain ⟨pdev,file⟩ := Option.ne_none_iff_exists'.mp there
    have copied : e.copy_from_user = true := Bool.eq_true_of_not_eq_false copied
    have opened : ¬ s.descriptor e < 0 := fun failed => there (opens_failed failed)
    have done := getIoctl_done overshift key file copied
    have answers : e.Answers ↔ ¬ (getIoctl overshift s e ⟨key.toUInt16,e.rtn⟩).1 < 0 := by
      rw [done,CallEnv.Answers]
      cases e.copy_to_user with
      | false => simp [fault]
      | true => simp
    have told (answer : e.Answers) : (getIoctl overshift s e ⟨key.toUInt16,e.rtn⟩).2.2.rtn = s.found key := by
      rw [done]
      simp [answer.1]
    by_cases found : 0 ≤ s.found key
    · refine .inr ⟨pdev,file,copied,found,?_⟩
      rcases libGet_cases overshift s key e with ⟨lost,statics,negative⟩ | ⟨⟨_,positive,_⟩,statics,ret⟩
      · refine .inr ⟨fun answer => ?_,?_⟩
        · rcases lost with failed | refused | unknown
          · exact opened failed
          · exact answers.mp answer refused
          · rw [told answer] at unknown
            exact Int32.not_le.mpr unknown found
        · rw [statics,if_neg negative,done,if_pos found]
      · have answer := answers.mpr positive
        refine .inl ⟨answer,?_⟩
        rw [statics,ret,told answer,if_pos found,done,if_pos found]
    · refine .inl ⟨.inr (.inr found),?_⟩
      rcases libGet_cases overshift s key e with ⟨_,statics,negative⟩ | ⟨⟨_,positive,known⟩,_⟩
      · rw [statics,if_neg negative,done,if_neg found,file]
      · rw [told (answers.mpr positive)] at known
        exact absurd known found

/-- What the library makes of the ioctl of a release. -/
theorem libRel_cases (returned : (libRel sign second overshift s msqid e).ret = .returned ret) :
    let r := relIoctl sign second overshift s e ⟨msqid,e.rtn⟩
    ∃ answer, r.ret = .returned answer ∧
      ((answer < 0 ∨ r.msg_user.rtn ≠ 0) ∧ ret ≠ 0 ∧
          (libRel sign second overshift s msqid e).statics = s.statics ∧
          (libRel sign second overshift s msqid e).calls = [.sys_ioctl s.statics.ipcfd] ∨
        (¬ answer < 0 ∧ r.msg_user.rtn = 0) ∧ ret = 0 ∧
          (s.statics.msqcnt - 1 = 0 ∧ (libRel sign second overshift s msqid e).statics = ⟨-1,0⟩ ∧
              (libRel sign second overshift s msqid e).calls = [.sys_ioctl s.statics.ipcfd,.sys_close s.statics.ipcfd] ∨
            s.statics.msqcnt - 1 ≠ 0 ∧
              (libRel sign second overshift s msqid e).statics = ⟨s.statics.ipcfd,s.statics.msqcnt - 1⟩ ∧
              (libRel sign second overshift s msqid e).calls = [.sys_ioctl s.statics.ipcfd])) := by
  simp only [libRel,Process.ipc_msg_rel] at returned ⊢
  cases answered : (relIoctl sign second overshift s e ⟨msqid,e.rtn⟩).ret with
  | asleep =>
    rw [answered] at returned
    cases returned
  | undefined =>
    rw [answered] at returned
    cases returned
  | returned answer =>
    simp only [answered,Outcome.returned_bind] at returned ⊢
    refine ⟨answer,rfl,?_⟩
    by_cases refused : answer < 0
    · simp only [if_pos refused] at returned ⊢
      cases returned
      exact .inl ⟨.inl refused,by decide,trivial,trivial⟩
    · simp only [if_neg refused] at returned ⊢
      by_cases ok : (relIoctl sign second overshift s e ⟨msqid,e.rtn⟩).msg_user.rtn = 0
      · simp only [if_pos ok] at returned ⊢
        refine .inr ⟨⟨refused,ok⟩,?_⟩
        by_cases last : s.statics.msqcnt - 1 = 0
        · simp only [if_pos last] at returned ⊢
          cases returned
          exact ⟨ok,.inl ⟨last,by rw [last],trivial⟩⟩
        · simp only [if_neg last] at returned ⊢
          cases returned
          exact ⟨ok,.inr ⟨last,trivial,trivial⟩⟩
      · simp only [if_neg ok] at returned ⊢
        cases returned
        exact .inl ⟨.inr ok,ok,trivial,trivial⟩

theorem relIoctl_refused (sign : CharSign) (second : SecondCall) (overshift : UINT32 → UINT32) (msg : IPC_IOC_MSGQUE_REL)
    (none : s.file = none ∨ e.copy_from_user = false) :
    relIoctl sign second overshift s e msg = ⟨.returned (-EFAULT),msg,some s.info,s.file⟩ := by
  rw [relIoctl]
  rcases none with none | lost
  · rw [none,ioctl_MSGQUE_REL]
  · rw [lost]
    cases s.file <;> rfl

/-- The answer of a release reaches the library where it says that it does. -/
theorem relIoctl_answer {pdev : ipc_device} (file : s.file = some pdev) (copied : e.copy_from_user = true) {answer : INT32}
    (returned : (relIoctl sign second overshift s e ⟨msqid,e.rtn⟩).ret = .returned answer) :
    (e.Answers ↔ ¬ answer < 0) ∧ (e.Answers → (relIoctl sign second overshift s e ⟨msqid,e.rtn⟩).msg_user.rtn =
      (ipc_msgque_rel sign (some s.info) msqid).1) := by
  have fault : (-EFAULT : INT32) < 0 := by decide
  simp only [relIoctl,file,copied,ioctl_MSGQUE_REL,Bool.true_eq_false,if_false] at returned ⊢
  rw [CallEnv.Answers]
  split at returned
  · cases returned
  · rename_i unlocked
    rw [if_neg unlocked]
    cases told : e.copy_to_user with
    | false =>
      rw [told,if_pos rfl] at returned
      cases returned
      simp [fault]
    | true =>
      rw [told,if_neg (by decide)] at returned
      cases returned
      simp

theorem rel_step_returned (step : CountStep sign second overshift s (.rel msqid e ret) t) :
    (libRel sign second overshift s msqid e).ret = .returned ret := by
  cases step with
  | rel returned _ _ => exact returned
  | close returned _ _ _ => exact returned

/-- A release that called the driver once left the device open. -/
theorem rel_step_open (calls : (libRel sign second overshift s msqid e).calls = [.sys_ioctl s.statics.ipcfd])
    (step : CountStep sign second overshift s (.rel msqid e ret) t) :
    ∃ info, (relIoctl sign second overshift s e ⟨msqid,e.rtn⟩).g = some info ∧ t = { s with
      statics := (libRel sign second overshift s msqid e).statics,
      file := (relIoctl sign second overshift s e ⟨msqid,e.rtn⟩).private_data,
      info := info,
      uses := s.usesAfter msqid ret } := by
  cases step with
  | rel _ _ table => exact ⟨_,table,rfl⟩
  | close _ closes _ _ =>
    rw [calls] at closes
    exact absurd closes (by simp)

/-- One that also closed it ran `ipc_release`. -/
theorem rel_step_close (calls : (libRel sign second overshift s msqid e).calls = [.sys_ioctl s.statics.ipcfd,.sys_close s.statics.ipcfd])
    (step : CountStep sign second overshift s (.rel msqid e ret) t) :
    ∃ noRet info closed, ipc_release sign (relIoctl sign second overshift s e ⟨msqid,e.rtn⟩).g
        (relIoctl sign second overshift s e ⟨msqid,e.rtn⟩).private_data noRet = closed ∧ closed.g = some info ∧
      t = { statics := (libRel sign second overshift s msqid e).statics, file := none, info := info,
            uses := s.usesAfter msqid ret, lost := s.lost ++ closed.released.filter (· ∈ s.usesAfter msqid ret) } := by
  cases step with
  | rel _ open_ _ =>
    rw [calls] at open_
    exact absurd (by simp) open_
  | close _ _ closed table => exact ⟨_,_,_,closed,table,rfl⟩

/-- Without a file or without the struct a release fails and changes nothing. -/
theorem rel_step_refused (none : s.file = none ∨ e.copy_from_user = false)
    (step : CountStep sign second overshift s (.rel msqid e ret) t) : ret ≠ 0 ∧ t = s := by
  have refused := relIoctl_refused sign second overshift ⟨msqid,e.rtn⟩ none
  obtain ⟨answer,answered,⟨_,bad,statics,calls⟩ | ⟨⟨positive,_⟩,_⟩⟩ := libRel_cases (rel_step_returned step)
  · obtain ⟨info,table,after⟩ := rel_step_open calls step
    rw [refused] at table
    cases table
    rw [after,statics,refused,Counted.usesAfter,if_neg bad]
    exact ⟨bad,rfl⟩
  · rw [refused] at answered
    cases answered
    exact absurd (show (-EFAULT : INT32) < 0 by decide) positive

/-- What the ioctl of a release does to the table and to the bits. -/
theorem relIoctl_effect (sign : CharSign) (second : SecondCall) (overshift : UINT32 → UINT32) (msqid : UINT32) {pdev : ipc_device}
    (file : s.file = some pdev) (copied : e.copy_from_user = true) :
    ∃ info, (ipc_msgque_rel sign (some s.info) msqid).2 = some info ∧
      (relIoctl sign second overshift s e ⟨msqid,e.rtn⟩).g = some info ∧
      (relIoctl sign second overshift s e ⟨msqid,e.rtn⟩).private_data = some (pdev.clear overshift msqid) := by
  have effect := rel_ioctl_effect sign second overshift s.info pdev ⟨msqid,e.rtn⟩ e.copy_to_user e.noReturn
  rw [← copied,← file] at effect
  obtain ⟨released,cleared⟩ : (relIoctl sign second overshift s e ⟨msqid,e.rtn⟩).g = (ipc_msgque_rel sign (some s.info) msqid).2 ∧
      (relIoctl sign second overshift s e ⟨msqid,e.rtn⟩).private_data = some (pdev.clear overshift msqid) := effect
  obtain ⟨info,done,_⟩ := rel_effect (Prod.ext rfl rfl :
    ipc_msgque_rel sign (some s.info) msqid = (_,(ipc_msgque_rel sign (some s.info) msqid).2))
  exact ⟨info,done,released.trans done,cleared⟩

/-- A release that returned left everything, or only cleared bits, or was counted,
    and then the library closed the device if it was the last. -/
theorem rel_step_cases (step : CountStep sign second overshift s (.rel msqid e ret) t) :
    (s.file = none ∨ e.copy_from_user = false) ∧ ret ≠ 0 ∧ t = s ∨
    ∃ pdev info, s.file = some pdev ∧ e.copy_from_user = true ∧ (ipc_msgque_rel sign (some s.info) msqid).2 = some info ∧
      (¬ (CanRelease sign s.info msqid ∧ e.Answers) ∧ ret ≠ 0 ∧
          t = { s with file := some (pdev.clear overshift msqid), info := info } ∨
        (CanRelease sign s.info msqid ∧ e.Answers) ∧ ret = 0 ∧
          (s.statics.msqcnt - 1 ≠ 0 ∧ t = { s with
              statics := ⟨s.statics.ipcfd,s.statics.msqcnt - 1⟩,
              file := some (pdev.clear overshift msqid),
              info := info,
              uses := s.uses.erase msqid.toNat } ∨
            s.statics.msqcnt - 1 = 0 ∧ ∃ noRet info' closed,
              ipc_release sign (some info) (some (pdev.clear overshift msqid)) noRet = closed ∧ closed.g = some info' ∧
              t = { statics := ⟨-1,0⟩, file := none, info := info', uses := s.uses.erase msqid.toNat,
                    lost := s.lost ++ closed.released.filter (· ∈ s.uses.erase msqid.toNat) })) := by
  by_cases none : s.file = none ∨ e.copy_from_user = false
  · exact .inl ⟨none,rel_step_refused none step⟩
  push Not at none
  obtain ⟨pdev,file⟩ := Option.ne_none_iff_exists'.mp none.1
  have copied : e.copy_from_user = true := Bool.eq_true_of_not_eq_false none.2
  obtain ⟨info,done,released,cleared⟩ := relIoctl_effect sign second overshift msqid file copied
  refine .inr ⟨pdev,info,file,copied,done,?_⟩
  obtain ⟨answer,answered,outcome⟩ := libRel_cases (rel_step_returned step)
  obtain ⟨reached,told⟩ := relIoctl_answer file copied answered
  rcases outcome with ⟨failed,bad,statics,calls⟩ | ⟨⟨positive,ok⟩,rfl,outcome⟩
  · refine .inl ⟨?_,bad,?_⟩
    · rintro ⟨can,answers⟩
      rcases failed with negative | refused
      · exact reached.mp answers negative
      · exact refused ((told answers).trans (canRelease_iff.mp can))
    · obtain ⟨_,table,after⟩ := rel_step_open calls step
      cases released.symm.trans table
      rw [after,statics,cleared,Counted.usesAfter,if_neg bad]
  · have answers := reached.mpr positive
    have can : CanRelease sign s.info msqid := canRelease_iff.mpr ((told answers).symm.trans ok)
    refine .inr ⟨⟨can,answers⟩,rfl,?_⟩
    rcases outcome with ⟨last,statics,calls⟩ | ⟨more,statics,calls⟩
    · obtain ⟨noRet,info',closed,release,table,after⟩ := rel_step_close calls step
      rw [released,cleared] at release
      rw [statics,Counted.usesAfter,if_pos rfl] at after
      exact .inr ⟨last,noRet,info',closed,release,table,after⟩
    · obtain ⟨_,table,after⟩ := rel_step_open calls step
      cases released.symm.trans table
      rw [statics,cleared,Counted.usesAfter,if_pos rfl] at after
      exact .inl ⟨more,after⟩

end

/-! ### What keeps the count -/

/-- The count and the bits of an open file are those of the ids in use. -/
structure Matches (s : Counted) (pdev : ipc_device) : Prop where
  counted : s.statics.msqcnt = Int32.ofNat s.uses.card
  recorded : s.uses = recorded pdev
  slots : ∀ i ∈ s.uses, i < 12

structure Counts (s : Counted) : Prop where
  numbered : Numbered s.info
  clean : s.lost = []
  closed : s.file = none → s.statics.ipcfd < 0 ∧ s.statics.msqcnt = 0 ∧ s.uses = ∅
  opened : ∀ pdev, s.file = some pdev → 0 ≤ s.statics.ipcfd ∧ Matches s pdev

section
variable {s t : Counted} {key : INT16} {msqid : UINT32} {e : CallEnv} {ret : INT32} {pdev : ipc_device}

theorem Matches.small (same : Matches s pdev) : s.uses.card ≤ 12 := by
  have subset : s.uses ⊆ Finset.range 12 := fun i has => Finset.mem_range.mpr (same.slots i has)
  simpa using Finset.card_le_card subset

theorem Counts.agrees (inv : Counts s) : Agrees s := by
  refine ⟨fun pdev file => ?_,inv.clean⟩
  obtain ⟨_,same⟩ := inv.opened pdev file
  rw [same.counted,same.recorded]

/-- A file that `ipc_open` leaves open matches the count, and the descriptor is its. -/
theorem Counts.opens (inv : Counts s) (file : s.opens e = some pdev) : 0 ≤ s.descriptor e ∧ Matches s pdev := by
  rw [Counted.opens] at file
  rw [Counted.descriptor]
  by_cases closed : s.statics.ipcfd < 0
  · rw [if_pos closed] at file ⊢
    by_cases failed : e.opened < 0
    · rw [if_pos failed] at file
      cases file
    · rw [if_neg failed] at file
      cases file
      have none : s.file = none := by
        by_contra some
        obtain ⟨_,there⟩ := Option.ne_none_iff_exists'.mp some
        exact Int32.not_le.mpr closed (inv.opened _ there).1
      obtain ⟨_,zero,empty⟩ := inv.closed none
      refine ⟨Int32.not_lt.mp failed,by rw [zero,empty]; rfl,?_,by simp [empty]⟩
      rw [empty]
      decide
  · rw [if_neg closed] at file ⊢
    exact inv.opened pdev file

theorem Counts.unopened (inv : Counts s) (none : s.opens e = none) :
    s.descriptor e < 0 ∧ s.statics.msqcnt = 0 ∧ s.uses = ∅ := by
  rw [Counted.opens] at none
  rw [Counted.descriptor]
  by_cases closed : s.statics.ipcfd < 0
  · rw [if_pos closed] at none ⊢
    by_cases failed : e.opened < 0
    · refine ⟨failed,(inv.closed ?_).2⟩
      by_contra some
      obtain ⟨_,there⟩ := Option.ne_none_iff_exists'.mp some
      exact Int32.not_le.mpr closed (inv.opened _ there).1
    · rw [if_neg failed] at none
      cases none
  · rw [if_neg closed] at none
    exact absurd (inv.closed none).1 closed

/-- A GET finds the number of a slot or an error. -/
theorem found_slot (numbered : Numbered s.info) (found : 0 ≤ s.found key) : (s.found key).toUInt32.toNat < 12 := by
  rw [Counted.found] at found ⊢
  rcases getIDbyKey_cases s.info (IPC_IOC_MSGQUE_GET.keyArg ⟨key.toUInt16,0⟩) with ⟨i,⟨inside,live,_⟩,id⟩ | ⟨_,none⟩
  · rw [id,numbered i inside live]
    exact (slotNumber inside).symm ▸ inside
  · rw [none] at found
    exact absurd found (by decide)

theorem count_up (x : INT32) : x + 1 ≠ x := by simp

theorem count_down (x : INT32) : x - 1 ≠ x := by
  intro same
  have up : x + 1 = x := by rw [← same,Int32.sub_add_cancel,same]
  exact count_up x up

theorem ofNat_succ (n : Nat) : Int32.ofNat (n + 1) = Int32.ofNat n + 1 := Int32.ofNat_add n 1

/-- A get keeps the agreement exactly if it is in order. -/
theorem get_exact (inv : Counts s) (step : CountStep sign second overshift s (.get key e) t) :
    InOrder sign overshift s (.get key e) ∧ Counts t ∨ ¬ InOrder sign overshift s (.get key e) ∧ ¬ Agrees t := by
  rcases get_cases step with ⟨idle,rfl⟩ | ⟨pdev,file,copied,found,outcome⟩
  · refine .inl ⟨fun pdev file copied found => ?_,inv.numbered,inv.clean,inv.unopened,fun pdev file => ?_⟩
    · rcases idle with none | lost | unknown
      · cases file.symm.trans none
      · cases copied.symm.trans lost
      · exact absurd found unknown
    · obtain ⟨positive,same⟩ := inv.opens file
      exact ⟨positive,same.counted,same.recorded,same.slots⟩
  · obtain ⟨positive,same⟩ := inv.opens file
    have slot := found_slot inv.numbered found
    have bits : recorded (pdev.store overshift (s.found key).toUInt32) = insert (s.found key).toUInt32.toNat (recorded pdev) :=
      recorded_store (by omega)
    have order : InOrder sign overshift s (.get key e) ↔
        (pdev.stored (s.found key).toUInt32.toNat = false ↔ e.Answers) := by
      constructor
      · exact fun all => all pdev file copied found
      · intro one pdev' file' _ _
        cases file.symm.trans file'
        exact one
    have has : (s.found key).toUInt32.toNat ∈ s.uses ↔ pdev.stored (s.found key).toUInt32.toNat = true := by
      rw [same.recorded,mem_recorded]
      exact and_iff_right (by omega)
    rw [order]
    rcases outcome with ⟨answers,rfl⟩ | ⟨lost,rfl⟩
    · by_cases set : pdev.stored (s.found key).toUInt32.toNat = true
      · refine .inr ⟨by simp [set,answers],fun agrees => ?_⟩
        have equal := agrees.1 _ rfl
        rw [bits,← same.recorded,Finset.insert_eq_of_mem (has.mpr set),← same.counted] at equal
        exact count_up _ equal
      · refine .inl ⟨iff_of_true (Bool.eq_false_of_not_eq_true set) answers,inv.numbered,inv.clean,?_,?_⟩
        · exact fun none => absurd none (by simp)
        · rintro _ ⟨⟩
          refine ⟨positive,?_,?_,?_⟩
          · rw [Finset.card_insert_of_notMem (mt has.mp set),ofNat_succ,← same.counted]
          · rw [bits,same.recorded]
          · simpa [slot] using same.slots
    · by_cases set : pdev.stored (s.found key).toUInt32.toNat = true
      · refine .inl ⟨by simp [set,lost],inv.numbered,inv.clean,fun none => absurd none (by simp),?_⟩
        rintro _ ⟨⟩
        refine ⟨positive,same.counted,?_,same.slots⟩
        rw [bits,← same.recorded,Finset.insert_eq_of_mem (has.mpr set)]
      · refine .inr ⟨by simp [set,lost],fun agrees => ?_⟩
        have equal := agrees.1 _ rfl
        rw [bits,← same.recorded,Finset.card_insert_of_notMem (mt has.mp set),ofNat_succ,← same.counted] at equal
        exact count_up _ equal.symm

theorem ofNat_injective {m n : Nat} (left : m ≤ 12) (right : n ≤ 12) (same : Int32.ofNat m = Int32.ofNat n) : m = n := by
  have residues := congrArg (fun x : INT32 => x.toUInt32.toNat) same
  change m % 2 ^ 32 = n % 2 ^ 32 at residues
  omega

/-- A table stays numbered when a queue is released. -/
theorem numbered_rel {info info' : IPC_MSQINFO} (numbered : Numbered info) {ret : INT32}
    (called : ipc_msgque_rel sign (some info) msqid = (ret,some info')) : Numbered info' := by
  intro i inside live
  obtain ⟨_,⟨⟩,⟨_,rfl,_⟩ | ⟨_,_,dead,keep⟩⟩ := rel_effect called
  · exact numbered i inside live
  · have other : i ≠ msqid.toNat := by
      rintro rfl
      exact dead live
    obtain ⟨same,_,id⟩ := sameQueue_header (keep i inside other)
    rw [id,numbered i inside (same.mp live)]

/-- A close of a file without bits leaves the table. -/
theorem turns_idle (clear : ∀ i < 12, pdev.stored i = false) (closed : Closed) (n : Nat) (bound : n ≤ 12) :
    (List.range n).foldl (releaseTurn sign pdev) closed = closed := by
  induction n with
  | zero => rfl
  | succ n ih =>
    rw [List.range_succ,List.foldl_append,ih (by omega),List.foldl_cons,List.foldl_nil,releaseTurn,clear n (by omega)]
    rfl

/-- The library does not learn of the release: the bit must have been clear. -/
theorem unlearned_exact (inv : Counts s) (file : s.file = some pdev) {info : IPC_MSQINFO} (numbered : Numbered info)
    (bits : recorded (pdev.clear overshift msqid) = s.uses.erase msqid.toNat) :
    msqid.toNat ∉ s.uses ∧ Counts { s with file := some (pdev.clear overshift msqid), info := info } ∨
      msqid.toNat ∈ s.uses ∧ ¬ Agrees { s with file := some (pdev.clear overshift msqid), info := info } := by
  obtain ⟨positive,same⟩ := inv.opened pdev file
  by_cases used : msqid.toNat ∈ s.uses
  · refine .inr ⟨used,fun agrees => ?_⟩
    have equal := agrees.1 _ rfl
    rw [bits] at equal
    have card := same.counted
    rw [← Finset.card_erase_add_one used,ofNat_succ,← equal] at card
    exact count_up _ card.symm
  · refine .inl ⟨used,numbered,inv.clean,fun none => absurd none (by simp),?_⟩
    rintro _ ⟨⟩
    refine ⟨positive,same.counted,?_,same.slots⟩
    rw [bits,Finset.erase_eq_of_notMem used]

/-- The library counts the release and others are left: the bit must have been set. -/
theorem counted_exact (inv : Counts s) (file : s.file = some pdev) {info : IPC_MSQINFO} (numbered : Numbered info)
    (bits : recorded (pdev.clear overshift msqid) = s.uses.erase msqid.toNat) (more : s.statics.msqcnt - 1 ≠ 0) :
    let t : Counted := { s with
      statics := ⟨s.statics.ipcfd,s.statics.msqcnt - 1⟩,
      file := some (pdev.clear overshift msqid),
      info := info,
      uses := s.uses.erase msqid.toNat }
    msqid.toNat ∈ s.uses ∧ Counts t ∧ s.uses.erase msqid.toNat ≠ ∅ ∨ msqid.toNat ∉ s.uses ∧ ¬ Agrees t := by
  obtain ⟨positive,same⟩ := inv.opened pdev file
  by_cases used : msqid.toNat ∈ s.uses
  · have card : s.statics.msqcnt - 1 = Int32.ofNat (s.uses.erase msqid.toNat).card := by
      rw [same.counted,← Finset.card_erase_add_one used,ofNat_succ,Int32.add_sub_cancel]
    refine .inl ⟨used,⟨numbered,inv.clean,fun none => absurd none (by simp),?_⟩,fun empty => more ?_⟩
    · rintro _ ⟨⟩
      exact ⟨positive,card,bits.symm,fun i has => same.slots i (Finset.mem_of_mem_erase has)⟩
    · rw [card,empty]
      rfl
  · refine .inr ⟨used,fun agrees => ?_⟩
    have equal := agrees.1 _ rfl
    rw [bits,Finset.erase_eq_of_notMem used,← same.counted] at equal
    exact count_down _ equal

/-- The library counts the release and closes the device: the bit must have been
    the only one that was set, as a close releases what is left. -/
theorem last_exact (inv : Counts s) (file : s.file = some pdev) {info info' : IPC_MSQINFO} (numbered : Numbered info)
    (bits : recorded (pdev.clear overshift msqid) = s.uses.erase msqid.toNat) (last : s.statics.msqcnt - 1 = 0)
    {noRet : INT32} (table : (ipc_release sign (some info) (some (pdev.clear overshift msqid)) noRet).g = some info') :
    let closed := ipc_release sign (some info) (some (pdev.clear overshift msqid)) noRet
    let t : Counted := {
      statics := ⟨-1,0⟩, file := none, info := info', uses := s.uses.erase msqid.toNat,
      lost := s.lost ++ closed.released.filter (· ∈ s.uses.erase msqid.toNat) }
    msqid.toNat ∈ s.uses ∧ Counts t ∧ s.uses.erase msqid.toNat = ∅ ∨ msqid.toNat ∉ s.uses ∧ ¬ Agrees t := by
  obtain ⟨_,same⟩ := inv.opened pdev file
  have one : s.uses.card = 1 := by
    refine ofNat_injective same.small (by omega) ?_
    rw [← same.counted,← Int32.sub_add_cancel s.statics.msqcnt 1,last]
    rfl
  by_cases used : msqid.toNat ∈ s.uses
  · have empty : s.uses.erase msqid.toNat = ∅ := by
      rw [← Finset.card_eq_zero,Finset.card_erase_of_mem used,one]
    have clear (i : Nat) (inside : i < 12) : (pdev.clear overshift msqid).stored i = false := by
      have absent : i ∉ recorded (pdev.clear overshift msqid) := by simp [bits,empty]
      simpa [show i < 32 by omega] using absent
    rw [ipc_release,turns_idle clear _ 12 le_rfl] at table ⊢
    cases table
    refine .inl ⟨used,⟨numbered,?_,fun _ => ⟨?_,rfl,empty⟩,?_⟩,empty⟩
    · simpa using inv.clean
    · exact show (-1 : INT32) < 0 by decide
    · exact fun _ none => absurd none (by simp)
  · refine .inr ⟨used,fun agrees => ?_⟩
    obtain ⟨j,there⟩ := Finset.card_pos.mp (by omega : 0 < s.uses.card)
    have still : j ∈ s.uses.erase msqid.toNat := by rwa [Finset.erase_eq_of_notMem used]
    have recorded := bits ▸ still
    have listed : j ∈ (ipc_release sign (some info) (some (pdev.clear overshift msqid)) noRet).released :=
      (mem_released (some info) noRet j).mpr ⟨same.slots j there,(mem_recorded.mp recorded).2⟩
    have none := (List.append_eq_nil_iff.mp agrees.2).2
    exact List.filter_eq_nil_iff.mp none j listed (decide_eq_true still)

/-- An id from 32 on releases nothing, so no bit may go. -/
theorem large_exact (inv : Counts s) (file : s.file = some pdev) {info : IPC_MSQINFO} (numbered : Numbered info)
    (large : ¬ msqid.toNat < 32) :
    let t : Counted := { s with file := some (pdev.clear overshift msqid), info := info }
    pdev.storequebit &&& overshift msqid = 0 ∧ Counts t ∨ pdev.storequebit &&& overshift msqid ≠ 0 ∧ ¬ Agrees t := by
  obtain ⟨positive,same⟩ := inv.opened pdev file
  rw [ne_eq,recorded_clear_large large]
  by_cases kept : recorded (pdev.clear overshift msqid) = recorded pdev
  · refine .inl ⟨kept,numbered,inv.clean,fun none => absurd none (by simp),?_⟩
    rintro _ ⟨⟩
    exact ⟨positive,same.counted,same.recorded.trans kept.symm,same.slots⟩
  · refine .inr ⟨kept,fun agrees => ?_⟩
    have fewer : (recorded (pdev.clear overshift msqid)).card < s.uses.card := by
      rw [same.recorded]
      exact Finset.card_lt_card (Finset.ssubset_iff_subset_ne.mpr ⟨recorded_clear_subset,kept⟩)
    have bound := same.small
    have equal := ofNat_injective bound (by omega) (same.counted.symm.trans (agrees.1 _ rfl))
    omega

/-- A release keeps the agreement exactly if it is in order, and then closes the
    device exactly if no queue is left in use. -/
theorem rel_exact (inv : Counts s) (step : CountStep sign second overshift s (.rel msqid e ret) t) :
    InOrder sign overshift s (.rel msqid e ret) ∧ Counts t ∧ (ret = 0 → (t.file = none ↔ t.uses = ∅)) ∨
      ¬ InOrder sign overshift s (.rel msqid e ret) ∧ ¬ Agrees t := by
  rcases rel_step_cases step with ⟨idle,bad,rfl⟩ | ⟨pdev,info,file,copied,released,outcome⟩
  · refine .inl ⟨fun pdev file copied => ?_,inv,fun ok => absurd ok bad⟩
    rcases idle with none | lost
    · cases file.symm.trans none
    · cases copied.symm.trans lost
  · have same := (inv.opened pdev file).2
    have numbered : Numbered info := numbered_rel inv.numbered (Prod.ext rfl released)
    have order : InOrder sign overshift s (.rel msqid e ret) ↔
        if msqid.toNat < 32 then (pdev.stored msqid.toNat = true ↔ CanRelease sign s.info msqid ∧ e.Answers)
        else pdev.storequebit &&& overshift msqid = 0 := by
      constructor
      · exact fun all => all pdev file copied
      · intro one pdev' file' _
        cases file.symm.trans file'
        exact one
    rw [order]
    by_cases small : msqid.toNat < 32
    · rw [if_pos small]
      have bits : recorded (pdev.clear overshift msqid) = s.uses.erase msqid.toNat := by
        rw [recorded_clear small,same.recorded]
      have has : pdev.stored msqid.toNat = true ↔ msqid.toNat ∈ s.uses := by
        rw [same.recorded,mem_recorded]
        exact (and_iff_right small).symm
      rw [has]
      rcases outcome with ⟨undone,bad,rfl⟩ | ⟨done,rfl,⟨more,rfl⟩ | ⟨last,noRet,info',_,rfl,table,rfl⟩⟩
      · rcases unlearned_exact inv file numbered bits with ⟨unused,after⟩ | ⟨used,differs⟩
        · exact .inl ⟨iff_of_false unused undone,after,fun ok => absurd ok bad⟩
        · exact .inr ⟨fun both => undone (both.mp used),differs⟩
      · rcases counted_exact inv file numbered bits more with ⟨used,after,left⟩ | ⟨unused,differs⟩
        · exact .inl ⟨iff_of_true used done,after,fun _ => iff_of_false (by simp) left⟩
        · exact .inr ⟨fun both => unused (both.mpr done),differs⟩
      · rcases last_exact inv file numbered bits last table with ⟨used,after,empty⟩ | ⟨unused,differs⟩
        · exact .inl ⟨iff_of_true used done,after,fun _ => iff_of_true rfl empty⟩
        · exact .inr ⟨fun both => unused (both.mpr done),differs⟩
    · rw [if_neg small]
      rcases outcome with ⟨_,bad,rfl⟩ | ⟨⟨⟨q,live,_⟩,_⟩,_⟩
      · rcases large_exact inv file numbered small with ⟨apart,after⟩ | ⟨meets,differs⟩
        · exact .inl ⟨apart,after,fun ok => absurd ok bad⟩
        · exact .inr ⟨meets,differs⟩
      · have inside := (getQuebyID_some.mp live).1
        omega

theorem step_exact {ev : CountEvent} (inv : Counts s) (step : CountStep sign second overshift s ev t) :
    InOrder sign overshift s ev ∧ Counts t ∨ ¬ InOrder sign overshift s ev ∧ ¬ Agrees t := by
  cases ev with
  | get key e => exact get_exact inv step
  | rel msqid e ret => exact (rel_exact inv step).imp_left fun kept => ⟨kept.1,kept.2.1⟩
  | others =>
    cases step with
    | others numbered =>
      exact .inl ⟨trivial,numbered,inv.clean,inv.closed,fun pdev file =>
        ⟨(inv.opened pdev file).1,(inv.opened pdev file).2.counted,(inv.opened pdev file).2.recorded,(inv.opened pdev file).2.slots⟩⟩

end

/-- A process that has not called the library yet. -/
def fresh (info : IPC_MSQINFO) : Counted := ⟨⟨-1,0⟩,none,info,∅,[]⟩

/-- The device opens as descriptor 3, and every answer arrives. -/
def answered : CallEnv := ⟨3,0,true,true,0⟩

end IpcMsq.Counting
