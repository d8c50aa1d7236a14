import IpcMsq.Spinlock
import IpcMsq.CoreHandler
import IpcMsq.Runs

/-!
The calls of `drv_ipc_msgque.c` with their spinlock: where each acquires it and
on which exits it releases it. `long` is read as `lock`, the only spinlock of the
file. A call from a free lock computes what the model without the lock does, and
the theorems say what becomes of the lock.
-/
namespace IpcMsq.Locking
open IpcMsq.Memory IpcMsq.Common IpcMsq.Spinlock IpcMsq.Runs
open Table (CharSign firstSlot assignQueue ipc_msgque_namehash ipc_msgque_getIDbyKey ipc_msgque_getQuebyID
  ipc_msgque_getTokenByKey)
open Elements (ipc_msgque_isempty ipc_msgque_isfull putElement takeElement)
open SendBuff (Outcome)
open Api (IPC_CTRL Received Sent waitMsg)

/-- A call chain on `g_msqinfo`. -/
abbrev Chain := Spin (Option IPC_MSQINFO)

def ipc_msgque_ftok (sign : CharSign) (path : List UInt8) : Chain UINT16 := do
  match ← shared with
  | none => return -1
  | some info =>
    spin_lock
    match firstSlot fun i => info.tbl (msgQueTokenStr i) == 0 with
    | some i => store (some { info with tbl := strncpy info.tbl (msgQueTokenStr i) path IPC_MSG_QUEUE_TOKEN_STR_MAXLEN })
    | none => pure ()
    spin_unlock
    return ipc_msgque_namehash sign path

def ipc_msgque_get (key : INT32) : Chain INT32 := do
  match ← shared with
  | none => return -1
  | some info =>
    spin_lock
    match firstSlot fun i => initkey info.tbl (msgQueTbl i) == CFG_IPC_INIT_KEY &&
        key.toUInt32 == sharekey info.tbl (msgQueTbl i) with
    | some _ =>
      spin_unlock
      return -1
    | none =>
      match firstSlot fun i => initkey info.tbl (msgQueTbl i) != CFG_IPC_INIT_KEY with
      | none =>
        spin_unlock
        return -2
      | some i =>
        let tbl := assignQueue info.tbl i key
        store (some { info with tbl := tbl })
        spin_unlock
        return (msqid tbl (msgQueTbl i)).toInt32

/-- The exit without a token keeps the lock. -/
def ipc_msgque_rel (sign : CharSign) (msqid : UINT32) : Chain INT32 := do
  spin_lock
  let g ← shared
  match g, ipc_msgque_getQuebyID g msqid with
  | some info, some p_msgque =>
    match ipc_msgque_getTokenByKey sign g (sharekey info.tbl p_msgque) with
    | some token =>
      store (some { info with tbl := store32 (store8 info.tbl token 0) p_msgque 0 })
      spin_unlock
      return 0
    | none => return -2
  | _, _ =>
    spin_unlock
    return -1

/-- The exit on a full queue keeps the lock. Without a table the only queue
    pointer is null. -/
def ipc_msgque_enqueue (msgque : Option Nat) (msg : IPC_MSG) : Chain INT32 := do
  spin_lock
  match ← shared, msgque with
  | some info, some q =>
    if ipc_msgque_isfull info.tbl (some q) then return -1
    else
      store (some { info with tbl := putElement info.tbl q msg })
      spin_unlock
      return 0
  | _, _ => return -1

def ipc_msgque_msgpost (msqid : UINT32) (pmsgaddr : Option Mem) (msgsize : UINT32) (rcvmsg : IPC_MSG) : Chain INT32 := do
  match pmsgaddr with
  | none => return -1
  | some payload =>
    if msgsize > IPC_MSG_ELEMENT_SIZE then return -2
    else
      spin_lock
      match ipc_msgque_getQuebyID (← shared) msqid with
      | none =>
        spin_unlock
        return -3
      | some pmsgque =>
        let rcvmsg := { rcvmsg with data := copy rcvmsg.data 0 payload msgsize.toNat }
        let rcvmsg := { rcvmsg with size := msgsize }
        let ret ← ipc_msgque_enqueue (some pmsgque) rcvmsg
        if ret ≠ 0 then
          spin_unlock
          return -4
        else
          spin_unlock
          return ret

/-- The exit on an empty queue keeps the lock. -/
def ipc_msgque_dequeue (msgque : Option Nat) (msg : IPC_MSG) : Chain (INT32 × IPC_MSG) := do
  spin_lock
  match ← shared, msgque with
  | some info, some q =>
    if ipc_msgque_isempty info.tbl (some q) then return (-1,msg)
    else
      let (msg,tbl) := takeElement info.tbl q msg
      store (some { info with tbl := tbl })
      spin_unlock
      return (0,msg)
  | _, _ => return (-1,msg)

section
variable (sign : CharSign) (g : Option IPC_MSQINFO)

theorem ftok_run (path : List UInt8) : (ipc_msgque_ftok sign path).run (g,false) =
    some ((Table.ipc_msgque_ftok sign g path).1,((Table.ipc_msgque_ftok sign g path).2,false)) := by
  cases g with
  | none => rfl
  | some info =>
    simp only [ipc_msgque_ftok,Table.ipc_msgque_ftok,bind_run (shared_run _ _),bind_run (spin_lock_free _)]
    cases scan : firstSlot fun i => info.tbl (msgQueTokenStr i) == 0 with
    | none => simp
    | some i => simp

theorem get_run (key : INT32) : (ipc_msgque_get key).run (g,false) =
    some ((Table.ipc_msgque_get g key).1,((Table.ipc_msgque_get g key).2,false)) := by
  cases g with
  | none => rfl
  | some info =>
    simp only [ipc_msgque_get,Table.ipc_msgque_get,bind_run (shared_run _ _),bind_run (spin_lock_free _)]
    cases used : firstSlot fun i => initkey info.tbl (msgQueTbl i) == CFG_IPC_INIT_KEY &&
        key.toUInt32 == sharekey info.tbl (msgQueTbl i) with
    | some i => simp
    | none =>
      cases free : firstSlot fun i => initkey info.tbl (msgQueTbl i) != CFG_IPC_INIT_KEY with
      | none => simp
      | some i => simp

/-- A release without a token returns with the lock held. -/
theorem rel_run (id : UINT32) : (ipc_msgque_rel sign id).run (g,false) =
    some ((Table.ipc_msgque_rel sign g id).1,((Table.ipc_msgque_rel sign g id).2,
      decide ((Table.ipc_msgque_rel sign g id).1 = -2))) := by
  cases g with
  | none => rfl
  | some info =>
    obtain ⟨_ | q,found⟩ : ∃ found, ipc_msgque_getQuebyID (some info) id = found := ⟨_,rfl⟩
    · simp [ipc_msgque_rel,Table.ipc_msgque_rel,found]
    · obtain ⟨_ | t,token⟩ : ∃ token, ipc_msgque_getTokenByKey sign (some info) (sharekey info.tbl q) = token := ⟨_,rfl⟩
      · simp [ipc_msgque_rel,Table.ipc_msgque_rel,found,token]
      · simp [ipc_msgque_rel,Table.ipc_msgque_rel,found,token]

end

section
variable (info : IPC_MSQINFO) (msgque : Option Nat) (msg : IPC_MSG)

/-- An enqueue that is refused returns with the lock held. -/
theorem enqueue_run : (ipc_msgque_enqueue msgque msg).run (some info,false) =
    some ((Elements.ipc_msgque_enqueue info.tbl msgque msg).1,
      (some { info with tbl := (Elements.ipc_msgque_enqueue info.tbl msgque msg).2 },
        decide ((Elements.ipc_msgque_enqueue info.tbl msgque msg).1 ≠ 0))) := by
  cases msgque with
  | none => simp [ipc_msgque_enqueue,Elements.ipc_msgque_enqueue]
  | some q =>
    by_cases full : ipc_msgque_isfull info.tbl (some q) = true
    · simp [ipc_msgque_enqueue,Elements.ipc_msgque_enqueue,full]
    · simp [ipc_msgque_enqueue,Elements.ipc_msgque_enqueue,full]

/-- A dequeue that is refused returns with the lock held. -/
theorem dequeue_run : (ipc_msgque_dequeue msgque msg).run (some info,false) =
    some (((Elements.ipc_msgque_dequeue info.tbl msgque msg).1,(Elements.ipc_msgque_dequeue info.tbl msgque msg).2.1),
      (some { info with tbl := (Elements.ipc_msgque_dequeue info.tbl msgque msg).2.2 },
        decide ((Elements.ipc_msgque_dequeue info.tbl msgque msg).1 ≠ 0))) := by
  cases msgque with
  | none => simp [ipc_msgque_dequeue,Elements.ipc_msgque_dequeue]
  | some q =>
    by_cases empty : ipc_msgque_isempty info.tbl (some q) = true
    · simp [ipc_msgque_dequeue,Elements.ipc_msgque_dequeue,empty]
    · simp [ipc_msgque_dequeue,Elements.ipc_msgque_dequeue,empty]

end

/-! ### Which calls release the lock -/

inductive Call
  | ftok (path : List UInt8)
  | get (key : INT32)
  | rel (id : UINT32)
  | enqueue (msgque : Option Nat) (msg : IPC_MSG)
  | dequeue (msgque : Option Nat) (msg : IPC_MSG)

/-- A call that returns, with the table and the lock before and after it. -/
def CallStep (sign : CharSign) (s : Option IPC_MSQINFO × Bool) : Call → Option IPC_MSQINFO × Bool → Prop
  | .ftok path, s' => ∃ key, (ipc_msgque_ftok sign path).run s = some (key,s')
  | .get key, s' => ∃ ret, (ipc_msgque_get key).run s = some (ret,s')
  | .rel id, s' => ∃ ret, (ipc_msgque_rel sign id).run s = some (ret,s')
  | .enqueue msgque msg, s' => ∃ ret, (ipc_msgque_enqueue msgque msg).run s = some (ret,s')
  | .dequeue msgque msg, s' => ∃ ret, (ipc_msgque_dequeue msgque msg).run s = some (ret,s')

/-- The exits that keep the lock are not taken: a queue to be released has a token,
    one to be written has room, one to be read is not empty. -/
def Releases (sign : CharSign) (g : Option IPC_MSQINFO) : Call → Prop
  | .ftok _ | .get _ => True
  | .rel id => ∀ info q, g = some info → ipc_msgque_getQuebyID g id = some q →
      ipc_msgque_getTokenByKey sign g (sharekey info.tbl q) ≠ none
  | .enqueue msgque _ => ∃ info q, g = some info ∧ msgque = some q ∧ ipc_msgque_isfull info.tbl (some q) = false
  | .dequeue msgque _ => ∃ info q, g = some info ∧ msgque = some q ∧ ipc_msgque_isempty info.tbl (some q) = false

/-- A call from a free lock returns. -/
theorem call_returns (sign : CharSign) (g : Option IPC_MSQINFO) (call : Call) :
    ∃ s', CallStep sign (g,false) call s' ∧ (s'.2 = false ↔ Releases sign g call) := by
  cases call with
  | ftok path => exact ⟨_,⟨_,ftok_run sign g path⟩,iff_of_true rfl trivial⟩
  | get key => exact ⟨_,⟨_,get_run g key⟩,iff_of_true rfl trivial⟩
  | rel id =>
    refine ⟨_,⟨_,rel_run sign g id⟩,?_⟩
    simp only [decide_eq_false_iff_not,Releases]
    cases g with
    | none => exact iff_of_true (show ¬ ((-1 : INT32) = -2) by decide) (by rintro _ _ ⟨⟩)
    | some info =>
      rcases Table.rel_cases sign info id with ⟨none,refused⟩ | ⟨inside,live,none,refused⟩ | ⟨token,inside,live,found,done⟩
      · rw [refused]
        refine iff_of_true (show ¬ ((-1 : INT32) = -2) by decide) ?_
        rintro _ q ⟨⟩ lookup
        obtain ⟨inside,live,_⟩ := Table.getQuebyID_some.mp lookup
        exact absurd ⟨inside,live⟩ none
      · rw [refused]
        exact iff_of_false (fun differ => differ rfl)
          fun tokens => tokens info _ rfl (Table.getQuebyID_some.mpr ⟨inside,live,rfl⟩) none
      · rw [done]
        refine iff_of_true (show ¬ ((0 : INT32) = -2) by decide) ?_
        rintro _ q ⟨⟩ lookup
        obtain ⟨_,_,rfl⟩ := Table.getQuebyID_some.mp lookup
        simp [found]
  | enqueue msgque msg =>
    cases g with
    | none => exact ⟨_,⟨-1,rfl⟩,iff_of_false (by simp) (by rintro ⟨_,_,⟨⟩,_⟩)⟩
    | some info =>
      refine ⟨_,⟨_,enqueue_run info msgque msg⟩,?_⟩
      cases msgque with
      | none => exact iff_of_false (by simp [Elements.ipc_msgque_enqueue]) (by rintro ⟨_,_,_,⟨⟩,_⟩)
      | some q =>
        by_cases full : ipc_msgque_isfull info.tbl (some q) = true
        · simp [Elements.ipc_msgque_enqueue,Releases,full]
        · simp [Elements.ipc_msgque_enqueue,Releases,full]
  | dequeue msgque msg =>
    cases g with
    | none => exact ⟨_,⟨(-1,msg),rfl⟩,iff_of_false (by simp) (by rintro ⟨_,_,⟨⟩,_⟩)⟩
    | some info =>
      refine ⟨_,⟨_,dequeue_run info msgque msg⟩,?_⟩
      cases msgque with
      | none => exact iff_of_false (by simp [Elements.ipc_msgque_dequeue]) (by rintro ⟨_,_,_,⟨⟩,_⟩)
      | some q =>
        by_cases empty : ipc_msgque_isempty info.tbl (some q) = true
        · simp [Elements.ipc_msgque_dequeue,Releases,empty]
        · simp [Elements.ipc_msgque_dequeue,Releases,empty]

/-- A call has one result. -/
theorem callStep_unique {sign : CharSign} {s s' s'' : Option IPC_MSQINFO × Bool} {call : Call} (one : CallStep sign s call s')
    (two : CallStep sign s call s'') : s' = s'' := by
  cases call <;> obtain ⟨_,one⟩ := one <;> obtain ⟨_,two⟩ := two <;> cases one.symm.trans two <;> rfl

/-- On a table whose lock is held no call returns. -/
theorem held_blocks (sign : CharSign) (info : IPC_MSQINFO) (call : Call) (s' : Option IPC_MSQINFO × Bool) :
    ¬ CallStep sign (some info,true) call s' := by
  cases call with
  | ftok path =>
    rintro ⟨_,returned⟩
    rw [ipc_msgque_ftok,bind_run (shared_run _ _),bind_stuck (spin_lock_held _)] at returned
    cases returned
  | get key =>
    rintro ⟨_,returned⟩
    rw [ipc_msgque_get,bind_run (shared_run _ _),bind_stuck (spin_lock_held _)] at returned
    cases returned
  | rel id =>
    rintro ⟨_,returned⟩
    rw [ipc_msgque_rel,bind_stuck (spin_lock_held _)] at returned
    cases returned
  | enqueue msgque msg =>
    rintro ⟨_,returned⟩
    rw [ipc_msgque_enqueue,bind_stuck (spin_lock_held _)] at returned
    cases returned
  | dequeue msgque msg =>
    rintro ⟨_,returned⟩
    rw [ipc_msgque_dequeue,bind_stuck (spin_lock_held _)] at returned
    cases returned

/-- For every table and argument, a call with the lock free returns, and returns
    with the lock free exactly if it takes none of the exits that keep the lock. So
    the lock is free between the calls of a run exactly if each of them meets that
    condition, and once it is kept no call on the table returns any more. -/
theorem lock_released_iff (sign : CharSign) :
    (∀ g call, ∃ s', CallStep sign (g,false) call s' ∧ (s'.2 = false ↔ Releases sign g call)) ∧
    (∀ g es s, Run (Into (CallStep sign) fun s => s.2 = false) (g,false) es s ↔
      Run (Guarded (CallStep sign) fun s call => Releases sign s.1 call) (g,false) es s) ∧
    ∀ info call s', ¬ CallStep sign (some info,true) call s' := by
  refine ⟨call_returns sign,fun g es s => ?_,held_blocks sign⟩
  have exact_iff (t : Option IPC_MSQINFO × Bool) (call : Call) (u : Option IPC_MSQINFO × Bool) (free : t.2 = false)
      (step : CallStep sign t call u) : u.2 = false ↔ Releases sign t.1 call := by
    obtain ⟨g,held⟩ := t
    cases free
    obtain ⟨s',returned,released⟩ := call_returns sign g call
    rw [callStep_unique step returned]
    exact released
  exact Run.guarded_iff (I := fun s => s.2 = false) rfl exact_iff
    fun t call u free step meets => (exact_iff t call u free step).mpr meets

/-- A release of a queue without a token keeps the lock, and the next call spins for ever. -/
theorem lock_kept_by_rel : ∃ info, CallStep .signed (some Table.firstQueue,false) (.rel 0) (some info,true) ∧
    ∀ call s', ¬ CallStep .signed (some info,true) call s' := by
  have refused : Table.ipc_msgque_rel .signed (some Table.firstQueue) 0 = (-2,some Table.firstQueue) := by
    rcases Table.rel_cases .signed Table.firstQueue 0 with ⟨none,_⟩ | ⟨_,_,_,refused⟩ | ⟨_,_,_,_,done⟩
    · exact absurd ⟨by decide,by decide +kernel⟩ none
    · exact refused
    · exact absurd (congrArg Prod.fst done) (show (Table.ipc_msgque_rel .signed (some Table.firstQueue) 0).1 ≠ 0 by decide +kernel)
  have run := rel_run .signed (some Table.firstQueue) 0
  rw [refused] at run
  exact ⟨Table.firstQueue,⟨-2,run⟩,held_blocks .signed Table.firstQueue⟩

end IpcMsq.Locking
