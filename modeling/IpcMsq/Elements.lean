import IpcMsq.Table

/-!
The elements of one queue in `drv_ipc_msgque.c`: the tests for empty, full and
valid, and the calls that append and remove a message. A queue is a pointer into
the table, `none` when null. The spinlock is no part of the state.
-/
namespace IpcMsq.Elements
open IpcMsq.Memory IpcMsq.Common IpcMsq.Table

def ipc_msgque_isempty (tbl : Mem) : Option Nat → Bool
  | none => true
  | some q => indx tbl q == outdx tbl q

def ipc_msgque_getElementCount (tbl : Mem) : Option Nat → UINT32
  | none => -1
  | some q => count tbl q

def ipc_msgque_isfull (tbl : Mem) : Option Nat → Bool
  | none => true
  | some q => decide (IPC_MSG_ELEMENT_NUM ≤ ipc_msgque_getElementCount tbl (some q))

/-- The second conjunct is read as a comparison. -/
def ipc_msgque_isvalid (tbl : Mem) (key : UINT32) : Option Nat → Bool
  | none => false
  | some q => initkey tbl q == CFG_IPC_INIT_KEY && key == sharekey tbl q

/-- What an accepted message does to a queue: advance `indx`, write the size and
    the data of the slot it names, count it. The copy is as long as the size says. -/
def putElement (tbl : Mem) (q : Nat) (msg : IPC_MSG) : Mem :=
  let tbl := store32 tbl (q + 12) ((indx tbl q + 1) % IPC_MSG_ELEMENT_NUM)
  let Tmpmsgque := element q (indx tbl q).toNat
  let tbl := store32 tbl Tmpmsgque msg.size
  let tbl := copy tbl (Tmpmsgque + 4) msg.data msg.size.toNat
  store32 tbl (q + 20) (count tbl q + 1)

/-- The address of an element is not null, so `-2` is never returned. -/
def ipc_msgque_enqueue (tbl : Mem) (msgque : Option Nat) (msg : IPC_MSG) : INT32 × Mem :=
  match msgque, ipc_msgque_isfull tbl msgque with
  | some q, false => (0,putElement tbl q msg)
  | _, _ => (-1,tbl)

/-- The message at `outdx` moves to `msg`; only as many data bytes as its size
    says are copied, and the rest of `msg` keeps its content. -/
def takeElement (tbl : Mem) (q : Nat) (msg : IPC_MSG) : IPC_MSG × Mem :=
  let Tmpmsgque := element q (outdx tbl q).toNat
  let size := load32 tbl Tmpmsgque
  let tbl := store32 tbl (q + 16) ((outdx tbl q + 1) % IPC_MSG_ELEMENT_NUM)
  let data := copy msg.data 0 (fun k => tbl (Tmpmsgque + 4 + k)) (load32 tbl Tmpmsgque).toNat
  ({ size := size, data := data },store32 tbl (q + 20) (count tbl q - 1))

def ipc_msgque_dequeue (tbl : Mem) (msgque : Option Nat) (msg : IPC_MSG) : INT32 × IPC_MSG × Mem :=
  match msgque, ipc_msgque_isempty tbl msgque with
  | some q, false => (0,takeElement tbl q msg)
  | _, _ => (-1,msg,tbl)

/-- `rcvmsg` is the uninitialised local; a copy longer than its array lands
    behind it and is read back from there. -/
def ipc_msgque_msgpost (g : Option IPC_MSQINFO) (msqid : UINT32) (pmsgaddr : Option Mem) (msgsize : UINT32)
    (rcvmsg : IPC_MSG) : INT32 × Option IPC_MSQINFO :=
  match pmsgaddr with
  | none => (-1,g)
  | some payload =>
    if msgsize > IPC_MSG_ELEMENT_SIZE then (-2,g)
    else match g, ipc_msgque_getQuebyID g msqid with
      | some info, some q =>
        let rcvmsg := { rcvmsg with data := copy rcvmsg.data 0 payload msgsize.toNat }
        let rcvmsg := { rcvmsg with size := msgsize }
        let (ret,tbl) := ipc_msgque_enqueue info.tbl (some q) rcvmsg
        if ret ≠ 0 then (-4,some { info with tbl := tbl }) else (ret,some { info with tbl := tbl })
      | g, _ => (-3,g)

/-- The sizes that the checks of a send and of a post refuse. -/
theorem size_refused {msgsize : UINT32} : msgsize > IPC_MSG_ELEMENT_SIZE ↔ 24 < msgsize.toNat := by
  simp only [gt_iff_lt,UInt32.lt_iff_toNat_lt,IPC_MSG_ELEMENT_SIZE,UInt32.reduceToNat]

theorem size_admitted {msgsize : UINT32} (small : msgsize.toNat ≤ 24) : ¬ msgsize > IPC_MSG_ELEMENT_SIZE := by
  rw [size_refused]
  omega

/-! ### What the two operations do -/

section
variable {tbl : Mem} {q : Nat} {msg : IPC_MSG}

theorem isempty_iff : ipc_msgque_isempty tbl (some q) = true ↔ indx tbl q = outdx tbl q := by
  simp [ipc_msgque_isempty]

theorem isfull_iff : ipc_msgque_isfull tbl (some q) = true ↔ 16 ≤ (count tbl q).toNat := by
  simp [ipc_msgque_isfull,ipc_msgque_getElementCount,UInt32.le_iff_toNat_le]

/-- An enqueue is refused and changes nothing, or puts the message. -/
theorem enqueue_cases (tbl : Mem) (q : Nat) (msg : IPC_MSG) : ipc_msgque_enqueue tbl (some q) msg = (-1,tbl) ∧ 16 ≤ (count tbl q).toNat ∨
    ipc_msgque_enqueue tbl (some q) msg = (0,putElement tbl q msg) ∧ (count tbl q).toNat < 16 := by
  by_cases full : ipc_msgque_isfull tbl (some q) = true
  · exact .inl ⟨by simp [ipc_msgque_enqueue,full],isfull_iff.mp full⟩
  · have room := mt isfull_iff.mpr full
    exact .inr ⟨by simp [ipc_msgque_enqueue,full],by omega⟩

/-- A dequeue is refused and changes nothing, or takes the message. -/
theorem dequeue_cases (tbl : Mem) (q : Nat) (msg : IPC_MSG) : ipc_msgque_dequeue tbl (some q) msg = (-1,msg,tbl) ∧ indx tbl q = outdx tbl q ∨
    ipc_msgque_dequeue tbl (some q) msg = (0,takeElement tbl q msg) ∧ indx tbl q ≠ outdx tbl q := by
  by_cases empty : ipc_msgque_isempty tbl (some q) = true
  · exact .inl ⟨by simp [ipc_msgque_dequeue,empty],isempty_iff.mp empty⟩
  · exact .inr ⟨by simp [ipc_msgque_dequeue,empty],mt isempty_iff.mpr empty⟩

/-- An enqueue is accepted exactly if there is room. -/
theorem enqueue_accepted : (ipc_msgque_enqueue tbl (some q) msg).1 = 0 ↔ (count tbl q).toNat < 16 := by
  rcases enqueue_cases tbl q msg with ⟨refused,full⟩ | ⟨done,room⟩
  · rw [refused]
    exact iff_of_false (show (-1 : INT32) ≠ 0 by decide) (by omega)
  · rw [done]
    exact iff_of_true rfl room

/-- What an enqueue did, from its result. -/
theorem enqueue_returned {ret : INT32} {tbl' : Mem} (called : ipc_msgque_enqueue tbl (some q) msg = (ret,tbl')) :
    ret = -1 ∧ tbl' = tbl ∧ 16 ≤ (count tbl q).toNat ∨
      ret = 0 ∧ (count tbl q).toNat < 16 ∧ putElement tbl q msg = tbl' := by
  rcases enqueue_cases tbl q msg with ⟨refused,full⟩ | ⟨done,room⟩
  · cases called.symm.trans refused
    exact .inl ⟨rfl,rfl,full⟩
  · cases called.symm.trans done
    exact .inr ⟨rfl,room,rfl⟩

/-- A dequeue from a queue that its test does not call empty takes a message. -/
theorem dequeue_nonempty (nonempty : indx tbl q ≠ outdx tbl q) :
    ipc_msgque_dequeue tbl (some q) msg = (0,takeElement tbl q msg) :=
  ((dequeue_cases tbl q msg).resolve_left fun empty => nonempty empty.2).1

/-- What a dequeue did, from its result. -/
theorem dequeue_returned {ret : INT32} {after : IPC_MSG} {tbl' : Mem}
    (called : ipc_msgque_dequeue tbl (some q) msg = (ret,after,tbl')) :
    ret = -1 ∧ after = msg ∧ tbl' = tbl ∧ indx tbl q = outdx tbl q ∨
      ret = 0 ∧ indx tbl q ≠ outdx tbl q ∧ takeElement tbl q msg = (after,tbl') := by
  rcases dequeue_cases tbl q msg with ⟨refused,empty⟩ | ⟨done,nonempty⟩
  · cases called.symm.trans refused
    exact .inl ⟨rfl,rfl,rfl,empty⟩
  · cases called.symm.trans done
    exact .inr ⟨rfl,nonempty,rfl⟩

/-- The slot that the next accepted message goes to. -/
def nextSlot (tbl : Mem) (q : Nat) : Nat := ((indx tbl q).toNat + 1) % 16

theorem nextSlot_lt (tbl : Mem) (q : Nat) : nextSlot tbl q < 16 := Nat.mod_lt _ (by omega)

private theorem advance_toNat (x : UINT32) : ((x + 1) % IPC_MSG_ELEMENT_NUM).toNat = (x.toNat + 1) % 16 := by
  have one : (1 : UINT32).toNat = 1 := rfl
  have sixteen : IPC_MSG_ELEMENT_NUM.toNat = 16 := rfl
  rw [UInt32.toNat_mod,UInt32.toNat_add,one,sixteen]
  omega

/-- The writes of an accepted message, with the addresses worked out. -/
theorem putElement_eq : putElement tbl q msg =
    store32 (copy (store32 (store32 tbl (q + 12) ((indx tbl q + 1) % 16)) (element q (nextSlot tbl q)) msg.size)
      (element q (nextSlot tbl q) + 4) msg.data msg.size.toNat) (q + 20) (count tbl q + 1) := by
  have place : (indx (store32 tbl (q + 12) ((indx tbl q + 1) % IPC_MSG_ELEMENT_NUM)) q).toNat = nextSlot tbl q := by
    rw [indx,load32_store32]
    exact advance_toNat _
  have counted (p : Nat) (v : UINT32) (data : Mem) (n : Nat) :
      count (copy (store32 (store32 tbl (q + 12) ((indx tbl q + 1) % IPC_MSG_ELEMENT_NUM)) (element q p) v)
        (element q p + 4) data n) q = count tbl q := by
    simp only [count,element_eq]
    rw [load32_copy_apart (by omega),load32_store32_apart (by omega),load32_store32_apart (by omega)]
  simp only [putElement,place,counted]

/-- An accepted message leaves every byte outside the two header words and the
    part of its slot that its size names, wherever that part ends. -/
theorem putElement_outside {a : Nat} (indxWord : a < q + 12 ∨ q + 16 ≤ a) (countWord : a < q + 20 ∨ q + 24 ≤ a)
    (slot : a < element q (nextSlot tbl q) ∨ element q (nextSlot tbl q) + 4 + msg.size.toNat ≤ a) :
    putElement tbl q msg a = tbl a := by
  rw [putElement_eq,store32_outside countWord,copy_outside (by omega),store32_outside (by omega),
    store32_outside indxWord]

/-- The data of an accepted message, also where it is longer than its slot. -/
theorem putElement_data {k : Nat} (inside : k < msg.size.toNat) :
    putElement tbl q msg (element q (nextSlot tbl q) + 4 + k) = msg.data k := by
  rw [putElement_eq,store32_outside (by simp only [element_eq]; omega),copy_at inside]

theorem putElement_header (tbl : Mem) (q : Nat) (msg : IPC_MSG) : initkey (putElement tbl q msg) q = initkey tbl q ∧
    sharekey (putElement tbl q msg) q = sharekey tbl q ∧ msqid (putElement tbl q msg) q = msqid tbl q ∧
    outdx (putElement tbl q msg) q = outdx tbl q := by
  refine ⟨?_,?_,?_,?_⟩
  all_goals exact load32_congr fun k inside =>
    putElement_outside (by omega) (by omega) (by simp only [element_eq]; omega)

theorem putElement_indx : (indx (putElement tbl q msg) q).toNat = nextSlot tbl q := by
  rw [putElement_eq,indx,load32_store32_apart (by omega),load32_copy_apart (by simp only [element_eq]; omega),
    load32_store32_apart (by simp only [element_eq]; omega),load32_store32]
  exact advance_toNat _

theorem putElement_count : count (putElement tbl q msg) q = count tbl q + 1 := by
  rw [putElement_eq,count,load32_store32]

/-- The slot of an accepted message reads back as the message. -/
theorem putElement_content :
    contentAt (putElement tbl q msg) (element q (nextSlot tbl q)) = msg.content := by
  have size : load32 (putElement tbl q msg) (element q (nextSlot tbl q)) = msg.size := by
    rw [putElement_eq,load32_store32_apart (by simp only [element_eq]; omega),load32_copy_apart (by omega),load32_store32]
  simp only [contentAt,size,IPC_MSG.content,Prod.mk.injEq,true_and]
  rw [putElement_eq,bytes_store32_apart (by simp only [element_eq]; omega),bytes_copy]

/-- Messages that fit their slots stay as they are when a message that fits is put. -/
theorem putElement_other {p : Nat} (other : p ≠ nextSlot tbl q) (fits : (load32 tbl (element q p)).toNat ≤ 12)
    (small : msg.size.toNat ≤ 12) :
    contentAt (putElement tbl q msg) (element q p) = contentAt tbl (element q p) := by
  have apart : element q p + 16 ≤ element q (nextSlot tbl q) ∨ element q (nextSlot tbl q) + 16 ≤ element q p := by
    simp only [element_eq]
    omega
  have keep : ∀ a, element q p ≤ a → a < element q p + 16 → putElement tbl q msg a = tbl a := by
    intro a low high
    have above : q + 24 ≤ a := by rw [element_eq] at low; omega
    exact putElement_outside (by omega) (by omega) (by omega)
  have size : load32 (putElement tbl q msg) (element q p) = load32 tbl (element q p) :=
    load32_congr fun k inside => keep _ (by omega) (by omega)
  simp only [contentAt,size,Prod.mk.injEq,true_and]
  exact bytes_congr fun k inside => keep _ (by omega) (by omega)

theorem takeElement_mem : (takeElement tbl q msg).2 =
    store32 (store32 tbl (q + 16) ((outdx tbl q + 1) % 16)) (q + 20) (count tbl q - 1) := by
  have counted : count (store32 tbl (q + 16) ((outdx tbl q + 1) % IPC_MSG_ELEMENT_NUM)) q = count tbl q :=
    load32_store32_apart (by omega)
  simp only [takeElement,counted]

/-- Taking a message leaves every byte outside two header words. -/
theorem takeElement_outside {a : Nat} (outdxWord : a < q + 16 ∨ q + 20 ≤ a) (countWord : a < q + 20 ∨ q + 24 ≤ a) :
    (takeElement tbl q msg).2 a = tbl a := by
  rw [takeElement_mem,store32_outside countWord,store32_outside outdxWord]

theorem takeElement_header (tbl : Mem) (q : Nat) (msg : IPC_MSG) : initkey (takeElement tbl q msg).2 q = initkey tbl q ∧
    sharekey (takeElement tbl q msg).2 q = sharekey tbl q ∧ msqid (takeElement tbl q msg).2 q = msqid tbl q ∧
    indx (takeElement tbl q msg).2 q = indx tbl q := by
  refine ⟨?_,?_,?_,?_⟩
  all_goals exact load32_congr fun k inside => takeElement_outside (by omega) (by omega)

theorem takeElement_outdx : (outdx (takeElement tbl q msg).2 q).toNat = ((outdx tbl q).toNat + 1) % 16 := by
  rw [takeElement_mem,outdx,load32_store32_apart (by omega),load32_store32]
  exact advance_toNat _

theorem takeElement_count : count (takeElement tbl q msg).2 q = count tbl q - 1 := by
  rw [takeElement_mem,count,load32_store32]

/-- The elements are not written by taking one. -/
theorem takeElement_keep (tbl : Mem) (q : Nat) (msg : IPC_MSG) (p : Nat) :
    contentAt (takeElement tbl q msg).2 (element q p) = contentAt tbl (element q p) := by
  have keep : ∀ a, element q p ≤ a → (takeElement tbl q msg).2 a = tbl a := by
    intro a low
    rw [element_eq] at low
    exact takeElement_outside (by omega) (by omega)
  have size : load32 (takeElement tbl q msg).2 (element q p) = load32 tbl (element q p) :=
    load32_congr fun k inside => keep _ (by omega)
  simp only [contentAt,size,Prod.mk.injEq,true_and]
  exact bytes_congr fun k inside => keep _ (by omega)

/-- The message of a dequeue, from the element at `outdx`. -/
theorem takeElement_fst (tbl : Mem) (q : Nat) (msg : IPC_MSG) : (takeElement tbl q msg).1 =
    { size := load32 tbl (element q (outdx tbl q).toNat),
      data := copy msg.data 0 (fun k => tbl (element q (outdx tbl q).toNat + 4 + k))
        (load32 tbl (element q (outdx tbl q).toNat)).toNat } := by
  have behind : ∀ a, element q (outdx tbl q).toNat ≤ a → store32 tbl (q + 16) ((outdx tbl q + 1) % IPC_MSG_ELEMENT_NUM) a = tbl a := by
    intro a low
    rw [element_eq] at low
    exact store32_outside (by omega)
  have size : load32 (store32 tbl (q + 16) ((outdx tbl q + 1) % IPC_MSG_ELEMENT_NUM)) (element q (outdx tbl q).toNat) =
      load32 tbl (element q (outdx tbl q).toNat) := load32_congr fun k inside => behind _ (by omega)
  simp only [takeElement,size,IPC_MSG.mk.injEq,true_and]
  exact copy_congr fun k inside => behind _ (by omega)

/-- The message handed out is the content of the slot at `outdx`. -/
theorem takeElement_content (tbl : Mem) (q : Nat) (msg : IPC_MSG) :
    (takeElement tbl q msg).1.content = contentAt tbl (element q (outdx tbl q).toNat) := by
  rw [takeElement_fst,IPC_MSG.content,contentAt,bytes_copy]
  exact congrArg (Prod.mk _) (bytes_congr fun k inside => by rw [Nat.zero_add])

/-- The size handed out is that of the slot, and the rest of the caller's message
    keeps its content. -/
theorem takeElement_message (tbl : Mem) (q : Nat) (msg : IPC_MSG) :
    (takeElement tbl q msg).1.size = load32 tbl (element q (outdx tbl q).toNat) ∧
      ∀ k, (load32 tbl (element q (outdx tbl q).toNat)).toNat ≤ k → (takeElement tbl q msg).1.data k = msg.data k := by
  rw [takeElement_fst]
  refine ⟨rfl,fun k long => ?_⟩
  dsimp only
  exact copy_outside (by omega)

end

/-- A message that fits its slot leaves every other queue. -/
theorem putElement_sameQueue {tbl : Mem} {i j : Nat} {msg : IPC_MSG} (small : msg.size.toNat ≤ 12) (other : j ≠ i) :
    SameQueue tbl (putElement tbl (msgQueTbl i) msg) j := by
  have slot := nextSlot_lt tbl (msgQueTbl i)
  intro a low high
  refine putElement_outside ?_ ?_ ?_
  all_goals simp only [element_eq,msgQueTbl_eq] at *; omega

theorem takeElement_sameQueue {tbl : Mem} {i j : Nat} (msg : IPC_MSG) (other : j ≠ i) :
    SameQueue tbl (takeElement tbl (msgQueTbl i) msg).2 j := by
  intro a low high
  refine takeElement_outside ?_ ?_
  all_goals simp only [msgQueTbl_eq] at *; omega

/-- A message that fits its slot leaves every queue's initialisation, key and id. -/
theorem putElement_sameHeader {tbl : Mem} {i : Nat} {msg : IPC_MSG} (small : msg.size.toNat ≤ 12) (j : Nat) :
    SameHeader tbl (putElement tbl (msgQueTbl i) msg) j := by
  by_cases same : j = i
  · subst same
    obtain ⟨init,share,id,_⟩ := putElement_header tbl (msgQueTbl j) msg
    exact ⟨by rw [Live,Live,init],share,id⟩
  · exact sameQueue_header (putElement_sameQueue small same)

theorem takeElement_sameHeader {tbl : Mem} {i : Nat} (msg : IPC_MSG) (j : Nat) :
    SameHeader tbl (takeElement tbl (msgQueTbl i) msg).2 j := by
  by_cases same : j = i
  · subst same
    obtain ⟨init,share,id,_⟩ := takeElement_header tbl (msgQueTbl j) msg
    exact ⟨by rw [Live,Live,init],share,id⟩
  · exact sameQueue_header (takeElement_sameQueue msg same)

/-- A post of an admitted size finds no queue, or a full one, or puts the message. -/
theorem msgpost_cases (info : IPC_MSQINFO) (msqid : UINT32) (payload : Mem) {msgsize : UINT32}
    (admitted : msgsize.toNat ≤ 24) (rcvmsg : IPC_MSG) :
    (ipc_msgque_getQuebyID (some info) msqid = none ∧
      ipc_msgque_msgpost (some info) msqid (some payload) msgsize rcvmsg = (-3,some info)) ∨
    (∃ q, ipc_msgque_getQuebyID (some info) msqid = some q ∧ 16 ≤ (count info.tbl q).toNat ∧
      ipc_msgque_msgpost (some info) msqid (some payload) msgsize rcvmsg = (-4,some info)) ∨
    (∃ q, ipc_msgque_getQuebyID (some info) msqid = some q ∧ (count info.tbl q).toNat < 16 ∧
      ipc_msgque_msgpost (some info) msqid (some payload) msgsize rcvmsg = (0,some { info with
        tbl := putElement info.tbl q ⟨msgsize,copy rcvmsg.data 0 payload msgsize.toNat⟩ })) := by
  simp only [ipc_msgque_msgpost,if_neg (size_admitted admitted)]
  cases found : ipc_msgque_getQuebyID (some info) msqid with
  | none => exact .inl ⟨rfl,rfl⟩
  | some q =>
    rcases enqueue_cases info.tbl q ⟨msgsize,copy rcvmsg.data 0 payload msgsize.toNat⟩ with
      ⟨refused,full⟩ | ⟨done,room⟩
    · exact .inr (.inl ⟨q,rfl,full,by simp [refused]⟩)
    · exact .inr (.inr ⟨q,rfl,room,by simp [done]⟩)

/-- A post to a queue with room is accepted. -/
theorem msgpost_accepted {info : IPC_MSQINFO} {msqid msgsize : UINT32} {q : Nat} (payload : Mem)
    (found : ipc_msgque_getQuebyID (some info) msqid = some q) (room : (count info.tbl q).toNat < 16)
    (admitted : msgsize.toNat ≤ 24) (rcvmsg : IPC_MSG) :
    ipc_msgque_msgpost (some info) msqid (some payload) msgsize rcvmsg =
      (0,some { info with tbl := putElement info.tbl q ⟨msgsize,copy rcvmsg.data 0 payload msgsize.toNat⟩ }) := by
  rcases msgpost_cases info msqid payload admitted rcvmsg with ⟨none,_⟩ | ⟨q',found',full,_⟩ | ⟨q',found',_,done⟩
  · rw [found] at none
    cases none
  · cases found.symm.trans found'
    omega
  · cases found.symm.trans found'
    exact done

end IpcMsq.Elements
