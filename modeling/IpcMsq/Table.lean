import IpcMsq.Common

/-!
The queue table of `drv_ipc_msgque.c`: initialisation, names and keys, and the
calls that obtain, look up and release a queue. The spinlock that makes each
call atomic is no part of the state. `none` is a null `g_msqinfo`.
-/
namespace IpcMsq.Table
open IpcMsq.Memory IpcMsq.Common

/-- `for(i = 0; i < IPC_MSG_QUEUE_NUM; i++)` up to the first `i` that passes the test. -/
def firstSlot (test : Nat → Bool) : Option Nat := (List.range IPC_MSG_QUEUE_NUM).find? test

@[simp] theorem firstSlot_some {test : Nat → Bool} {i : Nat} :
    firstSlot test = some i ↔ i < 12 ∧ test i = true ∧ ∀ j < i, test j = false := by
  simp only [firstSlot,List.find?_range_eq_some,List.mem_range,IPC_MSG_QUEUE_NUM,Bool.not_eq_true']
  tauto

@[simp] theorem firstSlot_none {test : Nat → Bool} : firstSlot test = none ↔ ∀ i < 12, test i = false := by
  simp [firstSlot]

/-! ### Initialisation -/

def ipc_calcNeddBuffSize : UINT32 := (16 * 2) * IPC_SENDTO_MAX

/-- The loop that gives every destination its semaphore and its two message
    slots; `tmpbuff` is the address of the next slot. -/
def initSndMsgBuff (vir : UINT32) (garbage : Fin 3 → IPC_SNDMSG_BUFF) : UINT32 × (Fin 3 → IPC_SNDMSG_BUFF) :=
  (List.finRange 3).foldl (fun (tmpbuff,buffTbl) i =>
    (tmpbuff + 16 + 16,
      Function.update buffTbl i { semid := 1, pingponidx := 0, sndmsg := ![tmpbuff,tmpbuff + 16] })) (vir,garbage)

/-- The loop that marks every queue uninitialised and empties every token string. -/
def resetTbl (tbl : Mem) (n : Nat) : Mem :=
  (List.range n).foldl (fun tbl i => store8 (store32 tbl (msgQueTbl i) 0) (msgQueTokenStr i) 0) tbl

/-- `kmalloc` is the uninitialised struct or null; `dma` is what
    `dma_alloc_coherent` returns, the virtual and the bus address, or null. -/
def ipc_msgque_init (g : Option IPC_MSQINFO) (kmalloc : Option IPC_MSQINFO) (dma : Option (UINT32 × UINT32)) :
    INT32 × Option IPC_MSQINFO :=
  match g with
  | some info => (-1,some info)
  | none =>
    match kmalloc with
    | none => (-ENOMEM,none)
    | some garbage =>
      match dma with
      | none => (-ENOMEM,none)
      | some (vir,bus) =>
        let (tmpbuff,buffTbl) := initSndMsgBuff vir garbage.sndmsg_buffTbl
        if tmpbuff - vir ≠ ipc_calcNeddBuffSize then (-EFAULT,none)
        else (0,some { garbage with
          syscmdbuf_vir := vir, syscmdbuf_dma := bus,
          tbl := resetTbl garbage.tbl IPC_MSG_QUEUE_NUM, sndmsg_buffTbl := buffTbl })

/-- The table after `ipc_msgque_init` on zeroed memory, with the send buffers at
    a bus address of the shared window. -/
def booted : Option IPC_MSQINFO :=
  (ipc_msgque_init none
    (some { syscmdbuf_vir := 0, syscmdbuf_dma := 0, tbl := fun _ => 0,
            sndmsg_buffTbl := fun _ => { pingponidx := 0, sndmsg := fun _ => 0, semid := 0 },
            syscmdbuf := fun _ => 0 })
    (some (0xC0100000,0x00100000))).2

/-! ### Names and keys -/

/-- Whether `char` is signed, which the compiler decides. -/
inductive CharSign
  | signed | unsigned
deriving DecidableEq

/-- A character promoted to `int`, modulo 2^16. -/
def promote : CharSign → UInt8 → UINT16
  | .signed, c => c.toInt8.toInt16.toUInt16
  | .unsigned, c => c.toUInt16

/-- One turn of the hash loop: rotate right, add the character. -/
def hashStep (sign : CharSign) (hash : UINT16) (c : UInt8) : UINT16 :=
  (if hash &&& 1 ≠ 0 then (0x8000 : UINT16) else 0) + (hash >>> 1) + promote sign c

def namehashFrom (sign : CharSign) : List UInt8 → UINT16 → UINT16
  | [], hash => hash
  | c :: rest, hash => if c = 0 then hash else namehashFrom sign rest (hashStep sign hash c)

/-- `pname` is the memory from the pointer on. -/
def ipc_msgque_namehash (sign : CharSign) (pname : List UInt8) : UINT16 := namehashFrom sign pname 0

/-- The memory from a token string to the end of the token table and on into
    the first send-buffer entry, whose ping-pong index is the next word. -/
def tokenBytes (info : IPC_MSQINFO) (i : Nat) : List UInt8 :=
  bytes info.tbl (msgQueTokenStr i) (msgQueTokenStr IPC_MSG_QUEUE_NUM - msgQueTokenStr i) ++
    (List.range 4).map (byteOf (info.sndmsg_buffTbl 0).pingponidx)

/-- `path` is the memory from the pointer on. A full token table is no error. -/
def ipc_msgque_ftok (sign : CharSign) (g : Option IPC_MSQINFO) (path : List UInt8) :
    UINT16 × Option IPC_MSQINFO :=
  match g with
  | none => (-1,none)
  | some info =>
    let tbl := match firstSlot fun i => info.tbl (msgQueTokenStr i) == 0 with
      | some i => strncpy info.tbl (msgQueTokenStr i) path IPC_MSG_QUEUE_TOKEN_STR_MAXLEN
      | none => info.tbl
    (ipc_msgque_namehash sign path,some { info with tbl := tbl })

/-! ### Queues -/

/-- The six assignments that hand out slot `i`. -/
def assignQueue (tbl : Mem) (i : Nat) (key : INT32) : Mem :=
  let q := msgQueTbl i
  let tbl := store32 tbl q CFG_IPC_INIT_KEY
  let tbl := store32 tbl (q + 8) (UInt32.ofNat i)
  let tbl := store32 tbl (q + 4) key.toUInt32
  let tbl := store32 tbl (q + 12) (IPC_MSG_ELEMENT_NUM - 1)
  let tbl := store32 tbl (q + 16) 0
  store32 tbl (q + 20) 0

/-- The second loop is read as `for`. -/
def ipc_msgque_get (g : Option IPC_MSQINFO) (key : INT32) : INT32 × Option IPC_MSQINFO :=
  match g with
  | none => (-1,none)
  | some info =>
    match firstSlot fun i => initkey info.tbl (msgQueTbl i) == CFG_IPC_INIT_KEY &&
        key.toUInt32 == sharekey info.tbl (msgQueTbl i) with
    | some _ => (-1,some info)
    | none =>
      match firstSlot fun i => initkey info.tbl (msgQueTbl i) != CFG_IPC_INIT_KEY with
      | none => (-2,some info)
      | some i =>
        let tbl := assignQueue info.tbl i key
        ((msqid tbl (msgQueTbl i)).toInt32,some { info with tbl := tbl })

/-- The address of a table entry is not null, so `-2` is never returned. -/
def ipc_msgque_getIDbyKey (g : Option IPC_MSQINFO) (key : INT32) : INT32 :=
  match g with
  | none => -1
  | some info =>
    match firstSlot fun i => initkey info.tbl (msgQueTbl i) == CFG_IPC_INIT_KEY &&
        key.toUInt32 == sharekey info.tbl (msgQueTbl i) with
    | some i => (msqid info.tbl (msgQueTbl i)).toInt32
    | none => -3

def ipc_msgque_getQuebyID (g : Option IPC_MSQINFO) (msqid : UINT32) : Option Nat :=
  match g with
  | none => none
  | some info =>
    if msqid.toNat ≥ IPC_MSG_QUEUE_NUM then none
    else if initkey info.tbl (msgQueTbl msqid.toNat) ≠ CFG_IPC_INIT_KEY then none
    else some (msgQueTbl msqid.toNat)

/-- The address of the first token string whose hash is the key. -/
def ipc_msgque_getTokenByKey (sign : CharSign) (g : Option IPC_MSQINFO) (key : UINT32) : Option Nat :=
  match g with
  | none => none
  | some info =>
    (firstSlot fun i => (ipc_msgque_namehash sign (tokenBytes info i)).toUInt32 == key).map msgQueTokenStr

def ipc_msgque_rel (sign : CharSign) (g : Option IPC_MSQINFO) (msqid : UINT32) : INT32 × Option IPC_MSQINFO :=
  match g, ipc_msgque_getQuebyID g msqid with
  | some info, some q =>
    match ipc_msgque_getTokenByKey sign g (sharekey info.tbl q) with
    | some token => (0,some { info with tbl := store32 (store8 info.tbl token 0) q 0 })
    | none => (-2,some info)
  | g, _ => (-1,g)

/-! ### What the calls do -/

/-- A slot number survives the return type of `ipc_msgque_get`. -/
theorem slotNumber {i : Nat} (inside : i < 12) : (Int32.ofNat i).toUInt32.toNat = i := by
  change i % 2 ^ 32 = i
  omega

theorem slotNumber_unsigned {i : Nat} (inside : i < 12) : (UInt32.ofNat i).toNat = i := by
  rw [UInt32.toNat_ofNat']
  omega

theorem slotNumber_injective {i j : Nat} (left : i < 12) (right : j < 12) (same : Int32.ofNat i = Int32.ofNat j) :
    i = j := by
  rw [← slotNumber left,same,slotNumber right]

/-- No slot number is an error code. -/
theorem slotNumber_nonneg {i : Nat} (inside : i < 12) : 0 ≤ Int32.ofNat i := by
  revert inside i
  decide

/-- Slot `i` is initialised with the key. -/
def HasKey (tbl : Mem) (i : Nat) (key : UINT32) : Prop :=
  i < 12 ∧ Live tbl (msgQueTbl i) ∧ sharekey tbl (msgQueTbl i) = key

/-- Slot `i` of one table is byte for byte slot `i` of the other. -/
def SameQueue (tbl tbl' : Mem) (i : Nat) : Prop := ∀ a, msgQueTbl i ≤ a → a < msgQueTbl (i + 1) → tbl' a = tbl a

/-- Slot `i` has the same initialisation, key and id in both tables. -/
def SameHeader (tbl tbl' : Mem) (i : Nat) : Prop :=
  (Live tbl' (msgQueTbl i) ↔ Live tbl (msgQueTbl i)) ∧
    sharekey tbl' (msgQueTbl i) = sharekey tbl (msgQueTbl i) ∧ msqid tbl' (msgQueTbl i) = msqid tbl (msgQueTbl i)

theorem sameQueue_header {tbl tbl' : Mem} {i : Nat} (same : SameQueue tbl tbl' i) : SameHeader tbl tbl' i := by
  obtain ⟨init,share,id,_⟩ := header_congr fun a (low : msgQueTbl i ≤ a) high =>
    same a low (by simp only [msgQueTbl_eq] at *; omega)
  exact ⟨by rw [Live,Live,init],share,id⟩

theorem hasKey_header {tbl tbl' : Mem} {i : Nat} {key : UINT32} (same : SameHeader tbl tbl' i) :
    HasKey tbl' i key ↔ HasKey tbl i key := by
  obtain ⟨live,share,_⟩ := same
  simp only [HasKey,live,share]

theorem hasKey_congr {tbl tbl' : Mem} {i : Nat} {key : UINT32} (same : SameQueue tbl tbl' i) :
    HasKey tbl' i key ↔ HasKey tbl i key := hasKey_header (sameQueue_header same)

section
variable {tbl : Mem} {i : Nat} {key : INT32}

/-- Handing out a slot writes its header only. -/
theorem assignQueue_outside {a : Nat} (apart : a < msgQueTbl i ∨ msgQueTbl i + 24 ≤ a) :
    assignQueue tbl i key a = tbl a := by
  simp only [assignQueue]
  rw [store32_outside (by omega),store32_outside (by omega),store32_outside (by omega),store32_outside (by omega),
    store32_outside (by omega),store32_outside (by omega)]

/-- The header of a slot just handed out. -/
theorem assignQueue_header (tbl : Mem) (i : Nat) (key : INT32) : initkey (assignQueue tbl i key) (msgQueTbl i) = CFG_IPC_INIT_KEY ∧
    sharekey (assignQueue tbl i key) (msgQueTbl i) = key.toUInt32 ∧
    msqid (assignQueue tbl i key) (msgQueTbl i) = UInt32.ofNat i ∧
    indx (assignQueue tbl i key) (msgQueTbl i) = 15 ∧ outdx (assignQueue tbl i key) (msgQueTbl i) = 0 ∧
    count (assignQueue tbl i key) (msgQueTbl i) = 0 := by
  simp only [assignQueue,initkey,sharekey,msqid,indx,outdx,count]
  refine ⟨?_,?_,?_,?_,?_,?_⟩ <;> simp (disch := omega) only [load32_store32_apart,load32_store32]
  rfl

theorem assignQueue_other {j : Nat} (other : j ≠ i) : SameQueue tbl (assignQueue tbl i key) j := by
  intro a low high
  apply assignQueue_outside
  simp only [msgQueTbl_eq] at *
  omega

theorem assignQueue_hasKey (inside : i < 12) : HasKey (assignQueue tbl i key) i key.toUInt32 := by
  obtain ⟨init,share,_⟩ := assignQueue_header tbl i key
  exact ⟨inside,init,share⟩

end

private theorem hasKey_test {tbl : Mem} {i : Nat} {key : INT32} :
    (initkey tbl (msgQueTbl i) == CFG_IPC_INIT_KEY && key.toUInt32 == sharekey tbl (msgQueTbl i)) = true ↔
      Live tbl (msgQueTbl i) ∧ sharekey tbl (msgQueTbl i) = key.toUInt32 := by
  simp only [Bool.and_eq_true,beq_iff_eq,Live]
  exact and_congr_right fun _ => eq_comm

/-- A `get` finds the key in use, or no slot free, or hands out the first free slot. -/
theorem get_cases (info : IPC_MSQINFO) (key : INT32) :
    ((∃ i, HasKey info.tbl i key.toUInt32) ∧ ipc_msgque_get (some info) key = (-1,some info)) ∨
    ((∀ i, ¬ HasKey info.tbl i key.toUInt32) ∧ (∀ i < 12, Live info.tbl (msgQueTbl i)) ∧
      ipc_msgque_get (some info) key = (-2,some info)) ∨
    (∃ i, (∀ j, ¬ HasKey info.tbl j key.toUInt32) ∧ i < 12 ∧ ¬ Live info.tbl (msgQueTbl i) ∧
      (∀ j < i, Live info.tbl (msgQueTbl j)) ∧
      ipc_msgque_get (some info) key = (Int32.ofNat i,some { info with tbl := assignQueue info.tbl i key })) := by
  simp only [ipc_msgque_get]
  cases scan : firstSlot fun i => initkey info.tbl (msgQueTbl i) == CFG_IPC_INIT_KEY &&
      key.toUInt32 == sharekey info.tbl (msgQueTbl i) with
  | some i =>
    obtain ⟨inside,found,_⟩ := firstSlot_some.mp scan
    exact .inl ⟨⟨i,inside,hasKey_test.mp found⟩,rfl⟩
  | none =>
    have fresh : ∀ i, ¬ HasKey info.tbl i key.toUInt32 := by
      rintro i ⟨inside,has⟩
      exact absurd (hasKey_test.mpr has) (by simpa using firstSlot_none.mp scan i inside)
    cases free : firstSlot fun i => initkey info.tbl (msgQueTbl i) != CFG_IPC_INIT_KEY with
    | none =>
      refine .inr (.inl ⟨fresh,fun i inside => ?_,rfl⟩)
      simpa [Live] using firstSlot_none.mp free i inside
    | some i =>
      obtain ⟨inside,found,least⟩ := firstSlot_some.mp free
      refine .inr (.inr ⟨i,fresh,inside,by simpa [Live] using found,fun j less => by simpa [Live] using least j less,?_⟩)
      simp only [(assignQueue_header info.tbl i key).2.2.1]
      rfl

/-- A `getIDbyKey` answers with the id of the first slot that has the key. -/
theorem getIDbyKey_cases (info : IPC_MSQINFO) (key : INT32) :
    (∃ i, HasKey info.tbl i key.toUInt32 ∧
      ipc_msgque_getIDbyKey (some info) key = (msqid info.tbl (msgQueTbl i)).toInt32) ∨
    ((∀ i, ¬ HasKey info.tbl i key.toUInt32) ∧ ipc_msgque_getIDbyKey (some info) key = -3) := by
  simp only [ipc_msgque_getIDbyKey]
  cases scan : firstSlot fun i => initkey info.tbl (msgQueTbl i) == CFG_IPC_INIT_KEY &&
      key.toUInt32 == sharekey info.tbl (msgQueTbl i) with
  | some i =>
    obtain ⟨inside,found,_⟩ := firstSlot_some.mp scan
    exact .inl ⟨i,⟨inside,hasKey_test.mp found⟩,rfl⟩
  | none =>
    refine .inr ⟨?_,rfl⟩
    rintro i ⟨inside,has⟩
    exact absurd (hasKey_test.mpr has) (by simpa using firstSlot_none.mp scan i inside)

/-- The queue with an id is the initialised slot of that number. -/
theorem getQuebyID_some {info : IPC_MSQINFO} {id : UINT32} {q : Nat} :
    ipc_msgque_getQuebyID (some info) id = some q ↔
      id.toNat < 12 ∧ Live info.tbl (msgQueTbl id.toNat) ∧ q = msgQueTbl id.toNat := by
  simp only [ipc_msgque_getQuebyID,Live,IPC_MSG_QUEUE_NUM,ge_iff_le]
  split
  · simp; omega
  · split
    · rename_i dead
      simp [dead]
    · rename_i inside live
      have inside : id.toNat < 12 := by omega
      simp [inside,not_not.mp live,eq_comm]

/-- A `rel` fails without a queue or without a token, or clears one token and frees the slot. -/
theorem rel_cases (sign : CharSign) (info : IPC_MSQINFO) (id : UINT32) :
    (¬ (id.toNat < 12 ∧ Live info.tbl (msgQueTbl id.toNat)) ∧
      ipc_msgque_rel sign (some info) id = (-1,some info)) ∨
    (id.toNat < 12 ∧ Live info.tbl (msgQueTbl id.toNat) ∧
      ipc_msgque_getTokenByKey sign (some info) (sharekey info.tbl (msgQueTbl id.toNat)) = none ∧
      ipc_msgque_rel sign (some info) id = (-2,some info)) ∨
    (∃ token, id.toNat < 12 ∧ Live info.tbl (msgQueTbl id.toNat) ∧
      ipc_msgque_getTokenByKey sign (some info) (sharekey info.tbl (msgQueTbl id.toNat)) = some token ∧
      ipc_msgque_rel sign (some info) id =
        (0,some { info with tbl := store32 (store8 info.tbl token 0) (msgQueTbl id.toNat) 0 })) := by
  simp only [ipc_msgque_rel]
  cases lookup : ipc_msgque_getQuebyID (some info) id with
  | none =>
    refine .inl ⟨?_,rfl⟩
    rintro ⟨inside,live⟩
    have found := getQuebyID_some.mpr ⟨inside,live,rfl⟩
    simp [lookup] at found
  | some q =>
    obtain ⟨inside,live,rfl⟩ := getQuebyID_some.mp lookup
    cases token : ipc_msgque_getTokenByKey sign (some info) (sharekey info.tbl (msgQueTbl id.toNat)) with
    | none => exact .inr (.inl ⟨inside,live,rfl,by simp only [token]⟩)
    | some t => exact .inr (.inr ⟨t,inside,live,rfl,by simp only [token]⟩)

theorem getTokenByKey_some {sign : CharSign} {info : IPC_MSQINFO} {key : UINT32} {token : Nat} :
    ipc_msgque_getTokenByKey sign (some info) key = some token ↔
      ∃ j < 12, token = msgQueTokenStr j ∧ (ipc_msgque_namehash sign (tokenBytes info j)).toUInt32 = key ∧
        ∀ k < j, (ipc_msgque_namehash sign (tokenBytes info k)).toUInt32 ≠ key := by
  simp only [ipc_msgque_getTokenByKey,Option.map_eq_some_iff,firstSlot_some,beq_iff_eq,beq_eq_false_iff_ne]
  constructor
  · rintro ⟨j,⟨inside,found,least⟩,rfl⟩; exact ⟨j,inside,rfl,found,least⟩
  · rintro ⟨j,inside,rfl,found,least⟩; exact ⟨j,⟨inside,found,least⟩,rfl⟩

theorem getTokenByKey_none {sign : CharSign} {info : IPC_MSQINFO} {key : UINT32} :
    ipc_msgque_getTokenByKey sign (some info) key = none ↔
      ∀ j < 12, (ipc_msgque_namehash sign (tokenBytes info j)).toUInt32 ≠ key := by
  simp [ipc_msgque_getTokenByKey]

/-- An `ftok` writes at most 32 bytes of one token string and no queue. -/
theorem ftok_cases (sign : CharSign) (info : IPC_MSQINFO) (path : List UInt8) :
    ((∀ i < 12, info.tbl (msgQueTokenStr i) ≠ 0) ∧
      ipc_msgque_ftok sign (some info) path = (ipc_msgque_namehash sign path,some info)) ∨
    (∃ i < 12, info.tbl (msgQueTokenStr i) = 0 ∧ (∀ j < i, info.tbl (msgQueTokenStr j) ≠ 0) ∧
      ipc_msgque_ftok sign (some info) path = (ipc_msgque_namehash sign path,
        some { info with tbl := strncpy info.tbl (msgQueTokenStr i) path 32 })) := by
  simp only [ipc_msgque_ftok]
  cases scan : firstSlot fun i => info.tbl (msgQueTokenStr i) == 0 with
  | none => exact .inl ⟨fun i inside => by simpa using firstSlot_none.mp scan i inside,rfl⟩
  | some i =>
    obtain ⟨inside,empty,least⟩ := firstSlot_some.mp scan
    exact .inr ⟨i,inside,by simpa using empty,fun j less => by simpa using least j less,rfl⟩

/-- The first queue of a booted table. -/
def firstQueue : IPC_MSQINFO := (ipc_msgque_get booted 5).2.get (by decide +kernel)

theorem firstQueue_got : ipc_msgque_get booted 5 = (0,some firstQueue) :=
  Prod.ext (by decide +kernel) (Option.some_get _).symm

theorem firstQueue_live : ipc_msgque_getQuebyID (some firstQueue) 0 = some (msgQueTbl 0) := by decide +kernel

end IpcMsq.Table
