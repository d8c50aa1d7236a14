import IpcMsq.KeyMap
import IpcMsq.Api

/-!
From the queue a message is sent on to the queue it is posted to. A key that
`ipc_msgque_ftok` returned is a 16-bit number wherever it is stored, so the
opcode field carries it whole and the receiver's lookup finds the queue of the
same key. The two tables may come from any runs of the driver whose accepted posts
fit an element; a longer one may write the key and the id of the queue behind.
-/
namespace IpcMsq.Routing
open IpcMsq.Memory IpcMsq.Common IpcMsq.Table IpcMsq.Elements IpcMsq.SendBuff IpcMsq.Communicator IpcMsq.Api
open IpcMsq.Runs IpcMsq.KeyMap

variable {sign sign' : CharSign}

/-- The way of a key through the library: the `INT16` that `ipc_ftok` returns, the
    `UINT16` of the request that `ipc_msg_get` makes, the `INT32` of the kernel call. -/
def libraryKey (rtn_key : UINT16) : INT32 := rtn_key.toInt16.toUInt16.toUInt32.toInt32

/-- A call of the driver that touches a queue table. -/
inductive DriverEvent
  | call (e : TableEvent)
  | snd (sent : Sent)
  | msgpost (msgsize : UINT32) (ret : INT32)
  | dequeue (ret : INT32)

/-- Keys of `get` are keys of names, by way of the library. A receive may dequeue from a
    queue that was released since it looked. -/
inductive DriverStep (sign : CharSign) : Option IPC_MSQINFO → DriverEvent → Option IPC_MSQINFO → Prop
  | call {g g' : Option IPC_MSQINFO} {e : TableEvent} : TableStep sign g e g' →
      (∀ key ret, e = .get key ret → ∃ path, key = libraryKey (ipc_msgque_namehash sign path)) →
      DriverStep sign g (.call e) g'
  | snd {g : Option IPC_MSQINFO} {msqid sendTo msg_size : UINT32} {msg_data : Option Mem} {signal : Bool}
      {noReturn : INT32} {sent : Sent} :
      ipc_msg_snd g msqid sendTo msg_data msg_size signal noReturn = .returned sent → DriverStep sign g (.snd sent) sent.g
  | msgpost {g g' : Option IPC_MSQINFO} {msqid msgsize : UINT32} {pmsgaddr : Option Mem} {rcvmsg : IPC_MSG} {ret : INT32} :
      ipc_msgque_msgpost g msqid pmsgaddr msgsize rcvmsg = (ret,g') → DriverStep sign g (.msgpost msgsize ret) g'
  | dequeue {info : IPC_MSQINFO} {msqid : UINT32} {msg after : IPC_MSG} {ret : INT32} {tbl : Mem} :
      msqid.toNat < 12 → ipc_msgque_dequeue info.tbl (some (msgQueTbl msqid.toNat)) msg = (ret,after,tbl) →
      DriverStep sign (some info) (.dequeue ret) (some { info with tbl := tbl })

/-- A message that is accepted fits its element. -/
def Fits : DriverEvent → Prop
  | .msgpost msgsize ret => ret = 0 → msgsize.toNat ≤ 12
  | .call _ | .snd _ | .dequeue _ => True

/-- A table that some run of the driver reached. -/
def Driven (sign : CharSign) (g : Option IPC_MSQINFO) : Prop := ∃ start es, Started start ∧ Run (DriverStep sign) start es g

/-- The accepted messages of that run fit their elements. -/
def DrivenFitting (sign : CharSign) (g : Option IPC_MSQINFO) : Prop :=
  ∃ start es, Started start ∧ Run (Guarded (DriverStep sign) fun _ => Fits) start es g

/-- A table of distinct 16-bit keys. -/
def Keyed (tbl : Mem) : Prop := ∃ T, Represents tbl T ∧ ∀ i k, T.keyAt i = some k → k.toNat < 65536

theorem libraryKey_small (rtn_key : UINT16) : (libraryKey rtn_key).toUInt32 = rtn_key.toUInt32 := by
  simp [libraryKey]

/-- A call of the table keeps it keyed, as a new key is the key of a name. -/
theorem keyed_call {info : IPC_MSQINFO} {e : TableEvent} {g' : Option IPC_MSQINFO} (keyed : Keyed info.tbl)
    (step : TableStep sign (some info) e g')
    (library : ∀ key ret, e = .get key ret → ∃ path, key = libraryKey (ipc_msgque_namehash sign path)) :
    ∃ info', g' = some info' ∧ Keyed info'.tbl := by
  obtain ⟨T,rep,small⟩ := keyed
  obtain ⟨info',T',rfl,mapped,rep'⟩ := step_simulates rep step
  refine ⟨info',rfl,T',rep',?_⟩
  cases mapped with
  | named | duplicate | full | unknown | tokenless => exact small
  | assigned key i inside fresh free =>
    obtain ⟨path,rfl⟩ := library key _ rfl
    intro j k at_j
    rw [SlotMap.keyAt_assign] at at_j
    split at at_j
    · cases at_j
      rw [libraryKey_small,UInt16.toNat_toUInt32]
      exact UInt16.toNat_lt _
    · exact small j k at_j
  | released id _ _ =>
    intro j k at_j
    rw [SlotMap.keyAt_release] at at_j
    split at at_j
    · cases at_j
    · exact small j k at_j

/-- Every call of the driver keeps a table keyed, but for an accepted message that does not fit. -/
theorem keyed_step {info : IPC_MSQINFO} {e : DriverEvent} {g' : Option IPC_MSQINFO} (keyed : Keyed info.tbl) (fits : Fits e)
    (step : DriverStep sign (some info) e g') : ∃ info', g' = some info' ∧ Keyed info'.tbl := by
  cases step with
  | call step library => exact keyed_call keyed step library
  | snd called =>
    obtain ⟨T,rep,small⟩ := keyed
    obtain ⟨info',after,same⟩ := (snd_table called).1
    exact ⟨info',after,T,same ▸ rep,small⟩
  | @msgpost _ _ msqid msgsize pmsgaddr rcvmsg ret called =>
    obtain ⟨T,rep,small⟩ := keyed
    cases pmsgaddr with
    | none =>
      cases called
      exact ⟨info,rfl,T,rep,small⟩
    | some payload =>
      by_cases large : 24 < msgsize.toNat
      · simp only [ipc_msgque_msgpost,if_pos (size_refused.mpr large)] at called
        cases called
        exact ⟨info,rfl,T,rep,small⟩
      rcases msgpost_cases info msqid payload (show msgsize.toNat ≤ 24 by omega) rcvmsg with
        ⟨_,refused⟩ | ⟨_,_,_,refused⟩ | ⟨q,live,_,done⟩
      · cases called.symm.trans refused
        exact ⟨info,rfl,T,rep,small⟩
      · cases called.symm.trans refused
        exact ⟨info,rfl,T,rep,small⟩
      · cases called.symm.trans done
        obtain ⟨_,_,rfl⟩ := getQuebyID_some.mp live
        exact ⟨_,rfl,T,represents_header rep fun j _ => putElement_sameHeader (fits rfl) j,small⟩
  | @dequeue _ msqid msg after ret tbl inside called =>
    obtain ⟨T,rep,small⟩ := keyed
    rcases dequeue_returned called with ⟨_,_,rfl,_⟩ | ⟨_,_,taken⟩
    · exact ⟨info,rfl,T,rep,small⟩
    · obtain rfl : (takeElement info.tbl (msgQueTbl msqid.toNat) msg).2 = tbl := congrArg Prod.snd taken
      exact ⟨_,rfl,T,represents_header rep fun j _ => takeElement_sameHeader msg j,small⟩

theorem driven_keyed {info : IPC_MSQINFO} (driven : DrivenFitting sign (some info)) : Keyed info.tbl := by
  obtain ⟨start,es,started,run⟩ := driven
  obtain ⟨_,⟨⟩,keyed⟩ := run.preserves (I := fun g => ∃ info, g = some info ∧ Keyed info.tbl) (by
    obtain ⟨info,rfl,dead,_⟩ := started_spec started
    exact ⟨info,rfl,_,represents_start dead,fun _ _ found => by cases found⟩) (by
    rintro _ e g' ⟨info,rfl,keyed⟩ step
    exact keyed_step keyed step.2 step.1)
  exact keyed

/-! ### Results -/

/-- Some send to the queue with an id gives the command. -/
def Emits (sender : IPC_MSQINFO) (msqid : UINT32) (cmd : IPC_CC_CMD_T) : Prop :=
  ∃ sendTo msg_data msg_size signal noReturn sent core,
    ipc_msg_snd (some sender) msqid sendTo msg_data msg_size signal noReturn = .returned sent ∧ (core,cmd) ∈ sent.cmds

/-- What the receiver's handler looks up for a command that was written to a
    register of any content. -/
def selected (receiver : IPC_MSQINFO) (reg : UINT32) (cmd : IPC_CC_CMD_T) : INT32 :=
  ipc_msgque_getIDbyKey (some receiver) (CMDBUF1_opcode (CMDBUF1_setOpcode reg cmd.opcode)).toInt32

/-- A 16-bit key is found as it was sent. -/
theorem selected_lookup {receiver : IPC_MSQINFO} {T : KeyTable} (rep : Represents receiver.tbl T) {k : UINT32}
    (small : k.toNat < 65536) {cmd : IPC_CC_CMD_T} (opcode : cmd.opcode = k) (reg : UINT32) :
    selected receiver reg cmd = ((T.lookup k).map Int32.ofNat).getD (-3) := by
  have whole : k.toUInt16.toUInt32 = k := by
    apply UInt32.toNat_inj.mp
    rw [UInt16.toNat_toUInt32,UInt32.toNat_toUInt16]
    omega
  rw [selected,CMDBUF1_opcode_set,opcode,whole,getIDbyKey_lookup rep]
  rfl

theorem emits_key {sender : IPC_MSQINFO} {i : Nat} {k : UINT32} {cmd : IPC_CC_CMD_T} (has : HasKey sender.tbl i k)
    (emits : Emits sender (UInt32.ofNat i) cmd) : cmd.opcode = k := by
  obtain ⟨sendTo,msg_data,msg_size,signal,noReturn,sent,core,called,listed⟩ := emits
  obtain ⟨q,live,opcode⟩ := (snd_table called).2 core cmd listed
  obtain ⟨_,_,rfl⟩ := getQuebyID_some.mp live
  rw [opcode,slotNumber_unsigned has.1,has.2.2]

/-- Where the accepted messages fit their elements, a command goes to the queue of the
    same key on the other core, or to none if there is no such queue, and commands of
    two queues never go to one. -/
theorem routed_by_key {sender receiver : IPC_MSQINFO} (sending : DrivenFitting sign (some sender))
    (receiving : DrivenFitting sign' (some receiver)) :
    (∀ i k cmd reg, HasKey sender.tbl i k → Emits sender (UInt32.ofNat i) cmd →
      (∃ j, HasKey receiver.tbl j k ∧ selected receiver reg cmd = Int32.ofNat j) ∨
        (∀ j, ¬ HasKey receiver.tbl j k) ∧ selected receiver reg cmd < 0) ∧
    (∀ i i' k k' cmd cmd' reg reg', i ≠ i' → HasKey sender.tbl i k → HasKey sender.tbl i' k' →
      Emits sender (UInt32.ofNat i) cmd → Emits sender (UInt32.ofNat i') cmd' →
      0 ≤ selected receiver reg cmd → selected receiver reg cmd ≠ selected receiver reg' cmd') := by
  obtain ⟨T,rep,small⟩ := driven_keyed sending
  obtain ⟨T',rep',_⟩ := driven_keyed receiving
  have routed (i : Nat) (k : UINT32) (cmd : IPC_CC_CMD_T) (reg : UINT32) (has : HasKey sender.tbl i k)
      (emits : Emits sender (UInt32.ofNat i) cmd) :
      (∃ j, HasKey receiver.tbl j k ∧ selected receiver reg cmd = Int32.ofNat j) ∨
        (∀ j, ¬ HasKey receiver.tbl j k) ∧ selected receiver reg cmd < 0 := by
    rw [selected_lookup rep' (small i k ((rep.keys i k).mpr has)) (emits_key has emits) reg]
    cases found : T'.lookup k with
    | none => exact .inr ⟨fun j used => SlotMap.lookup_none.mp found j ((rep'.keys j k).mpr used),by decide⟩
    | some j => exact .inl ⟨j,(rep'.keys j k).mp (SlotMap.lookup_some.mp found),rfl⟩
  refine ⟨routed,fun i i' k k' cmd cmd' reg reg' apart has has' emits emits' valid same => apart ?_⟩
  rcases routed i k cmd reg has emits with ⟨j,used,at_j⟩ | ⟨_,negative⟩
  · rcases routed i' k' cmd' reg' has' emits' with ⟨j',used',at_j'⟩ | ⟨_,negative⟩
    · obtain rfl := slotNumber_injective used.1 used'.1 (at_j.symm.trans (same.trans at_j'))
      have keys : k = k' := used.2.2.symm.trans used'.2.2
      subst keys
      exact T.injective i i' k ((rep.keys i k).mpr has) ((rep.keys i' k).mpr has')
    · rw [← same] at negative
      exact absurd valid (Int32.not_le.mpr negative)
  · exact absurd valid (Int32.not_le.mpr negative)

/-- A queue of the name "aa", whose key has its top bit set. -/
def routedQueue : IPC_MSQINFO := (ipc_msgque_get booted (libraryKey 32913)).2.get (by decide +kernel)

theorem routedQueue_driven : DrivenFitting .signed (some routedQueue) := by
  have got : ipc_msgque_get booted (libraryKey 32913) = (0,some routedQueue) :=
    Prod.ext (by decide +kernel) (Option.some_get _).symm
  refine ⟨booted,_,booted_started,.one ⟨.call (.get got) ?_,trivial⟩⟩
  rintro key ret ⟨⟩
  exact ⟨[97,97],by decide⟩

theorem routedQueue_has : HasKey routedQueue.tbl 0 32913 := ⟨by decide,by decide +kernel,by decide +kernel⟩

theorem routedQueue_emits : ∃ cmd, Emits routedQueue (UInt32.ofNat 0) cmd :=
  ⟨_,IPC_SENDTO_CORE1,some fun _ => 0,4,false,0,_,_,rfl,List.mem_singleton.mpr rfl⟩

/-- Between two tables with that queue a command finds the other, also from a
    register whose serial id is all ones. -/
theorem routed_by_key_top_bit : ∃ cmd, Emits routedQueue (UInt32.ofNat 0) cmd ∧
    ((∃ j, HasKey routedQueue.tbl j 32913 ∧ selected routedQueue 0xFFFF cmd = Int32.ofNat j) ∨
      (∀ j, ¬ HasKey routedQueue.tbl j 32913) ∧ selected routedQueue 0xFFFF cmd < 0) := by
  obtain ⟨cmd,emits⟩ := routedQueue_emits
  exact ⟨cmd,emits,(routed_by_key routedQueue_driven routedQueue_driven).1 0 32913 cmd 0xFFFF routedQueue_has emits⟩

/-! ### A message that does not fit -/

/-- A queue of the name "a". -/
def otherQueue : IPC_MSQINFO := (ipc_msgque_get booted (libraryKey 97)).2.get (by decide +kernel)

/-- The only queue is the first one, with the key of the name "a" and `n` messages. -/
structure Alone (n : Nat) (info : IPC_MSQINFO) : Prop where
  has : HasKey info.tbl 0 97
  alone : ∀ j k, HasKey info.tbl j k → j = 0
  count : (count info.tbl (msgQueTbl 0)).toNat = n
  next : nextSlot info.tbl (msgQueTbl 0) = n

theorem Alone.found {n : Nat} {info : IPC_MSQINFO} (alone : Alone n info) :
    ipc_msgque_getQuebyID (some info) 0 = some (msgQueTbl 0) := getQuebyID_some.mpr ⟨by decide,alone.has.2.1,rfl⟩

/-- A post to that queue. -/
theorem Alone.post {n : Nat} {info : IPC_MSQINFO} (alone : Alone n info) (few : n < 16) (payload : Mem) {msgsize : UINT32}
    (admitted : msgsize.toNat ≤ 24) : DriverStep .signed (some info) (.msgpost msgsize 0)
      (some { info with tbl := putElement info.tbl (msgQueTbl 0) ⟨msgsize,copy (fun _ => 0) 0 payload msgsize.toNat⟩ }) :=
  .msgpost (msgpost_accepted payload alone.found (by rw [alone.count]; exact few) admitted ⟨0,fun _ => 0⟩)

theorem otherQueue_alone : Alone 0 otherQueue where
  has := ⟨by decide,by decide +kernel,by decide +kernel⟩
  alone j k has := by
    have dead : ∀ j < 12, initkey otherQueue.tbl (msgQueTbl j) = CFG_IPC_INIT_KEY → j = 0 := by decide +kernel
    exact dead j has.1 has.2.1
  count := by decide +kernel
  next := by decide +kernel

/-- Up to fifteen messages of four bytes go to its elements in order. -/
theorem otherQueue_filled {n : Nat} (few : n ≤ 15) : ∃ es info, Run (DriverStep .signed) booted es (some info) ∧ Alone n info := by
  induction n with
  | zero =>
    have got : ipc_msgque_get booted (libraryKey 97) = (0,some otherQueue) :=
      Prod.ext (by decide +kernel) (Option.some_get _).symm
    refine ⟨_,otherQueue,.one (.call (.get got) ?_),otherQueue_alone⟩
    rintro key ret ⟨⟩
    exact ⟨[97],by decide⟩
  | succ n ih =>
    obtain ⟨es,info,run,alone⟩ := ih (by omega)
    have one : (1 : UINT32).toNat = 1 := rfl
    let message : IPC_MSG := ⟨4,copy (fun _ => 0) 0 (fun _ => 1) (4 : UINT32).toNat⟩
    have same (j : Nat) (k : UINT32) : HasKey (putElement info.tbl (msgQueTbl 0) message) j k ↔ HasKey info.tbl j k :=
      hasKey_header (putElement_sameHeader (by decide) j)
    refine ⟨_,_,run.snoc (alone.post (by omega) (fun _ => 1) (show (4 : UINT32).toNat ≤ 24 by decide)),?_,?_,?_,?_⟩
    · exact (same 0 _).mpr alone.has
    · exact fun j k has => alone.alone j k ((same j k).mp has)
    · rw [putElement_count,UInt32.toNat_add,alone.count,one]
      omega
    · rw [nextSlot,putElement_indx,alone.next]
      omega

/-- The words of the sixteenth message make the queue behind one of the name "aa", with the id -1. -/
def forgedHeader : Mem := fun a => [0,0,0,0,0,0,0,0,0,0,0,0,0x78,0x56,0x34,0x12,0x91,0x80,0,0,255,255,255,255].getD a 0

theorem forged_has {info : IPC_MSQINFO} (alone : Alone 15 info) :
    let tbl := putElement info.tbl (msgQueTbl 0) ⟨24,copy (fun _ => 0) 0 forgedHeader 24⟩
    HasKey tbl 1 32913 ∧ msqid tbl (msgQueTbl 1) = 0xFFFFFFFF ∧ ∀ j, HasKey tbl j 32913 → j = 1 := by
  intro tbl
  have slot := alone.next
  have word (n : Nat) (few : n + 4 ≤ 12) : load32 tbl (msgQueTbl 1 + n) = load32 forgedHeader (12 + n) := by
    refine load32_congr fun k inside => ?_
    have address : msgQueTbl 1 + n + k = element (msgQueTbl 0) (nextSlot info.tbl (msgQueTbl 0)) + 4 + (12 + n + k) := by
      rw [slot,element_eq,msgQueTbl_eq,msgQueTbl_eq]
      omega
    have size : (24 : UINT32).toNat = 24 := rfl
    have byte : tbl (element (msgQueTbl 0) (nextSlot info.tbl (msgQueTbl 0)) + 4 + (12 + n + k)) = _ :=
      putElement_data (show 12 + n + k < (24 : UINT32).toNat by omega)
    have copied : copy (fun _ => 0) 0 forgedHeader 24 (12 + n + k) = forgedHeader (12 + n + k - 0) :=
      copy_inside (by omega) (by omega)
    exact address ▸ byte.trans copied
  have init : initkey tbl (msgQueTbl 1) = CFG_IPC_INIT_KEY := (word 0 (by omega)).trans (by decide)
  have share : sharekey tbl (msgQueTbl 1) = 32913 := (word 4 (by omega)).trans (by decide)
  have id : msqid tbl (msgQueTbl 1) = 0xFFFFFFFF := (word 8 (by omega)).trans (by decide)
  refine ⟨⟨by decide,init,share⟩,id,fun j has => ?_⟩
  by_contra other
  by_cases own : j = 0
  · have kept : sharekey tbl (msgQueTbl 0) = 97 := (putElement_header info.tbl (msgQueTbl 0) _).2.1.trans alone.has.2.2
    rw [own] at has
    exact absurd (has.2.2.symm.trans kept) (by decide)
  · have same : SameQueue info.tbl tbl j := by
      intro a low high
      have size : (24 : UINT32).toNat = 24 := rfl
      refine putElement_outside ?_ ?_ ?_
      all_goals simp only [element_eq,msgQueTbl_eq,slot,size] at *; omega
    exact own (alone.alone j _ ((hasKey_congr same).mp has))

/-- After fifteen short messages and one of 24 bytes to the queue of the name "a" there is
    one of the name "aa", and a command for it is not found. -/
theorem long_post_misroutes : ∃ receiver cmd, Driven .signed (some receiver) ∧
    DrivenFitting .signed (some routedQueue) ∧ HasKey routedQueue.tbl 0 32913 ∧
    Emits routedQueue (UInt32.ofNat 0) cmd ∧ HasKey receiver.tbl 1 32913 ∧
    ¬ ((∃ j, HasKey receiver.tbl j 32913 ∧ selected receiver 0 cmd = Int32.ofNat j) ∨
      (∀ j, ¬ HasKey receiver.tbl j 32913) ∧ selected receiver 0 cmd < 0) := by
  obtain ⟨cmd,emits⟩ := routedQueue_emits
  obtain ⟨es,info,run,alone⟩ := otherQueue_filled (le_refl 15)
  obtain ⟨has,id,only⟩ := forged_has alone
  have posted := run.snoc (alone.post (by decide) forgedHeader (show (24 : UINT32).toNat ≤ 24 by decide))
  refine ⟨_,cmd,⟨booted,_,booted_started,posted⟩,routedQueue_driven,routedQueue_has,emits,has,?_⟩
  rintro (⟨j,used,at_j⟩ | ⟨absent,_⟩)
  · obtain rfl := only j used
    have opcode : (CMDBUF1_opcode (CMDBUF1_setOpcode 0 cmd.opcode)).toInt32.toUInt32 = 32913 := by
      rw [CMDBUF1_opcode_set,emits_key routedQueue_has emits]
      decide
    rw [selected] at at_j
    rcases getIDbyKey_cases { info with tbl := putElement info.tbl (msgQueTbl 0) ⟨24,copy (fun _ => 0) 0 forgedHeader 24⟩ }
      (CMDBUF1_opcode (CMDBUF1_setOpcode 0 cmd.opcode)).toInt32 with ⟨i,found,answer⟩ | ⟨absent,_⟩
    · rw [opcode] at found
      obtain rfl := only i found
      rw [id] at answer
      exact absurd (answer.symm.trans at_j) (by decide)
    · rw [opcode] at absent
      exact absent 1 has
  · exact absent 1 has

end IpcMsq.Routing
