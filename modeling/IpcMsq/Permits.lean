import IpcMsq.Dispatch
import IpcMsq.KeyMap

/-!
Sends of any number of threads, step by step: the tests and the lock, the test and the
fill of the slot, the branch that the slot's first word decides, and the unlock. The
errors after the lock keep the semaphore, so only a sender that gave a command gives
one back; and since the branch reads memory, a message that runs over its slot may
decide the branch of another sender.
-/
namespace IpcMsq.Permits
open IpcMsq.Memory IpcMsq.Common IpcMsq.Table IpcMsq.Elements IpcMsq.SendBuff IpcMsq.Communicator IpcMsq.Api IpcMsq.PingPong
open IpcMsq.Runs IpcMsq.KeyMap

variable {Thread : Type}

/-- How far a send is, with its locals. -/
inductive Progress
  | outside
  | locked (pmsgque : Nat) (sendTo p_sendmsg : UINT32) (msg_data : Mem) (msg_size : UINT32)
  | filled (pmsgque : Nat) (sendTo p_sendmsg msg_size : UINT32)
  | commanded (sendTo : UINT32)

structure Sending (Thread : Type) where
  info : IPC_MSQINFO
  progress : Thread → Progress

/-- A lock that returns, by the destination, with the semaphore or at a signal; the error
    of a null slot; a fill; a command; the unlock behind it; the error of the branch; and
    anything else on the table. -/
inductive SendEvent (Thread : Type)
  | enter (t : Thread) (c : Fin 3) (interrupted : Bool)
  | null (t : Thread) (c : Fin 3)
  | fill (t : Thread) (msg_size : UINT32)
  | command (t : Thread) (c : Fin 3) (core : IPC_CC_CORE_T) (cmd : IPC_CC_CMD_T)
  | unlock (t : Thread) (c : Fin 3)
  | keep (t : Thread) (c : Fin 3)
  | table

/-- The branch of a send: the core that gets its command. -/
def branch (info : IPC_MSQINFO) (p_sendmsg : UINT32) : Option IPC_CC_CORE_T :=
  if load32 info.syscmdbuf (slotOffset info p_sendmsg) = IPC_SENDTO_CORE1 then some .IPC_CC_CORE_CPU1
  else if p_sendmsg = IPC_SENDTO_CORE3 then some .IPC_CC_CORE_DSP
  else none

inductive SendStep [DecidableEq Thread] : Sending Thread → SendEvent Thread → Sending Thread → Prop
  | enter {s : Sending Thread} {t : Thread} {msqid sendTo p msg_size : UINT32} {q : Nat} {c : Fin 3} {msg_data : Mem}
      {signal : Bool} {info : IPC_MSQINFO} : s.progress t = .outside → ipc_msgque_getQuebyID (some s.info) msqid = some q →
      ¬ sendTo > IPC_SENDTO_MAX → ¬ msg_size > IPC_MSG_ELEMENT_SIZE → destination sendTo = some c →
      ipc_msgque_lockSndMsgBuff (some s.info) sendTo signal = .returned (some p,some info) →
      SendStep s (.enter t c ((s.info.sndmsg_buffTbl c).semid == 0))
        ⟨info,Function.update s.progress t (.locked q sendTo p msg_data msg_size)⟩
  | null {s : Sending Thread} {t : Thread} {sendTo msg_size : UINT32} {q : Nat} {c : Fin 3} {msg_data : Mem} :
      s.progress t = .locked q sendTo 0 msg_data msg_size → destination sendTo = some c →
      SendStep s (.null t c) ⟨s.info,Function.update s.progress t .outside⟩
  | fill {s : Sending Thread} {t : Thread} {sendTo p msg_size : UINT32} {q : Nat} {msg_data : Mem} :
      s.progress t = .locked q sendTo p msg_data msg_size → p ≠ 0 →
      SendStep s (.fill t msg_size)
        ⟨fillSndMsg s.info p sendTo msg_data msg_size,Function.update s.progress t (.filled q sendTo p msg_size)⟩
  | command {s : Sending Thread} {t : Thread} {sendTo p msg_size : UINT32} {q : Nat} {c : Fin 3} {core : IPC_CC_CORE_T} :
      s.progress t = .filled q sendTo p msg_size → branch s.info p = some core → destination sendTo = some c →
      SendStep s (.command t c core (ccCmd s.info q p msg_size)) ⟨s.info,Function.update s.progress t (.commanded sendTo)⟩
  | unlock {s : Sending Thread} {t : Thread} {sendTo : UINT32} {c : Fin 3} {info : IPC_MSQINFO} :
      s.progress t = .commanded sendTo → destination sendTo = some c →
      ipc_msgque_unlockSndMsgBuff (some s.info) sendTo = .returned (some info) →
      SendStep s (.unlock t c) ⟨info,Function.update s.progress t .outside⟩
  | keep {s : Sending Thread} {t : Thread} {sendTo p msg_size : UINT32} {q : Nat} {c : Fin 3} :
      s.progress t = .filled q sendTo p msg_size → branch s.info p = none → destination sendTo = some c →
      SendStep s (.keep t c) ⟨s.info,Function.update s.progress t .outside⟩
  | table {s : Sending Thread} {tbl : Mem} : SendStep s .table { s with info := { s.info with tbl := tbl } }

/-- The commands of a send. -/
def SendEvent.given : SendEvent Thread → List (IPC_CC_CORE_T × IPC_CC_CMD_T)
  | .command _ _ core cmd => [(core,cmd)]
  | .enter _ _ _ | .null _ _ | .fill _ _ | .unlock _ _ | .keep _ _ | .table => []

/-- The locks of a destination that returned, those of them that a signal ended, and its unlocks. -/
def SendEvent.enters (c : Fin 3) : SendEvent Thread → Bool
  | .enter _ d _ => d == c
  | .null _ _ | .fill _ _ | .command _ _ _ _ | .unlock _ _ | .keep _ _ | .table => false

def SendEvent.interrupted (c : Fin 3) : SendEvent Thread → Bool
  | .enter _ d interrupted => d == c && interrupted
  | .null _ _ | .fill _ _ | .command _ _ _ _ | .unlock _ _ | .keep _ _ | .table => false

def SendEvent.unlocks (c : Fin 3) : SendEvent Thread → Bool
  | .unlock _ d => d == c
  | .enter _ _ _ | .null _ _ | .fill _ _ | .command _ _ _ _ | .keep _ _ | .table => false

/-- The commands of a thread, and its unlocks. -/
def SendEvent.commandOf [DecidableEq Thread] (t : Thread) : SendEvent Thread → Bool
  | .command u _ _ _ => u = t
  | .enter _ _ _ | .null _ _ | .fill _ _ | .unlock _ _ | .keep _ _ | .table => false

def SendEvent.unlockOf [DecidableEq Thread] (t : Thread) : SendEvent Thread → Bool
  | .unlock u _ => u = t
  | .enter _ _ _ | .null _ _ | .fill _ _ | .command _ _ _ _ | .keep _ _ | .table => false

/-- A sender between its command and its unlock. -/
def Progress.leaving : Progress → Nat
  | .commanded _ => 1
  | .outside | .locked _ _ _ _ _ | .filled _ _ _ _ => 0

/-- The message fits its slot. -/
def Short : SendEvent Thread → Prop
  | .fill _ msg_size => msg_size.toNat ≤ 12
  | .enter _ _ _ | .null _ _ | .command _ _ _ _ | .unlock _ _ | .keep _ _ | .table => True

section
variable [DecidableEq Thread] {s s' : Sending Thread} {e : SendEvent Thread} {es : List (SendEvent Thread)}

/-- A send that returns was refused by its tests, or is a lock and an error at a null slot,
    or a lock, a fill and its branch, with the unlock behind a command. -/
theorem snd_is_steps {t : Thread} {msqid sendTo msg_size : UINT32} {msg_data : Option Mem} {signal : Bool} {noReturn : INT32} {sent : Sent}
    (idle : s.progress t = .outside)
    (called : ipc_msg_snd (some s.info) msqid sendTo msg_data msg_size signal noReturn = .returned sent) :
    sent.ret < 0 ∧ sent.g = some s.info ∧ sent.cmds = [] ∨ ∃ es s', Run SendStep s es s' ∧ sent.g = some s'.info ∧
      s'.progress = s.progress ∧ es.flatMap SendEvent.given = sent.cmds := by
  rcases snd_returned called with refused | ⟨q,payload,c,p,locked,live,rfl,valid,small,at_c,lock,_⟩
  · exact .inl refused
  have ends (now : Progress) : Function.update (Function.update s.progress t now) t .outside = s.progress := by
    rw [Function.update_idem,← idle,Function.update_eq_self]
  let one : Sending Thread := ⟨locked,Function.update s.progress t (.locked q sendTo p payload msg_size)⟩
  have first : SendStep s (.enter t c _) one := .enter idle live (sendTo_admitted valid) (size_admitted small) at_c lock
  have inside : one.progress t = .locked q sendTo p payload msg_size := Function.update_self ..
  simp only [ipc_msg_snd,live,if_neg (sendTo_admitted valid),if_neg (size_admitted small),lock,Outcome.returned_bind] at called
  right
  by_cases slot : p = 0
  · rw [if_pos slot] at called
    cases called
    rw [slot] at inside
    exact ⟨_,_,(Run.one first).snoc (.null inside at_c),rfl,ends _,rfl⟩
  rw [if_neg slot] at called
  let two : Sending Thread :=
    ⟨fillSndMsg locked p sendTo payload msg_size,Function.update one.progress t (.filled q sendTo p msg_size)⟩
  have run := (Run.one first).snoc (.fill inside slot)
  have filled : two.progress t = .filled q sendTo p msg_size := Function.update_self ..
  have unlocked : ipc_msgque_unlockSndMsgBuff (some two.info) sendTo = _ := unlock_some at_c
  have decided : branch two.info p = if load32 two.info.syscmdbuf (slotOffset two.info p) = IPC_SENDTO_CORE1 then
      some .IPC_CC_CORE_CPU1 else if p = IPC_SENDTO_CORE3 then some .IPC_CC_CORE_DSP else none := rfl
  have back (now : Progress) : Function.update (Function.update two.progress t now) t .outside = s.progress := by
    simp only [two,one,Function.update_idem]
    rw [← idle,Function.update_eq_self]
  have sends {core : IPC_CC_CORE_T} (goes : branch two.info p = some core) :=
    (run.snoc (.command filled goes at_c)).snoc (.unlock (Function.update_self ..) at_c unlocked)
  split at called
  · rename_i core1
    rw [if_pos core1] at decided
    rw [unlocked] at called
    cases called
    exact ⟨_,_,sends decided,rfl,back _,rfl⟩
  rename_i other
  rw [if_neg other] at decided
  split at called
  · rename_i core3
    rw [if_pos core3] at decided
    rw [unlocked] at called
    cases called
    exact ⟨_,_,sends decided,rfl,back _,rfl⟩
  · rename_i neither
    rw [if_neg neither] at decided
    cases called
    refine ⟨_,_,run.snoc (.keep filled decided at_c),rfl,?_,rfl⟩
    simp only [one,Function.update_idem]
    rw [← idle,Function.update_eq_self]

/-- A table that was just set up. -/
def startInfo : IPC_MSQINFO := booted.get booted_some

theorem startInfo_called : ∃ kmalloc dma, ipc_msgque_init none kmalloc dma = (0,some startInfo) := by
  rw [startInfo,Option.some_get]
  exact booted_started

/-- A message to `CORE1`. -/
theorem one_send : ∃ cmd s, Run SendStep ⟨startInfo,fun _ : Unit => .outside⟩
    [.table,.enter () 0 false,.fill () 12,.command () 0 .IPC_CC_CORE_CPU1 cmd,.unlock () 0] s := by
  let named : IPC_MSQINFO := { startInfo with tbl := firstQueue.tbl }
  have at_c : destination IPC_SENDTO_CORE1 = some 0 := by decide
  have free : (named.sndmsg_buffTbl 0).semid = 1 := by decide +kernel
  have lock : ipc_msgque_lockSndMsgBuff (some named) IPC_SENDTO_CORE1 false = _ := lock_eq named at_c false
  rw [free] at lock
  have live : ipc_msgque_getQuebyID (some named) 0 = some (msgQueTbl 0) := firstQueue_live
  let slot := (named.sndmsg_buffTbl 0).sndmsg (nextBuff named 0)
  have given : slot ≠ 0 := by decide +kernel
  let locked := setBuff named 0 (lockedBuff named 0 0)
  have enter : SendStep ⟨named,fun _ : Unit => .outside⟩ (.enter () 0 ((named.sndmsg_buffTbl 0).semid == 0))
      ⟨locked,Function.update (fun _ => .outside) () (.locked (msgQueTbl 0) IPC_SENDTO_CORE1 slot (fun _ => 7) 12)⟩ :=
    .enter rfl live (by decide) (by decide) at_c lock
  rw [free] at enter
  have fill := SendStep.fill (s := ⟨locked,fun _ : Unit => .locked (msgQueTbl 0) IPC_SENDTO_CORE1 slot (fun _ => 7) 12⟩) (t := ()) rfl
    given
  have decided : branch (fillSndMsg locked slot IPC_SENDTO_CORE1 (fun _ => 7) 12) slot = some .IPC_CC_CORE_CPU1 := by decide +kernel
  have command := SendStep.command (s := ⟨fillSndMsg locked slot IPC_SENDTO_CORE1 (fun _ => 7) 12,
    fun _ : Unit => .filled (msgQueTbl 0) IPC_SENDTO_CORE1 slot 12⟩) (t := ()) rfl decided at_c
  have unlock := SendStep.unlock (s := ⟨fillSndMsg locked slot IPC_SENDTO_CORE1 (fun _ => 7) 12,
    fun _ : Unit => .commanded IPC_SENDTO_CORE1⟩) (t := ()) rfl at_c (unlock_some at_c)
  have table : SendStep ⟨startInfo,fun _ : Unit => .outside⟩ .table ⟨named,fun _ => .outside⟩ := .table
  exact ⟨_,_,((((Run.one table).snoc enter).snoc fill).snoc command).snoc unlock⟩

/-! ### The semaphores -/

/-- A step takes a permit, hands out one that is not there, gives one back, or leaves all. -/
theorem permit_step (step : SendStep s e s') (c : Fin 3) :
    (s'.info.sndmsg_buffTbl c).semid + (if e.enters c then 1 else 0) =
      (s.info.sndmsg_buffTbl c).semid + (if e.interrupted c then 1 else 0) + (if e.unlocks c then 1 else 0) := by
  cases step with
  | @enter t msqid sendTo p msg_size q d msg_data signal info idle live valid small at_d lock =>
    obtain ⟨d',semid,at_d',taken,_,after⟩ := lock_returned lock
    cases at_d.symm.trans at_d'
    cases after
    by_cases own : d = c
    · subst own
      simp only [setBuff_same,lockedBuff_semid,SendEvent.enters,SendEvent.interrupted,SendEvent.unlocks]
      rcases Dispatch.down_returned taken with took | ⟨empty,none,_⟩
      · simp [took]
      · simp [empty,none]
    · simp [setBuff_other (Ne.symm own),SendEvent.enters,SendEvent.interrupted,SendEvent.unlocks,own]
  | @unlock t sendTo d info leaves at_d unlocked =>
    rw [unlock_some at_d] at unlocked
    cases unlocked
    by_cases own : d = c
    · subst own
      simp [SendEvent.enters,SendEvent.interrupted,SendEvent.unlocks]
    · simp [setBuff_other (Ne.symm own),SendEvent.enters,SendEvent.interrupted,SendEvent.unlocks,own]
  | null locked at_d => rfl
  | fill locked slot => rfl
  | command filled decided at_d => rfl
  | keep filled decided at_d => rfl
  | table => rfl

/-- A command brings its thread to the unlock, and only an unlock takes it from there. -/
theorem leaving_step (step : SendStep s e s') (u : Thread) : (s'.progress u).leaving + (if e.unlockOf u then 1 else 0) =
    (s.progress u).leaving + (if e.commandOf u then 1 else 0) := by
  -- other threads stay where they are
  have moved {t : Thread} {now : Progress} (other : u ≠ t) : (Function.update s.progress t now u).leaving = (s.progress u).leaving := by
    rw [Function.update_of_ne other]
  cases step with
  | @enter t _ _ _ _ _ _ _ _ _ idle =>
    by_cases own : u = t
    · simp [own,idle,Progress.leaving,SendEvent.unlockOf,SendEvent.commandOf]
    · simp [moved own,SendEvent.unlockOf,SendEvent.commandOf]
  | @null t _ _ _ _ _ locked | @fill t _ _ _ _ _ locked =>
    by_cases own : u = t
    · simp [own,locked,Progress.leaving,SendEvent.unlockOf,SendEvent.commandOf]
    · simp [moved own,SendEvent.unlockOf,SendEvent.commandOf]
  | @command t _ _ _ _ _ _ filled | @keep t _ _ _ _ _ filled =>
    by_cases own : u = t
    · simp [own,filled,Progress.leaving,SendEvent.unlockOf,SendEvent.commandOf]
    · simp [moved own,SendEvent.unlockOf,SendEvent.commandOf,Ne.symm own]
  | @unlock t _ _ _ leaves =>
    by_cases own : u = t
    · simp [own,leaves,Progress.leaving,SendEvent.unlockOf,SendEvent.commandOf]
    · simp [moved own,SendEvent.unlockOf,SendEvent.commandOf,Ne.symm own]
  | table => rfl

/-- From `ipc_msgque_init` on, over every interleaving of sends: what is left of the semaphore
    of a destination and the locks that returned are together one more than the locks that
    a signal ended and the unlocks; and a thread unlocks once for each command it gave, the
    last one outstanding while it is between the two. The errors give nothing back. -/
theorem permits_conserved {kmalloc : Option IPC_MSQINFO} {dma : Option (UINT32 × UINT32)} {ret : INT32} {info : IPC_MSQINFO}
    (called : ipc_msgque_init none kmalloc dma = (ret,some info)) (run : Run SendStep ⟨info,fun _ => .outside⟩ es s) :
    (∀ c, (s.info.sndmsg_buffTbl c).semid + es.countP (SendEvent.enters c) =
      1 + es.countP (SendEvent.interrupted c) + es.countP (SendEvent.unlocks c)) ∧
    ∀ t, es.countP (SendEvent.unlockOf t) + (s.progress t).leaving = es.countP (SendEvent.commandOf t) := by
  constructor
  · intro c
    induction run with
    | nil => simpa using (init_placed called).2 c
    | snoc _ last ih =>
      have step := permit_step last c
      simp only [List.countP_append,List.countP_singleton]
      omega
  · intro t
    induction run with
    | nil => rfl
    | snoc _ last ih =>
      have step := leaving_step last t
      simp only [List.countP_append,List.countP_singleton]
      omega

theorem permits_conserved_one_send : ∃ es s, Run SendStep ⟨startInfo,fun _ : Unit => .outside⟩ es s ∧
    es.countP (SendEvent.unlocks 0) = 1 ∧
    (∀ c, (s.info.sndmsg_buffTbl c).semid + es.countP (SendEvent.enters c) =
      1 + es.countP (SendEvent.interrupted c) + es.countP (SendEvent.unlocks c)) ∧
    ∀ t, es.countP (SendEvent.unlockOf t) + (s.progress t).leaving = es.countP (SendEvent.commandOf t) := by
  obtain ⟨_,_,called⟩ := startInfo_called
  obtain ⟨cmd,s,run⟩ := one_send
  exact ⟨_,s,run,rfl,permits_conserved called run⟩

/-! ### Where the commands go -/

theorem destination_number {sendTo : UINT32} {c : Fin 3} (at_c : destination sendTo = some c) : sendTo.toNat = c.val + 1 := by
  rw [destination] at at_c
  split at at_c
  · rename_i inside
    cases at_c
    have less := UInt32.toNat_sub sendTo 1
    have bound := sendTo.toNat_lt
    simp only [UInt32.reduceToNat] at less
    simp only
    omega
  · cases at_c

/-- A fill within the slot writes its first word, and no first word of another slot. -/
theorem fill_marks {info : IPC_MSQINFO} (placed : Placed info) (c d : Fin 3) (k l : Fin 2) {sendTo msg_size : UINT32} (msg_data : Mem)
    (small : msg_size.toNat ≤ 12) :
    load32 (fillSndMsg info ((info.sndmsg_buffTbl c).sndmsg k) sendTo msg_data msg_size).syscmdbuf
        (slotOffset info ((info.sndmsg_buffTbl d).sndmsg l)) =
      if c = d ∧ k = l then sendTo else load32 info.syscmdbuf (slotOffset info ((info.sndmsg_buffTbl d).sndmsg l)) := by
  by_cases own : c = d ∧ k = l
  · obtain ⟨rfl,rfl⟩ := own
    rw [fill_syscmdbuf,load32_copy_apart (.inl le_rfl),load32_store32,if_pos ⟨rfl,rfl⟩]
  · rw [if_neg own]
    refine load32_congr fun j inside => fill_outside _ _ _ _ _ ?_
    simp only [placed_offset placed]
    omega

/-- A send has a slot of its destination, and once it filled the slot the first word of that
    is the destination; behind a command the destination is `CORE1`. -/
def Marks (start : IPC_MSQINFO) (syscmdbuf : Mem) : Progress → Prop
  | .outside => True
  | .commanded sendTo => ∃ c, destination sendTo = some c ∧ c.val = 0
  | .locked _ sendTo p _ _ => ∃ c k, destination sendTo = some c ∧ p = (start.sndmsg_buffTbl c).sndmsg k
  | .filled _ sendTo p _ => ∃ c k, destination sendTo = some c ∧ p = (start.sndmsg_buffTbl c).sndmsg k ∧
      load32 syscmdbuf (slotOffset start p) = sendTo

/-- The same of all sends, with the slots where they were. -/
structure Marked (start : IPC_MSQINFO) (s : Sending Thread) : Prop where
  vir : s.info.syscmdbuf_vir = start.syscmdbuf_vir
  slots : ∀ c, (s.info.sndmsg_buffTbl c).sndmsg = (start.sndmsg_buffTbl c).sndmsg
  marks : ∀ t, Marks start s.info.syscmdbuf (s.progress t)

variable {start : IPC_MSQINFO}

theorem marks_update {syscmdbuf : Mem} {t : Thread} {now : Progress} (own : Marks start syscmdbuf now)
    (others : ∀ u, u ≠ t → Marks start syscmdbuf (s.progress u)) : ∀ u, Marks start syscmdbuf (Function.update s.progress t now u) :=
  (Function.forall_update_iff s.progress fun _ => Marks start syscmdbuf).mpr ⟨own,others⟩

/-- A store to the entry of a destination that keeps its slots. -/
theorem slots_setBuff {info : IPC_MSQINFO} {c : Fin 3} {b : IPC_SNDMSG_BUFF} (same : b.sndmsg = (info.sndmsg_buffTbl c).sndmsg)
    (slots : ∀ d, (info.sndmsg_buffTbl d).sndmsg = (start.sndmsg_buffTbl d).sndmsg) (d : Fin 3) :
    ((setBuff info c b).sndmsg_buffTbl d).sndmsg = (start.sndmsg_buffTbl d).sndmsg := by
  by_cases own : d = c
  · rw [own,setBuff_same,same,slots]
  · rw [setBuff_other own,slots]

omit [DecidableEq Thread] in
/-- With the slots elsewhere than at the core numbers a filled slot decides its branch. -/
theorem filled_branch (marked : Marked start s) (elsewhere : ∀ c k, (start.sndmsg_buffTbl c).sndmsg k ≠ IPC_SENDTO_CORE3)
    {t : Thread} {q : Nat} {sendTo p msg_size : UINT32} {c : Fin 3} (runs : s.progress t = .filled q sendTo p msg_size)
    (at_c : destination sendTo = some c) : branch s.info p = if c.val = 0 then some .IPC_CC_CORE_CPU1 else none := by
  have own := marked.marks t
  rw [runs] at own
  obtain ⟨d,k,at_d,rfl,word⟩ := own
  cases at_c.symm.trans at_d
  have one : sendTo = IPC_SENDTO_CORE1 ↔ c.val = 0 := by
    have number := destination_number at_c
    rw [← UInt32.toNat_inj,number]
    simp only [IPC_SENDTO_CORE1,UInt32.reduceToNat]
    omega
  have same : slotOffset s.info ((start.sndmsg_buffTbl c).sndmsg k) = slotOffset start ((start.sndmsg_buffTbl c).sndmsg k) := by
    rw [slotOffset,slotOffset,marked.vir]
  simp only [branch,same,word,if_neg (elsewhere c k),one]

/-- Commands and unlocks are those of sends to `CORE1`, all of these give a command, and no
    slot is null. -/
def OnlyCore1 : SendEvent Thread → Prop
  | .command _ c core _ => c.val = 0 ∧ core = .IPC_CC_CORE_CPU1
  | .unlock _ c => c.val = 0
  | .keep _ c => c.val ≠ 0
  | .null _ _ => False
  | .enter _ _ _ | .fill _ _ | .table => True

/-- A fill marks its own slot, and a sender that filled it before goes to the same destination. -/
theorem marked_fill (placed : Placed start) (marked : Marked start s) {t : Thread} {q : Nat} {sendTo p msg_size : UINT32} {msg_data : Mem}
    (runs : s.progress t = .locked q sendTo p msg_data msg_size) (short : msg_size.toNat ≤ 12) :
    Marked start ⟨fillSndMsg s.info p sendTo msg_data msg_size,Function.update s.progress t (.filled q sendTo p msg_size)⟩ := by
  obtain ⟨vir,slots,marks⟩ := marked
  have own := marks t
  rw [runs] at own
  obtain ⟨c,k,at_c,rfl⟩ := own
  have here : Placed s.info := fun d l => by rw [slots,vir,placed]
  have words (d : Fin 3) (l : Fin 2) := @fill_marks _ here c d k l sendTo msg_size msg_data short
  simp only [slots,slotOffset,vir] at words
  refine ⟨vir,slots,marks_update ⟨c,k,at_c,rfl,?_⟩ fun u other => ?_⟩
  · rw [slotOffset,words c k,if_pos ⟨rfl,rfl⟩]
  have others := marks u
  cases progress : s.progress u with
  | outside => trivial
  | locked q' sendTo' p' msg_data' msg_size' =>
    rw [progress] at others
    exact others
  | commanded sendTo' =>
    rw [progress] at others
    exact others
  | filled q' sendTo' p' msg_size' =>
    rw [progress] at others
    obtain ⟨d,l,at_d,rfl,word⟩ := others
    refine ⟨d,l,at_d,rfl,?_⟩
    rw [slotOffset,words d l]
    split
    · -- both are inside after a signal, and go to the same destination
      rename_i same
      rw [same.1] at at_c
      exact UInt32.toNat_inj.mp ((destination_number at_c).trans (destination_number at_d).symm)
    · exact word

theorem marked_step (placed : Placed start) (marked : Marked start s)
    (elsewhere : ∀ c k, (start.sndmsg_buffTbl c).sndmsg k ≠ IPC_SENDTO_CORE3) (short : Short e) (step : SendStep s e s') :
    Marked start s' := by
  have branches := @filled_branch _ s start marked elsewhere
  obtain ⟨vir,slots,marks⟩ := marked
  cases step with
  | @enter t msqid sendTo p msg_size q c msg_data signal info idle live valid small at_c lock =>
    obtain ⟨c',semid,at_c',_,given,after⟩ := lock_returned lock
    cases at_c.symm.trans at_c'
    cases given
    cases after
    refine ⟨vir,slots_setBuff (lockedBuff_sndmsg ..) slots,marks_update ?_ fun u _ => marks u⟩
    exact ⟨c,nextBuff s.info c,at_c,by rw [slots]⟩
  | null runs at_c => exact ⟨vir,slots,marks_update trivial fun u _ => marks u⟩
  | fill runs slot => exact marked_fill placed ⟨vir,slots,marks⟩ runs short
  | @command t sendTo p msg_size q c core runs decided at_c =>
    rw [branches runs at_c] at decided
    split at decided
    · exact ⟨vir,slots,marks_update ⟨c,at_c,‹_›⟩ fun u _ => marks u⟩
    · cases decided
  | @unlock t sendTo c info leaves at_c unlocked =>
    rw [unlock_some at_c] at unlocked
    cases unlocked
    exact ⟨vir,slots_setBuff rfl slots,marks_update trivial fun u _ => marks u⟩
  | keep runs decided at_c => exact ⟨vir,slots,marks_update trivial fun u _ => marks u⟩
  | table => exact ⟨vir,slots,marks⟩

theorem marked_event (marked : Marked start s)
    (elsewhere : ∀ c k, (start.sndmsg_buffTbl c).sndmsg k ≠ 0 ∧ (start.sndmsg_buffTbl c).sndmsg k ≠ IPC_SENDTO_CORE3)
    (step : SendStep s e s') : OnlyCore1 e := by
  have branches := @filled_branch _ s start marked fun c k => (elsewhere c k).2
  cases step with
  | @null t sendTo msg_size q c msg_data runs at_c =>
    have own := marked.marks t
    rw [runs] at own
    obtain ⟨d,k,_,null⟩ := own
    exact (elsewhere d k).1 null.symm
  | @command t sendTo p msg_size q c core runs decided at_c =>
    rw [branches runs at_c] at decided
    split at decided
    · rename_i first
      cases decided
      exact ⟨first,rfl⟩
    · cases decided
  | @unlock t sendTo c info leaves at_c unlocked =>
    have own := marked.marks t
    rw [leaves] at own
    obtain ⟨d,at_d,first⟩ := own
    cases at_c.symm.trans at_d
    exact first
  | @keep t sendTo p msg_size q c runs decided at_c =>
    rw [branches runs at_c] at decided
    split at decided
    · cases decided
    · rename_i later
      exact later
  | enter | fill | table => trivial

/-- From `ipc_msgque_init` on, with messages that fit their slots and no slot at the addresses
    0 and 3: over every interleaving of sends the commands are those of the sends to
    `CORE1`, to `CPU1`, and none of these sends keeps the semaphore; to each other
    destination one send gets past the lock, and one more at each signal that ends a wait. -/
theorem only_core1_is_sent {kmalloc : Option IPC_MSQINFO} {dma : Option (UINT32 × UINT32)} {ret : INT32} {info : IPC_MSQINFO}
    (called : ipc_msgque_init none kmalloc dma = (ret,some info))
    (elsewhere : ∀ c k, (info.sndmsg_buffTbl c).sndmsg k ≠ 0 ∧ (info.sndmsg_buffTbl c).sndmsg k ≠ IPC_SENDTO_CORE3)
    (run : Run SendStep ⟨info,fun _ => .outside⟩ es s) (short : ∀ e ∈ es, Short e) :
    (∀ e ∈ es, OnlyCore1 e) ∧ ∀ c, c ≠ 0 → es.countP (SendEvent.enters c) ≤ 1 + es.countP (SendEvent.interrupted c) := by
  have only : ∀ e ∈ es, OnlyCore1 e := by
    have all : Marked info s ∧ ∀ e ∈ es, OnlyCore1 e := by
      refine Run.invariant (I := fun es s => Marked info s ∧ ∀ e ∈ es, OnlyCore1 e) ?_ ?_ (Run.guarded_events.mpr ⟨run,short⟩)
      · exact ⟨⟨rfl,fun _ => rfl,fun _ => trivial⟩,nofun⟩
      · rintro es t e u _ ⟨marked,before⟩ ⟨step,fits⟩
        refine ⟨marked_step (init_placed called).1 marked (fun c k => (elsewhere c k).2) fits step,fun f listed => ?_⟩
        rcases List.mem_append.mp listed with earlier | last
        · exact before f earlier
        · rw [List.mem_singleton.mp last]
          exact marked_event marked elsewhere step
    exact all.2
  refine ⟨only,fun c other => ?_⟩
  have none : es.countP (SendEvent.unlocks c) = 0 := by
    rw [List.countP_eq_zero]
    intro e listed unlocks
    have here := only e listed
    cases e with
    | unlock t d =>
      simp only [SendEvent.unlocks,beq_iff_eq] at unlocks
      exact other (unlocks.symm.trans (Fin.ext here))
    | enter | null | fill | command | keep | table => cases unlocks
  have conserved := (permits_conserved called run).1 c
  omega

theorem only_core1_is_sent_one_send : ∃ cmd s,
    Run SendStep ⟨startInfo,fun _ : Unit => .outside⟩
      [.table,.enter () 0 false,.fill () 12,.command () 0 .IPC_CC_CORE_CPU1 cmd,.unlock () 0] s ∧
    (SendEvent.command () 0 .IPC_CC_CORE_CPU1 cmd).given = [(.IPC_CC_CORE_CPU1,cmd)] ∧
    OnlyCore1 (SendEvent.command () 0 .IPC_CC_CORE_CPU1 cmd) := by
  obtain ⟨_,_,called⟩ := startInfo_called
  obtain ⟨cmd,s,run⟩ := one_send
  refine ⟨cmd,s,run,rfl,(only_core1_is_sent called (by decide +kernel) run ?_).1 _ (by simp)⟩
  intro e listed
  simp only [List.mem_cons,List.not_mem_nil,or_false] at listed
  rcases listed with rfl | rfl | rfl | rfl | rfl
  · trivial
  · trivial
  · simp [Short]
  · trivial
  · trivial

/-! ### Messages that run over their slot -/

/-- The fifth word behind a slot's start is the fourth of the payload. -/
theorem fill_behind {info : IPC_MSQINFO} {p p' sendTo msg_size : UINT32} (msg_data : Mem) (long : 16 ≤ msg_size.toNat)
    (behind : slotOffset info p' = slotOffset info p + 16) :
    load32 (fillSndMsg info p sendTo msg_data msg_size).syscmdbuf (slotOffset info p') = load32 msg_data 12 := by
  refine load32_congr fun k inside => ?_
  rw [fill_syscmdbuf,behind,copy_inside (by omega) (by omega)]
  congr 1
  omega

/-- No slot is filled. -/
def NoFill : SendEvent Thread → Prop
  | .fill _ _ => False
  | .enter _ _ _ | .null _ _ | .command _ _ _ _ | .unlock _ _ | .keep _ _ | .table => True

theorem noFill_step (step : SendStep s e s') (none : NoFill e) :
    s'.info.syscmdbuf = s.info.syscmdbuf ∧ s'.info.syscmdbuf_vir = s.info.syscmdbuf_vir := by
  cases step with
  | enter idle live valid small at_d lock =>
    obtain ⟨d,semid,_,_,_,after⟩ := lock_returned lock
    cases after
    exact ⟨rfl,rfl⟩
  | unlock leaves at_d unlocked =>
    rw [unlock_some at_d] at unlocked
    cases unlocked
    exact ⟨rfl,rfl⟩
  | fill locked => exact none.elim
  | null locked at_d => exact ⟨rfl,rfl⟩
  | command filled decided at_d => exact ⟨rfl,rfl⟩
  | keep filled decided at_d => exact ⟨rfl,rfl⟩
  | table => exact ⟨rfl,rfl⟩

theorem noFill_run (run : Run SendStep s es s') (none : ∀ e ∈ es, NoFill e) :
    s'.info.syscmdbuf = s.info.syscmdbuf ∧ s'.info.syscmdbuf_vir = s.info.syscmdbuf_vir := by
  induction run with
  | nil => exact ⟨rfl,rfl⟩
  | snoc before last ih =>
    obtain ⟨words,vir⟩ := ih fun e listed => none e (List.mem_append_left _ listed)
    obtain ⟨words',vir'⟩ := noFill_step last (none _ (List.mem_append_right _ (List.mem_singleton_self _)))
    exact ⟨words'.trans words,vir'.trans vir⟩

/-- A message of 16 bytes or more decides, whatever happens until the next fill, the branch
    of a sender whose slot lies behind and was filled before: its fourth word does,
    not the destination of that sender. -/
theorem long_message_redirects {t u : Thread} {q q' : Nat} {sendTo sendTo' p p' msg_size msg_size' : UINT32} {msg_data : Mem} (other : u ≠ t)
    (fills : s.progress t = .locked q sendTo p msg_data msg_size) (slot : p ≠ 0) (long : 16 ≤ msg_size.toNat)
    (waits : s.progress u = .filled q' sendTo' p' msg_size') (behind : slotOffset s.info p' = slotOffset s.info p + 16) :
    ∃ mid, SendStep s (.fill t msg_size) mid ∧ mid.progress u = .filled q' sendTo' p' msg_size' ∧
      ∀ es s', Run SendStep mid es s' → (∀ e ∈ es, NoFill e) →
        branch s'.info p' = if load32 msg_data 12 = IPC_SENDTO_CORE1 then some .IPC_CC_CORE_CPU1
          else if p' = IPC_SENDTO_CORE3 then some .IPC_CC_CORE_DSP else none := by
  refine ⟨_,.fill fills slot,(Function.update_of_ne other _ _).trans waits,fun es s' run none => ?_⟩
  obtain ⟨words,vir⟩ := noFill_run run none
  have same : slotOffset s'.info p' = slotOffset s.info p' := by
    rw [slotOffset,vir]
    rfl
  have word : load32 s'.info.syscmdbuf (slotOffset s'.info p') = load32 msg_data 12 := by
    rw [words,same,fill_behind msg_data long behind]
  rw [branch,word]

/-- A message of 24 bytes in the last slot of `CORE1`, with a message to `CORE2` behind it. -/
theorem long_message_redirects_core2 : ∃ mid : Sending Bool,
    mid.progress false = .filled (msgQueTbl 0) IPC_SENDTO_CORE2 ((firstQueue.sndmsg_buffTbl 1).sndmsg 0) 12 ∧
      branch mid.info ((firstQueue.sndmsg_buffTbl 1).sndmsg 0) = some .IPC_CC_CORE_CPU1 := by
  let words : Mem := store32 (fun _ => 0) 12 IPC_SENDTO_CORE1
  let progress : Bool → Progress
    | true => .locked (msgQueTbl 0) IPC_SENDTO_CORE1 ((firstQueue.sndmsg_buffTbl 0).sndmsg 1) words 24
    | false => .filled (msgQueTbl 0) IPC_SENDTO_CORE2 ((firstQueue.sndmsg_buffTbl 1).sndmsg 0) 12
  have behind : slotOffset firstQueue ((firstQueue.sndmsg_buffTbl 1).sndmsg 0) =
      slotOffset firstQueue ((firstQueue.sndmsg_buffTbl 0).sndmsg 1) + 16 := by
    rw [placed_offset firstQueue_placed,placed_offset firstQueue_placed]
    rfl
  obtain ⟨mid,_,stays,decided⟩ := long_message_redirects (s := ⟨firstQueue,progress⟩) (t := true) (u := false) (by decide) rfl
    (by decide +kernel) (by decide) rfl behind
  refine ⟨mid,stays,(decided [] mid .nil nofun).trans ?_⟩
  rw [load32_store32,if_pos rfl]

end

end IpcMsq.Permits
