import IpcMsq.Api
import IpcMsq.Runs

/-!
One direction between two cores: senders to a destination from their lock to their
unlock, the three command registers as one mailbox, and the interrupt handler that
reads a command, posts its payload and acknowledges it. The receiver reaches the send
buffers at the bus address of the command. Nothing in the code waits for an ack, so a
second send may overwrite the mailbox; sends that do wait keep every command and
payload (`InTurn`).
-/
namespace IpcMsq.Mailbox
open IpcMsq.Memory IpcMsq.Common IpcMsq.Table IpcMsq.SendBuff IpcMsq.Communicator IpcMsq.Api IpcMsq.Runs

/-- Where the interrupt handler stands. -/
inductive Handler
  | idle
  | taken (cmd : IPC_CC_CMD_T)
  | posted
deriving DecidableEq

/-- The state of the direction. `locked` are the slots of senders between their lock
    and their fill, `filled` the commands of those between their fill and their
    `ipc_cc_send_cmd`, and `leaving` senders are between that and their unlock; the last
    four fields record what happened: commands with their payloads, commands read, the
    payload copied for the command of a number, and acks. -/
structure Channel where
  info : IPC_MSQINFO
  locked : List UInt32
  filled : List (IPC_CC_CMD_T × List UInt8)
  leaving : Nat
  mailbox : IPC_CC_CMD_T
  pending : Bool
  handler : Handler
  sent : List (IPC_CC_CMD_T × List UInt8)
  reads : List IPC_CC_CMD_T
  posts : List (Nat × List UInt8)
  acks : Nat

inductive ChannelEvent
  | lock (signal : Bool)
  | fill (msg_size : UINT32)
  | null | send | refuse | unlock | read | post | ack | drop

/-- The bytes at the address in a command. -/
def payloadAt (info : IPC_MSQINFO) (cmd : IPC_CC_CMD_T) : List UInt8 :=
  bytes info.syscmdbuf (cmd.data_addr - info.syscmdbuf_dma).toNat cmd.data_size.toNat

/-- A sender locks, leaves with an error at a null slot or fills the slot, sends its
    command or leaves with an error, and unlocks; which of its branches a sender takes is
    left open, and the errors keep the semaphore. The handler reads, posts and
    acknowledges, or gives up without an ack. -/
inductive ChannelStep (sendTo : UINT32) : Channel → ChannelEvent → Channel → Prop
  | lock {s : Channel} {info : IPC_MSQINFO} {p : UINT32} {signal : Bool} :
      ipc_msgque_lockSndMsgBuff (some s.info) sendTo signal = .returned (some p,some info) →
      ChannelStep sendTo s (.lock signal) { s with info := info, locked := s.locked ++ [p] }
  | null {s : Channel} (before after : List UINT32) :
      s.locked = before ++ 0 :: after → ChannelStep sendTo s .null { s with locked := before ++ after }
  | fill {s : Channel} {p msg_size : UINT32} (before after : List UINT32) (pmsgque : Nat) (msg_data : Mem) :
      s.locked = before ++ p :: after → p ≠ 0 → msg_size.toNat ≤ 24 →
      ChannelStep sendTo s (.fill msg_size) { s with
        info := fillSndMsg s.info p sendTo msg_data msg_size, locked := before ++ after,
        filled := s.filled ++
          [(ccCmd (fillSndMsg s.info p sendTo msg_data msg_size) pmsgque p msg_size,bytes msg_data 0 msg_size.toNat)] }
  | send {s : Channel} {m : IPC_CC_CMD_T × List UInt8} (before after : List (IPC_CC_CMD_T × List UInt8)) :
      s.filled = before ++ m :: after → ChannelStep sendTo s .send { s with
        filled := before ++ after, leaving := s.leaving + 1, mailbox := m.1, pending := true, sent := s.sent ++ [m] }
  | refuse {s : Channel} {m : IPC_CC_CMD_T × List UInt8} (before after : List (IPC_CC_CMD_T × List UInt8)) :
      s.filled = before ++ m :: after → ChannelStep sendTo s .refuse { s with filled := before ++ after }
  | unlock {s : Channel} {info : IPC_MSQINFO} {n : Nat} :
      s.leaving = n + 1 → ipc_msgque_unlockSndMsgBuff (some s.info) sendTo = .returned (some info) →
      ChannelStep sendTo s .unlock { s with info := info, leaving := n }
  | read {s : Channel} : s.pending = true → s.handler = .idle →
      ChannelStep sendTo s .read { s with
        pending := false, handler := .taken s.mailbox, reads := s.reads ++ [s.mailbox] }
  | post {s : Channel} {cmd : IPC_CC_CMD_T} : s.handler = .taken cmd →
      ChannelStep sendTo s .post { s with
        handler := .posted, posts := s.posts ++ [(s.reads.length - 1,payloadAt s.info cmd)] }
  | ack {s : Channel} : s.handler = .posted → ChannelStep sendTo s .ack { s with handler := .idle, acks := s.acks + 1 }
  | drop {s : Channel} : s.handler ≠ .idle → ChannelStep sendTo s .drop { s with handler := .idle }

/-- No signal ends a wait for the semaphore, messages fit their slots, and every earlier
    command is acknowledged when one is sent. -/
def InTime (c : Fin 3) (s : Channel) : ChannelEvent → Prop
  | .lock signal => signal = true → 0 < (s.info.sndmsg_buffTbl c).semid
  | .fill msg_size => msg_size.toNat ≤ 12
  | .send => s.acks = s.sent.length
  | .null | .refuse | .unlock | .read | .post | .ack | .drop => True

/-- A call of `ipc_msg_snd` that gives a command is a lock, a fill, a send and an unlock. -/
theorem snd_steps {s : Channel} {msqid sendTo msg_size : UINT32} {msg_data : Option Mem} {signal : Bool}
    {noReturn : INT32} {sent : Sent} {core : IPC_CC_CORE_T} {cmd : IPC_CC_CMD_T}
    (called : ipc_msg_snd (some s.info) msqid sendTo msg_data msg_size signal noReturn = .returned sent)
    (given : (core,cmd) ∈ sent.cmds) :
    ∃ info payload, sent.g = some info ∧ msg_data = some payload ∧
      Run (ChannelStep sendTo) s [.lock signal,.fill msg_size,.send,.unlock] { s with
        info := info, mailbox := cmd, pending := true, sent := s.sent ++ [(cmd,bytes payload 0 msg_size.toNat)] } := by
  rcases snd_returned called with ⟨_,_,none⟩ | ⟨q,payload,c,p,locked,_,rfl,_,small,dest,lock,done⟩
  · simp [none] at given
  · rcases done with ⟨_,_,none,_⟩ | ⟨slot,⟨core',_,one,after⟩ | ⟨_,none,_⟩⟩
    · simp [none] at given
    · rw [one,List.mem_singleton] at given
      cases given
      refine ⟨_,payload,after,rfl,?_⟩
      have locked := Run.one (ChannelStep.lock (s := s) lock)
      have filled := locked.snoc (.fill s.locked [] q payload rfl slot small)
      have sent := filled.snoc (.send s.filled [] rfl)
      have unlocked := sent.snoc (.unlock rfl (unlock_some dest))
      simpa using unlocked
    · simp [none] at given

/-- A send needs the semaphore and a slot and nothing else: no earlier command need be read. -/
theorem send_unhindered {c : Fin 3} {start s : Channel} {es : List ChannelEvent} {sendTo msg_size : UINT32}
    (dest : destination sendTo = some c) (run : Run (ChannelStep sendTo) start es s)
    (free : (s.info.sndmsg_buffTbl c).semid = 1) (slots : ∀ k, (s.info.sndmsg_buffTbl c).sndmsg k ≠ 0) (msg_data : Mem)
    (admitted : msg_size.toNat ≤ 24) :
    ∃ info cmd, cmd.data_size = msg_size ∧ (info.sndmsg_buffTbl c).semid = 1 ∧
      (info.sndmsg_buffTbl c).sndmsg = (s.info.sndmsg_buffTbl c).sndmsg ∧
      Run (ChannelStep sendTo) start (es ++ [.lock false] ++ [.fill msg_size] ++ [.send] ++ [.unlock]) { s with
        info := info, mailbox := cmd, pending := true, sent := s.sent ++ [(cmd,bytes msg_data 0 msg_size.toNat)] } := by
  have awake : ipc_msgque_lockSndMsgBuff (some s.info) sendTo false ≠ .asleep := by
    simp [ipc_msgque_lockSndMsgBuff,dest,free,down_interruptible]
  obtain ⟨p,info,lock⟩ := (lock_valid s.info dest false).resolve_left awake
  have locked := run.snoc (.lock lock)
  obtain ⟨c',semid,dest',taken,given,after⟩ := lock_returned lock
  cases dest.symm.trans dest'
  cases given
  cases after
  simp only [down_interruptible,free,Outcome.returned.injEq] at taken
  have filled := locked.snoc (.fill s.locked [] 0 msg_data rfl (slots _) admitted)
  have sent := filled.snoc (.send s.filled [] rfl)
  have unlocked := sent.snoc (.unlock rfl (unlock_some dest))
  refine ⟨_,_,rfl,?_,?_,by simpa only [List.append_nil] using unlocked⟩
  · simp [← taken]
  · simp

def TimelyStep (c : Fin 3) (sendTo : UINT32) (s : Channel) (e : ChannelEvent) (s' : Channel) : Prop :=
  ChannelStep sendTo s e s' ∧ InTime c s e

/-- The commands read are a prefix of the commands sent, every payload copied is
    that of its command, and mailbox and buffer still hold every command that is
    not acknowledged. -/
structure InOrder (s : Channel) : Prop where
  reads : s.reads <+: s.sent.map Prod.fst
  posts : ∀ n payload, (n,payload) ∈ s.posts → ∃ cmd, s.sent[n]? = some (cmd,payload)
  unused : ∀ n cmd payload, s.acks ≤ n → s.sent[n]? = some (cmd,payload) →
    s.mailbox = cmd ∧ payloadAt s.info cmd = payload

/-- A direction before its first send. -/
def Fresh (c : Fin 3) (s : Channel) : Prop :=
  Placed s.info ∧ (s.info.sndmsg_buffTbl c).semid = 1 ∧ s.locked = [] ∧ s.filled = [] ∧ s.leaving = 0 ∧
    s.pending = false ∧ s.handler = .idle ∧ s.sent = [] ∧ s.reads = [] ∧ s.posts = [] ∧ s.acks = 0

/-! ### Payloads in their slots -/

/-- Slot `k` of destination `c` holds the payload of the command. -/
structure Stored (info : IPC_MSQINFO) (c : Fin 3) (k : Fin 2) (m : IPC_CC_CMD_T × List UInt8) : Prop where
  addr : m.1.data_addr = ipc_msgque_getPhyAddr (some info) ((info.sndmsg_buffTbl c).sndmsg k + 4)
  size : m.1.data_size.toNat = m.2.length
  short : m.2.length ≤ 12
  held : bytes info.syscmdbuf (32 * c.val + 16 * k.val + 4) m.2.length = m.2

section
variable {info : IPC_MSQINFO} {c : Fin 3} {k : Fin 2} {m : IPC_CC_CMD_T × List UInt8}

/-- The bus address of a slot leads to the slot. -/
theorem stored_payload (placed : Placed info) (stored : Stored info c k m) : payloadAt info m.1 = m.2 := by
  have offset : (m.1.data_addr - info.syscmdbuf_dma).toNat = 32 * c.val + 16 * k.val + 4 := by
    have back (vir dma x : UINT32) : vir + x + 4 - (vir - dma) - dma = x + 4 := by grind
    have four : (4 : UINT32).toNat = 4 := rfl
    rw [stored.addr,placed,ipc_msgque_getPhyAddr,back,UInt32.toNat_add,UInt32.toNat_ofNat',four]
    omega
  rw [payloadAt,offset,stored.size,stored.held]

/-- The bookkeeping of a destination moves no slot. -/
theorem stored_setBuff (stored : Stored info c k m) (semid : Nat) (pingponidx : UINT32) :
    Stored (setBuff info c { info.sndmsg_buffTbl c with semid := semid, pingponidx := pingponidx }) c k m where
  addr := by rw [stored.addr,setBuff_same]; rfl
  size := stored.size
  short := stored.short
  held := stored.held

/-- A fill of another slot leaves the payload. -/
theorem stored_fill (placed : Placed info) (stored : Stored info c k m) {k' : Fin 2} (other : k ≠ k')
    {sendTo msg_size : UINT32} {payload : Mem} (small : msg_size.toNat ≤ 12) :
    Stored (fillSndMsg info ((info.sndmsg_buffTbl c).sndmsg k') sendTo payload msg_size) c k m where
  addr := stored.addr
  size := stored.size
  short := stored.short
  held := by
    have apart : k.val ≠ k'.val := fun same => other (Fin.ext same)
    have short := stored.short
    conv => rhs; rw [← stored.held]
    refine bytes_congr fun j inside => fill_outside _ _ _ _ _ ?_
    rw [placed_offset placed]
    omega

/-- A fill stores the payload of its command in the slot it fills. -/
theorem fill_stored (placed : Placed info) {sendTo msg_size : UINT32} {payload : Mem} (small : msg_size.toNat ≤ 12)
    (pmsgque : Nat) : Stored (fillSndMsg info ((info.sndmsg_buffTbl c).sndmsg k) sendTo payload msg_size) c k
      (ccCmd (fillSndMsg info ((info.sndmsg_buffTbl c).sndmsg k) sendTo payload msg_size) pmsgque
        ((info.sndmsg_buffTbl c).sndmsg k) msg_size,bytes payload 0 msg_size.toNat) where
  addr := rfl
  size := bytes_length.symm
  short := by rw [bytes_length]; exact small
  held := by
    have filled := fill_payload info ((info.sndmsg_buffTbl c).sndmsg k) sendTo msg_size payload
    rw [placed_offset placed] at filled
    rw [bytes_length]
    exact filled

theorem placed_setBuff (placed : Placed info) (semid : Nat) (pingponidx : UINT32) :
    Placed (setBuff info c { info.sndmsg_buffTbl c with semid := semid, pingponidx := pingponidx }) := by
  intro d j
  by_cases same : d = c
  · subst same
    rw [setBuff_same]
    exact placed d j
  · rw [setBuff_other same]
    exact placed d j

end

/-! ### The invariant of timely steps -/

/-- At most one sender is between its lock and its unlock, and has the slot before the
    next one. At most one command is not acknowledged. It is in the mailbox and its payload
    in a slot that nobody writes: the next lock takes the other one, and a sender that is
    about to fill has the other one. -/
structure InTurn (c : Fin 3) (s : Channel) : Prop where
  placed : Placed s.info
  sem : (s.info.sndmsg_buffTbl c).semid + s.locked.length + s.filled.length + s.leaving ≤ 1
  reads : s.reads <+: s.sent.map Prod.fst
  posts : ∀ n payload, (n,payload) ∈ s.posts → ∃ cmd, s.sent[n]? = some (cmd,payload)
  acks : s.acks ≤ s.reads.length ∧ s.sent.length ≤ s.acks + 1
  pending : s.pending = true ↔ s.reads.length < s.sent.length
  busy : s.handler ≠ .idle → s.reads.length = s.sent.length ∧ s.acks < s.sent.length
  taken : ∀ cmd, s.handler = .taken cmd → cmd = s.mailbox
  slot : ∀ p ∈ s.locked, p = (s.info.sndmsg_buffTbl c).sndmsg (nextBuff s.info c).rev
  ready : ∀ m ∈ s.filled, ∃ k, k ≠ nextBuff s.info c ∧ Stored s.info c k m
  last : ∀ m, s.acks < s.sent.length → s.sent[s.acks]? = some m → s.mailbox = m.1 ∧ ∃ k, Stored s.info c k m ∧
    (0 < (s.info.sndmsg_buffTbl c).semid + s.leaving → k ≠ nextBuff s.info c) ∧ (s.locked ≠ [] → k = nextBuff s.info c)

section
variable {c : Fin 3} {sendTo : UINT32} {s : Channel}

theorem inTurn_fresh (fresh : Fresh c s) : InTurn c s := by
  obtain ⟨placed,sem,locked,filled,leaving,pending,idle,sent,reads,posts,acks⟩ := fresh
  constructor <;> simp_all

/-- Without a signal the lock returns only when no other sender is inside. -/
theorem inTurn_alone (inv : InTurn c s) {signal : Bool} (timely : signal = true → 0 < (s.info.sndmsg_buffTbl c).semid)
    {semid : Nat} (taken : down_interruptible (s.info.sndmsg_buffTbl c).semid signal = .returned semid) :
    (s.info.sndmsg_buffTbl c).semid = 1 ∧ semid = 0 ∧ s.locked = [] ∧ s.filled = [] ∧ s.leaving = 0 := by
  have sem := inv.sem
  cases free : (s.info.sndmsg_buffTbl c).semid with
  | zero =>
    cases signal with
    | false => simp [down_interruptible,free] at taken
    | true => exact absurd (timely rfl) (by omega)
  | succ rest =>
    simp only [down_interruptible,free,Outcome.returned.injEq] at taken
    simp only [← List.length_eq_zero_iff]
    omega

private theorem rev_ne (k : Fin 2) : k.rev ≠ k := by
  rw [ne_eq,Fin.ext_iff,Fin.val_rev]
  omega

/-- A lock makes the slot of the command that is not acknowledged the next one. -/
theorem inTurn_lock (dest : destination sendTo = some c) (inv : InTurn c s) {info : IPC_MSQINFO} {p : UINT32} {signal : Bool}
    (timely : signal = true → 0 < (s.info.sndmsg_buffTbl c).semid)
    (lock : ipc_msgque_lockSndMsgBuff (some s.info) sendTo signal = .returned (some p,some info)) :
    InTurn c { s with info := info, locked := s.locked ++ [p] } := by
  obtain ⟨c',semid,dest',taken,given,after⟩ := lock_returned lock
  cases dest.symm.trans dest'
  cases given
  cases after
  obtain ⟨free,rfl,outside,empty,left⟩ := inTurn_alone inv timely taken
  have flips := nextBuff_locked s.info c 0
  refine { inv with placed := placed_setBuff inv.placed 0 _, sem := ?_, slot := ?_, ready := ?_, last := ?_ }
  · simp [outside,empty,left]
  · intro p listed
    rw [outside,List.nil_append,List.mem_singleton] at listed
    rw [listed]
    simp only [flips,Fin.rev_rev,setBuff_same,lockedBuff_sndmsg]
  · intro m listed
    rw [empty] at listed
    cases listed
  · intro m unacked inSent
    obtain ⟨held,k,stored,away,_⟩ := inv.last m unacked inSent
    refine ⟨held,k,stored_setBuff stored 0 _,fun goes => ?_,fun _ => ?_⟩
    · simp [left] at goes
    · -- the slots are two, so the other one is now next
      have other := away (by omega)
      have apart := rev_ne (nextBuff s.info c)
      rw [flips]
      omega

/-- A null slot is given up, and the semaphore with it. -/
theorem inTurn_null (inv : InTurn c s) {before after : List UINT32} {p : UINT32} (locked : s.locked = before ++ p :: after) :
    InTurn c { s with locked := before ++ after } := by
  have sem := inv.sem
  rw [locked,List.length_append,List.length_cons] at sem
  refine { inv with sem := ?_, slot := ?_, last := ?_ }
  · simp only [List.length_append]
    omega
  · intro p' listed
    refine inv.slot p' ?_
    rw [locked]
    rcases List.mem_append.mp listed with earlier | later
    · exact List.mem_append_left _ earlier
    · exact List.mem_append_right _ (List.mem_cons_of_mem _ later)
  · intro m unacked inSent
    obtain ⟨held,k,stored,away,inside⟩ := inv.last m unacked inSent
    exact ⟨held,k,stored,away,fun _ => inside (by simp [locked])⟩

/-- A fill stores the new payload in the slot that was next, and the command that
    is not acknowledged keeps the other one. -/
theorem inTurn_fill (inv : InTurn c s) {p msg_size : UINT32} {msg_data : Mem} {before after : List UINT32} (pmsgque : Nat)
    (small : msg_size.toNat ≤ 12) (locked : s.locked = before ++ p :: after) :
    InTurn c { s with
      info := fillSndMsg s.info p sendTo msg_data msg_size, locked := before ++ after,
      filled := s.filled ++
        [(ccCmd (fillSndMsg s.info p sendTo msg_data msg_size) pmsgque p msg_size,bytes msg_data 0 msg_size.toNat)] } := by
  have sem := inv.sem
  rw [locked,List.length_append,List.length_cons] at sem
  obtain ⟨rfl,rfl,empty⟩ : before = [] ∧ after = [] ∧ s.filled = [] := by
    simp only [← List.length_eq_zero_iff]
    omega
  obtain rfl := inv.slot p (by simp [locked])
  refine { inv with placed := inv.placed, sem := ?_, slot := by simp, ready := ?_, last := ?_ }
  · simp only [fill_buffTbl,empty,List.nil_append,List.length_nil,List.length_singleton] at sem ⊢
    omega
  · intro m listed
    rw [empty] at listed
    obtain rfl := List.mem_singleton.mp listed
    exact ⟨(nextBuff s.info c).rev,rev_ne _,fill_stored inv.placed small pmsgque⟩
  · intro m unacked inSent
    obtain ⟨held,k,stored,away,inside⟩ := inv.last m unacked inSent
    obtain rfl := inside (by simp [locked])
    exact ⟨held,_,stored_fill inv.placed stored (rev_ne _).symm small,away,by simp⟩

/-- With no command unacknowledged, a send puts the one filled command in the mailbox. -/
theorem inTurn_send (inv : InTurn c s) (timely : s.acks = s.sent.length) {before after : List (IPC_CC_CMD_T × List UInt8)}
    {m : IPC_CC_CMD_T × List UInt8} (filled : s.filled = before ++ m :: after) :
    InTurn c { s with
      filled := before ++ after, leaving := s.leaving + 1, mailbox := m.1, pending := true, sent := s.sent ++ [m] } := by
  have sem := inv.sem
  rw [filled,List.length_append,List.length_cons] at sem
  obtain ⟨rfl,rfl,outside⟩ : before = [] ∧ after = [] ∧ s.locked = [] := by
    simp only [← List.length_eq_zero_iff]
    omega
  have quiet : s.handler = .idle := by
    by_contra busy
    have := (inv.busy busy).2
    omega
  have behind := inv.reads.length_le
  rw [List.length_map] at behind
  obtain ⟨k,apart,stored⟩ := inv.ready m (by simp [filled])
  refine { placed := inv.placed, sem := ?_, reads := ?_, posts := ?_, acks := ?_, pending := ?_,
           busy := ?_, taken := ?_, slot := inv.slot, ready := by simp, last := ?_ }
  · simp only [List.append_nil,List.length_nil] at sem ⊢
    omega
  · rw [List.map_append]
    exact inv.reads.trans (List.prefix_append ..)
  · intro n payload posted
    obtain ⟨cmd,inSent⟩ := inv.posts n payload posted
    exact ⟨cmd,List.getElem?_append_left (List.getElem?_eq_some_iff.mp inSent).1 ▸ inSent⟩
  · have := inv.acks
    simp only [List.length_append,List.length_singleton]
    omega
  · simp only [List.length_append,List.length_singleton,true_iff]
    omega
  · exact fun busy => absurd quiet busy
  · intro cmd taken
    rw [quiet] at taken
    cases taken
  · intro m' _ inSent
    rw [timely,List.getElem?_concat_length] at inSent
    cases inSent
    exact ⟨rfl,k,stored,fun _ => apart,fun inside => absurd outside inside⟩

/-- A sender that is refused keeps the semaphore. -/
theorem inTurn_refuse (inv : InTurn c s) {before after : List (IPC_CC_CMD_T × List UInt8)} {m : IPC_CC_CMD_T × List UInt8}
    (filled : s.filled = before ++ m :: after) : InTurn c { s with filled := before ++ after } := by
  have sem := inv.sem
  rw [filled,List.length_append,List.length_cons] at sem
  obtain ⟨rfl,rfl⟩ : before = [] ∧ after = [] := by
    simp only [← List.length_eq_zero_iff]
    omega
  refine { inv with sem := ?_, ready := by simp }
  simp only [List.append_nil,List.length_nil] at sem ⊢
  omega

/-- An unlock frees the semaphore with the slot of the command behind it. -/
theorem inTurn_unlock (dest : destination sendTo = some c) (inv : InTurn c s) {info : IPC_MSQINFO} {n : Nat}
    (leaving : s.leaving = n + 1) (unlock : ipc_msgque_unlockSndMsgBuff (some s.info) sendTo = .returned (some info)) :
    InTurn c { s with info := info, leaving := n } := by
  rw [unlock_some dest] at unlock
  cases unlock
  have sem := inv.sem
  have same : nextBuff (setBuff s.info c
      { s.info.sndmsg_buffTbl c with semid := (s.info.sndmsg_buffTbl c).semid + 1 }) c = nextBuff s.info c := by
    simp only [nextBuff,setBuff_same]
  refine { inv with placed := placed_setBuff inv.placed _ _, sem := ?_, slot := ?_, ready := ?_, last := ?_ }
  · simp only [setBuff_same]
    omega
  · intro p listed
    simp only [same,setBuff_same]
    exact inv.slot p listed
  · intro m listed
    obtain ⟨k,other,stored⟩ := inv.ready m listed
    exact ⟨k,same.symm ▸ other,stored_setBuff stored _ _⟩
  · intro m unacked inSent
    obtain ⟨held,k,stored,away,inside⟩ := inv.last m unacked inSent
    simp only [same]
    exact ⟨held,k,stored_setBuff stored _ _,fun _ => away (by omega),inside⟩

/-- A command that is read is the first not acknowledged, and was not read before. -/
theorem inTurn_read (inv : InTurn c s) (pending : s.pending = true) :
    InTurn c { s with pending := false, handler := .taken s.mailbox, reads := s.reads ++ [s.mailbox] } := by
  have unread := inv.pending.mp pending
  obtain ⟨acked,late⟩ := inv.acks
  have place : s.acks = s.reads.length := by omega
  have inSent : s.sent[s.acks]? = some s.sent[s.acks] := List.getElem?_eq_getElem (by omega)
  obtain ⟨held,_⟩ := inv.last _ (by omega) inSent
  refine { inv with reads := ?_, acks := ?_, pending := ?_, busy := ?_, taken := ?_ }
  · obtain ⟨rest,all⟩ := inv.reads
    have next : (s.sent.map Prod.fst)[s.reads.length]? = some s.mailbox := by
      rw [← place,List.getElem?_map,inSent,Option.map_some,held]
    rw [← all,List.getElem?_append_right le_rfl,Nat.sub_self] at next
    cases rest with
    | nil => cases next
    | cons a rest =>
      cases next
      exact ⟨rest,by rw [← all,List.append_assoc,List.singleton_append]⟩
  · simp only [List.length_append,List.length_singleton]
    omega
  · simp only [List.length_append,List.length_singleton]
    constructor
    · intro h
      cases h
    · omega
  · intro _
    simp only [List.length_append,List.length_singleton]
    omega
  · rintro cmd ⟨⟩
    rfl

/-- The payload at the address of a command in work is its own. -/
theorem inTurn_post (inv : InTurn c s) {cmd : IPC_CC_CMD_T} (taken : s.handler = .taken cmd) :
    InTurn c { s with handler := .posted, posts := s.posts ++ [(s.reads.length - 1,payloadAt s.info cmd)] } := by
  obtain ⟨read,unacked⟩ := inv.busy (by rw [taken]; simp)
  obtain ⟨acked,late⟩ := inv.acks
  have inSent : s.sent[s.acks]? = some s.sent[s.acks] := List.getElem?_eq_getElem unacked
  obtain ⟨held,k,stored,_⟩ := inv.last _ unacked inSent
  refine { inv with posts := ?_, busy := fun _ => ⟨read,unacked⟩, taken := ?_ }
  · intro n payload posted
    rcases List.mem_append.mp posted with earlier | now
    · exact inv.posts n payload earlier
    · rw [List.mem_singleton] at now
      cases now
      refine ⟨cmd,?_⟩
      have place : s.reads.length - 1 = s.acks := by omega
      rw [place,inSent,inv.taken cmd taken,held,stored_payload inv.placed stored]
  · rintro cmd ⟨⟩

theorem inTurn_ack (inv : InTurn c s) (posted : s.handler = .posted) :
    InTurn c { s with handler := .idle, acks := s.acks + 1 } := by
  obtain ⟨read,unacked⟩ := inv.busy (by rw [posted]; simp)
  obtain ⟨acked,late⟩ := inv.acks
  refine { inv with acks := ?_, busy := ?_, taken := ?_, last := ?_ }
  · simp only
    omega
  · simp
  · rintro cmd ⟨⟩
  · intro m more
    simp only at more
    omega

theorem inTurn_drop (inv : InTurn c s) : InTurn c { s with handler := .idle } := by
  refine { inv with busy := ?_, taken := ?_ }
  · simp
  · rintro cmd ⟨⟩

theorem inTurn_step (dest : destination sendTo = some c) {e : ChannelEvent} {s' : Channel} (inv : InTurn c s)
    (step : TimelyStep c sendTo s e s') : InTurn c s' := by
  obtain ⟨step,timely⟩ := step
  cases step with
  | lock lock => exact inTurn_lock dest inv timely lock
  | null before after locked => exact inTurn_null inv locked
  | fill before after pmsgque msg_data locked => exact inTurn_fill inv pmsgque timely locked
  | send before after filled => exact inTurn_send inv timely filled
  | refuse before after filled => exact inTurn_refuse inv filled
  | unlock leaving unlock => exact inTurn_unlock dest inv leaving unlock
  | read pending _ => exact inTurn_read inv pending
  | post taken => exact inTurn_post inv taken
  | ack posted => exact inTurn_ack inv posted
  | drop _ => exact inTurn_drop inv

theorem inTurn_inOrder (inv : InTurn c s) : InOrder s where
  reads := inv.reads
  posts := inv.posts
  unused := by
    intro n cmd payload unacked inSent
    obtain ⟨inside,_⟩ := List.getElem?_eq_some_iff.mp inSent
    obtain ⟨_,late⟩ := inv.acks
    obtain rfl : n = s.acks := by omega
    obtain ⟨held,k,stored,_⟩ := inv.last _ inside inSent
    have payloads := stored_payload inv.placed stored
    exact ⟨held,payloads⟩

end

/-- In a run whose sends wait for the acks of all earlier commands, with messages that
    fit their slots and no wait that a signal ends, commands are read in order and
    once, with their own payloads, and nothing of a command is reused before its ack. -/
theorem commands_in_order {c : Fin 3} {sendTo : UINT32} {start s : Channel} {es : List ChannelEvent}
    (dest : destination sendTo = some c) (fresh : Fresh c start) (run : Run (TimelyStep c sendTo) start es s) : InOrder s :=
  inTurn_inOrder (run.preserves (inTurn_fresh fresh) fun _ _ _ => inTurn_step dest)

/-- A direction of a core with one queue. -/
def freshChannel : Channel where
  info := firstQueue
  locked := []
  filled := []
  leaving := 0
  mailbox := ⟨0,0,0⟩
  pending := false
  handler := .idle
  sent := []
  reads := []
  posts := []
  acks := 0

/-- After `ipc_msgque_init` every direction is fresh. -/
theorem fresh_init {kmalloc : Option IPC_MSQINFO} {dma : Option (UINT32 × UINT32)} {ret : INT32} {info : IPC_MSQINFO}
    (called : ipc_msgque_init none kmalloc dma = (ret,some info)) (c : Fin 3) :
    Fresh c { freshChannel with info := info } := by
  obtain ⟨placed,free⟩ := init_placed called
  exact ⟨placed,free c,rfl,rfl,rfl,rfl,rfl,rfl,rfl,rfl,rfl⟩

theorem freshChannel_fresh : Fresh 0 freshChannel :=
  ⟨firstQueue_placed,by decide +kernel,rfl,rfl,rfl,rfl,rfl,rfl,rfl,rfl,rfl⟩

theorem firstQueue_slots (k : Fin 2) : (firstQueue.sndmsg_buffTbl 0).sndmsg k ≠ 0 := by
  revert k
  decide +kernel

/-- The first message of a direction is read, posted and acknowledged in order. -/
theorem commands_in_order_one : ∃ s : Channel, s.acks = 1 ∧ s.posts.length = 1 ∧ s.sent.map Prod.snd = [[7,7,7,7]] ∧
    InOrder s := by
  have dest : destination IPC_SENDTO_CORE1 = some 0 := rfl
  have free : (freshChannel.info.sndmsg_buffTbl 0).semid = 1 := by decide +kernel
  have lock : TimelyStep 0 IPC_SENDTO_CORE1 freshChannel (.lock false) _ :=
    ⟨.lock (by rw [lock_eq _ dest,free]; rfl),nofun⟩
  have admitted : (4 : UINT32).toNat ≤ 24 := by decide
  have fill := (Run.one lock).snoc ⟨.fill [] [] (msgQueTbl 0) (fun _ => 7) rfl (firstQueue_slots _) admitted,
    show (4 : UINT32).toNat ≤ 12 by decide⟩
  have send := fill.snoc ⟨.send [] [] rfl,rfl⟩
  have unlock := send.snoc ⟨.unlock rfl (unlock_some dest),trivial⟩
  have read := unlock.snoc ⟨.read rfl rfl,trivial⟩
  have post := read.snoc ⟨.post rfl,trivial⟩
  have ack := post.snoc ⟨.ack rfl,trivial⟩
  refine ⟨_,?_,?_,?_,commands_in_order (c := 0) dest freshChannel_fresh ack⟩
  · rfl
  · rfl
  · rfl

/-- A second send before the handler runs: the first command is never read. -/
theorem command_overwritten : ∃ s, Fresh 0 freshChannel ∧
    Run (ChannelStep IPC_SENDTO_CORE1) freshChannel
      [.lock false,.fill 4,.send,.unlock,.lock false,.fill 8,.send,.unlock,.read] s ∧
      ¬ s.reads <+: s.sent.map Prod.fst := by
  have dest : destination IPC_SENDTO_CORE1 = some 0 := rfl
  obtain ⟨_,cmd,size,free,slots,first⟩ := send_unhindered dest (Run.nil (s := freshChannel)) (by decide +kernel)
    firstQueue_slots (fun _ => 7) (show (4 : UINT32).toNat ≤ 24 by decide)
  obtain ⟨_,cmd',size',_,_,second⟩ := send_unhindered dest first free (by rw [slots]; exact firstQueue_slots) (fun _ => 7)
    (show (8 : UINT32).toNat ≤ 24 by decide)
  refine ⟨_,freshChannel_fresh,second.snoc (.read rfl rfl),?_⟩
  rintro ⟨rest,same⟩
  have overwritten : cmd' = cmd := (List.cons.inj same).1
  rw [overwritten,size] at size'
  exact absurd size' (by decide)

end IpcMsq.Mailbox
