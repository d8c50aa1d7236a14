import IpcMsq.Table

/-!
The send buffers of `drv_ipc_msgque.c`: two message slots for each destination,
used in turn under a semaphore. A destination is an index into a table of three;
an index outside it leaves the program's memory, and C promises nothing then.
-/
namespace IpcMsq.SendBuff
open IpcMsq.Memory IpcMsq.Common IpcMsq.Table

/-- How a call ends: it returns, or sleeps on a semaphore, or has indexed outside an array. -/
inductive Outcome (α : Type)
  | returned (result : α)
  | asleep
  | undefined
deriving DecidableEq

def Outcome.bind {α β : Type} (first : Outcome α) (next : α → Outcome β) : Outcome β :=
  match first with
  | .returned result => next result
  | .asleep => .asleep
  | .undefined => .undefined

@[simp] theorem Outcome.returned_bind {α β : Type} (a : α) (next : α → Outcome β) :
    (Outcome.returned a).bind next = next a := rfl

theorem Outcome.bind_returned {α β : Type} {first : Outcome α} {next : α → Outcome β} {b : β} :
    first.bind next = .returned b ↔ ∃ a, first = .returned a ∧ next a = .returned b := by
  cases first <;> simp [bind]

/-- The entry of a destination, `sndmsg_buffTbl[sendTo - 1]` in unsigned arithmetic. -/
def destination (sendTo : UINT32) : Option (Fin 3) :=
  if inside : (sendTo - 1).toNat < 3 then some ⟨(sendTo - 1).toNat,inside⟩ else none

/-- A store to the entry of a destination. -/
def setBuff (info : IPC_MSQINFO) (c : Fin 3) (psndmsgbuf : IPC_SNDMSG_BUFF) : IPC_MSQINFO :=
  { info with sndmsg_buffTbl := Function.update info.sndmsg_buffTbl c psndmsgbuf }

@[simp] theorem setBuff_same (info : IPC_MSQINFO) (c : Fin 3) (b : IPC_SNDMSG_BUFF) :
    (setBuff info c b).sndmsg_buffTbl c = b := Function.update_self ..
theorem setBuff_other {c d : Fin 3} (other : d ≠ c) (info : IPC_MSQINFO) (b : IPC_SNDMSG_BUFF) :
    (setBuff info c b).sndmsg_buffTbl d = info.sndmsg_buffTbl d := Function.update_of_ne other ..

/-- `down_interruptible`: the semaphore is taken, or a signal ends the wait without it. -/
def down_interruptible (semid : Nat) (signal : Bool) : Outcome Nat :=
  match semid with
  | free + 1 => .returned free
  | 0 => if signal then .returned 0 else .asleep

/-- The result of `down_interruptible` is dropped, so the buffer is handed out
    also when a signal ended the wait. -/
def ipc_msgque_lockSndMsgBuff (g : Option IPC_MSQINFO) (sendTo : UINT32) (signal : Bool) :
    Outcome (Option UINT32 × Option IPC_MSQINFO) :=
  match g with
  | none => .returned (none,none)
  | some info =>
    match destination sendTo with
    | none => .undefined
    | some c =>
      let psndmsgbuf := info.sndmsg_buffTbl c
      (down_interruptible psndmsgbuf.semid signal).bind fun semid =>
        let (pingponidx,p) : UINT32 × UINT32 :=
          if psndmsgbuf.pingponidx = 0 then (1,psndmsgbuf.sndmsg 0) else (0,psndmsgbuf.sndmsg 1)
        .returned (some p,some (setBuff info c { psndmsgbuf with semid := semid, pingponidx := pingponidx }))

def ipc_msgque_unlockSndMsgBuff (g : Option IPC_MSQINFO) (sendTo : UINT32) : Outcome (Option IPC_MSQINFO) :=
  match g with
  | none => .returned none
  | some info =>
    match destination sendTo with
    | none => .undefined
    | some c =>
      let psndmsgbuf := info.sndmsg_buffTbl c
      .returned (some (setBuff info c { psndmsgbuf with semid := psndmsgbuf.semid + 1 }))

def ipc_msgque_getPhyAddr (g : Option IPC_MSQINFO) (virt_addr : UINT32) : UINT32 :=
  match g with
  | none => virt_addr
  | some info => virt_addr - (info.syscmdbuf_vir - info.syscmdbuf_dma)

/-! ### What the calls do -/

/-- A valid destination is its number less one. -/
theorem destination_of {sendTo : UINT32} (low : 1 ≤ sendTo.toNat) (high : sendTo.toNat ≤ 3) :
    ∃ c : Fin 3, destination sendTo = some c ∧ c.val = sendTo.toNat - 1 := by
  have one : (1 : UINT32).toNat = 1 := rfl
  have less : (sendTo - 1).toNat = sendTo.toNat - 1 := UInt32.toNat_sub_of_le _ _ (by simpa [UInt32.le_iff_toNat_le])
  refine ⟨⟨(sendTo - 1).toNat,by omega⟩,?_,less⟩
  rw [destination,dif_pos (by omega)]

/-- The two slots of each destination lie one behind the other, as
    `ipc_msgque_init` places them. -/
def Placed (info : IPC_MSQINFO) : Prop :=
  ∀ (c : Fin 3) (k : Fin 2), (info.sndmsg_buffTbl c).sndmsg k = info.syscmdbuf_vir + UInt32.ofNat (32 * c.val + 16 * k.val)

/-- Initialisation places the six slots and frees the three semaphores. -/
theorem init_placed {kmalloc : Option IPC_MSQINFO} {dma : Option (UINT32 × UINT32)} {ret : INT32} {info : IPC_MSQINFO}
    (called : ipc_msgque_init none kmalloc dma = (ret,some info)) :
    Placed info ∧ ∀ c, (info.sndmsg_buffTbl c).semid = 1 := by
  cases kmalloc with
  | none => cases called
  | some garbage =>
    cases dma with
    | none => cases called
    | some dma =>
      obtain ⟨vir,bus⟩ := dma
      simp only [ipc_msgque_init] at called
      split at called
      · cases called
      · cases called
        constructor
        · intro c k
          obtain rfl | rfl | rfl : c = 0 ∨ c = 1 ∨ c = 2 := by omega
          all_goals obtain rfl | rfl : k = 0 ∨ k = 1 := by omega
          all_goals simp [initSndMsgBuff,List.finRange_succ,Function.update,UInt32.add_assoc]
        · intro c
          obtain rfl | rfl | rfl : c = 0 ∨ c = 1 ∨ c = 2 := by omega
          all_goals rfl

theorem firstQueue_placed : Placed firstQueue := by
  unfold Placed
  decide +kernel

/-- The place of a message slot in the send-buffer memory. -/
def slotOffset (info : IPC_MSQINFO) (p : UINT32) : Nat := (p - info.syscmdbuf_vir).toNat

theorem placed_offset {info : IPC_MSQINFO} (placed : Placed info) (c : Fin 3) (k : Fin 2) :
    slotOffset info ((info.sndmsg_buffTbl c).sndmsg k) = 32 * c.val + 16 * k.val := by
  rw [slotOffset,placed,UInt32.add_comm,UInt32.add_sub_cancel,UInt32.toNat_ofNat']
  omega

/-- The slot that the next sender to a destination gets. -/
def nextBuff (info : IPC_MSQINFO) (c : Fin 3) : Fin 2 := if (info.sndmsg_buffTbl c).pingponidx = 0 then 0 else 1

/-- Its address. -/
def nextSlotAddr (info : IPC_MSQINFO) (c : Fin 3) : UINT32 := (info.sndmsg_buffTbl c).sndmsg (nextBuff info c)

/-- The entry of a destination after a lock that took the semaphore down to `semid`. -/
def lockedBuff (info : IPC_MSQINFO) (c : Fin 3) (semid : Nat) : IPC_SNDMSG_BUFF :=
  { info.sndmsg_buffTbl c with semid := semid, pingponidx := if nextBuff info c = 0 then 1 else 0 }

@[simp] theorem lockedBuff_semid (info : IPC_MSQINFO) (c : Fin 3) (semid : Nat) : (lockedBuff info c semid).semid = semid := rfl
@[simp] theorem lockedBuff_sndmsg (info : IPC_MSQINFO) (c : Fin 3) (semid : Nat) :
    (lockedBuff info c semid).sndmsg = (info.sndmsg_buffTbl c).sndmsg := rfl

/-- A lock makes the other slot the next one. -/
theorem nextBuff_locked (info : IPC_MSQINFO) (c : Fin 3) (semid : Nat) :
    nextBuff (setBuff info c (lockedBuff info c semid)) c = (nextBuff info c).rev := by
  by_cases even : (info.sndmsg_buffTbl c).pingponidx = 0
  · simp [nextBuff,lockedBuff,even]
  · simp [nextBuff,lockedBuff,even]

/-- A lock waits for the semaphore and hands out the next slot. -/
theorem lock_eq (info : IPC_MSQINFO) {sendTo : UINT32} {c : Fin 3} (at_c : destination sendTo = some c) (signal : Bool) :
    ipc_msgque_lockSndMsgBuff (some info) sendTo signal =
      (down_interruptible (info.sndmsg_buffTbl c).semid signal).bind fun semid => .returned
        (some ((info.sndmsg_buffTbl c).sndmsg (nextBuff info c)),some (setBuff info c (lockedBuff info c semid))) := by
  simp only [ipc_msgque_lockSndMsgBuff,at_c,nextBuff,lockedBuff]
  by_cases even : (info.sndmsg_buffTbl c).pingponidx = 0
  · simp only [even,if_true]
  · simp [even]

/-- A lock that returns hands out the next slot and changes nothing but the entry
    of its destination. -/
theorem lock_returned {info : IPC_MSQINFO} {sendTo : UINT32} {signal : Bool} {p : Option UINT32}
    {g' : Option IPC_MSQINFO} (called : ipc_msgque_lockSndMsgBuff (some info) sendTo signal = .returned (p,g')) :
    ∃ c semid, destination sendTo = some c ∧ down_interruptible (info.sndmsg_buffTbl c).semid signal = .returned semid ∧
      p = some ((info.sndmsg_buffTbl c).sndmsg (nextBuff info c)) ∧
      g' = some (setBuff info c (lockedBuff info c semid)) := by
  cases at_c : destination sendTo with
  | none => simp [ipc_msgque_lockSndMsgBuff,at_c] at called
  | some c =>
    rw [lock_eq info at_c] at called
    obtain ⟨semid,taken,result⟩ := Outcome.bind_returned.mp called
    cases result
    exact ⟨c,semid,rfl,taken,rfl,rfl⟩

/-- A lock writes no byte of the table or of the send buffers. -/
theorem lock_memory {info locked : IPC_MSQINFO} {sendTo p : UINT32} {signal : Bool}
    (lock : ipc_msgque_lockSndMsgBuff (some info) sendTo signal = .returned (some p,some locked)) :
    locked.tbl = info.tbl ∧ locked.syscmdbuf = info.syscmdbuf ∧ slotOffset locked p = slotOffset info p ∧
      ∃ c, p = (info.sndmsg_buffTbl c).sndmsg (nextBuff info c) := by
  obtain ⟨c,semid,_,_,given,after⟩ := lock_returned lock
  cases given
  cases after
  exact ⟨rfl,rfl,rfl,c,rfl⟩

/-- With a valid destination a lock sleeps or hands out a slot. -/
theorem lock_valid (info : IPC_MSQINFO) {sendTo : UINT32} {c : Fin 3} (at_c : destination sendTo = some c) (signal : Bool) :
    ipc_msgque_lockSndMsgBuff (some info) sendTo signal = .asleep ∨
      ∃ p locked, ipc_msgque_lockSndMsgBuff (some info) sendTo signal = .returned (some p,some locked) := by
  rw [lock_eq info at_c]
  cases taken : down_interruptible (info.sndmsg_buffTbl c).semid signal with
  | returned semid => exact .inr ⟨_,_,rfl⟩
  | asleep => exact .inl rfl
  | undefined =>
    simp only [down_interruptible] at taken
    split at taken
    · cases taken
    · split at taken <;> cases taken

theorem unlock_some {info : IPC_MSQINFO} {sendTo : UINT32} {c : Fin 3} (at_c : destination sendTo = some c) :
    ipc_msgque_unlockSndMsgBuff (some info) sendTo = .returned (some (setBuff info c
      { info.sndmsg_buffTbl c with semid := (info.sndmsg_buffTbl c).semid + 1 })) := by
  simp only [ipc_msgque_unlockSndMsgBuff,at_c]

end IpcMsq.SendBuff
