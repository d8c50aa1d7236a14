import IpcMsq.Api

/-!
Which bytes a message may write. A post writes two header words and one element,
a send one message slot, exactly as long as the message is no longer than the
data of an element: both copies are as long as the size says, and the check
before them admits twice the capacity.
-/
namespace IpcMsq.Frames
open IpcMsq.Memory IpcMsq.Common IpcMsq.Table IpcMsq.Elements IpcMsq.SendBuff IpcMsq.Api

/-- The bytes that belong to a post to the queue at `q`: `indx`, `count`, and the
    element it advances to. -/
def OwnBytes (tbl : Mem) (q a : Nat) : Prop :=
  q + 12 ≤ a ∧ a < q + 16 ∨ q + 20 ≤ a ∧ a < q + 24 ∨
    element q (nextSlot tbl q) ≤ a ∧ a < element q (nextSlot tbl q) + sizeof_IPC_MSG

/-- A post that succeeds changes no byte of the table but its own, and nothing else. -/
def PostFrame (info : IPC_MSQINFO) (msqid : UINT32) (payload : Mem) (msgsize : UINT32) (rcvmsg : IPC_MSG) : Prop :=
  ∀ info', ipc_msgque_msgpost (some info) msqid (some payload) msgsize rcvmsg = (0,some info') →
    (∃ tbl, info' = { info with tbl := tbl }) ∧
      ∀ a, ¬ OwnBytes info.tbl (msgQueTbl msqid.toNat) a → info'.tbl a = info.tbl a

/-- A send that returns leaves the table and every byte of the send buffers
    outside the one slot that the lock handed out, which is one of the six. -/
def SendFrame (info : IPC_MSQINFO) (msqid sendTo : UINT32) (payload : Mem) (msg_size : UINT32) (signal : Bool)
    (noReturn : INT32) : Prop :=
  ∀ p locked sent, ipc_msgque_lockSndMsgBuff (some info) sendTo signal = .returned (some p,some locked) →
    ipc_msg_snd (some info) msqid sendTo (some payload) msg_size signal noReturn = .returned sent →
    (∃ c : Fin 3, ∃ k : Fin 2, slotOffset info p = 32 * c.val + 16 * k.val) ∧
      ∃ info', sent.g = some info' ∧ info'.tbl = info.tbl ∧
        ∀ a, a < slotOffset info p ∨ slotOffset info p + sizeof_IPC_SEND_MSG ≤ a → info'.syscmdbuf a = info.syscmdbuf a

section
variable {info : IPC_MSQINFO} {msqid sendTo size : UINT32} {signal : Bool}

theorem post_frame_small {q : Nat} (live : ipc_msgque_getQuebyID (some info) msqid = some q) (small : size.toNat ≤ 12)
    (payload : Mem) (rcvmsg : IPC_MSG) : PostFrame info msqid payload size rcvmsg := by
  intro info' called
  obtain ⟨_,_,rfl⟩ := getQuebyID_some.mp live
  rcases msgpost_cases info msqid payload (show size.toNat ≤ 24 by omega) rcvmsg with
    ⟨_,refused⟩ | ⟨q,_,_,refused⟩ | ⟨q,found,_,done⟩
  · cases called.symm.trans refused
  · cases called.symm.trans refused
  · cases live.symm.trans found
    cases called.symm.trans done
    refine ⟨⟨_,rfl⟩,fun a outside => ?_⟩
    simp only [OwnBytes,sizeof_IPC_MSG,MAX_LENGTH] at outside
    exact putElement_outside (by omega) (by omega) (by simp only; omega)

/-- A longer message writes the byte behind its element. -/
theorem post_frame_long {q : Nat} (live : ipc_msgque_getQuebyID (some info) msqid = some q) (admitted : size.toNat ≤ 24)
    (long : 12 < size.toNat) (room : (count info.tbl q).toNat < 16) :
    ∃ payload rcvmsg, ¬ PostFrame info msqid payload size rcvmsg := by
  obtain ⟨_,_,rfl⟩ := getQuebyID_some.mp live
  let behind := element (msgQueTbl msqid.toNat) (nextSlot info.tbl (msgQueTbl msqid.toNat)) + 4 + 12
  let payload : Mem := fun _ => info.tbl behind + 1
  refine ⟨payload,⟨0,payload⟩,fun frame => ?_⟩
  rcases msgpost_cases info msqid payload admitted ⟨0,payload⟩ with ⟨none,_⟩ | ⟨q,found,full,_⟩ | ⟨q,found,_,done⟩
  · rw [live] at none
    cases none
  · cases live.symm.trans found
    omega
  · cases live.symm.trans found
    have written : putElement info.tbl (msgQueTbl msqid.toNat) ⟨size,copy payload 0 payload size.toNat⟩ behind =
        info.tbl behind + 1 := by
      rw [putElement_data long]
      change copy payload 0 payload size.toNat 12 = _
      rw [copy_inside (by omega) (by omega)]
    have kept := (frame _ done).2 behind (by simp only [OwnBytes,behind,element_eq,sizeof_IPC_MSG,MAX_LENGTH]; omega)
    simp [written] at kept

theorem send_frame_small (placed : Placed info) (small : size.toNat ≤ 12) (payload : Mem) (noReturn : INT32) :
    SendFrame info msqid sendTo payload size signal noReturn := by
  intro p locked sent lock called
  obtain ⟨sameTbl,sameBuf,sameOffset,c,rfl⟩ := lock_memory lock
  refine ⟨⟨c,nextBuff info c,placed_offset placed c _⟩,?_⟩
  have keep (a : Nat) (apart : a < slotOffset info ((info.sndmsg_buffTbl c).sndmsg (nextBuff info c)) ∨
      slotOffset info ((info.sndmsg_buffTbl c).sndmsg (nextBuff info c)) + sizeof_IPC_SEND_MSG ≤ a) :
      (fillSndMsg locked ((info.sndmsg_buffTbl c).sndmsg (nextBuff info c)) sendTo payload size).syscmdbuf a =
        info.syscmdbuf a := by
    simp only [sizeof_IPC_SEND_MSG,MAX_LENGTH] at apart
    rw [fill_outside _ _ _ _ _ (by rw [sameOffset]; omega),sameBuf]
  rcases snd_returned called with ⟨_,same,_⟩ | ⟨q,payload',c',p',locked',_,same,_,_,_,lock',done⟩
  · exact ⟨info,same,rfl,fun _ _ => rfl⟩
  · cases same
    cases lock.symm.trans lock'
    rcases done with ⟨_,_,_,after⟩ | ⟨_,⟨_,_,_,after⟩ | ⟨_,_,after⟩⟩
    · exact ⟨_,after,sameTbl,fun _ _ => congrFun sameBuf _⟩
    · exact ⟨_,after,sameTbl,keep⟩
    · exact ⟨_,after,sameTbl,keep⟩

/-- A null slot is not filled. -/
theorem send_frame_null (placed : Placed info) {c : Fin 3} (at_c : destination sendTo = some c) (null : nextSlotAddr info c = 0)
    (payload : Mem) (noReturn : INT32) : SendFrame info msqid sendTo payload size signal noReturn := by
  intro p locked sent lock called
  obtain ⟨sameTbl,sameBuf,_,c₁,rfl⟩ := lock_memory lock
  refine ⟨⟨c₁,nextBuff info c₁,placed_offset placed c₁ _⟩,?_⟩
  rcases snd_returned called with ⟨_,same,_⟩ | ⟨q,payload',c',p',locked',_,_,_,_,_,lock',done⟩
  · exact ⟨info,same,rfl,fun _ _ => rfl⟩
  · cases lock.symm.trans lock'
    obtain ⟨c₂,_,at_c₂,_,given,_⟩ := lock_returned lock
    cases at_c.symm.trans at_c₂
    rcases done with ⟨_,_,_,after⟩ | ⟨slot,_⟩
    · exact ⟨_,after,sameTbl,fun _ _ => congrFun sameBuf _⟩
    · exact absurd ((Option.some.inj given).trans null) slot

/-- A longer message writes the byte behind its slot, if it has one. -/
theorem send_frame_long {q : Nat} {c : Fin 3} (live : ipc_msgque_getQuebyID (some info) msqid = some q)
    (at_c : destination sendTo = some c) (valid : sendTo.toNat ≤ 3) (admitted : size.toNat ≤ 24) (long : 12 < size.toNat)
    (awake : ipc_msgque_lockSndMsgBuff (some info) sendTo signal ≠ .asleep) (slot : nextSlotAddr info c ≠ 0)
    (noReturn : INT32) : ∃ payload, ¬ SendFrame info msqid sendTo payload size signal noReturn := by
  obtain ⟨p,locked,lock⟩ := (lock_valid info at_c signal).resolve_left awake
  obtain ⟨_,sameBuf,sameOffset,_⟩ := lock_memory lock
  have given : p ≠ 0 := by
    obtain ⟨c',_,at_c',_,given,_⟩ := lock_returned lock
    cases at_c.symm.trans at_c'
    cases given
    exact slot
  let payload : Mem := fun _ => info.syscmdbuf (slotOffset info p + 4 + 12) + 1
  refine ⟨payload,fun frame => ?_⟩
  obtain ⟨sent,called,filled⟩ := snd_fills live valid admitted at_c payload noReturn given lock
  obtain ⟨_,info',after,_,keep⟩ := frame p locked sent lock called
  have kept := keep (slotOffset info p + 4 + 12) (by simp only [sizeof_IPC_SEND_MSG,MAX_LENGTH]; omega)
  rw [filled info' after,fill_syscmdbuf,sameOffset,copy_at long] at kept
  simp [payload] at kept

end

/-- At every admitted size, a post to a live queue keeps to its own bytes exactly
    if the message fits the data of an element or the queue is full, and a send
    to a valid destination exactly if it fits, or the lock sleeps, or its slot lies at
    the address 0. -/
theorem own_slot_iff {size : UINT32} (admitted : size.toNat ≤ 24) :
    (∀ info msqid q, ipc_msgque_getQuebyID (some info) msqid = some q →
      ((∀ payload rcvmsg, PostFrame info msqid payload size rcvmsg) ↔
        size.toNat ≤ 12 ∨ ipc_msgque_isfull info.tbl (some q) = true)) ∧
    (∀ info msqid q sendTo signal noReturn, Placed info → ipc_msgque_getQuebyID (some info) msqid = some q →
      1 ≤ sendTo.toNat → sendTo.toNat ≤ 3 →
      ((∀ payload, SendFrame info msqid sendTo payload size signal noReturn) ↔
        size.toNat ≤ 12 ∨ ipc_msgque_lockSndMsgBuff (some info) sendTo signal = .asleep ∨
          ∃ c, destination sendTo = some c ∧ nextSlotAddr info c = 0)) := by
  refine ⟨fun info msqid q live => ⟨fun frame => ?_,?_⟩,fun info msqid q sendTo signal noReturn placed live low high =>
    ⟨fun frame => ?_,?_⟩⟩
  · by_contra fails
    push Not at fails
    obtain ⟨payload,rcvmsg,broken⟩ := post_frame_long live admitted fails.1 (by
      by_contra full
      exact fails.2 (isfull_iff.mpr (by omega)))
    exact broken (frame payload rcvmsg)
  · rintro (small | full)
    · exact post_frame_small live small
    · intro payload rcvmsg info' called
      rcases msgpost_cases info msqid payload admitted rcvmsg with ⟨_,refused⟩ | ⟨_,_,_,refused⟩ | ⟨q',found,room,_⟩
      · cases called.symm.trans refused
      · cases called.symm.trans refused
      · cases live.symm.trans found
        exact absurd (isfull_iff.mp full) (by omega)
  · by_contra fails
    push Not at fails
    obtain ⟨c,at_c,_⟩ := destination_of low high
    obtain ⟨payload,broken⟩ := send_frame_long live at_c high admitted fails.1 fails.2.1 (fails.2.2 c at_c) noReturn
    exact broken (frame payload)
  · rintro (small | asleep | ⟨c,at_c,null⟩)
    · exact fun payload => send_frame_small placed small payload noReturn
    · intro payload p locked sent lock
      rw [asleep] at lock
      cases lock
    · exact fun payload => send_frame_null placed at_c null payload noReturn

/-- Twelve bytes stay in the element and in the slot. -/
theorem own_slot_iff_twelve : (∀ payload rcvmsg, PostFrame firstQueue 0 payload 12 rcvmsg) ∧
    ∀ payload, SendFrame firstQueue 0 IPC_SENDTO_CORE1 payload 12 false 0 := by
  obtain ⟨post,send⟩ := own_slot_iff (show (12 : UINT32).toNat ≤ 24 by decide)
  exact ⟨(post firstQueue 0 _ firstQueue_live).mpr (.inl (by decide)),
    (send firstQueue 0 _ IPC_SENDTO_CORE1 false 0 firstQueue_placed firstQueue_live (by decide) (by decide)).mpr
      (.inl (by decide))⟩

/-- Sixteen bytes also reach the size of the next element and the destination of
    the next slot. -/
theorem long_message_spills : ¬ PostFrame firstQueue 0 (fun _ => 1) 16 ⟨0,fun _ => 0⟩ ∧
    ¬ SendFrame firstQueue 0 IPC_SENDTO_CORE1 (fun _ => 1) 16 false 0 := by
  constructor
  · intro frame
    have posted : ∃ info', ipc_msgque_msgpost (some firstQueue) 0 (some fun _ => 1) 16 ⟨0,fun _ => 0⟩ = (0,some info') ∧
        info'.tbl (element (msgQueTbl 0) 1) = 1 :=
      ⟨_,Prod.ext (by decide +kernel) rfl,by decide +kernel⟩
    obtain ⟨info',done,written⟩ := posted
    have kept := (frame info' done).2 (element (msgQueTbl 0) 1) (by unfold OwnBytes; decide +kernel)
    rw [written] at kept
    exact absurd kept (by decide +kernel)
  · intro frame
    have sent : ∃ p locked s info', ipc_msgque_lockSndMsgBuff (some firstQueue) IPC_SENDTO_CORE1 false =
        .returned (some p,some locked) ∧ ipc_msg_snd (some firstQueue) 0 IPC_SENDTO_CORE1 (some fun _ => 1) 16 false 0 =
        .returned s ∧ s.g = some info' ∧ slotOffset firstQueue p = 0 ∧ info'.syscmdbuf 16 = 1 :=
      ⟨_,_,_,_,rfl,rfl,rfl,by decide +kernel,by decide +kernel⟩
    obtain ⟨p,locked,s,info',lock,called,after,first,written⟩ := sent
    obtain ⟨_,info'',after',_,keep⟩ := frame p locked s lock called
    cases after.symm.trans after'
    have kept := keep 16 (by rw [first]; decide)
    rw [written] at kept
    exact absurd kept (by decide +kernel)

end IpcMsq.Frames
