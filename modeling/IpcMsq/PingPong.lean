import IpcMsq.Api
import IpcMsq.Runs

/-!
The two message slots of each destination, over runs of lock, fill and unlock.
The locks of a destination hand out its slots in turn and a fill writes the slot
that its lock handed out, so a message stays in memory until the turn of its slot
comes again, at the second lock after its own.
-/
namespace IpcMsq.PingPong
open IpcMsq.Memory IpcMsq.Common IpcMsq.Table IpcMsq.SendBuff IpcMsq.Api IpcMsq.Runs

/-! ### Placement -/

/-- The address of byte `j` of slot `k` of a destination. -/
def slotByte (info : IPC_MSQINFO) (c : Fin 3) (k : Fin 2) (j : Fin 16) : UINT32 :=
  (info.sndmsg_buffTbl c).sndmsg k + UInt32.ofNat j.val

/-- No byte belongs to two slots, and the slots fill the allocated region. -/
def Tiles (info : IPC_MSQINFO) : Prop :=
  (∀ c k j c' k' j', slotByte info c k j = slotByte info c' k' j' → c = c' ∧ k = k' ∧ j = j') ∧
    ∀ a, (∃ c k j, slotByte info c k j = a) ↔ (a - info.syscmdbuf_vir).toNat < ipc_calcNeddBuffSize.toNat

/-- Physical addresses are distinct and keep the offset into the region. -/
def SameOffsets (info : IPC_MSQINFO) : Prop :=
  (∀ a b, ipc_msgque_getPhyAddr (some info) a = ipc_msgque_getPhyAddr (some info) b → a = b) ∧
    ∀ a, ipc_msgque_getPhyAddr (some info) a - info.syscmdbuf_dma = a - info.syscmdbuf_vir

/-- The `n` bytes of the send buffers from a physical address on. -/
def busBytes (info : IPC_MSQINFO) (addr : UINT32) (n : Nat) : List UInt8 :=
  bytes info.syscmdbuf (addr - info.syscmdbuf_dma).toNat n

/-- The check on the end address passes for every pair of bases. -/
theorem init_succeeds (garbage : IPC_MSQINFO) (vir bus : UINT32) :
    ∃ info, ipc_msgque_init none (some garbage) (some (vir,bus)) = (0,some info) ∧ info.syscmdbuf_vir = vir ∧
      info.syscmdbuf_dma = bus ∧ ∀ c, nextBuff info c = 0 := by
  have passes : (initSndMsgBuff vir garbage.sndmsg_buffTbl).1 - vir = ipc_calcNeddBuffSize := by
    simp only [initSndMsgBuff,List.finRange_succ,List.finRange_zero,List.map_nil,List.map_cons,List.foldl_cons,
      List.foldl_nil,UInt32.add_assoc]
    rw [UInt32.add_comm,UInt32.add_sub_cancel]
    rfl
  simp only [ipc_msgque_init,passes,ne_eq,not_true,if_false]
  refine ⟨_,rfl,rfl,rfl,fun c => ?_⟩
  obtain rfl | rfl | rfl : c = 0 ∨ c = 1 ∨ c = 2 := by omega
  all_goals rfl

section
variable {info : IPC_MSQINFO}

theorem slotByte_offset (placed : Placed info) (c : Fin 3) (k : Fin 2) (j : Fin 16) :
    (slotByte info c k j - info.syscmdbuf_vir).toNat = 32 * c.val + 16 * k.val + j.val := by
  rw [slotByte,placed,UInt32.add_assoc,UInt32.add_comm,UInt32.add_sub_cancel,UInt32.toNat_add,UInt32.toNat_ofNat',
    UInt32.toNat_ofNat']
  omega

theorem placed_tiles (placed : Placed info) : Tiles info := by
  have size : ipc_calcNeddBuffSize.toNat = 96 := rfl
  refine ⟨fun c k j c' k' j' same => ?_,fun a => ⟨?_,fun inside => ?_⟩⟩
  · have left := slotByte_offset placed c k j
    rw [same,slotByte_offset placed] at left
    omega
  · rintro ⟨c,k,j,rfl⟩
    rw [slotByte_offset placed]
    omega
  · rw [size] at inside
    generalize place : (a - info.syscmdbuf_vir).toNat = o at inside
    refine ⟨⟨o / 32,by omega⟩,⟨o / 16 % 2,by omega⟩,⟨o % 16,by omega⟩,?_⟩
    have same := slotByte_offset placed ⟨o / 32,by omega⟩ ⟨o / 16 % 2,by omega⟩ ⟨o % 16,by omega⟩
    have equal : (slotByte info ⟨o / 32,by omega⟩ ⟨o / 16 % 2,by omega⟩ ⟨o % 16,by omega⟩ - info.syscmdbuf_vir).toNat =
        (a - info.syscmdbuf_vir).toNat := by
      rw [same,place]
      simp only
      omega
    exact (UInt32.sub_left_inj _).mp (UInt32.toNat_inj.mp equal)

theorem sameOffsets (info : IPC_MSQINFO) : SameOffsets info := by
  refine ⟨fun a b same => (UInt32.sub_left_inj _).mp same,fun a => ?_⟩
  simp only [ipc_msgque_getPhyAddr]
  grind

/-- The message of a slot is behind its first word, at its physical address as well. -/
theorem message_offset (placed : Placed info) (c : Fin 3) (k : Fin 2) :
    (ipc_msgque_getPhyAddr (some info) ((info.sndmsg_buffTbl c).sndmsg k + 4) - info.syscmdbuf_dma).toNat =
      slotOffset info ((info.sndmsg_buffTbl c).sndmsg k) + 4 := by
  rw [(sameOffsets info).2,placed_offset placed]
  exact slotByte_offset placed c k 4

end

/-! ### Runs -/

/-- How far the sender to a destination is; `p` is the slot it got. -/
inductive Phase
  | free
  | locked (p : UINT32)
  | filled (p : UINT32)

structure Senders where
  info : IPC_MSQINFO
  phase : Fin 3 → Phase

inductive BuffEvent
  | lock (c : Fin 3) (p : UINT32)
  | fill (c : Fin 3) (p : UINT32) (payload : Mem) (size : UINT32)
  | unlock (c : Fin 3)

/-- At each destination a lock, a fill with at most twelve bytes, an unlock, and again. -/
inductive BuffStep : Senders → BuffEvent → Senders → Prop
  | lock {s : Senders} {info : IPC_MSQINFO} {sendTo p : UINT32} {c : Fin 3} {signal : Bool} :
      destination sendTo = some c → s.phase c = .free →
      ipc_msgque_lockSndMsgBuff (some s.info) sendTo signal = .returned (some p,some info) →
      BuffStep s (.lock c p) ⟨info,Function.update s.phase c (.locked p)⟩
  | fill {s : Senders} {sendTo p size : UINT32} {c : Fin 3} {payload : Mem} :
      destination sendTo = some c → s.phase c = .locked p → size.toNat ≤ 12 →
      BuffStep s (.fill c p payload size) ⟨fillSndMsg s.info p sendTo payload size,Function.update s.phase c (.filled p)⟩
  | unlock {s : Senders} {info : IPC_MSQINFO} {sendTo p : UINT32} {c : Fin 3} :
      destination sendTo = some c → s.phase c = .filled p →
      ipc_msgque_unlockSndMsgBuff (some s.info) sendTo = .returned (some info) →
      BuffStep s (.unlock c) ⟨info,Function.update s.phase c .free⟩

/-- The slot that a lock of a destination handed out. -/
def BuffEvent.slot (c : Fin 3) : BuffEvent → Option UINT32
  | .lock d p => if d = c then some p else none
  | _ => none

/-- The slots that the locks of a destination handed out, in order. -/
def locks (c : Fin 3) (es : List BuffEvent) : List UINT32 := es.filterMap (BuffEvent.slot c)

/-- A sender inside has the semaphore of its destination and the slot before the next one. -/
def Holds (info : IPC_MSQINFO) (c : Fin 3) : Phase → Prop
  | .free => (info.sndmsg_buffTbl c).semid = 1
  | .locked p | .filled p =>
    (info.sndmsg_buffTbl c).semid = 0 ∧ p = (info.sndmsg_buffTbl c).sndmsg (nextBuff info c).rev

structure Orderly (start : IPC_MSQINFO) (s : Senders) : Prop where
  vir : s.info.syscmdbuf_vir = start.syscmdbuf_vir
  dma : s.info.syscmdbuf_dma = start.syscmdbuf_dma
  slots : ∀ c, (s.info.sndmsg_buffTbl c).sndmsg = (start.sndmsg_buffTbl c).sndmsg
  holds : ∀ c, Holds s.info c (s.phase c)

theorem nextBuff_congr {info info' : IPC_MSQINFO} {c : Fin 3} (same : info'.sndmsg_buffTbl c = info.sndmsg_buffTbl c) :
    nextBuff info' c = nextBuff info c := by
  simp only [nextBuff,same]

theorem holds_congr {info info' : IPC_MSQINFO} {c : Fin 3} {phase : Phase}
    (same : info'.sndmsg_buffTbl c = info.sndmsg_buffTbl c) (holds : Holds info c phase) : Holds info' c phase := by
  cases phase <;> simpa only [Holds,nextBuff_congr same,same] using holds

theorem locks_snoc (c : Fin 3) (es : List BuffEvent) (e : BuffEvent) : locks c (es ++ [e]) = locks c es ++ locks c [e] :=
  List.filterMap_append ..

section
variable {start : IPC_MSQINFO} {s s' : Senders} {e : BuffEvent} {es : List BuffEvent}

theorem Orderly.placed (inv : Orderly start s) (placed : Placed start) : Placed s.info := by
  intro c k
  rw [inv.slots,inv.vir,placed]

/-- A new buffer at one destination, with the slots of the old one, that its sender holds. -/
theorem orderly_setBuff (inv : Orderly start s) {c : Fin 3} {b : IPC_SNDMSG_BUFF} {phase : Phase}
    (slots : b.sndmsg = (s.info.sndmsg_buffTbl c).sndmsg) (holds : Holds (setBuff s.info c b) c phase) :
    Orderly start ⟨setBuff s.info c b,Function.update s.phase c phase⟩ := by
  refine ⟨inv.vir,inv.dma,fun d => ?_,fun d => ?_⟩
  all_goals by_cases same : d = c
  · subst same
    rw [← inv.slots,setBuff_same,slots]
  · rw [← inv.slots,setBuff_other same]
  · subst same
    simp only [Function.update_self]
    exact holds
  · simp only [Function.update_of_ne same]
    exact holds_congr (setBuff_other same _ _) (inv.holds d)

/-- A step keeps the order, and a lock hands out the next slot. -/
theorem orderly_step (inv : Orderly start s) (step : BuffStep s e s') : Orderly start s' ∧
    ∀ d, locks d [e] = [] ∧ nextBuff s'.info d = nextBuff s.info d ∨
      locks d [e] = [(start.sndmsg_buffTbl d).sndmsg (nextBuff s.info d)] ∧
        nextBuff s'.info d = (nextBuff s.info d).rev := by
  cases step with
  | @lock info sendTo p c signal at_c free called =>
    obtain ⟨c',semid,at_c',taken,given,after⟩ := lock_returned called
    cases at_c.symm.trans at_c'
    cases given
    have held := inv.holds c
    rw [free,Holds] at held
    rw [held] at taken
    cases taken
    cases after
    refine ⟨orderly_setBuff inv (lockedBuff_sndmsg ..) ?_,fun d => ?_⟩
    · simp only [Holds,nextBuff_locked,Fin.rev_rev,setBuff_same,lockedBuff_semid,lockedBuff_sndmsg,and_self]
    · by_cases same : d = c
      · subst same
        exact .inr ⟨by simp [locks,BuffEvent.slot,inv.slots],nextBuff_locked s.info d 0⟩
      · exact .inl ⟨by simp [locks,BuffEvent.slot,Ne.symm same],nextBuff_congr (setBuff_other same _ _)⟩
  | @fill sendTo p size c payload at_c locked small =>
    refine ⟨⟨inv.vir,inv.dma,inv.slots,fun d => ?_⟩,fun d => .inl ⟨rfl,rfl⟩⟩
    by_cases same : d = c
    · subst same
      have held := inv.holds d
      rw [locked] at held
      simp only [Function.update_self]
      exact held
    · simp only [Function.update_of_ne same]
      exact inv.holds d
  | @unlock info sendTo p c at_c filled called =>
    rw [unlock_some at_c] at called
    cases called
    have held := inv.holds c
    rw [filled,Holds] at held
    refine ⟨orderly_setBuff inv rfl ?_,fun d => .inl ⟨rfl,?_⟩⟩
    · simp only [Holds,setBuff_same,held.1]
    · by_cases same : d = c
      · subst same
        simp only [nextBuff,setBuff_same]
      · exact nextBuff_congr (setBuff_other same _ _)

theorem orderly_start (free : ∀ c, (start.sndmsg_buffTbl c).semid = 1) : Orderly start ⟨start,fun _ => .free⟩ :=
  ⟨rfl,rfl,fun _ => rfl,free⟩

theorem orderly_run (inv : Orderly start s) (run : Run BuffStep s es s') : Orderly start s' :=
  run.preserves inv fun _ _ _ orderly step => (orderly_step orderly step).1

private theorem turn_succ (k : Fin 2) (n : Nat) : (k + Fin.ofNat 2 n).rev = k + Fin.ofNat 2 (n + 1) := by
  apply Fin.ext
  simp only [Fin.ofNat,Fin.val_add,Fin.val_rev]
  omega

/-- The locks of a destination hand out its two slots in turn. -/
theorem locks_alternate (inv : Orderly start s) (c : Fin 3) (run : Run BuffStep s es s') :
    nextBuff s'.info c = nextBuff s.info c + Fin.ofNat 2 (locks c es).length ∧
      locks c es = (List.range (locks c es).length).map fun n =>
        (start.sndmsg_buffTbl c).sndmsg (nextBuff s.info c + Fin.ofNat 2 n) := by
  refine (run.invariant (I := fun es t => Orderly start t ∧ nextBuff t.info c = nextBuff s.info c + Fin.ofNat 2 (locks c es).length ∧
    locks c es = (List.range (locks c es).length).map fun n =>
      (start.sndmsg_buffTbl c).sndmsg (nextBuff s.info c + Fin.ofNat 2 n)) ?_ ?_).2
  · exact ⟨inv,by simp [locks],rfl⟩
  · rintro es t e u _ ⟨orderly,turn,listed⟩ step
    obtain ⟨orderly',moved⟩ := orderly_step orderly step
    refine ⟨orderly',?_⟩
    rw [locks_snoc]
    rcases moved c with ⟨none,same⟩ | ⟨one,next⟩
    · rw [none,List.append_nil,same]
      exact ⟨turn,listed⟩
    · rw [one,List.length_append,List.length_singleton,next,turn]
      refine ⟨turn_succ _ _,?_⟩
      rw [List.range_succ,List.map_append,← listed]
      rfl

/-- A destination whose sender is outside can be locked at once. -/
theorem free_locks (inv : Orderly start s) {c : Fin 3} (free : s.phase c = .free) {sendTo : UINT32}
    (at_c : destination sendTo = some c) (signal : Bool) :
    ∃ p info, ipc_msgque_lockSndMsgBuff (some s.info) sendTo signal = .returned (some p,some info) := by
  have held := inv.holds c
  rw [free,Holds] at held
  rw [lock_eq s.info at_c,held]
  exact ⟨_,_,rfl⟩

/-! ### Published messages -/

/-- A message in slot `k` of a destination while `after` happens: the next lock
    takes the other slot, and until then no sender is about to write. -/
structure Kept (start : IPC_MSQINFO) (c : Fin 3) (k : Fin 2) (payload : Mem) (size : UINT32) (after : List BuffEvent)
    (s : Senders) : Prop where
  orderly : Orderly start s
  turn : nextBuff s.info c = k.rev + Fin.ofNat 2 (locks c after).length
  idle : locks c after = [] → ∀ p, s.phase c ≠ .locked p
  message : bytes s.info.syscmdbuf (32 * c.val + 16 * k.val + 4) size.toNat = bytes payload 0 size.toNat

theorem kept_step {c : Fin 3} {k : Fin 2} {payload : Mem} {size : UINT32} (placed : Placed start) (small : size.toNat ≤ 12)
    (kept : Kept start c k payload size es s) (step : BuffStep s e s') (few : (locks c (es ++ [e])).length ≤ 1) :
    Kept start c k payload size (es ++ [e]) s' := by
  obtain ⟨orderly,moved⟩ := orderly_step kept.orderly step
  have turn : nextBuff s'.info c = k.rev + Fin.ofNat 2 (locks c (es ++ [e])).length := by
    rw [locks_snoc,List.length_append]
    rcases moved c with ⟨none,same⟩ | ⟨one,next⟩
    · rw [none,same,kept.turn]
      rfl
    · rw [one,next,kept.turn,List.length_singleton,turn_succ]
  rw [locks_snoc,List.length_append] at few
  have before (none : locks c (es ++ [e]) = []) : ∀ q, s.phase c ≠ .locked q := by
    rw [locks_snoc] at none
    exact kept.idle (List.append_eq_nil_iff.mp none).1
  cases step with
  | @lock info sendTo p d signal at_d free called =>
    refine ⟨orderly,turn,fun none q inside => ?_,?_⟩
    · by_cases same : c = d
      · subst same
        simp [locks,BuffEvent.slot] at none
      · simp only [Function.update_of_ne same] at inside
        exact before none q inside
    · obtain ⟨_,_,_,_,_,after⟩ := lock_returned called
      cases after
      exact kept.message
  | @fill sendTo p size' d payload' at_d locked small' =>
    have held := kept.orderly.holds d
    rw [locked,Holds,kept.orderly.slots] at held
    have own : slotOffset s.info p = 32 * d.val + 16 * (nextBuff s.info d).rev.val := by
      rw [held.2,← kept.orderly.slots]
      exact placed_offset (kept.orderly.placed placed) d _
    -- a fill of the same destination is after its next lock, so it has the other slot
    have other : d = c → (nextBuff s.info d).rev.val ≠ k.val := by
      rintro rfl
      have some : (locks d es).length ≠ 0 := fun none => kept.idle (List.length_eq_zero_iff.mp none) p locked
      have one : (locks d es).length = 1 := by omega
      rw [kept.turn,one]
      simp only [Fin.ofNat,Fin.val_add,Fin.val_rev]
      omega
    refine ⟨orderly,turn,fun none q inside => ?_,?_⟩
    · by_cases same : c = d
      · subst same
        simp at inside
      · simp only [Function.update_of_ne same] at inside
        exact before none q inside
    · rw [← kept.message]
      refine bytes_congr fun j within => fill_outside _ _ _ _ _ ?_
      rw [own]
      omega
  | @unlock info sendTo p d at_d filled called =>
    rw [unlock_some at_d] at called
    cases called
    refine ⟨orderly,turn,fun none q inside => ?_,kept.message⟩
    by_cases same : c = d
    · subst same
      simp at inside
    · simp only [Function.update_of_ne same] at inside
      exact before none q inside

/-- A fill stores its payload in the slot that its lock handed out. -/
theorem filled_kept {c : Fin 3} {p size : UINT32} {payload : Mem} (placed : Placed start) (inv : Orderly start s)
    (step : BuffStep s (.fill c p payload size) s') :
    size.toNat ≤ 12 ∧ ∃ k, p = (start.sndmsg_buffTbl c).sndmsg k ∧ Kept start c k payload size [] s' := by
  obtain ⟨orderly,_⟩ := orderly_step inv step
  cases step with
  | @fill sendTo _ _ _ _ at_c locked small =>
    have held := inv.holds c
    rw [locked,Holds,inv.slots] at held
    have own : slotOffset s.info p = 32 * c.val + 16 * (nextBuff s.info c).rev.val := by
      rw [held.2,← inv.slots]
      exact placed_offset (inv.placed placed) c _
    refine ⟨small,(nextBuff s.info c).rev,held.2,orderly,?_,fun _ q inside => ?_,?_⟩
    · have same : nextBuff (fillSndMsg s.info p sendTo payload size) c = nextBuff s.info c := nextBuff_congr rfl
      have turns : nextBuff s.info c = (nextBuff s.info c).rev.rev + Fin.ofNat 2 0 := by
        apply Fin.ext
        simp only [Fin.ofNat,Fin.val_add,Fin.rev_rev]
        omega
      exact same.trans turns
    · simp at inside
    · rw [← own]
      exact fill_payload s.info p sendTo size payload

/-- A message stays at its physical address up to the second lock after its own. -/
theorem published_kept {c : Fin 3} {p size : UINT32} {payload : Mem} {after : List BuffEvent} (placed : Placed start)
    (inv : Orderly start s) (run : Run BuffStep s (.fill c p payload size :: after) s') (few : (locks c after).length ≤ 1) :
    busBytes s'.info (ipc_msgque_getPhyAddr (some s'.info) (p + 4)) size.toNat = bytes payload 0 size.toNat := by
  obtain ⟨t,filled,rest⟩ := run.first
  obtain ⟨small,k,rfl,kept⟩ := filled_kept placed inv filled
  have still := rest.invariant (I := fun es u => (locks c es).length ≤ 1 → Kept start c k payload size es u)
    (fun _ => kept) (fun es u e v _ ih step few => kept_step placed small (ih (by
      rw [locks_snoc,List.length_append] at few
      omega)) step few) few
  rw [busBytes,← still.orderly.slots,message_offset (still.orderly.placed placed),placed_offset (still.orderly.placed placed)]
  exact still.message

end

/-- For every pair of bases: initialisation succeeds, the six slots tile the
    region, physical addresses keep the offsets, a free destination can be locked
    and its locks alternate between its two slots, and every message stays at its
    physical address up to the second lock of its destination after its own. -/
theorem ping_pong (garbage : IPC_MSQINFO) (vir bus : UINT32) :
    ∃ info, ipc_msgque_init none (some garbage) (some (vir,bus)) = (0,some info) ∧
      info.syscmdbuf_vir = vir ∧ info.syscmdbuf_dma = bus ∧ Tiles info ∧
      ∀ es s, Run BuffStep ⟨info,fun _ => .free⟩ es s →
        s.info.syscmdbuf_vir = vir ∧ s.info.syscmdbuf_dma = bus ∧ SameOffsets s.info ∧
        (∀ c sendTo signal, s.phase c = .free → destination sendTo = some c →
          ∃ p info, ipc_msgque_lockSndMsgBuff (some s.info) sendTo signal = .returned (some p,some info)) ∧
        (∀ c, locks c es = (List.range (locks c es).length).map fun n => (info.sndmsg_buffTbl c).sndmsg (Fin.ofNat 2 n)) ∧
        ∀ c p payload size after s', Run BuffStep s (.fill c p payload size :: after) s' → (locks c after).length ≤ 1 →
          busBytes s'.info (ipc_msgque_getPhyAddr (some s'.info) (p + 4)) size.toNat = bytes payload 0 size.toNat := by
  obtain ⟨info,called,atVir,atDma,first⟩ := init_succeeds garbage vir bus
  obtain ⟨placed,free⟩ := init_placed called
  refine ⟨info,called,atVir,atDma,placed_tiles placed,fun es s run => ?_⟩
  have inv := orderly_run (orderly_start free) run
  refine ⟨inv.vir.trans atVir,inv.dma.trans atDma,sameOffsets s.info,fun c sendTo signal outside at_c =>
    free_locks inv outside at_c signal,fun c => ?_,fun c p payload size after s' more few => published_kept placed inv more few⟩
  have alternate := (locks_alternate (orderly_start free) c run).2
  simp only [first c,Fin.zero_add] at alternate
  exact alternate

end IpcMsq.PingPong
