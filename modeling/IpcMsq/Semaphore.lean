import IpcMsq.SendBuff
import IpcMsq.KeyMap
import Mathlib.Data.Finset.Card

/-!
Any number of senders to one destination. The semaphore and the senders inside
are one together as long as no signal ends a wait: `ipc_msgque_lockSndMsgBuff`
drops the result of `down_interruptible`, so each such wait lets one sender more
inside than the semaphore counts.
-/
namespace IpcMsq.Semaphore
open IpcMsq.Common IpcMsq.Table IpcMsq.SendBuff IpcMsq.Runs IpcMsq.KeyMap

variable {Sender : Type} [DecidableEq Sender]

/-- `holding` are the senders between a lock that returned and their unlock. -/
structure Senders (Sender : Type) where
  info : IPC_MSQINFO
  holding : Finset Sender

inductive SenderEvent (Sender : Type)
  | lock (x : Sender) (signal : Bool)
  | unlock (x : Sender)

/-- A lock returns to a sender outside, or a sender inside unlocks. -/
inductive SenderStep (sendTo : UINT32) : Senders Sender → SenderEvent Sender → Senders Sender → Prop
  | lock {s : Senders Sender} {x : Sender} {signal : Bool} {p : Option UINT32} {info : IPC_MSQINFO} :
      x ∉ s.holding → ipc_msgque_lockSndMsgBuff (some s.info) sendTo signal = .returned (p,some info) →
      SenderStep sendTo s (.lock x signal) { info := info, holding := insert x s.holding }
  | unlock {s : Senders Sender} {x : Sender} {info : IPC_MSQINFO} :
      x ∈ s.holding → ipc_msgque_unlockSndMsgBuff (some s.info) sendTo = .returned (some info) →
      SenderStep sendTo s (.unlock x) { info := info, holding := s.holding.erase x }

/-- The semaphore and the senders inside are one together. -/
def Balanced (c : Fin 3) (s : Senders Sender) : Prop := (s.info.sndmsg_buffTbl c).semid + s.holding.card = 1

/-- A signal comes only where nobody has to wait. -/
def Uninterrupted (c : Fin 3) (s : Senders Sender) : SenderEvent Sender → Prop
  | .lock _ signal => signal = true → 0 < (s.info.sndmsg_buffTbl c).semid
  | .unlock _ => True

/-- A step keeps the balance exactly if it is not an interrupted lock. -/
theorem balanced_step {sendTo : UINT32} {c : Fin 3} (dest : destination sendTo = some c) {s s' : Senders Sender}
    {e : SenderEvent Sender} (balanced : Balanced c s) (step : SenderStep sendTo s e s') :
    Balanced c s' ↔ Uninterrupted c s e := by
  simp only [Balanced] at balanced ⊢
  cases step with
  | @lock x signal p info outside called =>
    obtain ⟨c',semid,dest',taken,_,after⟩ := lock_returned called
    cases dest.symm.trans dest'
    cases after
    rw [setBuff_same,lockedBuff_semid,Finset.card_insert_of_notMem outside,Uninterrupted]
    cases free : (s.info.sndmsg_buffTbl c).semid with
    | zero =>
      rw [free] at taken balanced
      cases signal with
      | false => simp [down_interruptible] at taken
      | true =>
        simp only [down_interruptible,if_true,Outcome.returned.injEq] at taken
        refine iff_of_false ?_ fun waits => absurd (waits rfl) (by omega)
        omega
    | succ rest =>
      rw [free] at taken balanced
      simp only [down_interruptible,Outcome.returned.injEq] at taken
      refine iff_of_true ?_ fun _ => Nat.succ_pos rest
      omega
  | @unlock x info inside called =>
    rw [unlock_some dest] at called
    cases called
    have some := Finset.card_pos.mpr ⟨x,inside⟩
    rw [setBuff_same,Finset.card_erase_of_mem inside]
    refine iff_of_true ?_ trivial
    simp only
    omega

/-- After `ipc_msgque_init`, the balance holds in every state of a run exactly if
    no signal ends a wait, and then at most one sender holds a buffer. -/
theorem exclusive_iff {kmalloc : Option IPC_MSQINFO} {dma : Option (UINT32 × UINT32)} {ret : INT32} {info : IPC_MSQINFO}
    (called : ipc_msgque_init none kmalloc dma = (ret,some info)) {sendTo : UINT32} {c : Fin 3}
    (dest : destination sendTo = some c) {es : List (SenderEvent Sender)} {s : Senders Sender} :
    (Run (Into (SenderStep sendTo) (Balanced c)) ⟨info,∅⟩ es s ↔
      Run (Guarded (SenderStep sendTo) (Uninterrupted c)) ⟨info,∅⟩ es s) ∧
    (Run (Guarded (SenderStep sendTo) (Uninterrupted c)) ⟨info,∅⟩ es s → Balanced c s ∧ s.holding.card ≤ 1) := by
  have start : Balanced c (⟨info,∅⟩ : Senders Sender) := by
    rw [Balanced,(init_placed called).2 c,Finset.card_empty]
  refine ⟨Run.guarded_iff start (fun _ _ _ => balanced_step dest) ?_,fun run => ?_⟩
  · exact fun t e u balanced step => (balanced_step dest balanced step).mpr
  · have balanced := run.preserves start fun t e u balanced next => (balanced_step dest balanced next.1).mpr next.2
    refine ⟨balanced,?_⟩
    rw [Balanced] at balanced
    omega

/-- A lock that takes the semaphore, or is interrupted, as a step. -/
theorem lock_step {sendTo : UINT32} {c : Fin 3} (dest : destination sendTo = some c) {s : Senders Sender} {x : Sender}
    (outside : x ∉ s.holding) {signal : Bool} {semid : Nat}
    (taken : down_interruptible (s.info.sndmsg_buffTbl c).semid signal = .returned semid) :
    SenderStep sendTo s (.lock x signal)
      { info := setBuff s.info c (lockedBuff s.info c semid), holding := insert x s.holding } :=
  .lock outside (by rw [lock_eq s.info dest,taken]; rfl)

/-- The first lock takes the semaphore: one sender inside, none left to take. -/
theorem exclusive_iff_first_lock : ∃ info s, booted = some info ∧
    Run (SenderStep IPC_SENDTO_CORE1) (⟨info,∅⟩ : Senders Nat) [.lock 7 false] s ∧ s.holding = {7} ∧ Balanced 0 s := by
  obtain ⟨kmalloc,dma,called⟩ := booted_started
  obtain ⟨info,boot,_⟩ := started_spec booted_started
  rw [boot] at called
  have free := (init_placed called).2 0
  have step : SenderStep IPC_SENDTO_CORE1 (⟨info,∅⟩ : Senders Nat) (.lock 7 false) _ :=
    lock_step (c := 0) rfl (Finset.notMem_empty 7) (by rw [free]; rfl)
  exact ⟨info,_,boot,.one step,rfl,
    ((exclusive_iff called rfl).2 (.one ⟨step,fun signalled => absurd signalled (by decide)⟩)).1⟩

/-- Sender 7 has a buffer, sender 8 waits for one and a signal arrives: both are inside. -/
theorem two_senders_inside : ∃ info s, booted = some info ∧
    Run (SenderStep IPC_SENDTO_CORE1) (⟨info,∅⟩ : Senders Nat) [.lock 7 false,.lock 8 true] s ∧
    s.holding = {8,7} ∧ s.holding.card = 2 ∧ ¬ Balanced 0 s := by
  obtain ⟨kmalloc,dma,called⟩ := booted_started
  obtain ⟨info,boot,_⟩ := started_spec booted_started
  rw [boot] at called
  have free := (init_placed called).2 0
  have first : SenderStep IPC_SENDTO_CORE1 (⟨info,∅⟩ : Senders Nat) (.lock 7 false) _ :=
    lock_step (c := 0) rfl (Finset.notMem_empty 7) (by rw [free]; rfl)
  have second : SenderStep IPC_SENDTO_CORE1 (⟨setBuff info 0 (lockedBuff info 0 0),{7}⟩ : Senders Nat) (.lock 8 true) _ :=
    lock_step (c := 0) rfl (show 8 ∉ ({7} : Finset Nat) by decide)
      (show down_interruptible 0 true = .returned 0 from rfl)
  refine ⟨info,_,boot,(Run.one first).snoc second,rfl,rfl,?_⟩
  rw [Balanced]
  simp [lockedBuff]

end IpcMsq.Semaphore
