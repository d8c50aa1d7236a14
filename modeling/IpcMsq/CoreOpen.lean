import IpcMsq.Bits
import IpcMsq.Handlers
import IpcMsq.Spinlock

/-!
Opening and closing the core communicator of `ipc-cc.c`, under the spinlock of the
device. The label that a close unlocks behind stands inside its switch, so a `break`
leaves the switch past it: a close on any core that the switch knows keeps the lock.
-/
namespace IpcMsq.CoreOpen
open IpcMsq.Common IpcMsq.Communicator IpcMsq.Runs IpcMsq.Spinlock IpcMsq.Bits
open Handlers (CC_CPU2_INTEN_REG_OFS)
open IPC_CC_CORE_T

/-- A call chain on the device, with its `lock`. -/
abbrev CcChain := Spin IPC_CC_DEV_T

/-- The fields of a status register and of an enable register, by their bit. -/
@[simp] abbrev ack_from_cpu1 : Nat := 16
@[simp] abbrev ack_from_cpu2 : Nat := 17
@[simp] abbrev ack_from_dsp : Nat := 18
@[simp] abbrev event_from_cpu1_inten : Nat := 0
@[simp] abbrev event_from_cpu2_inten : Nat := 1
@[simp] abbrev event_from_dsp_inten : Nat := 2

def ipc_cc_open : CcChain INT32 := do
  spin_lock
  let dd ← shared
  let ret ← match dd.running_core with
    | IPC_CC_CORE_CPU1 => pure 0
    | IPC_CC_CORE_CPU2 =>
      let cpux_sts := ipc_cc_read dd CC_CPU2_STS_REG_OFS
      let cpux_sts := setBit cpux_sts ack_from_cpu1 false
      let cpux_sts := setBit cpux_sts ack_from_cpu2 false
      let cpux_sts := setBit cpux_sts ack_from_dsp false
      store (ipc_cc_write dd CC_CPU2_STS_REG_OFS cpux_sts)
      let dd ← shared
      let cpux_inten := ipc_cc_read dd CC_CPU2_INTEN_REG_OFS
      let cpux_inten := setBit cpux_inten event_from_cpu1_inten true
      let cpux_inten := setBit cpux_inten event_from_cpu2_inten false
      let cpux_inten := setBit cpux_inten event_from_dsp_inten true
      store (ipc_cc_write dd CC_CPU2_INTEN_REG_OFS cpux_inten)
      pure 0
    | IPC_CC_CORE_DSP => pure 0
    | IPC_CC_CORE_MAX => pure (-1)
  spin_unlock
  return ret

/-- Only `default` reaches the label that unlocks. The case of `CPU2` falls into the
    next one, which is read as that of `DSP`. -/
def ipc_cc_close : CcChain Unit := do
  spin_lock
  let dd ← shared
  match dd.running_core with
  | IPC_CC_CORE_CPU1 => return
  | IPC_CC_CORE_CPU2 =>
    let cpux_inten := ipc_cc_read dd CC_CPU2_INTEN_REG_OFS
    let cpux_inten := setBit cpux_inten event_from_cpu1_inten false
    let cpux_inten := setBit cpux_inten event_from_dsp_inten false
    store (ipc_cc_write dd CC_CPU2_INTEN_REG_OFS cpux_inten)
    return
  | IPC_CC_CORE_DSP => return
  | IPC_CC_CORE_MAX => spin_unlock

inductive CcCall
  | ipc_cc_open | ipc_cc_close
deriving DecidableEq

/-- A call that returns, with the device and its lock before and after it. -/
def CcStep (t : IPC_CC_DEV_T × Bool) : CcCall → IPC_CC_DEV_T × Bool → Prop
  | .ipc_cc_open, u => ∃ ret, ipc_cc_open.run t = some (ret,u)
  | .ipc_cc_close, u => ipc_cc_close.run t = some ((),u)

/-- The value that a call on `CPU2` is to give a bit of a register: an open clears the
    acks and enables the events of the other two cores, a close disables all events. -/
def ownBit (call : CcCall) (ofs : UINT32) (k : Nat) : Option Bool :=
  match call with
  | .ipc_cc_open =>
    if ofs = CC_CPU2_STS_REG_OFS ∧ (k = ack_from_cpu1 ∨ k = ack_from_cpu2 ∨ k = ack_from_dsp) then some false
    else if ofs = CC_CPU2_INTEN_REG_OFS then
      if k = event_from_cpu1_inten ∨ k = event_from_dsp_inten then some true
      else if k = event_from_cpu2_inten then some false
      else none
    else none
  | .ipc_cc_close =>
    if ofs = CC_CPU2_INTEN_REG_OFS ∧ (k = event_from_cpu1_inten ∨ k = event_from_cpu2_inten ∨ k = event_from_dsp_inten) then
      some false
    else none

/-- On `CPU2` these bits have that value afterwards, and every other bit of every
    register is as before, also on the other cores. -/
def OwnBits (call : CcCall) (dd dd' : IPC_CC_DEV_T) : Prop :=
  dd'.running_core = dd.running_core ∧ ∀ ofs k, bit (dd'.regs ofs) k =
    if dd.running_core = IPC_CC_CORE_CPU2 then (ownBit call ofs k).getD (bit (dd.regs ofs) k) else bit (dd.regs ofs) k

/-- The call gives the lock back and touches its own bits only. -/
def Repeatable (t : IPC_CC_DEV_T × Bool) (call : CcCall) (u : IPC_CC_DEV_T × Bool) : Prop :=
  u.2 = false ∧ OwnBits call t.1 u.1

section
variable {dd : IPC_CC_DEV_T}

/-- The register that a write leaves, bit by bit. -/
theorem write_bit (ofs data ofs' : UINT32) (k : Nat) :
    bit ((ipc_cc_write dd ofs data).regs ofs') k = if ofs' = ofs then bit data k else bit (dd.regs ofs') k := by
  by_cases own : ofs' = ofs
  · simp [ipc_cc_write,own]
  · simp [ipc_cc_write,own]

/-- The status register after an open. -/
theorem clearAcks_bit (reg : UINT32) (k : Nat) :
    bit (setBit (setBit (setBit reg ack_from_cpu1 false) ack_from_cpu2 false) ack_from_dsp false) k =
      (ownBit .ipc_cc_open CC_CPU2_STS_REG_OFS k).getD (bit reg k) := by
  rw [bit_setBit (by decide),bit_setBit (by decide),bit_setBit (by decide)]
  by_cases own : k = ack_from_cpu1 ∨ k = ack_from_cpu2 ∨ k = ack_from_dsp
  · rcases own with rfl | rfl | rfl <;> rfl
  · obtain ⟨cpu1,cpu2,dsp⟩ := not_or.mp own |>.imp_right not_or.mp
    simp [ownBit,cpu1,cpu2,dsp]

/-- The enable register after an open. -/
theorem enableEvents_bit (reg : UINT32) (k : Nat) :
    bit (setBit (setBit (setBit reg event_from_cpu1_inten true) event_from_cpu2_inten false) event_from_dsp_inten true) k =
      (ownBit .ipc_cc_open CC_CPU2_INTEN_REG_OFS k).getD (bit reg k) := by
  rw [bit_setBit (by decide),bit_setBit (by decide),bit_setBit (by decide)]
  by_cases own : k = event_from_cpu1_inten ∨ k = event_from_cpu2_inten ∨ k = event_from_dsp_inten
  · rcases own with rfl | rfl | rfl <;> rfl
  · obtain ⟨cpu1,cpu2,dsp⟩ := not_or.mp own |>.imp_right not_or.mp
    simp [ownBit,cpu1,cpu2,dsp]

/-- The enable register after a close: its second bit is as before. -/
theorem disableEvents_bit (reg : UINT32) (k : Nat) :
    bit (setBit (setBit reg event_from_cpu1_inten false) event_from_dsp_inten false) k =
      if k = event_from_cpu2_inten then bit reg k else (ownBit .ipc_cc_close CC_CPU2_INTEN_REG_OFS k).getD (bit reg k) := by
  rw [bit_setBit (by decide),bit_setBit (by decide)]
  by_cases own : k = event_from_cpu1_inten ∨ k = event_from_cpu2_inten ∨ k = event_from_dsp_inten
  · rcases own with rfl | rfl | rfl <;> rfl
  · obtain ⟨cpu1,cpu2,dsp⟩ := not_or.mp own |>.imp_right not_or.mp
    simp [ownBit,cpu1,cpu2,dsp]

/-- No other register has a bit of these calls. -/
theorem ownBit_other {ofs : UINT32} (sts : ofs ≠ CC_CPU2_STS_REG_OFS) (inten : ofs ≠ CC_CPU2_INTEN_REG_OFS) (call : CcCall)
    (k : Nat) : ownBit call ofs k = none := by
  cases call with
  | ipc_cc_open => simp only [ownBit,sts,inten,false_and,if_false]
  | ipc_cc_close => simp only [ownBit,inten,false_and,if_false]

/-- Where the core is not `CPU2`, the registers stay. -/
theorem ownBits_idle (call : CcCall) (other : dd.running_core ≠ IPC_CC_CORE_CPU2) : OwnBits call dd dd :=
  ⟨rfl,fun _ _ => (if_neg other).symm⟩

/-- An open returns with the lock free. -/
theorem open_spec (dd : IPC_CC_DEV_T) : ∃ ret dd', ipc_cc_open.run (dd,false) = some (ret,(dd',false)) ∧
    OwnBits .ipc_cc_open dd dd' := by
  simp only [ipc_cc_open,bind_run (spin_lock_free _),bind_run (shared_run _ _)]
  cases running : dd.running_core with
  | IPC_CC_CORE_CPU1 => exact ⟨0,dd,rfl,ownBits_idle _ (by simp [running])⟩
  | IPC_CC_CORE_CPU3 => exact ⟨0,dd,rfl,ownBits_idle _ (by simp [running])⟩
  | IPC_CC_CORE_MAX => exact ⟨-1,dd,rfl,ownBits_idle _ (by simp [running])⟩
  | IPC_CC_CORE_CPU2 =>
    refine ⟨0,_,rfl,rfl,fun ofs k => ?_⟩
    rw [if_pos running,write_bit,write_bit,enableEvents_bit,clearAcks_bit]
    by_cases inten : ofs = CC_CPU2_INTEN_REG_OFS
    · rw [if_pos inten,inten]
      rfl
    · rw [if_neg inten]
      by_cases sts : ofs = CC_CPU2_STS_REG_OFS
      · rw [if_pos sts,sts]
        rfl
      · rw [if_neg sts,ownBit_other sts inten,Option.getD_none]

/-- A close returns with the lock held, except from `default`, and leaves the event of
    `CPU2` as it was. -/
theorem close_spec (dd : IPC_CC_DEV_T) : ∃ dd',
    ipc_cc_close.run (dd,false) = some ((),(dd',decide (dd.running_core ≠ IPC_CC_CORE_MAX))) ∧
    (OwnBits .ipc_cc_close dd dd' ↔
      (dd.running_core = IPC_CC_CORE_CPU2 → bit (dd.regs CC_CPU2_INTEN_REG_OFS) event_from_cpu2_inten = false)) := by
  simp only [ipc_cc_close,bind_run (spin_lock_free _),bind_run (shared_run _ _)]
  cases running : dd.running_core with
  | IPC_CC_CORE_CPU1 => exact ⟨dd,rfl,iff_of_true (ownBits_idle _ (by simp [running])) nofun⟩
  | IPC_CC_CORE_CPU3 => exact ⟨dd,rfl,iff_of_true (ownBits_idle _ (by simp [running])) nofun⟩
  | IPC_CC_CORE_MAX => exact ⟨dd,rfl,iff_of_true (ownBits_idle _ (by simp [running])) nofun⟩
  | IPC_CC_CORE_CPU2 =>
    refine ⟨_,rfl,fun own _ => ?_,fun off => ⟨rfl,fun ofs k => ?_⟩⟩
    · have second := own.2 CC_CPU2_INTEN_REG_OFS event_from_cpu2_inten
      rw [if_pos running,write_bit,if_pos rfl,disableEvents_bit,if_pos rfl] at second
      exact second
    · rw [if_pos running,write_bit]
      by_cases inten : ofs = CC_CPU2_INTEN_REG_OFS
      · rw [if_pos inten,inten,disableEvents_bit]
        by_cases second : k = event_from_cpu2_inten
        · rw [if_pos second,second]
          exact off rfl
        · rw [if_neg second]
          rfl
      · rw [if_neg inten]
        by_cases sts : ofs = CC_CPU2_STS_REG_OFS
        · rw [sts]
          rfl
        · rw [ownBit_other sts inten,Option.getD_none]

/-- A call on a held lock does not return. -/
theorem held_blocks (dd : IPC_CC_DEV_T) (call : CcCall) (u : IPC_CC_DEV_T × Bool) : ¬ CcStep (dd,true) call u := by
  cases call with
  | ipc_cc_open =>
    rintro ⟨_,returned⟩
    rw [ipc_cc_open,bind_stuck (spin_lock_held _)] at returned
    cases returned
  | ipc_cc_close =>
    intro returned
    rw [CcStep,ipc_cc_close,bind_stuck (spin_lock_held _)] at returned
    cases returned

/-- A call on a free lock returns. -/
theorem call_spec (dd : IPC_CC_DEV_T) (call : CcCall) : ∃ u, CcStep (dd,false) call u ∧
    (u.2 = false ↔ call = .ipc_cc_open ∨ dd.running_core = IPC_CC_CORE_MAX) ∧
    (OwnBits call dd u.1 ↔ (call = .ipc_cc_close → dd.running_core = IPC_CC_CORE_CPU2 →
      bit (dd.regs CC_CPU2_INTEN_REG_OFS) event_from_cpu2_inten = false)) := by
  cases call with
  | ipc_cc_open =>
    obtain ⟨ret,dd',returned,own⟩ := open_spec dd
    exact ⟨_,⟨ret,returned⟩,by simp,iff_of_true own nofun⟩
  | ipc_cc_close =>
    obtain ⟨dd',returned,own⟩ := close_spec dd
    exact ⟨_,returned,by simp,by simpa using own⟩

theorem ccStep_unique {t u u' : IPC_CC_DEV_T × Bool} {call : CcCall} (one : CcStep t call u) (two : CcStep t call u') : u = u' := by
  cases call with
  | ipc_cc_open =>
    obtain ⟨_,one⟩ := one
    obtain ⟨_,two⟩ := two
    cases one.symm.trans two
    rfl
  | ipc_cc_close =>
    cases one.symm.trans two
    rfl

/-- On a core that the switch knows, the calls that give the lock back are the opens. -/
theorem repeatable_iff {t u : IPC_CC_DEV_T × Bool} {call : CcCall} (supported : t.1.running_core ≠ IPC_CC_CORE_MAX)
    (step : CcStep t call u) : Repeatable t call u ↔ call = .ipc_cc_open := by
  obtain ⟨dd,_ | _⟩ := t
  · obtain ⟨u',step',free,own⟩ := call_spec dd call
    cases ccStep_unique step step'
    rw [Repeatable,free,own]
    constructor
    · rintro ⟨opens | max,_⟩
      · exact opens
      · exact absurd max supported
    · rintro rfl
      exact ⟨.inl rfl,nofun⟩
  · exact absurd step (held_blocks dd call u)

end

/-- For every content of the registers and every core that the switches know: a call on
    a free lock returns, with the lock free exactly if it is an open, and touches its
    own bits only, but for a close on `CPU2` that finds the event of `CPU2` enabled. So
    the calls of a run are all as they should be exactly if none is a close, and no
    call on a held lock returns. -/
theorem cycles_iff {dd : IPC_CC_DEV_T} (supported : dd.running_core ≠ IPC_CC_CORE_MAX) :
    (∀ call, ∃ u, CcStep (dd,false) call u ∧ (u.2 = false ↔ call = .ipc_cc_open) ∧
      (OwnBits call dd u.1 ↔ (call = .ipc_cc_close → dd.running_core = IPC_CC_CORE_CPU2 →
        bit (dd.regs CC_CPU2_INTEN_REG_OFS) event_from_cpu2_inten = false))) ∧
    (∀ es u, Run (fun t call u => CcStep t call u ∧ Repeatable t call u) (dd,false) es u ↔
      Run CcStep (dd,false) es u ∧ ∀ call ∈ es, call = .ipc_cc_open) ∧
    ∀ call u, ¬ CcStep (dd,true) call u := by
  refine ⟨fun call => ?_,fun es u => ?_,held_blocks dd⟩
  · obtain ⟨u,step,free,own⟩ := call_spec dd call
    exact ⟨u,step,by simpa [supported] using free,own⟩
  · rw [← Run.guarded_events]
    refine Run.congr (I := fun t => t.1.running_core ≠ IPC_CC_CORE_MAX) supported ?_ ?_
    · rintro t call u core ⟨_,_,own⟩
      rwa [own.1]
    · intro t call u core
      exact and_congr_right (repeatable_iff core)

/-- Two opens on `CPU2` with every bit set. -/
theorem cycles_iff_two_opens : ∃ u, Run (fun t call u => CcStep t call u ∧ Repeatable t call u)
    (⟨IPC_CC_CORE_CPU2,fun _ => 0xFFFFFFFF⟩,false) [.ipc_cc_open,.ipc_cc_open] u := by
  obtain ⟨ret,dd,returned,_⟩ := open_spec ⟨IPC_CC_CORE_CPU2,fun _ => 0xFFFFFFFF⟩
  obtain ⟨ret',dd',returned',_⟩ := open_spec dd
  have run : Run CcStep (⟨IPC_CC_CORE_CPU2,fun _ => 0xFFFFFFFF⟩,false) [.ipc_cc_open,.ipc_cc_open] (dd',false) :=
    (Run.one (e := CcCall.ipc_cc_open) ⟨ret,returned⟩).snoc ⟨ret',returned'⟩
  exact ⟨_,((cycles_iff (by decide)).2.1 _ _).mpr ⟨run,by simp⟩⟩

/-- On each core that the switches know, one cycle leaves the lock held, and the next
    call never returns; and a close on `CPU2` leaves the event of `CPU2` enabled. -/
theorem second_cycle_hangs :
    (∀ core, core ≠ IPC_CC_CORE_MAX → ∃ dd, Run CcStep (⟨core,fun _ => 0⟩,false) [.ipc_cc_open,.ipc_cc_close] (dd,true) ∧
      ∀ call u, ¬ CcStep (dd,true) call u) ∧
    ∃ dd, CcStep (⟨IPC_CC_CORE_CPU2,fun _ => 7⟩,false) .ipc_cc_close (dd,true) ∧ dd.regs CC_CPU2_INTEN_REG_OFS = 2 := by
  constructor
  · intro core supported
    obtain ⟨ret,dd,opened,own⟩ := open_spec ⟨core,fun _ => 0⟩
    obtain ⟨dd',closed,_⟩ := close_spec dd
    have kept : dd.running_core ≠ IPC_CC_CORE_MAX := by
      rw [own.1]
      exact supported
    rw [decide_eq_true kept] at closed
    exact ⟨dd',(Run.one (e := CcCall.ipc_cc_open) ⟨ret,opened⟩).snoc closed,held_blocks dd'⟩
  · exact ⟨_,rfl,by decide⟩

end IpcMsq.CoreOpen
