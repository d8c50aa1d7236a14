import IpcMsq.CoreHandler
import IpcMsq.CoreOpen
import IpcMsq.Interrupts

/-!
The entry points of `ipc-cc.c` with the spinlock of the device, on a processor that takes
interrupts. All turn interrupts off with the lock but `ipc_cc_open` and `ipc_cc_close`,
which the interrupt of the device may enter; its handler asks for the lock and then calls
the registered handlers without it, which may call the communicator again.
-/
namespace IpcMsq.CoreLocking
open IpcMsq.Memory IpcMsq.Common IpcMsq.Communicator IpcMsq.Handlers IpcMsq.Runs IpcMsq.Interrupts IpcMsq.Interrupts.Code
open IpcMsq.Bits IpcMsq.CoreHandler
open CoreOpen (ack_from_cpu1 ack_from_cpu2 ack_from_dsp event_from_cpu1_inten event_from_cpu2_inten event_from_dsp_inten)
open IPC_CC_CORE_T IPC_CC_EVENT_T

variable {H : Type}

/-- The device with its interrupt, and how often that was disabled. -/
structure CcDevice (H : Type) extends HandlerDev H where
  irq : INT32
  depth : Nat

abbrev CcCode (H : Type) := Code (CcDevice H)

def readl (ofs : UINT32) : CcCode H UINT32 := do return ipc_cc_read (← shared).toIPC_CC_DEV_T ofs

def writel (ofs data : UINT32) : CcCode H Unit :=
  change fun dd => { dd with toIPC_CC_DEV_T := ipc_cc_write dd.toIPC_CC_DEV_T ofs data }

/-- An unbalanced `enable_irq` only warns. -/
def enable_irq : CcCode H Unit := change fun dd => { dd with depth := dd.depth - 1 }

/-- It waits for a handler that runs. -/
def disable_irq : CcCode H Unit := do
  change fun dd => { dd with depth := dd.depth + 1 }
  .synchronize_irq (.done ())

section
variable (there : Bool) (values : UndefinedValues)

/-! ### The entry points, with `there` for a device pointer that is not null -/

def ipc_cc_register_handler (core : IPC_CC_CORE_T) (hdl_func : Option H) : CcCode H INT32 := do
  if there = false then return -1
  else if core = IPC_CC_CORE_MAX then return -2
  else
    let flags ← spin_lock_irqsave
    let ret ← match core with
      | IPC_CC_CORE_CPU1 => do
        change fun dd => { dd with cpu1_handler := hdl_func }
        pure 0
      | IPC_CC_CORE_CPU2 => do
        change fun dd => { dd with cpu2_handler := hdl_func }
        pure 0
      | IPC_CC_CORE_DSP => do
        change fun dd => { dd with dsp_handler := hdl_func }
        pure 0
      | IPC_CC_CORE_MAX => pure (-1)
    spin_unlock_irqrestore flags
    return ret

/-- No core is above `IPC_CC_CORE_MAX`. -/
def ipc_cc_unregister_handler (_core : IPC_CC_CORE_T) : CcCode H INT32 := do
  if there = false then return -1
  else
    let flags ← spin_lock_irqsave
    let dd ← shared
    let ret ← match dd.running_core with
      | IPC_CC_CORE_CPU1 => do
        change fun dd => { dd with cpu1_handler := none }
        pure 0
      | IPC_CC_CORE_CPU2 => do
        change fun dd => { dd with cpu2_handler := none }
        pure 0
      | IPC_CC_CORE_DSP => do
        change fun dd => { dd with dsp_handler := none }
        pure 0
      | IPC_CC_CORE_MAX => pure (-1)
    spin_unlock_irqrestore flags
    return ret

def ipc_cc_send_cmd (core_sendto : IPC_CC_CORE_T) (cmd : IPC_CC_CMD_T) (locals : SendLocals) : CcCode H INT32 := do
  if there = false then return -1
  else
    let flags ← spin_lock_irqsave
    let dd ← shared
    let ret ← match sendOffsets dd.running_core core_sendto locals with
      | none => pure (-1)
      | some l => do
        writel l.sts_reg_ofs values.CLEAR_ACK
        writel l.cmdbuf1_reg_ofs (CMDBUF1_setOpcode l.cmdbuf1 cmd.opcode)
        writel l.cmdbuf2_reg_ofs cmd.data_addr
        writel l.cmdbuf3_reg_ofs cmd.data_size
        writel l.act_reg_ofs values.DATA_TRIGGER
        pure 0
    spin_unlock_irqrestore flags
    return ret

def ipc_cc_get_cmd (core_getfrom : IPC_CC_CORE_T) (cmd : Option IPC_CC_CMD_T) (locals : GetLocals) :
    CcCode H (INT32 × Option IPC_CC_CMD_T) := do
  if there = false ∨ cmd = none then return (-1,cmd)
  else if core_getfrom = IPC_CC_CORE_MAX then return (-2,cmd)
  else
    let flags ← spin_lock_irqsave
    let dd ← shared
    let got ← match getOffsets dd.running_core core_getfrom locals with
      | none => pure (-1,cmd)
      | some l => do
        let cmdbuf1 ← readl l.cmdbuf1_reg_ofs
        let data_addr ← readl l.cmdbuf2_reg_ofs
        let data_size ← readl l.cmdbuf3_reg_ofs
        pure (0,some { opcode := CMDBUF1_opcode cmdbuf1, data_addr := data_addr, data_size := data_size })
    spin_unlock_irqrestore flags
    return got

def ipc_cc_send_ack (core_sendto : IPC_CC_CORE_T) : CcCode H INT32 := do
  if there = false then return -1
  else if core_sendto = IPC_CC_CORE_MAX then return -2
  else
    let flags ← spin_lock_irqsave
    let dd ← shared
    let ret ← if core_sendto = dd.running_core then pure (-3)
      else match dd.running_core with
        | IPC_CC_CORE_CPU1 => do
          writel CC_CPU1_ACK_REG_OFS (ackBit core_sendto)
          pure 0
        | IPC_CC_CORE_CPU2 => do
          writel CC_CPU2_ACK_REG_OFS (ackBit core_sendto)
          pure 0
        | IPC_CC_CORE_DSP => do
          writel CC_DSP_ACK_REG_OFS (ackBit core_sendto)
          pure 0
        | IPC_CC_CORE_MAX => pure (-4)
    spin_unlock_irqrestore flags
    return ret

/-- The interrupt is switched where there is one. -/
def switchIrq (call : CcCode H Unit) : CcCode H Unit := do
  if there = false then return
  else
    let flags ← spin_lock_irqsave
    let dd ← shared
    if dd.irq > 0 then call else pure ()
    spin_unlock_irqrestore flags

def ipc_cc_resume : CcCode H Unit := switchIrq there enable_irq

def ipc_cc_suspend : CcCode H Unit := switchIrq there disable_irq

end

/-- The lock is taken with interrupts on. -/
def ipc_cc_open : CcCode H INT32 := do
  lock
  let dd ← shared
  let ret ← match dd.running_core with
    | IPC_CC_CORE_CPU1 => pure 0
    | IPC_CC_CORE_CPU2 => do
      let cpux_sts ← readl CC_CPU2_STS_REG_OFS
      let cpux_sts := setBit cpux_sts ack_from_cpu1 false
      let cpux_sts := setBit cpux_sts ack_from_cpu2 false
      let cpux_sts := setBit cpux_sts ack_from_dsp false
      writel CC_CPU2_STS_REG_OFS cpux_sts
      let cpux_inten ← readl CC_CPU2_INTEN_REG_OFS
      let cpux_inten := setBit cpux_inten event_from_cpu1_inten true
      let cpux_inten := setBit cpux_inten event_from_cpu2_inten false
      let cpux_inten := setBit cpux_inten event_from_dsp_inten true
      writel CC_CPU2_INTEN_REG_OFS cpux_inten
      pure 0
    | IPC_CC_CORE_DSP => pure 0
    | IPC_CC_CORE_MAX => pure (-1)
  unlock
  return ret

/-- The same, and only `default` reaches the label that unlocks. -/
def ipc_cc_close : CcCode H Unit := do
  lock
  let dd ← shared
  match dd.running_core with
  | IPC_CC_CORE_CPU1 => return
  | IPC_CC_CORE_CPU2 =>
    let cpux_inten ← readl CC_CPU2_INTEN_REG_OFS
    let cpux_inten := setBit cpux_inten event_from_cpu1_inten false
    let cpux_inten := setBit cpux_inten event_from_dsp_inten false
    writel CC_CPU2_INTEN_REG_OFS cpux_inten
  | IPC_CC_CORE_DSP => return
  | IPC_CC_CORE_MAX => unlock

/-! ### The interrupt -/

/-- The part of the interrupt for one core, where `body` is the code of the handlers. -/
def callHandler (body : H → IPC_CC_EVENT_T → CcCode H Unit) (cpux_sts cpux_inten : UINT32) (core : IPC_CC_CORE_T)
    (event : IPC_CC_EVENT_T) : CcCode H Unit := do
  if event_from cpux_sts core && event_from cpux_inten core then
    let dd ← shared
    if dd.running_core = core then return
    else
      match dd.handler core with
      | some h => body h event
      | none => return
  else return

/-- The handlers are called without the lock. -/
def ipc_cc_irq_handler (body : H → IPC_CC_EVENT_T → CcCode H Unit) (cpux_sts cpux_inten : UINT32) : CcCode H Unit := do
  let flags ← spin_lock_irqsave
  let dd ← shared
  match irqLocals dd.toHandlerDev cpux_sts cpux_inten with
  | none => spin_unlock_irqrestore flags
  | some (cpux_sts,cpux_inten) =>
    spin_unlock_irqrestore flags
    callHandler body cpux_sts cpux_inten IPC_CC_CORE_CPU1 IPC_CC_EVT_FROM_CPU1
    callHandler body cpux_sts cpux_inten IPC_CC_CORE_CPU2 IPC_CC_EVT_FROM_CPU2
    callHandler body cpux_sts cpux_inten IPC_CC_CORE_DSP IPC_CC_EVT_FROM_DSP

/-! ### The calls, and what they do without the lock -/

inductive CoreCall (H : Type)
  | ipc_cc_register_handler (core : IPC_CC_CORE_T) (hdl_func : Option H)
  | ipc_cc_unregister_handler (core : IPC_CC_CORE_T)
  | ipc_cc_send_cmd (core_sendto : IPC_CC_CORE_T) (cmd : IPC_CC_CMD_T) (locals : SendLocals)
  | ipc_cc_get_cmd (core_getfrom : IPC_CC_CORE_T) (cmd : Option IPC_CC_CMD_T) (locals : GetLocals)
  | ipc_cc_send_ack (core_sendto : IPC_CC_CORE_T)
  | ipc_cc_resume
  | ipc_cc_suspend
  | ipc_cc_open
  | ipc_cc_close

/-- What a call returned, and the command it was given as it left it. -/
abbrev Result := INT32 × Option IPC_CC_CMD_T

section
variable (there : Bool) (values : UndefinedValues)

def code : CoreCall H → CcCode H Result
  | .ipc_cc_register_handler core hdl_func => do return (← ipc_cc_register_handler there core hdl_func,none)
  | .ipc_cc_unregister_handler core => do return (← ipc_cc_unregister_handler there core,none)
  | .ipc_cc_send_cmd core_sendto cmd locals => do return (← ipc_cc_send_cmd there values core_sendto cmd locals,none)
  | .ipc_cc_get_cmd core_getfrom cmd locals => ipc_cc_get_cmd there core_getfrom cmd locals
  | .ipc_cc_send_ack core_sendto => do return (← ipc_cc_send_ack there core_sendto,none)
  | .ipc_cc_resume => do
    ipc_cc_resume there
    return (0,none)
  | .ipc_cc_suspend => do
    ipc_cc_suspend there
    return (0,none)
  | .ipc_cc_open => do return (← ipc_cc_open,none)
  | .ipc_cc_close => do
    ipc_cc_close
    return (0,none)

/-- The calls that get past their tests. -/
def locks : CoreCall H → Bool
  | .ipc_cc_register_handler core _ => there && core ≠ IPC_CC_CORE_MAX
  | .ipc_cc_unregister_handler _ => there
  | .ipc_cc_send_cmd _ _ _ => there
  | .ipc_cc_get_cmd core_getfrom cmd _ => there && cmd.isSome && core_getfrom ≠ IPC_CC_CORE_MAX
  | .ipc_cc_send_ack core_sendto => there && core_sendto ≠ IPC_CC_CORE_MAX
  | .ipc_cc_resume => there
  | .ipc_cc_suspend => there
  | .ipc_cc_open => true
  | .ipc_cc_close => true

/-- A call on the device and its handlers, and one on the device alone. -/
def onHandlers (call : Option (HandlerDev H) → INT32 × Option (HandlerDev H)) (dd : CcDevice H) : Result × CcDevice H :=
  let (ret,dd') := call (if there then some dd.toHandlerDev else none)
  ((ret,none),{ dd with toHandlerDev := dd'.getD dd.toHandlerDev })

def onDevice (call : Option IPC_CC_DEV_T → INT32 × Option IPC_CC_DEV_T) (dd : CcDevice H) : Result × CcDevice H :=
  let (ret,dd') := call (if there then some dd.toIPC_CC_DEV_T else none)
  ((ret,none),{ dd with toIPC_CC_DEV_T := dd'.getD dd.toIPC_CC_DEV_T })

/-- A chain from a free lock. -/
def onChain {α : Type} (chain : CoreOpen.CcChain α) (ret : α → INT32) (dd : CcDevice H) : Result × CcDevice H :=
  match chain.run (dd.toIPC_CC_DEV_T,false) with
  | some (a,(dd',_)) => ((ret a,none),{ dd with toIPC_CC_DEV_T := dd' })
  | none => ((0,none),dd)

/-- The calls of the models without the lock. -/
def effect : CoreCall H → CcDevice H → Result × CcDevice H
  | .ipc_cc_register_handler core hdl_func, dd =>
    onHandlers there (Handlers.ipc_cc_register_handler · core hdl_func) dd
  | .ipc_cc_unregister_handler core, dd => onHandlers there (Handlers.ipc_cc_unregister_handler · core) dd
  | .ipc_cc_send_cmd core_sendto cmd locals, dd =>
    onDevice there (Communicator.ipc_cc_send_cmd values · core_sendto cmd locals) dd
  | .ipc_cc_get_cmd core_getfrom cmd locals, dd =>
    (Communicator.ipc_cc_get_cmd (if there then some dd.toIPC_CC_DEV_T else none) core_getfrom cmd locals,dd)
  | .ipc_cc_send_ack core_sendto, dd =>
    onDevice there (fun dd => let (ret,dd,_) := Communicator.ipc_cc_send_ack dd core_sendto; (ret,dd)) dd
  | .ipc_cc_resume, dd => ((0,none),if there = true ∧ dd.irq > 0 then { dd with depth := dd.depth - 1 } else dd)
  | .ipc_cc_suspend, dd => ((0,none),if there = true ∧ dd.irq > 0 then { dd with depth := dd.depth + 1 } else dd)
  | .ipc_cc_open, dd => onChain CoreOpen.ipc_cc_open id dd
  | .ipc_cc_close, dd => onChain CoreOpen.ipc_cc_close (fun _ => 0) dd

end

/-- Interrupts are off whenever the call has the lock, and it leaves both as they were. -/
def GivesBack {α : Type} (serving irqs : Bool) (c : CcCode H α) : Prop :=
  c.Keeps serving (fun held irqs => held = true → irqs = false) (fun _ held now => held = false ∧ now = irqs) false irqs

theorem restored {α : Type} {serving : Bool} (irqs : Bool) (a : α) :
    (.spin_unlock (.local_irq_restore irqs (.done a)) : CcCode H α).Keeps serving
    (fun held irqs => held = true → irqs = false) (fun _ held now => held = false ∧ now = irqs) true false :=
  ⟨fun _ => rfl,nofun,nofun,rfl,rfl⟩

/-- A section begins with the lock and a look at the device. -/
theorem entered {α : Type} {serving : Bool} (irqs : Bool) {rest : Bool → CcDevice H → CcCode H α}
    (inside : ∀ dd, (rest irqs dd).Keeps serving
      (fun held irqs => held = true → irqs = false) (fun _ held now => held = false ∧ now = irqs) true false) :
    GivesBack serving irqs (.local_irq_save fun flags => .spin_lock (.access id (rest flags))) :=
  ⟨nofun,nofun,rfl,fun _ => rfl,inside⟩

section
variable {there : Bool} {values : UndefinedValues} {serving : Bool} (irqs : Bool)

/-! ### Each entry point: its section does what the model without the lock does -/

theorem register_pending (core : IPC_CC_CORE_T) (hdl_func : Option H) :
    (code there values (.ipc_cc_register_handler core hdl_func)).Pending (effect there values (.ipc_cc_register_handler core hdl_func)) := by
  cases there with
  | false => intro dd; rfl
  | true =>
    cases core with
    | IPC_CC_CORE_MAX => intro dd; rfl
    | IPC_CC_CORE_CPU1 | IPC_CC_CORE_CPU2 | IPC_CC_CORE_CPU3 =>
      intro flags dd
      exact ⟨rfl,rfl⟩

theorem register_givesBack (core : IPC_CC_CORE_T) (hdl_func : Option H) :
    GivesBack serving irqs (code there values (.ipc_cc_register_handler core hdl_func)) := by
  cases there with
  | false => exact ⟨nofun,rfl,rfl⟩
  | true =>
    cases core with
    | IPC_CC_CORE_MAX => exact ⟨nofun,rfl,rfl⟩
    | IPC_CC_CORE_CPU1 | IPC_CC_CORE_CPU2 | IPC_CC_CORE_CPU3 =>
      exact ⟨nofun,nofun,rfl,fun _ => rfl,fun _ => restored irqs _⟩

theorem unregister_pending (core : IPC_CC_CORE_T) :
    (code there values (.ipc_cc_unregister_handler core : CoreCall H)).Pending (effect there values (.ipc_cc_unregister_handler core)) := by
  cases there with
  | false => intro dd; rfl
  | true =>
    rintro flags ⟨⟨⟨running_core,regs⟩,_,_,_⟩,_,_⟩
    cases running_core <;> exact ⟨rfl,rfl⟩

theorem unregister_givesBack (core : IPC_CC_CORE_T) :
    GivesBack serving irqs (code there values (.ipc_cc_unregister_handler core : CoreCall H)) := by
  cases there with
  | false => exact ⟨nofun,rfl,rfl⟩
  | true =>
    refine entered irqs ?_
    rintro ⟨⟨⟨running_core,regs⟩,_,_,_⟩,_,_⟩
    cases running_core with
    | IPC_CC_CORE_MAX => exact restored irqs _
    | IPC_CC_CORE_CPU1 | IPC_CC_CORE_CPU2 | IPC_CC_CORE_CPU3 =>
      exact ⟨fun _ => rfl,fun _ => restored irqs _⟩

theorem send_pending (core_sendto : IPC_CC_CORE_T) (cmd : IPC_CC_CMD_T) (locals : SendLocals) :
    (code there values (.ipc_cc_send_cmd core_sendto cmd locals : CoreCall H)).Pending
      (effect there values (.ipc_cc_send_cmd core_sendto cmd locals)) := by
  cases there with
  | false => intro dd; rfl
  | true =>
    intro flags dd
    cases set : sendOffsets dd.running_core core_sendto locals with
    | none =>
      simp only [effect,onDevice,if_true,Communicator.ipc_cc_send_cmd,Bind.bind,Code.bind,shared,Inside,id,set]
      exact And.intro rfl rfl
    | some l =>
      simp only [effect,onDevice,if_true,Communicator.ipc_cc_send_cmd,Bind.bind,Code.bind,shared,Inside,id,set]
      exact And.intro rfl rfl

theorem send_givesBack (core_sendto : IPC_CC_CORE_T) (cmd : IPC_CC_CMD_T) (locals : SendLocals) :
    GivesBack serving irqs (code there values (.ipc_cc_send_cmd core_sendto cmd locals : CoreCall H)) := by
  cases there with
  | false => exact ⟨nofun,rfl,rfl⟩
  | true =>
    refine entered irqs fun dd => ?_
    simp only [Bind.bind,Code.bind]
    split
    · exact restored irqs _
    · simp [spin_unlock_irqrestore,Pure.pure,Code.bind,Keeps,writel,change]

theorem get_pending (core_getfrom : IPC_CC_CORE_T) (cmd : Option IPC_CC_CMD_T) (locals : GetLocals) :
    (code there values (.ipc_cc_get_cmd core_getfrom cmd locals : CoreCall H)).Pending
      (effect there values (.ipc_cc_get_cmd core_getfrom cmd locals)) := by
  cases there with
  | false => intro dd; rfl
  | true =>
    cases cmd with
    | none => intro dd; rfl
    | some old =>
      cases core_getfrom with
      | IPC_CC_CORE_MAX => intro dd; rfl
      | IPC_CC_CORE_CPU1 | IPC_CC_CORE_CPU2 | IPC_CC_CORE_CPU3 =>
        rintro flags ⟨⟨⟨running_core,regs⟩,_,_,_⟩,_,_⟩
        cases running_core <;> exact ⟨rfl,rfl⟩

theorem get_givesBack (core_getfrom : IPC_CC_CORE_T) (cmd : Option IPC_CC_CMD_T) (locals : GetLocals) :
    GivesBack serving irqs (ipc_cc_get_cmd there core_getfrom cmd locals : CcCode H Result) := by
  cases there with
  | false => exact ⟨nofun,rfl,rfl⟩
  | true =>
    cases cmd with
    | none => exact ⟨nofun,rfl,rfl⟩
    | some old =>
      cases core_getfrom with
      | IPC_CC_CORE_MAX => exact ⟨nofun,rfl,rfl⟩
      | IPC_CC_CORE_CPU1 | IPC_CC_CORE_CPU2 | IPC_CC_CORE_CPU3 =>
        refine entered irqs ?_
        rintro ⟨⟨⟨running_core,regs⟩,_,_,_⟩,_,_⟩
        cases running_core <;> exact restored irqs _

theorem ack_pending (core_sendto : IPC_CC_CORE_T) :
    (code there values (.ipc_cc_send_ack core_sendto : CoreCall H)).Pending (effect there values (.ipc_cc_send_ack core_sendto)) := by
  cases there with
  | false => intro dd; rfl
  | true =>
    cases core_sendto with
    | IPC_CC_CORE_MAX => intro dd; rfl
    | IPC_CC_CORE_CPU1 | IPC_CC_CORE_CPU2 | IPC_CC_CORE_CPU3 =>
      rintro flags ⟨⟨⟨running_core,regs⟩,_,_,_⟩,_,_⟩
      cases running_core <;> exact ⟨rfl,rfl⟩

theorem ack_givesBack (core_sendto : IPC_CC_CORE_T) : GivesBack serving irqs (ipc_cc_send_ack there core_sendto : CcCode H INT32) := by
  cases there with
  | false => exact ⟨nofun,rfl,rfl⟩
  | true =>
    cases core_sendto with
    | IPC_CC_CORE_MAX => exact ⟨nofun,rfl,rfl⟩
    | IPC_CC_CORE_CPU1 | IPC_CC_CORE_CPU2 | IPC_CC_CORE_CPU3 =>
      refine entered irqs fun dd => ?_
      simp only [Bind.bind,Code.bind]
      split
      · exact restored irqs _
      · split
        all_goals simp [spin_unlock_irqrestore,Pure.pure,Code.bind,Keeps,writel,change]

/-- What is switched changes the device at once, and may wait for a handler. -/
theorem switch_pending {call : CcCode H Unit} {f : CcDevice H → CcDevice H}
    (does : call = change f ∨ call = .access f fun _ => .synchronize_irq (.done ())) :
    (do switchIrq there call; return (0,none) : CcCode H Result).Pending fun dd =>
      ((0,none),if there = true ∧ dd.irq > 0 then f dd else dd) := by
  cases there with
  | false => intro dd; rfl
  | true =>
    intro flags dd
    by_cases line : dd.irq > 0
    · simp only [Bind.bind,Code.bind,shared,Inside,id,line,if_true,and_true]
      rcases does with rfl | rfl <;> exact And.intro rfl rfl
    · simp only [Bind.bind,Code.bind,shared,Inside,id,line,if_false,and_false]
      exact And.intro rfl rfl

theorem switch_givesBack {call : CcCode H Unit} {f : CcDevice H → CcDevice H}
    (does : call = change f ∨ serving = false ∧ call = .access f fun _ => .synchronize_irq (.done ())) :
    GivesBack serving irqs (do switchIrq there call; return (0,none) : CcCode H Result) := by
  cases there with
  | false => exact ⟨nofun,rfl,rfl⟩
  | true =>
    refine entered irqs fun dd => ?_
    simp only [Bind.bind,Code.bind]
    split
    · rcases does with rfl | ⟨off,rfl⟩
      · exact ⟨fun _ => rfl,fun _ => restored irqs _⟩
      · exact ⟨fun _ => rfl,fun _ => ⟨fun _ => rfl,off,restored irqs _⟩⟩
    · exact restored irqs _

theorem open_pending : (code there values (.ipc_cc_open : CoreCall H)).Pending (effect there values .ipc_cc_open) := by
  rintro ⟨⟨⟨running_core,regs⟩,_,_,_⟩,_,_⟩
  cases running_core <;> exact ⟨rfl,rfl⟩

theorem close_pending : (code there values (.ipc_cc_close : CoreCall H)).Pending (effect there values .ipc_cc_close) := by
  rintro ⟨⟨⟨running_core,regs⟩,_,_,_⟩,_,_⟩
  cases running_core <;> exact ⟨rfl,rfl⟩

/-- These two ask for the lock once. -/
theorem open_keeps : (code there values (.ipc_cc_open : CoreCall H)).Keeps false (fun _ _ => True) (fun _ _ _ => True) false irqs := by
  refine ⟨trivial,rfl,trivial,fun dd => ?_⟩
  simp only [Bind.bind,Code.bind]
  split
  all_goals simp [unlock,Pure.pure,Bind.bind,Code.bind,Keeps,readl,writel,change,shared]

theorem close_keeps : (code there values (.ipc_cc_close : CoreCall H)).Keeps false (fun _ _ => True) (fun _ _ _ => True) false irqs := by
  refine ⟨trivial,rfl,trivial,fun dd => ?_⟩
  simp only [Bind.bind,Code.bind]
  split
  all_goals simp [unlock,Pure.pure,Bind.bind,Code.bind,Keeps,readl,writel,change,shared]

theorem code_pending (c : CoreCall H) : (code there values c).Pending (effect there values c) := by
  cases c with
  | ipc_cc_register_handler core hdl_func => exact register_pending core hdl_func
  | ipc_cc_unregister_handler core => exact unregister_pending core
  | ipc_cc_send_cmd core_sendto cmd locals => exact send_pending core_sendto cmd locals
  | ipc_cc_get_cmd core_getfrom cmd locals => exact get_pending core_getfrom cmd locals
  | ipc_cc_send_ack core_sendto => exact ack_pending core_sendto
  | ipc_cc_resume => exact switch_pending (.inl rfl)
  | ipc_cc_suspend => exact switch_pending (.inr rfl)
  | ipc_cc_open => exact open_pending
  | ipc_cc_close => exact close_pending

theorem code_givesBack {c : CoreCall H} (opens : c ≠ .ipc_cc_open) (closes : c ≠ .ipc_cc_close) :
    GivesBack false irqs (code there values c) := by
  cases c with
  | ipc_cc_register_handler core hdl_func => exact register_givesBack irqs core hdl_func
  | ipc_cc_unregister_handler core => exact unregister_givesBack irqs core
  | ipc_cc_send_cmd core_sendto cmd locals => exact send_givesBack irqs core_sendto cmd locals
  | ipc_cc_get_cmd core_getfrom cmd locals => exact get_givesBack irqs core_getfrom cmd locals
  | ipc_cc_send_ack core_sendto =>
    refine Keeps.bind ((ack_givesBack irqs core_sendto).mono (fun _ _ shield => shield) fun a held now back => ?_)
    exact ⟨fun kept => absurd (back.1.symm.trans kept) Bool.false_ne_true,back⟩
  | ipc_cc_resume => exact switch_givesBack irqs (.inl rfl)
  | ipc_cc_suspend => exact switch_givesBack irqs (.inr ⟨rfl,rfl⟩)
  | ipc_cc_open => exact absurd rfl opens
  | ipc_cc_close => exact absurd rfl closes

theorem code_keeps (c : CoreCall H) : (code there values c).Keeps false (fun _ _ => True) (fun _ _ _ => True) false irqs := by
  by_cases opens : c = .ipc_cc_open
  · rw [opens]
    exact open_keeps irqs
  by_cases closes : c = .ipc_cc_close
  · rw [closes]
    exact close_keeps irqs
  exact (code_givesBack irqs opens closes).mono (fun _ _ _ => trivial) fun _ _ _ _ => trivial

/-- A call that gets past its tests begins with the lock, and any other returns. -/
theorem code_begins (c : CoreCall H) :
    locks there c = true ∧ ((∃ rest, code there values c = spin_lock_irqsave.bind rest) ∨ ∃ rest, code there values c = .spin_lock rest) ∨
      locks there c = false ∧ ∃ r, code there values c = .done r := by
  cases c with
  | ipc_cc_open | ipc_cc_close => exact .inl ⟨rfl,.inr ⟨_,rfl⟩⟩
  | ipc_cc_unregister_handler _ | ipc_cc_send_cmd _ _ _ | ipc_cc_resume | ipc_cc_suspend =>
    cases there with
    | false => exact .inr ⟨rfl,_,rfl⟩
    | true => exact .inl ⟨rfl,.inl ⟨_,rfl⟩⟩
  | ipc_cc_register_handler core _ | ipc_cc_send_ack core =>
    cases there with
    | false => exact .inr ⟨rfl,_,rfl⟩
    | true =>
      cases core with
      | IPC_CC_CORE_MAX => exact .inr ⟨rfl,_,rfl⟩
      | IPC_CC_CORE_CPU1 | IPC_CC_CORE_CPU2 | IPC_CC_CORE_CPU3 => exact .inl ⟨rfl,.inl ⟨_,rfl⟩⟩
  | ipc_cc_get_cmd core cmd _ =>
    cases there with
    | false => exact .inr ⟨rfl,_,rfl⟩
    | true =>
      cases cmd with
      | none => exact .inr ⟨rfl,_,rfl⟩
      | some old =>
        cases core with
        | IPC_CC_CORE_MAX => exact .inr ⟨rfl,_,rfl⟩
        | IPC_CC_CORE_CPU1 | IPC_CC_CORE_CPU2 | IPC_CC_CORE_CPU3 => exact .inl ⟨rfl,.inl ⟨_,rfl⟩⟩

end

/-! ### The handlers -/

/-- Called with interrupts off, the handlers give the lock back whenever they take it, and do
    not disable the interrupt that calls them. -/
def Serves (body : H → IPC_CC_EVENT_T → CcCode H Unit) : Prop :=
  ∀ h event, (body h event).Keeps true (fun _ _ => True) (fun _ held irqs => held = false ∧ irqs = false) false false

section
variable {body : H → IPC_CC_EVENT_T → CcCode H Unit}

theorem callHandler_keeps (serves : Serves body) (cpux_sts cpux_inten : UINT32) (core : IPC_CC_CORE_T) (event : IPC_CC_EVENT_T) :
    (callHandler body cpux_sts cpux_inten core event).Keeps true (fun _ _ => True) (fun _ held irqs => held = false ∧ irqs = false) false false := by
  simp only [callHandler]
  split
  · refine ⟨trivial,fun dd => ?_⟩
    simp only [Code.bind]
    split
    · exact ⟨trivial,rfl,rfl⟩
    · split
      · exact serves _ event
      · exact ⟨trivial,rfl,rfl⟩
  · exact ⟨trivial,rfl,rfl⟩

theorem irq_keeps (serves : Serves body) (cpux_sts cpux_inten : UINT32) :
    (ipc_cc_irq_handler body cpux_sts cpux_inten).Keeps true (fun _ _ => True) (fun _ held _ => held = false) false false := by
  refine ⟨trivial,trivial,rfl,trivial,fun dd => ?_⟩
  simp only [Bind.bind,Code.bind]
  split
  · exact ⟨trivial,trivial,trivial,rfl⟩
  · refine ⟨trivial,trivial,Keeps.bind (c := callHandler body _ _ _ _) ?_⟩
    refine (callHandler_keeps serves _ _ _ _).mono (fun _ _ kept => kept) ?_
    rintro _ _ _ ⟨rfl,rfl⟩
    refine Keeps.bind ((callHandler_keeps serves _ _ _ _).mono (fun _ _ kept => kept) ?_)
    rintro _ _ _ ⟨rfl,rfl⟩
    exact (callHandler_keeps serves _ _ _ _).mono (fun _ _ kept => kept) fun _ _ _ left => left.1

end

/-- The handler of `drv_ipc_main.c`, with the state of the driver that it works on. -/
def ipc_core_handler (there : Bool) (g : Option IPC_MSQINFO) (m_ctrl : Api.IPC_CTRL) (bases : SharedBases) (memory : UINT32 → Mem)
    (cmd : IPC_CC_CMD_T) (locals : GetLocals) (rcvmsg : IPC_MSG) (evt_comefrom : IPC_CC_EVENT_T) : CcCode H Unit := do
  match evt_comefrom with
  | IPC_CC_EVT_FROM_CPU1 => handleFrom IPC_CC_CORE_CPU1
  | IPC_CC_EVT_FROM_DSP => handleFrom IPC_CC_CORE_DSP
  | _ => return
where
  handleFrom (core_getfrom : IPC_CC_CORE_T) : CcCode H Unit := do
    let (ret,got) ← ipc_cc_get_cmd there core_getfrom (some cmd) locals
    match (ipc_core_handle_func g m_ctrl bases memory core_getfrom (fun _ cmd => (ret,got.getD cmd)) cmd rcvmsg).ack with
    | none => return
    | some core_sendto => do
      let _ ← ipc_cc_send_ack there core_sendto
      return

/-- It is such a handler. -/
theorem core_handler_serves (there : Bool) (g : Option IPC_MSQINFO) (m_ctrl : Api.IPC_CTRL) (bases : SharedBases) (memory : UINT32 → Mem)
    (cmd : IPC_CC_CMD_T) (locals : GetLocals) (rcvmsg : IPC_MSG) :
    Serves fun (_ : H) event => ipc_core_handler there g m_ctrl bases memory cmd locals rcvmsg event := by
  have one (core : IPC_CC_CORE_T) :
      (ipc_core_handler.handleFrom there g m_ctrl bases memory cmd locals rcvmsg core : CcCode H Unit).Keeps true (fun _ _ => True)
        (fun _ held irqs => held = false ∧ irqs = false) false false := by
    refine Keeps.bind ((get_givesBack false core (some cmd) locals).mono (fun _ _ _ => trivial) ?_)
    rintro _ _ _ ⟨rfl,rfl⟩
    dsimp only
    split
    · exact ⟨trivial,rfl,rfl⟩
    · refine Keeps.bind ((ack_givesBack false _).mono (fun _ _ _ => trivial) ?_)
      exact fun _ _ _ back => ⟨trivial,back⟩
  intro _ event
  cases event with
  | IPC_CC_EVT_FROM_CPU1 => exact one IPC_CC_CORE_CPU1
  | IPC_CC_EVT_FROM_DSP => exact one IPC_CC_CORE_DSP
  | IPC_CC_EVT_FROM_CPU2 | IPC_CC_ACK_FROM_CPU1 | IPC_CC_ACK_FROM_CPU2 | IPC_CC_ACK_FROM_DSP => exact ⟨trivial,rfl,rfl⟩

/-! ### The communicator as a whole -/

/-- An interrupt comes while it is not disabled; its locals and the code of the handlers
    may be others each time. -/
def communicator (H : Type) (there : Bool) (values : UndefinedValues) : System (CcDevice H) Result (CoreCall H) where
  code := code there values
  handles h := ∃ body cpux_sts cpux_inten, Serves body ∧ h = ipc_cc_irq_handler body cpux_sts cpux_inten
  line dd := dd.depth == 0
  locks := locks there
  ends c irqs := code_keeps irqs c
  asks c asks p held := by
    rcases @code_begins H there values c with ⟨_,⟨rest,begins⟩ | ⟨rest,begins⟩⟩ | ⟨none,_⟩
    · rw [begins,irqsave_waits held]
    · rw [begins,lock_waits held]
    · rw [none] at asks
      cases asks
  quick c quick := by
    rcases @code_begins H there values c with ⟨asks,_⟩ | ⟨_,done⟩
    · rw [asks] at quick
      cases quick
    · exact done
  serves := by
    rintro _ ⟨body,sts,inten,serves,rfl⟩
    exact irq_keeps serves sts inten
  waits := by
    rintro _ ⟨body,sts,inten,_,rfl⟩ p held
    exact irqsave_waits held

variable {Thread : Type}

/-- A processor on which no call runs yet. -/
def ready (dd : CcDevice H) (x : Thread) : Machine (CcDevice H) Result Thread := ⟨⟨dd,false,true,false⟩,fun _ => none,x,none⟩

theorem ready_idle (dd : CcDevice H) (x : Thread) : Idle (ready dd x) := ⟨rfl,rfl,rfl,rfl,rfl⟩

variable [DecidableEq Thread]

/-- Calls other than `ipc_cc_open` and `ipc_cc_close` find the lock free. -/
theorem others_free {there : Bool} {values : UndefinedValues} {dd : CcDevice H} {x : Thread}
    {es : List (Event Thread (CoreCall H) Result)} {m : Machine (CcDevice H) Result Thread}
    (run : Run (MachineStep (communicator H there values)) (ready dd x) es m)
    (others : ∀ y c, .call y c ∈ es → c ≠ .ipc_cc_open ∧ c ≠ .ipc_cc_close) :
    Run (Guarded (MachineStep (communicator H there values)) (Free (communicator H there values))) (ready dd x) es m := by
  refine shielded_free (ready_idle dd x) run fun y c listed => ?_
  obtain ⟨opens,closes⟩ := others y c listed
  exact code_givesBack true opens closes

/-- A device that runs on CPU2, without a handler. -/
def quietDevice : CcDevice Unit := ⟨⟨⟨IPC_CC_CORE_CPU2,fun _ => 0⟩,none,none,none⟩,5,0⟩

/-- One thread begins to suspend the device, is interrupted and switched away; another one
    suspends it as well before the first goes on. -/
theorem suspended_twice : ∃ es, ∃ m : Machine (CcDevice Unit) Result Nat,
    Run (MachineStep (communicator Unit true ⟨0,1⟩)) (ready quietDevice 7) es m ∧ (∀ y c, .call y c ∈ es → c = .ipc_cc_suspend) ∧
      es.flatMap Event.seen = [.call 7 .ipc_cc_suspend,.interrupt,.call 8 .ipc_cc_suspend,.ret 8 (0,none),.ret 7 (0,none)] ∧
      m.cpu.shared.depth = 2 ∧ m.irq = none ∧ m.cpu.held = false := by
  let S := communicator Unit true ⟨0,1⟩
  let suspend : CcCode Unit Result := code true ⟨0,1⟩ .ipc_cc_suspend
  let handler : CcCode Unit Unit := ipc_cc_irq_handler (fun _ _ => .done ()) 0 0
  have handles : S.handles handler := ⟨fun _ _ => .done (),0,0,fun _ _ => ⟨trivial,rfl,rfl⟩,rfl⟩
  have quiet : handler.run ⟨quietDevice,false,false,true⟩ = some ((),⟨quietDevice,false,false,true⟩) := by
    simp [handler,ipc_cc_irq_handler,irqLocals,callHandler,event_from,ipc_cc_read,quietDevice,spin_lock_irqsave,shared,
      spin_unlock_irqrestore,Pure.pure,Bind.bind,Code.bind,Code.run]
  have suspends (depth : Nat) : suspend.run ⟨{ quietDevice with depth := depth },false,true,false⟩ =
      some ((0,none),⟨{ quietDevice with depth := depth + 1 },false,true,false⟩) := rfl
  -- the first call, and the interrupt before its lock
  let task : Nat → Option (CcCode Unit Result) := Function.update (fun _ => none) 7 (some suspend)
  let begun : Machine (CcDevice Unit) Result Nat := ⟨⟨quietDevice,false,true,false⟩,task,7,none⟩
  let served : Machine (CcDevice Unit) Result Nat := ⟨⟨quietDevice,false,false,true⟩,task,7,some handler⟩
  have call_7 : MachineStep S (ready quietDevice 7) (.call 7 .ipc_cc_suspend) begun := .call rfl rfl
  have interrupt : MachineStep S begun .interrupt served := .interrupt rfl rfl rfl handles
  obtain ⟨i,iret⟩ := handler_ends (S := S) (m := served) rfl quiet
  -- the second call as a whole, and the rest of the first
  let other : Machine (CcDevice Unit) Result Nat := ⟨⟨quietDevice,false,true,false⟩,task,8,none⟩
  have switch_8 : MachineStep S begun .switch other := .switch rfl rfl rfl
  have call_8 : MachineStep S other (.call 8 .ipc_cc_suspend) _ := .call rfl rfl
  obtain ⟨k,ret_8⟩ := thread_ends (S := S) (m := { other with task := Function.update task 8 (some suspend) }) rfl rfl (suspends 0)
  let back : Machine (CcDevice Unit) Result Nat := ⟨⟨{ quietDevice with depth := 1 },false,true,false⟩,
    Function.update (Function.update task 8 (some suspend)) 8 none,7,none⟩
  have switch_7 : MachineStep S { back with current := 8 } .switch back := .switch rfl rfl rfl
  obtain ⟨n,ret_7⟩ := thread_ends (S := S) (m := back) rfl rfl (suspends 1)
  have run := ((((((Run.one call_7).snoc interrupt).append iret).snoc switch_8).snoc call_8).append ret_8).snoc switch_7
  have steps (k : Nat) : (List.replicate k .task).flatMap (Event.seen : Event Nat (CoreCall Unit) Result → _) = [] := by
    simp [Event.seen]
  have handled (k : Nat) : (List.replicate k .handle).flatMap (Event.seen : Event Nat (CoreCall Unit) Result → _) = [] := by
    simp [Event.seen]
  refine ⟨_,_,run.append ret_7,fun y c listed => ?_,?_,rfl,rfl,rfl⟩
  · simp at listed
    rcases listed with ⟨_,rfl⟩ | ⟨_,rfl⟩ <;> rfl
  · simp only [List.flatMap_append,steps,handled]
    rfl

/-- Where no interrupt is taken and no call that locks begins on a held lock, threads and
    interrupts see the communicator of the models without a lock: each call does what they
    say at one moment between its begin and its return, and an interrupt runs at once. -/
theorem calls_are_atomic {there : Bool} {values : UndefinedValues} {dd : CcDevice H} {x : Thread}
    {es : List (Event Thread (CoreCall H) Result)} {m : Machine (CcDevice H) Result Thread}
    (run : Run (Guarded (MachineStep (communicator H there values)) (Free (communicator H there values))) (ready dd x) es m) :
    ∃ fs a, Run (AtomicStep (effect there values) (communicator H there values).handles) ⟨dd,fun _ => none⟩ fs a ∧
      fs.flatMap AtomicEvent.seen = es.flatMap Event.seen ∧ (m.irq = none → m.cpu.held = false → a.shared = m.cpu.shared) := by
  obtain ⟨fs,a,matched,same,refines⟩ := (atomic code_pending).run (ready_idle dd x).refines run
  refine ⟨fs,a,matched,same,fun idle held => ?_⟩
  exact ((refines.running idle).resolve_right (by simp [held])).2

/-- The interrupt is disabled at two moments, with an interrupt before both. -/
theorem calls_are_atomic_two_threads : ∃ fs a, Run (AtomicStep (effect true ⟨0,1⟩) (communicator Unit true ⟨0,1⟩).handles)
      ⟨quietDevice,fun _ => none⟩ fs (a : Atomic _ _ _ Nat) ∧ a.shared.depth = 2 ∧ fs.flatMap AtomicEvent.seen =
    [.call 7 .ipc_cc_suspend,.interrupt,.call 8 .ipc_cc_suspend,.ret 8 (0,none),.ret 7 (0,none)] := by
  obtain ⟨es,m,run,all,seen,depth,idle,held⟩ := suspended_twice
  have free := others_free run fun y c listed => by
    rw [all y c listed]
    exact ⟨nofun,nofun⟩
  obtain ⟨fs,a,matched,same,shared⟩ := calls_are_atomic free
  exact ⟨fs,a,matched,(congrArg CcDevice.depth (shared idle held)).trans depth,same.trans seen⟩

end IpcMsq.CoreLocking
