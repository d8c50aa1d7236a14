import IpcMsq.Communicator
import IpcMsq.Runs

/-!
The handlers that `ipc-cc.c` keeps for the cores. Registration and dispatch choose
a handler by the core in question, unregistration by the core that runs, so it
empties another field than the one that was registered. An interrupt reads the
status and enable registers only where `CPU2` runs; elsewhere it goes by locals
that nothing initialised.
-/
namespace IpcMsq.Handlers
open IpcMsq.Common IpcMsq.Communicator IpcMsq.Runs
open IPC_CC_CORE_T IPC_CC_EVENT_T

variable {H : Type}

/-- The device with its handlers, `none` when null. -/
structure HandlerDev (H : Type) extends IPC_CC_DEV_T where
  cpu1_handler : Option H
  cpu2_handler : Option H
  dsp_handler : Option H

def ipc_cc_register_handler (ipc_cc_dev : Option (HandlerDev H)) (core : IPC_CC_CORE_T) (hdl_func : Option H) :
    INT32 × Option (HandlerDev H) :=
  match ipc_cc_dev with
  | none => (-1,none)
  | some dd =>
    match core with
    | IPC_CC_CORE_MAX => (-2,some dd)
    | IPC_CC_CORE_CPU1 => (0,some { dd with cpu1_handler := hdl_func })
    | IPC_CC_CORE_CPU2 => (0,some { dd with cpu2_handler := hdl_func })
    | IPC_CC_CORE_DSP => (0,some { dd with dsp_handler := hdl_func })

/-- The bound is not below `IPC_CC_CORE_MAX`, and the switch is over the running core. -/
def ipc_cc_unregister_handler (ipc_cc_dev : Option (HandlerDev H)) (_core : IPC_CC_CORE_T) : INT32 × Option (HandlerDev H) :=
  match ipc_cc_dev with
  | none => (-1,none)
  | some dd =>
    match dd.running_core with
    | IPC_CC_CORE_CPU1 => (0,some { dd with cpu1_handler := none })
    | IPC_CC_CORE_CPU2 => (0,some { dd with cpu2_handler := none })
    | IPC_CC_CORE_DSP => (0,some { dd with dsp_handler := none })
    | IPC_CC_CORE_MAX => (-1,some dd)

@[simp] abbrev CC_CPU1_STS_REG_OFS : UINT32 := 0x14
@[simp] abbrev CC_DSP_STS_REG_OFS : UINT32 := 0x34
@[simp] abbrev CC_CPU1_INTEN_REG_OFS : UINT32 := 0x18
@[simp] abbrev CC_CPU2_INTEN_REG_OFS : UINT32 := 0x28
@[simp] abbrev CC_DSP_INTEN_REG_OFS : UINT32 := 0x38

/-- The bit for events from a core, in a status and in an enable register. -/
def event_from (reg : UINT32) : IPC_CC_CORE_T → Bool
  | IPC_CC_CORE_CPU1 => reg &&& 1 != 0
  | IPC_CC_CORE_CPU2 => reg &&& 2 != 0
  | IPC_CC_CORE_DSP => reg &&& 4 != 0
  | IPC_CC_CORE_MAX => false

/-- The part of the interrupt for one core: the handler called, with the event. -/
def handleEvent (running_core : IPC_CC_CORE_T) (cpux_sts cpux_inten : UINT32) (core : IPC_CC_CORE_T) (handler : Option H)
    (event : IPC_CC_EVENT_T) : List (H × IPC_CC_EVENT_T) :=
  if event_from cpux_sts core && event_from cpux_inten core then
    if running_core = core then [] else (handler.map fun h => (h,event)).toList
  else []

/-- The status and the enable register as the switch over the running core leaves
    them in the locals. -/
def irqLocals (dd : HandlerDev H) (cpux_sts cpux_inten : UINT32) : Option (UINT32 × UINT32) :=
  match dd.running_core with
  | IPC_CC_CORE_CPU1 => some (cpux_sts,cpux_inten)
  | IPC_CC_CORE_CPU2 =>
    some (ipc_cc_read dd.toIPC_CC_DEV_T CC_CPU2_STS_REG_OFS,ipc_cc_read dd.toIPC_CC_DEV_T CC_CPU2_INTEN_REG_OFS)
  | IPC_CC_CORE_DSP => some (cpux_sts,cpux_inten)
  | IPC_CC_CORE_MAX => none

/-- `cpux_sts` and `cpux_inten` are the uninitialised locals. -/
def ipc_cc_irq_handler (dd : HandlerDev H) (cpux_sts cpux_inten : UINT32) : List (H × IPC_CC_EVENT_T) :=
  match irqLocals dd cpux_sts cpux_inten with
  | none => []
  | some (cpux_sts,cpux_inten) =>
    handleEvent dd.running_core cpux_sts cpux_inten IPC_CC_CORE_CPU1 dd.cpu1_handler IPC_CC_EVT_FROM_CPU1 ++
      handleEvent dd.running_core cpux_sts cpux_inten IPC_CC_CORE_CPU2 dd.cpu2_handler IPC_CC_EVT_FROM_CPU2 ++
      handleEvent dd.running_core cpux_sts cpux_inten IPC_CC_CORE_DSP dd.dsp_handler IPC_CC_EVT_FROM_DSP

/-! ### The map from cores to handlers -/

/-- The field of a core. -/
def HandlerDev.handler (dd : HandlerDev H) : IPC_CC_CORE_T → Option H
  | IPC_CC_CORE_CPU1 => dd.cpu1_handler
  | IPC_CC_CORE_CPU2 => dd.cpu2_handler
  | IPC_CC_CORE_DSP => dd.dsp_handler
  | IPC_CC_CORE_MAX => none

/-- The status register of each core, and its enable register. -/
def irqRegs : IPC_CC_CORE_T → UINT32 × UINT32
  | IPC_CC_CORE_CPU1 => (CC_CPU1_STS_REG_OFS,CC_CPU1_INTEN_REG_OFS)
  | IPC_CC_CORE_CPU2 => (CC_CPU2_STS_REG_OFS,CC_CPU2_INTEN_REG_OFS)
  | IPC_CC_CORE_DSP => (CC_DSP_STS_REG_OFS,CC_DSP_INTEN_REG_OFS)
  | IPC_CC_CORE_MAX => (0,0)

/-- The calls that a map asks for: of every core but the running one whose event is
    pending and enabled, the handler that the map has. -/
def expectedCalls (map : IPC_CC_CORE_T → Option H) (running_core : IPC_CC_CORE_T) (regs : UINT32 → UINT32) :
    List (H × IPC_CC_EVENT_T) :=
  [(IPC_CC_CORE_CPU1,IPC_CC_EVT_FROM_CPU1),(IPC_CC_CORE_CPU2,IPC_CC_EVT_FROM_CPU2),(IPC_CC_CORE_DSP,IPC_CC_EVT_FROM_DSP)].flatMap
    fun (core,event) =>
      if core ≠ running_core ∧ event_from (regs (irqRegs running_core).1) core ∧
          event_from (regs (irqRegs running_core).2) core then ((map core).map fun h => (h,event)).toList
      else []

/-- The device, and the map that the calls so far make. -/
structure Registry (H : Type) where
  dd : HandlerDev H
  map : IPC_CC_CORE_T → Option H

inductive RegistryEvent (H : Type)
  | register (core : IPC_CC_CORE_T) (hdl_func : Option H)
  | unregister (core : IPC_CC_CORE_T)
  | interrupt (called : List (H × IPC_CC_EVENT_T))

/-- A call that returns 0, or an interrupt with any content of registers and locals. -/
inductive RegistryStep : Registry H → RegistryEvent H → Registry H → Prop
  | register {s : Registry H} {dd : HandlerDev H} {core : IPC_CC_CORE_T} {hdl_func : Option H} :
      ipc_cc_register_handler (some s.dd) core hdl_func = (0,some dd) →
      RegistryStep s (.register core hdl_func) ⟨dd,Function.update s.map core hdl_func⟩
  | unregister {s : Registry H} {dd : HandlerDev H} {core : IPC_CC_CORE_T} :
      ipc_cc_unregister_handler (some s.dd) core = (0,some dd) →
      RegistryStep s (.unregister core) ⟨dd,Function.update s.map core none⟩
  | interrupt {s : Registry H} {regs : UINT32 → UINT32} {cpux_sts cpux_inten : UINT32} :
      RegistryStep s (.interrupt (ipc_cc_irq_handler { s.dd with regs := regs } cpux_sts cpux_inten))
        ⟨{ s.dd with regs := regs },s.map⟩

/-- Every core's field is what the map has, and every interrupt makes exactly the
    calls that the map asks for. -/
def PerCore (s : Registry H) : Prop :=
  s.dd.handler = s.map ∧
    ∀ regs cpux_sts cpux_inten, ipc_cc_irq_handler { s.dd with regs := regs } cpux_sts cpux_inten =
      expectedCalls s.map s.dd.running_core regs

/-- A handler is registered where `CPU2` runs, or for the running core, or is null;
    and an unregistration is for the running core, or neither that core nor the
    core in question has a handler. -/
def InStep (s : Registry H) : RegistryEvent H → Prop
  | .register core hdl_func => s.dd.running_core = IPC_CC_CORE_CPU2 ∨ core = s.dd.running_core ∨ hdl_func = none
  | .unregister core => core = s.dd.running_core ∨ s.map core = none ∧ s.map s.dd.running_core = none
  | .interrupt _ => True

section
variable {dd dd' : HandlerDev H} {core : IPC_CC_CORE_T} {hdl_func : Option H}

/-- A registration sets the field of the core. -/
theorem register_handler (called : ipc_cc_register_handler (some dd) core hdl_func = (0,some dd')) :
    dd'.running_core = dd.running_core ∧ dd'.handler = Function.update dd.handler core hdl_func := by
  cases core <;> cases called
  all_goals refine ⟨rfl,funext fun c => ?_⟩
  all_goals cases c <;> rfl

/-- An unregistration empties the field of the running core. -/
theorem unregister_handler (called : ipc_cc_unregister_handler (some dd) core = (0,some dd')) :
    dd'.running_core = dd.running_core ∧ dd'.handler = Function.update dd.handler dd.running_core none := by
  simp only [ipc_cc_unregister_handler] at called
  cases running : dd.running_core <;> simp only [running] at called <;> cases called
  all_goals refine ⟨running,funext fun c => ?_⟩
  all_goals cases c <;> rfl

theorem handleEvent_eq (running_core : IPC_CC_CORE_T) (sts inten : UINT32) (core : IPC_CC_CORE_T) (handler : Option H)
    (event : IPC_CC_EVENT_T) : handleEvent running_core sts inten core handler event =
      if core ≠ running_core ∧ event_from sts core ∧ event_from inten core then
        (handler.map fun h => (h,event)).toList else [] := by
  by_cases same : running_core = core
  · simp [handleEvent,same]
  · by_cases pending : event_from sts core = true
    · by_cases enabled : event_from inten core = true
      · simp [handleEvent,same,Ne.symm same,pending,enabled]
      · simp [handleEvent,enabled]
    · simp [handleEvent,pending]

/-- With the registers in the locals an interrupt makes the calls of the fields. -/
theorem irq_calls {sts inten : UINT32} {regs : UINT32 → UINT32}
    (locals : irqLocals dd sts inten = some (regs (irqRegs dd.running_core).1,regs (irqRegs dd.running_core).2)) :
    ipc_cc_irq_handler dd sts inten = expectedCalls dd.handler dd.running_core regs := by
  simp [ipc_cc_irq_handler,locals,expectedCalls,handleEvent_eq,HandlerDev.handler]

/-- Without a handler of another core an interrupt calls none, and asks for none. -/
theorem irq_silent (silent : ∀ c, c ≠ dd.running_core → dd.handler c = none) (sts inten : UINT32) (regs : UINT32 → UINT32) :
    ipc_cc_irq_handler { dd with regs := regs } sts inten = [] ∧ expectedCalls dd.handler dd.running_core regs = [] := by
  have part (sts inten : UINT32) (c : IPC_CC_CORE_T) (event : IPC_CC_EVENT_T) :
      handleEvent dd.running_core sts inten c (dd.handler c) event = [] := by
    rw [handleEvent_eq]
    split
    · rename_i other
      rw [silent c other.1]
      rfl
    · rfl
  constructor
  · rw [ipc_cc_irq_handler]
    split
    · rfl
    · have cpu1 (sts inten : UINT32) := part sts inten IPC_CC_CORE_CPU1 IPC_CC_EVT_FROM_CPU1
      have cpu2 (sts inten : UINT32) := part sts inten IPC_CC_CORE_CPU2 IPC_CC_EVT_FROM_CPU2
      have dsp (sts inten : UINT32) := part sts inten IPC_CC_CORE_DSP IPC_CC_EVT_FROM_DSP
      simp only [HandlerDev.handler] at cpu1 cpu2 dsp
      simp only [cpu1,cpu2,dsp,List.append_nil]
  · have none := part (regs (irqRegs dd.running_core).1) (regs (irqRegs dd.running_core).2)
    simp only [handleEvent_eq] at none
    simp [expectedCalls,none]

/-- Where a core other than `CPU2` runs, the locals may ask for the handler of any other core. -/
theorem irq_stray {c : IPC_CC_CORE_T} {h : H} (core : dd.running_core ≠ IPC_CC_CORE_MAX)
    (away : dd.running_core ≠ IPC_CC_CORE_CPU2) (other : c ≠ dd.running_core) (has : dd.handler c = some h) :
    ipc_cc_irq_handler dd 7 7 ≠ [] := by
  have locals : irqLocals dd 7 7 = some (7,7) := by
    cases running : dd.running_core <;> simp_all [irqLocals]
  have asked : event_from 7 c = true := by
    cases c with
    | IPC_CC_CORE_MAX => cases has
    | IPC_CC_CORE_CPU1 | IPC_CC_CORE_CPU2 | IPC_CC_CORE_CPU3 => decide
  simp only [ipc_cc_irq_handler,locals,handleEvent_eq,ne_eq,List.append_eq_nil_iff]
  rintro ⟨⟨cpu1,cpu2⟩,dsp⟩
  cases c with
  | IPC_CC_CORE_MAX => cases has
  | IPC_CC_CORE_CPU1 => simp_all [HandlerDev.handler]
  | IPC_CC_CORE_CPU2 => simp_all [HandlerDev.handler]
  | IPC_CC_CORE_CPU3 => simp_all [HandlerDev.handler]

theorem handler_regs (regs : UINT32 → UINT32) : ({ dd with regs := regs } : HandlerDev H).handler = dd.handler := by
  funext c
  cases c <;> rfl

/-- Fields and dispatch follow the map exactly if the fields do and, where a core
    other than `CPU2` runs, no other core has a handler. -/
theorem perCore_iff {s : Registry H} (core : s.dd.running_core ≠ IPC_CC_CORE_MAX) :
    PerCore s ↔ s.dd.handler = s.map ∧
      (s.dd.running_core = IPC_CC_CORE_CPU2 ∨ ∀ c, c ≠ s.dd.running_core → s.map c = none) := by
  constructor
  · rintro ⟨fields,dispatch⟩
    refine ⟨fields,?_⟩
    by_contra fails
    push Not at fails
    obtain ⟨away,c,other,some⟩ := fails
    obtain ⟨h,has⟩ := Option.ne_none_iff_exists'.mp some
    rw [← fields] at has
    have quiet : expectedCalls s.map s.dd.running_core (fun _ => 0) = [] := by
      have none (c : IPC_CC_CORE_T) : event_from 0 c = false := by cases c <;> rfl
      simp [expectedCalls,none]
    have stray : ipc_cc_irq_handler { s.dd with regs := fun _ => 0 } 7 7 ≠ [] :=
      irq_stray core away other ((congrFun (handler_regs _) c).trans has)
    rw [dispatch,quiet] at stray
    exact stray rfl
  · rintro ⟨fields,cpu2 | silent⟩
    · refine ⟨fields,fun regs sts inten => ?_⟩
      rw [← fields,← handler_regs regs]
      refine irq_calls ?_
      simp only [irqLocals,cpu2,irqRegs]
      rfl
    · refine ⟨fields,fun regs sts inten => ?_⟩
      rw [← fields] at silent ⊢
      obtain ⟨none,asked⟩ := irq_silent silent sts inten regs
      rw [none,asked]

end

/-- A step keeps fields and dispatch in line with the map exactly if it is in step. -/
theorem perCore_step {s s' : Registry H} {e : RegistryEvent H} (core : s.dd.running_core ≠ IPC_CC_CORE_MAX)
    (inv : PerCore s) (step : RegistryStep s e s') :
    s'.dd.running_core = s.dd.running_core ∧ (PerCore s' ↔ InStep s e) := by
  obtain ⟨fields,others⟩ := (perCore_iff core).mp inv
  cases step with
  | @register dd c hdl_func called =>
    obtain ⟨running,after⟩ := register_handler called
    refine ⟨running,(perCore_iff (running ▸ core)).trans ?_⟩
    simp only [after,fields,running,true_and,InStep]
    by_cases cpu2 : s.dd.running_core = IPC_CC_CORE_CPU2
    · simp [cpu2]
    · simp only [cpu2,false_or] at others ⊢
      constructor
      · intro silent
        by_cases own : c = s.dd.running_core
        · exact .inl own
        · have null := silent c own
          rw [Function.update_self] at null
          exact .inr null
      · rintro quiet d other
        by_cases same : d = c
        · subst same
          rw [Function.update_self]
          exact quiet.resolve_left other
        · rw [Function.update_of_ne same]
          exact others d other
  | @unregister dd c called =>
    obtain ⟨running,after⟩ := unregister_handler called
    refine ⟨running,(perCore_iff (running ▸ core)).trans ?_⟩
    simp only [after,fields,running,InStep]
    constructor
    · rintro ⟨same,_⟩
      by_cases own : c = s.dd.running_core
      · exact .inl own
      · have at_c := congrFun same c
        have at_running := congrFun same s.dd.running_core
        rw [Function.update_of_ne own,Function.update_self] at at_c
        rw [Function.update_self,Function.update_of_ne (Ne.symm own)] at at_running
        exact .inr ⟨at_c,at_running.symm⟩
    · intro order
      have same : Function.update s.map s.dd.running_core none = Function.update s.map c none := by
        rcases order with rfl | ⟨at_c,at_running⟩
        · rfl
        · rw [Function.update_eq_self_iff.mpr at_running.symm,Function.update_eq_self_iff.mpr at_c.symm]
      refine ⟨same,others.imp_right fun silent d other => ?_⟩
      by_cases at_c : d = c
      · rw [at_c,Function.update_self]
      · rw [Function.update_of_ne at_c]
        exact silent d other
  | @interrupt regs sts inten =>
    exact ⟨rfl,iff_of_true ⟨(handler_regs regs).trans fields,fun regs' => inv.2 regs'⟩ trivial⟩

/-- The device after `ipc_cc_probe`: no handler is registered. -/
def probed (running_core : IPC_CC_CORE_T) (regs : UINT32 → UINT32) : Registry H where
  dd := { running_core := running_core, regs := regs, cpu1_handler := none, cpu2_handler := none, dsp_handler := none }
  map := fun _ => none

theorem probed_perCore {running_core : IPC_CC_CORE_T} (core : running_core ≠ IPC_CC_CORE_MAX) (regs : UINT32 → UINT32) :
    PerCore (probed running_core regs : Registry H) := by
  refine (perCore_iff core).mpr ⟨funext fun c => ?_,.inr fun _ _ => rfl⟩
  cases c <;> rfl

/-- For every running core: in all states of a run the handlers are a map by core,
    in the fields and at every interrupt, exactly if every call is in step. -/
theorem per_core_iff {running_core : IPC_CC_CORE_T} (core : running_core ≠ IPC_CC_CORE_MAX) (regs : UINT32 → UINT32)
    (es : List (RegistryEvent H)) (s : Registry H) :
    (Run (Into RegistryStep PerCore) (probed running_core regs) es s ↔
      Run (Guarded RegistryStep InStep) (probed running_core regs) es s) ∧
    (Run (Guarded RegistryStep InStep) (probed running_core regs) es s → PerCore s) := by
  have start : (probed running_core regs : Registry H).dd.running_core ≠ IPC_CC_CORE_MAX ∧
      PerCore (probed running_core regs : Registry H) := ⟨core,probed_perCore core regs⟩
  have same : Run (Into RegistryStep PerCore) (probed running_core regs) es s ↔
      Run (Guarded RegistryStep InStep) (probed running_core regs) es s := by
    refine Run.guarded_iff (I := fun t => t.dd.running_core ≠ IPC_CC_CORE_MAX ∧ PerCore t) start ?_ ?_
    · exact fun t e u inv step => (perCore_step inv.1 inv.2 step).2
    · intro t e u inv step order
      obtain ⟨running,exact⟩ := perCore_step inv.1 inv.2 step
      exact ⟨running ▸ inv.1,exact.mpr order⟩
  exact ⟨same,fun run => (same.mpr run).into start.2⟩

/-- A handler registered for `CPU1` while `CPU2` runs gets the events of `CPU1`. -/
theorem per_core_iff_one_handler : ∃ s, Run RegistryStep (probed IPC_CC_CORE_CPU2 fun _ => 0) [.register IPC_CC_CORE_CPU1 (some 7)] s ∧
    PerCore s ∧ ipc_cc_irq_handler { s.dd with regs := fun _ => 1 } 0 0 = [(7,IPC_CC_EVT_FROM_CPU1)] := by
  have step : RegistryStep (probed IPC_CC_CORE_CPU2 fun _ => 0) (.register IPC_CC_CORE_CPU1 (some 7)) _ := .register rfl
  exact ⟨_,.one step,(per_core_iff (by decide) _ _ _).2 (.one ⟨step,.inl rfl⟩),by decide⟩

/-- The handler registered and unregistered for `CPU1` is called at the next event of `CPU1`. -/
theorem unregistered_handler_called : ∃ s, Run RegistryStep (probed IPC_CC_CORE_CPU2 fun _ => 0)
      [.register IPC_CC_CORE_CPU1 (some 7),.unregister IPC_CC_CORE_CPU1] s ∧
    s.map IPC_CC_CORE_CPU1 = none ∧
    ipc_cc_irq_handler { s.dd with regs := fun _ => 1 } 0 0 = [(7,IPC_CC_EVT_FROM_CPU1)] ∧ ¬ PerCore s := by
  have first : RegistryStep (probed IPC_CC_CORE_CPU2 fun _ => 0) (.register IPC_CC_CORE_CPU1 (some 7)) _ := .register rfl
  refine ⟨_,(Run.one first).snoc (.unregister rfl),rfl,by decide,fun perCore => ?_⟩
  have field := congrFun perCore.1 IPC_CC_CORE_CPU1
  exact absurd field (by decide)

end IpcMsq.Handlers
