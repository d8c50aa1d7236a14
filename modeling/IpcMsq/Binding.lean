import IpcMsq.CoreLocking

/-!
The platform driver of `ipc-cc.c`: probes and removes of its devices, with what the
kernel frees behind them. A probe stores the new device in `ipc_cc_dev` before it knows
whether it succeeds, and neither a failed probe nor a remove takes the pointer back.
A remove keeps the lock, but each probe makes a new one.
-/
namespace IpcMsq.Binding
open IpcMsq.Common IpcMsq.Communicator IpcMsq.Runs IpcMsq.Bits
open CoreLocking (CcDevice CoreCall Result code code_begins effect locks)
open Handlers (CC_CPU2_INTEN_REG_OFS)
open CoreOpen (OwnBits event_from_cpu2_inten)
open IPC_CC_CORE_T

variable {P H : Type}

@[simp] abbrev IPC_CC_DEFAULT_RUN_CORE : IPC_CC_CORE_T := IPC_CC_CORE_CPU2

/-- What a probe gets from the kernel and the device tree. There is no core without the
    property, nor without `CONFIG_OF`; a mapping that fails gives its error. -/
structure ProbeEnv where
  devm_kzalloc : Bool
  run_core : Option UINT32
  platform_get_resource : Bool
  platform_get_irq : INT32
  devm_ioremap_resource : Option INT32
  devm_request_irq : INT32
  isError : devm_ioremap_resource ≠ some 0

/-- Allocated memory of a device, with the registers of its platform device and its lock. -/
structure Instance (P H : Type) where
  pdev : P
  dd : CcDevice H
  held : Bool

/-- The module, the memory that is not freed, by the number of its allocation, and the
    registers of what is not bound. -/
structure Loaded (P H : Type) where
  ipc_cc_dev : Option Nat
  ipc_cc_run_core : IPC_CC_CORE_T
  drvdata : P → Option Nat
  dds : Nat → Option (Instance P H)
  next : Nat
  regs : P → UINT32 → UINT32

def loaded (regs : P → UINT32 → UINT32) : Loaded P H := ⟨none,IPC_CC_DEFAULT_RUN_CORE,fun _ => none,fun _ => none,0,regs⟩

def Loaded.keep (s : Loaded P H) (n : Nat) (i : Instance P H) : Loaded P H := { s with dds := Function.update s.dds n (some i) }

/-- The core of a number that the enumeration has. -/
def coreOf (core_id : UINT32) : IPC_CC_CORE_T :=
  if core_id = 0 then IPC_CC_CORE_CPU1 else if core_id = 1 then IPC_CC_CORE_CPU2 else IPC_CC_CORE_CPU3

def ipc_cc_of_probe (run_core : Option UINT32) (ipc_cc_run_core : IPC_CC_CORE_T) : INT32 × IPC_CC_CORE_T :=
  match run_core with
  | none => (-19,ipc_cc_run_core)
  | some core_id => (0,if core_id < IPC_CC_CORE_MAX.number then coreOf core_id else IPC_CC_DEFAULT_RUN_CORE)

/-- No result where the close never returns, or without a device. -/
def ipc_cc_remove (pdev : P) (s : Loaded P H) : Option (INT32 × Loaded P H) := do
  let n ← s.drvdata pdev
  let i ← s.dds n
  let ((),(dev,held)) ← CoreOpen.ipc_cc_close.run (i.dd.toIPC_CC_DEV_T,i.held)
  return (0,s.keep n { i with dd := { i.dd with toIPC_CC_DEV_T := dev }, held := held })

/-- What is bound to a platform device. -/
def Loaded.device (s : Loaded P H) (pdev : P) : Option (Instance P H) := (s.drvdata pdev).bind s.dds

/-- The registers of a platform device. -/
def Loaded.registers (s : Loaded P H) (pdev : P) : UINT32 → UINT32 :=
  match s.device pdev with
  | some i => i.dd.regs
  | none => s.regs pdev

section
variable [DecidableEq P]

/-- No result where the open never returns. The error of the mapping is read as that of
    `iobase`, and the device of the interrupt as `dd`. -/
def ipc_cc_probe (e : ProbeEnv) (pdev : P) (s : Loaded P H) : Option (INT32 × Loaded P H) :=
  if e.devm_kzalloc = false then some (-12,{ s with ipc_cc_dev := none })
  else
    let n := s.next
    let (ret,core) := ipc_cc_of_probe e.run_core s.ipc_cc_run_core
    let core := if ret ≠ 0 then IPC_CC_DEFAULT_RUN_CORE else core
    let s := { s with ipc_cc_dev := some n, next := n + 1, ipc_cc_run_core := core
                      drvdata := Function.update s.drvdata pdev (some n) }
    let dd : CcDevice H :=
      { running_core := core, regs := s.regs pdev, cpu1_handler := none, cpu2_handler := none, dsp_handler := none
        irq := -1, depth := 0 }
    if e.platform_get_resource = false then some (-19,s.keep n ⟨pdev,dd,false⟩)
    else
      let dd : CcDevice H := { dd with irq := e.platform_get_irq }
      if dd.irq < 0 then some (dd.irq,s.keep n ⟨pdev,dd,false⟩)
      else
        match e.devm_ioremap_resource with
        | some error => some (error,s.keep n ⟨pdev,dd,false⟩)
        | none =>
          if e.devm_request_irq ≠ 0 then some (e.devm_request_irq,s.keep n ⟨pdev,dd,false⟩)
          else
            (CoreOpen.ipc_cc_open.run (dd.toIPC_CC_DEV_T,false)).map fun (ret,(dev,held)) =>
              (ret,s.keep n ⟨pdev,{ dd with toIPC_CC_DEV_T := dev },held⟩)

/-- What the kernel does behind a failed probe and behind a remove. -/
def devres_release_all (pdev : P) (s : Loaded P H) : Loaded P H :=
  { s with dds := fun n => (s.dds n).filter fun i => i.pdev ≠ pdev
           drvdata := Function.update s.drvdata pdev none
           regs := Function.update s.regs pdev (s.registers pdev) }

inductive LoadEvent (P H : Type)
  | probe (pdev : P) (e : ProbeEnv)
  | remove (pdev : P)
  | entry (c : CoreCall H) (r : Result)

/-- The entries that the module exports. -/
def Exported (c : CoreCall H) : Prop := c ≠ .ipc_cc_open ∧ c ≠ .ipc_cc_close

variable (values : UndefinedValues)

/-- A probe of a device that is not bound, a remove of one that is, and a call of an entry
    with a pointer that is null or to a device. With a pointer to freed memory there are
    the calls that return before their lock; any other is undefined. -/
inductive LoadStep : Loaded P H → LoadEvent P H → Loaded P H → Prop
  | bound {s t : Loaded P H} {pdev : P} {e : ProbeEnv} : s.drvdata pdev = none → ipc_cc_probe e pdev s = some (0,t) →
      LoadStep s (.probe pdev e) t
  | failed {s t : Loaded P H} {pdev : P} {e : ProbeEnv} {ret : INT32} : s.drvdata pdev = none →
      ipc_cc_probe e pdev s = some (ret,t) → ret ≠ 0 → LoadStep s (.probe pdev e) (devres_release_all pdev t)
  | remove {s t : Loaded P H} {pdev : P} {ret : INT32} : ipc_cc_remove pdev s = some (ret,t) →
      LoadStep s (.remove pdev) (devres_release_all pdev t)
  | entry {s : Loaded P H} {n : Nat} {i : Instance P H} {c : CoreCall H} : Exported c → s.ipc_cc_dev = some n → s.dds n = some i →
      i.held = false → LoadStep s (.entry c (effect true values c i.dd).1) (s.keep n { i with dd := (effect true values c i.dd).2 })
  | early {s : Loaded P H} {n : Nat} {c : CoreCall H} {r : Result} : Exported c → s.ipc_cc_dev = some n → s.dds n = none →
      code true values c = .done r → LoadStep s (.entry c r) s
  | null {s : Loaded P H} {dd : CcDevice H} {c : CoreCall H} : Exported c → s.ipc_cc_dev = none →
      LoadStep s (.entry c (effect false values c dd).1) s

/-! ### What a probe does -/

/-- The core that a probe chooses. -/
def ProbeEnv.core (e : ProbeEnv) : IPC_CC_CORE_T :=
  match e.run_core with
  | none => IPC_CC_DEFAULT_RUN_CORE
  | some core_id => if core_id < IPC_CC_CORE_MAX.number then coreOf core_id else IPC_CC_DEFAULT_RUN_CORE

/-- All that it asks for it gets. -/
def ProbeEnv.Succeeds (e : ProbeEnv) : Prop :=
  e.devm_kzalloc = true ∧ e.platform_get_resource = true ∧ ¬ e.platform_get_irq < 0 ∧ e.devm_ioremap_resource = none ∧
    e.devm_request_irq = 0

instance (e : ProbeEnv) : Decidable e.Succeeds := by
  unfold ProbeEnv.Succeeds
  infer_instance

/-- The module with the memory of a new device. -/
def Loaded.begun (s : Loaded P H) (pdev : P) (dd : CcDevice H) : Loaded P H :=
  { s with ipc_cc_dev := some s.next, next := s.next + 1, ipc_cc_run_core := dd.running_core
           drvdata := Function.update s.drvdata pdev (some s.next), dds := Function.update s.dds s.next (some ⟨pdev,dd,false⟩) }

section
variable {s t : Loaded P H} {pdev p : P} {e : ProbeEnv} {n : Nat} {i : Instance P H}

theorem core_supported (e : ProbeEnv) : e.core ≠ IPC_CC_CORE_MAX := by
  unfold ProbeEnv.core coreOf
  split
  · exact nofun
  · split
    · split
      · exact nofun
      · split <;> exact nofun
    · exact nofun

/-- An open of a supported core returns 0. -/
theorem open_zero {dd : IPC_CC_DEV_T} (supported : dd.running_core ≠ IPC_CC_CORE_MAX) :
    ∃ dd', CoreOpen.ipc_cc_open.run (dd,false) = some (0,(dd',false)) ∧ OwnBits .ipc_cc_open dd dd' := by
  obtain ⟨ret,dd',returned,own⟩ := CoreOpen.open_spec dd
  have zero : ret = 0 := by
    cases running : dd.running_core with
    | IPC_CC_CORE_MAX => exact absurd running supported
    | IPC_CC_CORE_CPU1 | IPC_CC_CORE_CPU2 | IPC_CC_CORE_CPU3 =>
      simp only [CoreOpen.ipc_cc_open,Spinlock.bind_run (Spinlock.spin_lock_free _),Spinlock.bind_run (Spinlock.shared_run _ _),
        running] at returned
      cases returned
      rfl
  rw [zero] at returned
  exact ⟨dd',returned,own⟩

/-- A probe always returns. Without memory it clears the pointer; else it leaves the
    pointer at the new device, also where it fails, and opens that where it succeeds. -/
theorem probe_cases (e : ProbeEnv) (pdev : P) (s : Loaded P H) :
    e.devm_kzalloc = false ∧ ipc_cc_probe e pdev s = some (-12,{ s with ipc_cc_dev := none }) ∨
    e.devm_kzalloc = true ∧ ∃ ret dd, ipc_cc_probe e pdev s = some (ret,s.begun pdev dd) ∧ dd.running_core = e.core ∧
      (ret = 0 ↔ e.Succeeds) ∧ (e.Succeeds → OwnBits .ipc_cc_open ⟨e.core,s.regs pdev⟩ dd.toIPC_CC_DEV_T) ∧
      (¬ e.Succeeds → dd.regs = s.regs pdev) := by
  have chosen : (if (ipc_cc_of_probe e.run_core s.ipc_cc_run_core).1 ≠ 0 then IPC_CC_DEFAULT_RUN_CORE
      else (ipc_cc_of_probe e.run_core s.ipc_cc_run_core).2) = e.core := by
    unfold ipc_cc_of_probe ProbeEnv.core
    split <;> rfl
  by_cases memory : e.devm_kzalloc = false
  · exact .inl ⟨memory,if_pos memory⟩
  refine .inr ⟨by simpa using memory,?_⟩
  let dd : CcDevice H := ⟨⟨⟨e.core,s.regs pdev⟩,none,none,none⟩,-1,0⟩
  have refused (ret irq : INT32) (error : ret ≠ 0) (fails : ¬ e.Succeeds)
      (called : ipc_cc_probe e pdev s = some (ret,s.begun pdev { dd with irq := irq })) :
      ∃ ret dd, ipc_cc_probe e pdev s = some (ret,s.begun pdev dd) ∧ dd.running_core = e.core ∧ (ret = 0 ↔ e.Succeeds) ∧
        (e.Succeeds → OwnBits .ipc_cc_open ⟨e.core,s.regs pdev⟩ dd.toIPC_CC_DEV_T) ∧ (¬ e.Succeeds → dd.regs = s.regs pdev) :=
    ⟨ret,{ dd with irq := irq },called,rfl,iff_of_false error fails,fun succeeds => absurd succeeds fails,fun _ => rfl⟩
  by_cases resource : e.platform_get_resource = false
  · refine refused (-19) (-1) (by decide) (fun succeeds => by simp [succeeds.2.1] at resource) ?_
    simp only [ipc_cc_probe,if_neg memory,chosen,if_pos resource]
    rfl
  by_cases line : e.platform_get_irq < 0
  · refine refused e.platform_get_irq e.platform_get_irq ?_ (fun succeeds => succeeds.2.2.1 line) ?_
    · intro zero
      rw [zero] at line
      exact absurd line (by decide)
    · simp only [ipc_cc_probe,if_neg memory,chosen,if_neg resource,if_pos line]
      rfl
  cases mapping : e.devm_ioremap_resource with
  | some error =>
    refine refused error e.platform_get_irq ?_ (fun succeeds => ?_) ?_
    · rintro rfl
      exact e.isError mapping
    · cases mapping.symm.trans succeeds.2.2.2.1
    · simp only [ipc_cc_probe,if_neg memory,chosen,if_neg resource,if_neg line,mapping]
      rfl
  | none =>
    by_cases request : e.devm_request_irq = 0
    · have succeeds : e.Succeeds := ⟨by simpa using memory,by simpa using resource,line,mapping,request⟩
      obtain ⟨dev,opened,own⟩ : ∃ dev, CoreOpen.ipc_cc_open.run (⟨e.core,s.regs pdev⟩,false) = some (0,(dev,false)) ∧
        OwnBits .ipc_cc_open ⟨e.core,s.regs pdev⟩ dev := open_zero (core_supported e)
      refine ⟨0,{ dd with toIPC_CC_DEV_T := dev, irq := e.platform_get_irq },?_,own.1,iff_of_true rfl succeeds,fun _ => own,
        fun fails => absurd succeeds fails⟩
      simp only [ipc_cc_probe,if_neg memory,chosen,if_neg resource,if_neg line,mapping,request,ne_eq,not_true,if_false,opened]
      rw [Loaded.begun,own.1]
      rfl
    · refine refused e.devm_request_irq e.platform_get_irq request (fun succeeds => request succeeds.2.2.2.2) ?_
      simp only [ipc_cc_probe,if_neg memory,chosen,if_neg resource,if_neg line,mapping,ne_eq,request,not_false_eq_true,if_true]
      rfl

/-! ### What an entry does to the device -/

/-- The registers that a send writes. -/
def sendRegs (l : SendLocals) : List UINT32 :=
  [l.sts_reg_ofs,l.act_reg_ofs,l.cmdbuf1_reg_ofs,l.cmdbuf2_reg_ofs,l.cmdbuf3_reg_ofs]

theorem write_apart {dd : IPC_CC_DEV_T} {ofs : UINT32} (data : UINT32) (apart : ofs ≠ CC_CPU2_INTEN_REG_OFS) :
    (ipc_cc_write dd ofs data).regs CC_CPU2_INTEN_REG_OFS = dd.regs CC_CPU2_INTEN_REG_OFS :=
  Function.update_of_ne apart.symm _ _

theorem send_device (core_sendto : IPC_CC_CORE_T) (cmd : IPC_CC_CMD_T) (l : SendLocals) (dd : IPC_CC_DEV_T) :
    ∃ dd', (ipc_cc_send_cmd values (some dd) core_sendto cmd l).2 = some dd' ∧ dd'.running_core = dd.running_core ∧
      ((∀ l', sendOffsets dd.running_core core_sendto l = some l' → ∀ ofs ∈ sendRegs l', ofs ≠ CC_CPU2_INTEN_REG_OFS) →
        dd'.regs CC_CPU2_INTEN_REG_OFS = dd.regs CC_CPU2_INTEN_REG_OFS) := by
  simp only [ipc_cc_send_cmd]
  cases sendOffsets dd.running_core core_sendto l with
  | none => exact ⟨dd,rfl,rfl,fun _ => rfl⟩
  | some l' =>
    refine ⟨_,rfl,rfl,fun apart => ?_⟩
    have written := apart l' rfl
    simp only [sendRegs,List.forall_mem_cons] at written
    rw [write_apart _ written.2.1,write_apart _ written.2.2.2.2.1,write_apart _ written.2.2.2.1,write_apart _ written.2.2.1,
      write_apart _ written.1]

theorem ack_device (core_sendto : IPC_CC_CORE_T) (dd : IPC_CC_DEV_T) :
    ∃ dd', (ipc_cc_send_ack (some dd) core_sendto).2.1 = some dd' ∧ dd'.running_core = dd.running_core ∧
      dd'.regs CC_CPU2_INTEN_REG_OFS = dd.regs CC_CPU2_INTEN_REG_OFS := by
  simp only [ipc_cc_send_ack]
  split
  · exact ⟨dd,rfl,rfl,rfl⟩
  split
  · exact ⟨dd,rfl,rfl,rfl⟩
  cases running : dd.running_core with
  | IPC_CC_CORE_CPU1 | IPC_CC_CORE_CPU2 | IPC_CC_CORE_CPU3 => exact ⟨_,rfl,running,write_apart _ (by decide)⟩
  | IPC_CC_CORE_MAX => exact ⟨dd,rfl,running,rfl⟩

/-- A send does not write the enable register of `CPU2`: those of its offsets that the
    switch does not set are uninitialised locals. -/
def Apart (running_core : IPC_CC_CORE_T) : CoreCall H → Prop
  | .ipc_cc_send_cmd core_sendto _ l =>
    ∀ l', sendOffsets running_core core_sendto l = some l' → ∀ ofs ∈ sendRegs l', ofs ≠ CC_CPU2_INTEN_REG_OFS
  | _ => True

/-- Where `CPU2` runs only the offset of the third command register is uninitialised. -/
theorem apart_cpu2 {core_sendto : IPC_CC_CORE_T} {cmd : IPC_CC_CMD_T} {l : SendLocals}
    (third : l.cmdbuf3_reg_ofs ≠ CC_CPU2_INTEN_REG_OFS) : Apart IPC_CC_CORE_CPU2 (.ipc_cc_send_cmd core_sendto cmd l : CoreCall H) := by
  intro l' set
  simp only [sendOffsets] at set
  split_ifs at set
  all_goals
    cases set
    simpa [sendRegs] using third

theorem effect_device {c : CoreCall H} (exported : Exported c) (dd : CcDevice H) :
    (effect true values c dd).2.running_core = dd.running_core ∧
      (Apart dd.running_core c → (effect true values c dd).2.regs CC_CPU2_INTEN_REG_OFS = dd.regs CC_CPU2_INTEN_REG_OFS) := by
  cases c with
  | ipc_cc_register_handler core hdl_func => cases core <;> exact ⟨rfl,fun _ => rfl⟩
  | ipc_cc_unregister_handler core =>
    simp only [effect,CoreLocking.onHandlers,if_true,Handlers.ipc_cc_unregister_handler]
    cases running : dd.running_core with
    | IPC_CC_CORE_CPU1 | IPC_CC_CORE_CPU2 | IPC_CC_CORE_CPU3 | IPC_CC_CORE_MAX => exact ⟨running,fun _ => rfl⟩
  | ipc_cc_send_cmd core_sendto cmd l =>
    obtain ⟨dd',sent,core,kept⟩ := send_device values core_sendto cmd l dd.toIPC_CC_DEV_T
    simp only [effect,CoreLocking.onDevice,if_true,sent,Option.getD_some]
    exact ⟨core,kept⟩
  | ipc_cc_get_cmd core_getfrom cmd l => exact ⟨rfl,fun _ => rfl⟩
  | ipc_cc_send_ack core_sendto =>
    obtain ⟨dd',acked,core,kept⟩ := ack_device core_sendto dd.toIPC_CC_DEV_T
    simp only [effect,CoreLocking.onDevice,if_true,acked,Option.getD_some]
    exact ⟨core,fun _ => kept⟩
  | ipc_cc_resume | ipc_cc_suspend =>
    simp only [effect]
    split
    · exact ⟨rfl,fun _ => rfl⟩
    · exact ⟨rfl,fun _ => rfl⟩
  | ipc_cc_open => exact absurd rfl exported.1
  | ipc_cc_close => exact absurd rfl exported.2

end
end

/-! ### What is allocated -/

section
variable {s t : Loaded P H} {pdev p : P} {n : Nat} {i : Instance P H}

@[simp] theorem keep_dds : (s.keep n i).dds = Function.update s.dds n (some i) := rfl
@[simp] theorem keep_drvdata : (s.keep n i).drvdata = s.drvdata := rfl
@[simp] theorem keep_pointer : (s.keep n i).ipc_cc_dev = s.ipc_cc_dev := rfl

/-- Only bound devices have memory, each one piece, with a free lock and a core that the
    switches know. -/
structure Sane (s : Loaded P H) : Prop where
  fresh : ∀ n, s.next ≤ n → s.dds n = none
  bound : ∀ p n, s.drvdata p = some n → ∃ i, s.dds n = some i ∧ i.pdev = p
  owned : ∀ n i, s.dds n = some i → s.drvdata i.pdev = some n ∧ i.held = false ∧ i.dd.running_core ≠ IPC_CC_CORE_MAX

theorem sane_loaded (regs : P → UINT32 → UINT32) : Sane (loaded regs : Loaded P H) := ⟨fun _ _ => rfl,nofun,nofun⟩

theorem sane_keep (sane : Sane s) (live : s.dds n = some i) {i' : Instance P H} (own : i'.pdev = i.pdev) (free : i'.held = false)
    (core : i'.dd.running_core = i.dd.running_core) : Sane (s.keep n i') where
  fresh m later := by
    have old : m ≠ n := by
      rintro rfl
      rw [sane.fresh m later] at live
      cases live
    rw [keep_dds,Function.update_of_ne old]
    exact sane.fresh m later
  bound p m has := by
    obtain ⟨i₁,live₁,at_p⟩ := sane.bound p m has
    by_cases same : m = n
    · subst same
      cases live.symm.trans live₁
      exact ⟨i',Function.update_self ..,own.trans at_p⟩
    · exact ⟨i₁,(Function.update_of_ne same ..).trans live₁,at_p⟩
  owned m i₁ live₁ := by
    by_cases same : m = n
    · subst same
      rw [keep_dds,Function.update_self] at live₁
      cases live₁
      obtain ⟨has,_,supported⟩ := sane.owned m i live
      rw [own,core]
      exact ⟨has,free,supported⟩
    · rw [keep_dds,Function.update_of_ne same] at live₁
      exact sane.owned m i₁ live₁

/-- A close returns. -/
theorem remove_spec (sane : Sane s) (has : s.drvdata pdev = some n) (live : s.dds n = some i) :
    ∃ dev, ipc_cc_remove pdev s = some (0,s.keep n { i with dd := { i.dd with toIPC_CC_DEV_T := dev }, held := true }) ∧
      (OwnBits .ipc_cc_close i.dd.toIPC_CC_DEV_T dev ↔
        (i.dd.running_core = IPC_CC_CORE_CPU2 → bit (i.dd.regs CC_CPU2_INTEN_REG_OFS) event_from_cpu2_inten = false)) := by
  obtain ⟨_,free,supported⟩ := sane.owned n i live
  obtain ⟨dev,closed,own⟩ := CoreOpen.close_spec i.dd.toIPC_CC_DEV_T
  refine ⟨dev,?_,own⟩
  rw [decide_eq_true supported] at closed
  simp [ipc_cc_remove,has,live,free,closed]

theorem registers_bound (bound : s.device p = some i) : s.registers p = i.dd.regs := by
  simp only [Loaded.registers,bound]

theorem registers_unbound (unbound : s.device p = none) : s.registers p = s.regs p := by
  simp only [Loaded.registers,unbound]

/-- Devices with the same memory and registers are the same. -/
theorem registers_congr (same : t.device p = s.device p) (regs : t.regs p = s.regs p) : t.registers p = s.registers p := by
  simp only [Loaded.registers,same,regs]

end

section
variable [DecidableEq P] {s t : Loaded P H} {pdev p : P} {e : ProbeEnv} {n : Nat} {i : Instance P H}

@[simp] theorem release_drvdata : (devres_release_all pdev s).drvdata = Function.update s.drvdata pdev none := rfl
@[simp] theorem release_dds : (devres_release_all pdev s).dds = fun n => (s.dds n).filter fun i => i.pdev ≠ pdev := rfl
@[simp] theorem release_regs : (devres_release_all pdev s).regs = Function.update s.regs pdev (s.registers pdev) := rfl
@[simp] theorem release_pointer : (devres_release_all pdev s).ipc_cc_dev = s.ipc_cc_dev := rfl

theorem sane_begun (sane : Sane s) (unbound : s.drvdata pdev = none) {dd : CcDevice H} (supported : dd.running_core ≠ IPC_CC_CORE_MAX) :
    Sane (s.begun pdev dd) where
  fresh n later := by
    simp only [Loaded.begun] at later ⊢
    rw [Function.update_of_ne (by omega)]
    exact sane.fresh n (by omega)
  bound p n has := by
    simp only [Loaded.begun] at has ⊢
    by_cases own : p = pdev
    · subst own
      rw [Function.update_self] at has
      cases has
      exact ⟨_,Function.update_self ..,rfl⟩
    · rw [Function.update_of_ne own] at has
      obtain ⟨i,live,at_p⟩ := sane.bound p n has
      have old : n ≠ s.next := by
        rintro rfl
        rw [sane.fresh _ le_rfl] at live
        cases live
      exact ⟨i,(Function.update_of_ne old ..).trans live,at_p⟩
  owned n i live := by
    simp only [Loaded.begun] at live ⊢
    by_cases new : n = s.next
    · subst new
      rw [Function.update_self] at live
      cases live
      exact ⟨Function.update_self ..,rfl,supported⟩
    · rw [Function.update_of_ne new] at live
      obtain ⟨has,free,core⟩ := sane.owned n i live
      refine ⟨?_,free,core⟩
      rw [Function.update_of_ne,has]
      intro own
      rw [own,unbound] at has
      cases has

theorem released_some : (devres_release_all pdev s).dds n = some i ↔ s.dds n = some i ∧ i.pdev ≠ pdev := by
  simp [Option.filter_eq_some_iff]

theorem sane_release (sane : Sane s) (pdev : P) : Sane (devres_release_all pdev s) where
  fresh n later := by
    simp [sane.fresh n later]
  bound p n has := by
    by_cases own : p = pdev
    · rw [own,release_drvdata,Function.update_self] at has
      cases has
    · rw [release_drvdata,Function.update_of_ne own] at has
      obtain ⟨i,live,rfl⟩ := sane.bound p n has
      exact ⟨i,released_some.mpr ⟨live,own⟩,rfl⟩
  owned n i live := by
    obtain ⟨live,other⟩ := released_some.mp live
    obtain ⟨has,rest⟩ := sane.owned n i live
    exact ⟨(Function.update_of_ne other ..).trans has,rest⟩

/-- A release does not look at the memory that it frees, but for the registers. -/
theorem release_keep (live : s.dds n = some i) (own : i.pdev = pdev) {i' : Instance P H} (own' : i'.pdev = pdev)
    (has : s.drvdata pdev = some n) : devres_release_all pdev (s.keep n i') =
      { devres_release_all pdev s with regs := Function.update s.regs pdev i'.dd.regs } := by
  have filtered : (fun m => ((s.keep n i').dds m).filter fun i => decide (i.pdev ≠ pdev)) =
      fun m => (s.dds m).filter fun i => decide (i.pdev ≠ pdev) := by
    funext m
    by_cases same : m = n
    · subst same
      simp [live,own,own',Option.filter]
    · simp [Function.update_of_ne same]
  have registers : (s.keep n i').registers pdev = i'.dd.regs := by
    simp [Loaded.registers,Loaded.device,has]
  simp only [devres_release_all,filtered,registers]
  rfl

/-! ### The pointer -/

/-- What `ipc_cc_dev` is. -/
inductive Pointer (P : Type)
  | null
  | live (pdev : P)
  | freed

def Loaded.pointer (s : Loaded P H) : Pointer P :=
  match s.ipc_cc_dev with
  | none => .null
  | some n =>
    match s.dds n with
    | none => .freed
    | some i => .live i.pdev

/-- What an event makes of it: a probe decides by its memory and its success alone. -/
def Pointer.after (pointer : Pointer P) : LoadEvent P H → Pointer P
  | .probe pdev e => if e.devm_kzalloc = false then .null else if e.Succeeds then .live pdev else .freed
  | .remove pdev =>
    match pointer with
    | .live p => if p = pdev then .freed else .live p
    | .null => .null
    | .freed => .freed
  | .entry _ _ => pointer

/-- What a probe of a device that is not bound leaves: no pointer, a bound device, or the
    pointer to a device that is freed. -/
theorem probed_cases {values : UndefinedValues} (step : LoadStep values s (.probe pdev e) t) : s.drvdata pdev = none ∧
    (e.devm_kzalloc = false ∧ t = devres_release_all pdev { s with ipc_cc_dev := none } ∨
      e.devm_kzalloc = true ∧ ∃ dd, dd.running_core = e.core ∧
        (e.Succeeds ∧ OwnBits .ipc_cc_open ⟨e.core,s.regs pdev⟩ dd.toIPC_CC_DEV_T ∧ t = s.begun pdev dd ∨
          ¬ e.Succeeds ∧ dd.regs = s.regs pdev ∧ t = devres_release_all pdev (s.begun pdev dd))) := by
  cases step with
  | bound unbound called =>
    refine ⟨unbound,.inr ?_⟩
    rcases probe_cases e pdev s with ⟨_,none⟩ | ⟨memory,ret,dd,returned,core,success,opened,_⟩
    · cases called.symm.trans none
    · cases called.symm.trans returned
      have succeeds := success.mp rfl
      exact ⟨memory,dd,core,.inl ⟨succeeds,opened succeeds,rfl⟩⟩
  | failed unbound called error =>
    refine ⟨unbound,?_⟩
    rcases probe_cases e pdev s with ⟨memory,none⟩ | ⟨memory,ret,dd,returned,core,success,_,kept⟩
    · cases called.symm.trans none
      exact .inl ⟨memory,rfl⟩
    · cases called.symm.trans returned
      have fails : ¬ e.Succeeds := fun succeeds => error (success.mpr succeeds)
      exact .inr ⟨memory,dd,core,.inr ⟨fails,kept fails,rfl⟩⟩

/-- What a remove leaves. -/
theorem removed_cases {values : UndefinedValues} (sane : Sane s) (step : LoadStep values s (.remove pdev) t) :
    ∃ n i dev, s.drvdata pdev = some n ∧ s.dds n = some i ∧ i.pdev = pdev ∧
      t = { devres_release_all pdev s with regs := Function.update s.regs pdev dev.regs } ∧
      (OwnBits .ipc_cc_close i.dd.toIPC_CC_DEV_T dev ↔
        (i.dd.running_core = IPC_CC_CORE_CPU2 → bit (i.dd.regs CC_CPU2_INTEN_REG_OFS) event_from_cpu2_inten = false)) := by
  cases step with
  | remove called =>
    cases has : s.drvdata pdev with
    | none => simp [ipc_cc_remove,has] at called
    | some n =>
      obtain ⟨i,live,own⟩ := sane.bound pdev n has
      obtain ⟨dev,closed,bits⟩ := remove_spec sane has live
      cases called.symm.trans closed
      exact ⟨n,i,dev,rfl,live,own,release_keep live own own has,bits⟩

theorem sane_step {values : UndefinedValues} {ev : LoadEvent P H} (sane : Sane s) (step : LoadStep values s ev t) : Sane t := by
  cases ev with
  | probe pdev e =>
    obtain ⟨unbound,⟨_,rfl⟩ | ⟨_,dd,core,⟨_,_,rfl⟩ | ⟨_,_,rfl⟩⟩⟩ := probed_cases step
    · have cleared : Sane { s with ipc_cc_dev := none } := ⟨sane.fresh,sane.bound,sane.owned⟩
      exact sane_release cleared pdev
    · exact sane_begun sane unbound (core ▸ core_supported e)
    · exact sane_release (sane_begun sane unbound (core ▸ core_supported e)) pdev
  | remove pdev =>
    obtain ⟨n,i,dev,_,_,_,rfl,_⟩ := removed_cases sane step
    have released := sane_release sane pdev
    exact ⟨released.fresh,released.bound,released.owned⟩
  | entry c r =>
    cases step with
    | entry exported at_n live free => exact sane_keep sane live rfl free (effect_device values exported _).1
    | early | null => exact sane

/-- A release frees what the pointer is to, or not. -/
theorem release_tracked (s : Loaded P H) (pdev : P) :
    (devres_release_all pdev s).pointer = s.pointer.after (.remove pdev : LoadEvent P H) := by
  simp only [Loaded.pointer,release_pointer,release_dds]
  cases s.ipc_cc_dev with
  | none => rfl
  | some n =>
    cases live : s.dds n with
    | none => simp [live,Pointer.after]
    | some i =>
      by_cases own : i.pdev = pdev
      · simp [live,Pointer.after,Option.filter,own]
      · simp [live,Pointer.after,Option.filter,own]

theorem begun_pointer (s : Loaded P H) (pdev : P) (dd : CcDevice H) : (s.begun pdev dd).pointer = .live pdev := by
  simp [Loaded.pointer,Loaded.begun]

theorem pointer_step {values : UndefinedValues} {ev : LoadEvent P H} (sane : Sane s) (step : LoadStep values s ev t) :
    t.pointer = s.pointer.after ev := by
  cases ev with
  | probe pdev e =>
    obtain ⟨_,⟨memory,rfl⟩ | ⟨memory,dd,_,⟨succeeds,_,rfl⟩ | ⟨fails,_,rfl⟩⟩⟩ := probed_cases step
    · rw [release_tracked]
      simp [Loaded.pointer,Pointer.after,memory]
    · rw [begun_pointer]
      simp [Pointer.after,memory,succeeds]
    · rw [release_tracked,begun_pointer]
      simp [Pointer.after,memory,fails]
  | remove pdev =>
    obtain ⟨n,i,dev,_,_,_,rfl,_⟩ := removed_cases sane step
    exact release_tracked s pdev
  | entry c r =>
    cases step with
    | entry exported at_n live free => simp [Loaded.pointer,at_n,live,Pointer.after]
    | early | null => rfl

theorem sane_run {values : UndefinedValues} {regs : P → UINT32 → UINT32} {es : List (LoadEvent P H)}
    (run : Run (LoadStep values) (loaded regs) es s) : Sane s :=
  run.preserves (sane_loaded regs) fun _ _ _ => sane_step

/-- Over every run of probes, removes and calls of any devices: `ipc_cc_dev` is what the
    events make of it, so it dangles exactly if the last probe that got memory failed or
    its device was removed since, and no later probe ran out of memory; and exactly then
    a call of an entry is undefined that gets past the tests before its lock. -/
theorem pointer_is_tracked {values : UndefinedValues} {regs : P → UINT32 → UINT32} {es : List (LoadEvent P H)}
    (run : Run (LoadStep values) (loaded regs) es s) : s.pointer = es.foldl Pointer.after .null ∧
      ∀ c : CoreCall H, Exported c → ((∃ r t, LoadStep values s (.entry c r) t) ↔
        ¬ (s.pointer = .freed ∧ locks true c = true)) := by
  constructor
  · induction run with
    | nil => rfl
    | snoc before last ih =>
      rw [List.foldl_append,← ih]
      exact pointer_step (sane_run before) last
  intro c exported
  constructor
  · rintro ⟨r,t,step⟩ ⟨freed,asks⟩
    cases step with
    | entry _ at_n live _ => simp [Loaded.pointer,at_n,live] at freed
    | null _ none => simp [Loaded.pointer,none] at freed
    | early _ _ _ done =>
      rcases @code_begins H true values c with ⟨_,⟨rest,begins⟩ | ⟨rest,begins⟩⟩ | ⟨quick,_⟩
      · cases done.symm.trans begins
      · cases done.symm.trans begins
      · cases asks.symm.trans quick
  · intro defined
    cases at_n : s.ipc_cc_dev with
    | none =>
      let dd : CcDevice H := ⟨⟨⟨IPC_CC_CORE_CPU2,fun _ => 0⟩,none,none,none⟩,-1,0⟩
      have called : LoadStep values s (.entry c (effect false values c dd).1) s := .null exported at_n
      exact ⟨_,_,called⟩
    | some n =>
      cases live : s.dds n with
      | none =>
        have freed : s.pointer = .freed := by simp [Loaded.pointer,at_n,live]
        rcases @code_begins H true values c with ⟨asks,_⟩ | ⟨_,r,done⟩
        · exact absurd ⟨freed,asks⟩ defined
        · exact ⟨r,s,.early exported at_n live done⟩
      | some i => exact ⟨_,_,.entry exported at_n live ((sane_run run).owned n i live).2.1⟩

/-- A probe on `CPU2` that gets all it asks for. -/
def answered : ProbeEnv := ⟨true,some 1,true,5,none,0,nofun⟩

/-- A send of `CPU2` to `CPU1`. The offset of the third command register is uninitialised. -/
def sendToCpu1 : CoreCall Unit := .ipc_cc_send_cmd IPC_CC_CORE_CPU1 ⟨5,0,4⟩ ⟨0,0,0,0,0,0⟩

/-- A probe, that send and a remove. -/
theorem one_cycle : ∃ (t u s : Loaded Unit Unit) (i : Instance Unit Unit) (r : Result),
    LoadStep ⟨0,1⟩ (loaded fun _ _ => 0) (.probe () answered) t ∧ LoadStep ⟨0,1⟩ t (.entry sendToCpu1 r) u ∧
      LoadStep ⟨0,1⟩ u (.remove ()) s ∧ t.ipc_cc_dev = some 0 ∧ t.dds 0 = some i ∧ i.dd.running_core = IPC_CC_CORE_CPU2 := by
  rcases probe_cases (H := Unit) answered () (loaded fun _ _ => 0) with ⟨memory,_⟩ | ⟨_,ret,dd,returned,core,success,_⟩
  · cases memory
  · rw [success.mpr ⟨rfl,rfl,by decide,rfl,rfl⟩] at returned
    let t : Loaded Unit Unit := (loaded fun _ _ => 0).begun () dd
    have probed : LoadStep ⟨0,1⟩ (loaded fun _ _ => 0) (.probe () answered) t := .bound rfl returned
    have at_zero : t.ipc_cc_dev = some 0 := rfl
    have live : t.dds 0 = some ⟨(),dd,false⟩ := by simp [t,Loaded.begun,loaded]
    let u := t.keep 0 ⟨(),(effect true ⟨0,1⟩ sendToCpu1 dd).2,false⟩
    have sent : LoadStep ⟨0,1⟩ t (.entry sendToCpu1 _) u := .entry (by simp [Exported,sendToCpu1]) at_zero live rfl
    have has : u.drvdata () = some 0 := by simp [u,t,Loaded.keep,Loaded.begun,loaded]
    have kept : u.dds 0 = some ⟨(),(effect true ⟨0,1⟩ sendToCpu1 dd).2,false⟩ := by simp [u,Loaded.keep]
    obtain ⟨dev,closed,_⟩ := remove_spec (sane_step (sane_step (sane_loaded _) probed) sent) has kept
    exact ⟨t,u,_,_,_,probed,sent,.remove closed,at_zero,live,core⟩

/-- The pointer of the removed device: a suspend is undefined, and an ack to no core returns. -/
theorem pointer_is_tracked_one_cycle : ∃ (r : Result) (s : Loaded Unit Unit),
    Run (LoadStep ⟨0,1⟩) (loaded fun _ _ => 0) [.probe () answered,.entry sendToCpu1 r,.remove ()] s ∧ s.pointer = .freed ∧
      (¬ ∃ r t, LoadStep ⟨0,1⟩ s (.entry .ipc_cc_suspend r) t) ∧
      ∃ r t, LoadStep ⟨0,1⟩ s (.entry (.ipc_cc_send_ack IPC_CC_CORE_MAX) r) t := by
  obtain ⟨t,u,s,i,r,probed,sent,removed,_⟩ := one_cycle
  have run := ((Run.one probed).snoc sent).snoc removed
  obtain ⟨pointer,defined⟩ := pointer_is_tracked run
  have freed : s.pointer = .freed := by
    rw [pointer]
    rfl
  refine ⟨r,s,run,freed,fun call => (defined .ipc_cc_suspend ⟨nofun,nofun⟩).mp call ⟨freed,rfl⟩,?_⟩
  exact (defined (.ipc_cc_send_ack IPC_CC_CORE_MAX) ⟨nofun,nofun⟩).mpr fun both => by cases both.2

end

end IpcMsq.Binding
