import IpcMsq.Handlers
import IpcMsq.PingPong

/-!
What the driver holds between `ipc_probe` and `ipc_remove`. A failed probe jumps to
the label that should release what it has; two of the labels are exchanged, none
unmaps the I/O memory or takes back the second handler, and `ipc_remove` never
frees `m_ctrl`. Handlers are unregistered by the core that runs.
-/
namespace IpcMsq.Probe
open IpcMsq.Common IpcMsq.Table IpcMsq.SendBuff IpcMsq.Communicator IpcMsq.Handlers IpcMsq.Runs
open IPC_CC_CORE_T

/-- What the driver gets from the kernel, apart from its handlers and its queues. -/
inductive Resource
  | region | cls | dev | my_cdev | m_ctrl | mapping
deriving DecidableEq

/-- Of each resource how often it was acquired less how often it was released, the
    handlers, and the queues. -/
structure DriverState (H : Type) where
  held : Resource → Int
  ipc_cc_dev : HandlerDev H
  g_msqinfo : Option IPC_MSQINFO
  bound : Bool

inductive CdevAlloc
  | allocated | error | null
deriving DecidableEq

/-- Which steps of a probe succeed. `cpu1`, `cpu3` and `unregister` say whether the
    communicator is there when the handler is registered or unregistered. -/
structure ProbeEnv where
  alloc_chardev_region : Bool
  class_create : Bool
  device_create : Bool
  cdev_alloc : CdevAlloc
  cdev_add : Bool
  kzalloc : Bool
  ioremap_nocache : Bool
  cpu1 : Bool
  cpu3 : Bool
  unregister : Bool
  kmalloc : Option IPC_MSQINFO
  dma : Option (UINT32 × UINT32)

variable {H : Type}

section
variable (s : DriverState H)

def DriverState.acquire (r : Resource) : DriverState H := { s with held := Function.update s.held r (s.held r + 1) }

def DriverState.release (r : Resource) : DriverState H := { s with held := Function.update s.held r (s.held r - 1) }

/-- A call of the communicator, which may not be there. -/
def DriverState.onDev (there : Bool) (call : Option (HandlerDev H) → INT32 × Option (HandlerDev H)) : INT32 × DriverState H :=
  let (ret,dd) := call (if there then some s.ipc_cc_dev else none)
  (ret,{ s with ipc_cc_dev := dd.getD s.ipc_cc_dev })

/-- Whether `class_destroy` ignores an error pointer is a parameter. -/
def class_destroy (ignoresError isError : Bool) : DriverState H := if isError && ignoresError then s else s.release .cls

/-! ### The labels of a failed probe -/

def FAILED_CREATE_DEVICE : DriverState H := s.release .region

def FAILED_CREATE_CLASS_DEVICE (ignoresError isError : Bool) : DriverState H :=
  FAILED_CREATE_DEVICE (class_destroy s ignoresError isError)

def FAILED_CDEV_ALLOC (ignoresError : Bool) : DriverState H := FAILED_CREATE_CLASS_DEVICE (s.release .dev) ignoresError false

def FAILED_CDEV_ADD (ignoresError : Bool) : DriverState H := FAILED_CDEV_ALLOC (s.release .my_cdev) ignoresError

def FAILED_ALLOC_MEM (ignoresError : Bool) : DriverState H := FAILED_CDEV_ADD (s.release .m_ctrl) ignoresError

def FAILED_INIT_CORE_HANDLER (ignoresError unregister : Bool) : DriverState H :=
  FAILED_ALLOC_MEM (s.onDev unregister (ipc_cc_unregister_handler · IPC_CC_CORE_CPU1)).2 ignoresError

end

/-- The steps of a probe from the first handler on. -/
def probeHandlers (ignoresError : Bool) (ipc_core_handler : H) (e : ProbeEnv) (s : DriverState H) : Outcome INT32 × DriverState H :=
  let (ret,s) := s.onDev e.cpu1 (ipc_cc_register_handler · IPC_CC_CORE_CPU1 (some ipc_core_handler))
  if ret ≠ 0 then (.returned (-8),FAILED_ALLOC_MEM s ignoresError)
  else
    let (ret,s) := s.onDev e.cpu3 (ipc_cc_register_handler · IPC_CC_CORE_CPU3 (some ipc_core_handler))
    if ret ≠ 0 then (.returned (-9),FAILED_INIT_CORE_HANDLER s ignoresError e.unregister)
    else
      let (ret,g) := ipc_msgque_init s.g_msqinfo e.kmalloc e.dma
      let s := { s with g_msqinfo := g }
      if ret ≠ 0 then (.returned (-8),FAILED_INIT_CORE_HANDLER s ignoresError e.unregister)
      else (.returned ret,s)

/-- A null pointer from `cdev_alloc` passes the test for an error pointer and is
    dereferenced. -/
def ipc_probe (ignoresError : Bool) (ipc_core_handler : H) (e : ProbeEnv) (s : DriverState H) : Outcome INT32 × DriverState H :=
  if e.alloc_chardev_region = false then (.returned (-1),s)
  else
    let s := s.acquire .region
    if e.class_create = false then (.returned (-2),FAILED_CREATE_CLASS_DEVICE s ignoresError true)
    else
      let s := s.acquire .cls
      if e.device_create = false then (.returned (-3),FAILED_CREATE_DEVICE s)
      else
        let s := s.acquire .dev
        match e.cdev_alloc with
        | .null => (.undefined,s)
        | .error => (.returned (-4),FAILED_CDEV_ALLOC s ignoresError)
        | .allocated =>
          let s := s.acquire .my_cdev
          if e.cdev_add = false then (.returned (-5),FAILED_CDEV_ADD s ignoresError)
          else if e.kzalloc = false then (.returned (-6),FAILED_CDEV_ADD s ignoresError)
          else
            let s := s.acquire .m_ctrl
            if e.ioremap_nocache = false then (.returned (-7),FAILED_ALLOC_MEM s ignoresError)
            else probeHandlers ignoresError ipc_core_handler e (s.acquire .mapping)

/-- Both allocations are freed, and the pointer is null. -/
def ipc_msgque_exit (_g : Option IPC_MSQINFO) : Option IPC_MSQINFO := none

def ipc_remove (cpu1 cpu3 : Bool) (s : DriverState H) : INT32 × DriverState H :=
  let s := s.release .my_cdev
  let s := s.release .dev
  let s := s.release .cls
  let s := s.release .region
  let s := s.release .mapping
  let (_,s) := s.onDev cpu1 (ipc_cc_unregister_handler · IPC_CC_CORE_CPU1)
  let (ret,s) := s.onDev cpu3 (ipc_cc_unregister_handler · IPC_CC_CORE_CPU3)
  (ret,{ s with g_msqinfo := ipc_msgque_exit s.g_msqinfo })

inductive ProbeEvent
  | probe (e : ProbeEnv)
  | remove (cpu1 cpu3 : Bool)

/-- A probe of an unbound device, or a remove of a bound one. -/
inductive ProbeStep (ignoresError : Bool) (ipc_core_handler : H) : DriverState H → ProbeEvent → DriverState H → Prop
  | bound {s t : DriverState H} {e : ProbeEnv} :
      s.bound = false → ipc_probe ignoresError ipc_core_handler e s = (.returned 0,t) →
      ProbeStep ignoresError ipc_core_handler s (.probe e) { t with bound := true }
  | failed {s t : DriverState H} {e : ProbeEnv} {out : Outcome INT32} :
      s.bound = false → ipc_probe ignoresError ipc_core_handler e s = (out,t) → out ≠ .returned 0 →
      ProbeStep ignoresError ipc_core_handler s (.probe e) { t with bound := false }
  | remove {s : DriverState H} {cpu1 cpu3 : Bool} : s.bound = true →
      ProbeStep ignoresError ipc_core_handler s (.remove cpu1 cpu3) { (ipc_remove cpu1 cpu3 s).2 with bound := false }

/-- Nothing is held. -/
structure Empty (ipc_core_handler : H) (s : DriverState H) : Prop where
  held : s.held = fun _ => 0
  cpu1 : s.ipc_cc_dev.cpu1_handler ≠ some ipc_core_handler
  cpu3 : s.ipc_cc_dev.dsp_handler ≠ some ipc_core_handler
  queues : s.g_msqinfo = none

/-- Everything is held once. -/
structure Full (ipc_core_handler : H) (s : DriverState H) : Prop where
  held : s.held = fun _ => 1
  cpu1 : s.ipc_cc_dev.cpu1_handler = some ipc_core_handler
  cpu3 : s.ipc_cc_dev.dsp_handler = some ipc_core_handler
  queues : s.g_msqinfo ≠ none

/-- While the device is not bound nothing is held. -/
def Balanced (ipc_core_handler : H) (s : DriverState H) : Prop := s.bound = false → Empty ipc_core_handler s

/-- Every step succeeds from the mapping on. -/
def ProbeEnv.Succeeds (e : ProbeEnv) : Prop :=
  e.cpu1 = true ∧ e.cpu3 = true ∧ e.kmalloc.isSome ∧ e.dma.isSome

/-- The probe fails at a step whose label releases what is held, or nowhere. -/
def ProbeEnv.Unwinds (ignoresError : Bool) (e : ProbeEnv) : Prop :=
  e.alloc_chardev_region = false ∨
  (if e.class_create = false then ignoresError = true
   else e.device_create = true ∧ (e.cdev_alloc = .error ∨ e.cdev_alloc = .allocated ∧
     (e.cdev_add = false ∨ e.kzalloc = false ∨ e.ioremap_nocache = false ∨ e.Succeeds)))

/-- Such a probe; no remove is in order. -/
def InOrder (ignoresError : Bool) : ProbeEvent → Prop
  | .probe e => e.Unwinds ignoresError
  | .remove _ _ => False

variable {ignoresError : Bool} {ipc_core_handler : H} {e : ProbeEnv}

section
variable {s t : DriverState H} {out : Outcome INT32}

@[simp] theorem onDev_held (there : Bool) (call : Option (HandlerDev H) → INT32 × Option (HandlerDev H)) :
    (s.onDev there call).2.held = s.held := rfl

theorem register_cpu1 (there : Bool) : s.onDev there (ipc_cc_register_handler · IPC_CC_CORE_CPU1 (some ipc_core_handler)) =
    if there then (0,{ s with ipc_cc_dev := { s.ipc_cc_dev with cpu1_handler := some ipc_core_handler } }) else (-1,s) := by
  cases there <;> rfl

theorem register_cpu3 (there : Bool) : s.onDev there (ipc_cc_register_handler · IPC_CC_CORE_CPU3 (some ipc_core_handler)) =
    if there then (0,{ s with ipc_cc_dev := { s.ipc_cc_dev with dsp_handler := some ipc_core_handler } }) else (-1,s) := by
  cases there <;> rfl

theorem not_empty {r : Resource} (left : s.held r ≠ 0) : ¬ Empty ipc_core_handler s := by
  intro empty
  rw [empty.held] at left
  exact left rfl

/-- Nothing is held where as much was released as acquired. -/
theorem empty_again (empty : Empty ipc_core_handler s) {held : Resource → Int} (zero : ∀ r, held r = s.held r) :
    Empty ipc_core_handler { s with held := held } :=
  ⟨(funext zero).trans empty.held,empty.cpu1,empty.cpu3,empty.queues⟩

/-- The queues are set up exactly if both allocations succeed. -/
theorem queues_init (kmalloc : Option IPC_MSQINFO) (dma : Option (UINT32 × UINT32)) :
    (kmalloc.isSome ∧ dma.isSome) ∧ (∃ info, ipc_msgque_init none kmalloc dma = (0,some info)) ∨
      ¬ (kmalloc.isSome ∧ dma.isSome) ∧ ∃ ret, ret ≠ 0 ∧ ipc_msgque_init none kmalloc dma = (ret,none) := by
  cases kmalloc with
  | none => exact .inr ⟨by simp,-ENOMEM,by decide,rfl⟩
  | some garbage =>
    cases dma with
    | none => exact .inr ⟨by simp,-ENOMEM,by decide,rfl⟩
    | some dma =>
      obtain ⟨info,done,_⟩ := PingPong.init_succeeds garbage dma.1 dma.2
      exact .inl ⟨by simp,info,done⟩

/-- From the first handler on the probe succeeds, or fails and leaves the mapping. -/
theorem probeHandlers_exact (held : s.held = fun _ => 1) (queues : s.g_msqinfo = none)
    (called : probeHandlers ignoresError ipc_core_handler e s = (out,t)) :
    e.Succeeds ∧ out = .returned 0 ∧ Full ipc_core_handler t ∨
      ¬ e.Succeeds ∧ out ≠ .returned 0 ∧ ¬ Empty ipc_core_handler t := by
  obtain ⟨_,dd,_,b⟩ := s
  subst held queues
  have mapping : (1 : Int) ≠ 0 := by decide
  simp only [probeHandlers,register_cpu1,ProbeEnv.Succeeds] at called ⊢
  cases first : e.cpu1 with
  | false =>
    rw [first] at called
    cases called
    exact .inr ⟨by simp,by decide,not_empty (r := .mapping) mapping⟩
  | true =>
    simp only [first,if_true,ne_eq,not_true,if_false,register_cpu3] at called
    cases second : e.cpu3 with
    | false =>
      rw [second] at called
      cases called
      exact .inr ⟨by simp,by decide,not_empty (r := .mapping) mapping⟩
    | true =>
      simp only [second,if_true,not_true,if_false] at called
      rcases queues_init e.kmalloc e.dma with ⟨allocated,info,done⟩ | ⟨short,ret,bad,failed⟩
      · rw [done] at called
        cases called
        exact .inl ⟨⟨rfl,rfl,allocated⟩,rfl,rfl,rfl,rfl,by simp⟩
      · rw [failed] at called
        simp only [if_pos bad] at called
        cases called
        exact .inr ⟨fun all => short all.2.2,by decide,not_empty (r := .mapping) mapping⟩

/-- From `cdev_alloc` on: nothing is held after a failure there or up to the mapping,
    apart from a null pointer. -/
theorem probe_chardev_exact (empty : Empty ipc_core_handler s) (region : e.alloc_chardev_region = true)
    (cls : e.class_create = true) (device : e.device_create = true)
    (called : ipc_probe ignoresError ipc_core_handler e s = (out,t)) :
    e.Unwinds ignoresError ∧ (out = .returned 0 ∧ Full ipc_core_handler t ∨ out ≠ .returned 0 ∧ Empty ipc_core_handler t) ∨
      ¬ e.Unwinds ignoresError ∧ out ≠ .returned 0 ∧ ¬ Empty ipc_core_handler t := by
  obtain ⟨held,dd,g,b⟩ := s
  obtain rfl : held = fun _ => 0 := empty.held
  obtain rfl : g = none := empty.queues
  simp only [ipc_probe,ProbeEnv.Unwinds,region,cls,device,Bool.true_eq_false,if_false,false_or,true_and] at called ⊢
  cases alloc : e.cdev_alloc with
  | null =>
    simp only [alloc] at called
    cases called
    exact .inr ⟨by simp,by decide,not_empty (r := .dev) (show (1 : Int) ≠ 0 by decide)⟩
  | error =>
    simp only [alloc] at called
    cases called
    exact .inl ⟨.inl rfl,.inr ⟨by decide,empty_again empty fun r => by cases r <;> rfl⟩⟩
  | allocated =>
    simp only [alloc,reduceCtorEq,false_or,true_and] at called ⊢
    by_cases add : e.cdev_add = false
    · rw [if_pos add] at called
      cases called
      exact .inl ⟨.inl add,.inr ⟨by decide,empty_again empty fun r => by cases r <;> rfl⟩⟩
    by_cases ctrl : e.kzalloc = false
    · rw [if_neg add,if_pos ctrl] at called
      cases called
      exact .inl ⟨.inr (.inl ctrl),.inr ⟨by decide,empty_again empty fun r => by cases r <;> rfl⟩⟩
    by_cases mapped : e.ioremap_nocache = false
    · rw [if_neg add,if_neg ctrl,if_pos mapped] at called
      cases called
      exact .inl ⟨.inr (.inr (.inl mapped)),.inr ⟨by decide,empty_again empty fun r => by cases r <;> rfl⟩⟩
    rw [if_neg add,if_neg ctrl,if_neg mapped] at called
    have all : (((((((⟨fun _ => 0,dd,none,b⟩ : DriverState H).acquire .region).acquire .cls).acquire .dev).acquire
        .my_cdev).acquire .m_ctrl).acquire .mapping).held = fun _ => 1 := by
      funext r
      cases r <;> rfl
    rcases probeHandlers_exact all rfl called with ⟨ok,done,full⟩ | ⟨short,failed,left⟩
    · exact .inl ⟨.inr (.inr (.inr ok)),.inl ⟨done,full⟩⟩
    · refine .inr ⟨?_,failed,left⟩
      rintro (no | no | no | ok)
      · exact add no
      · exact ctrl no
      · exact mapped no
      · exact short ok

/-- A probe that starts with nothing held holds everything or nothing after it exactly
    if it succeeds or fails where its label is right. -/
theorem probe_exact (empty : Empty ipc_core_handler s) (called : ipc_probe ignoresError ipc_core_handler e s = (out,t)) :
    e.Unwinds ignoresError ∧ (out = .returned 0 ∧ Full ipc_core_handler t ∨ out ≠ .returned 0 ∧ Empty ipc_core_handler t) ∨
      ¬ e.Unwinds ignoresError ∧ out ≠ .returned 0 ∧ ¬ Empty ipc_core_handler t := by
  cases region : e.alloc_chardev_region with
  | false =>
    simp only [ipc_probe,region,if_true] at called
    cases called
    exact .inl ⟨.inl region,.inr ⟨by decide,empty⟩⟩
  | true =>
    cases cls : e.class_create with
    | false =>
      obtain ⟨held,dd,g,b⟩ := s
      obtain rfl : held = fun _ => 0 := empty.held
      simp only [ipc_probe,ProbeEnv.Unwinds,region,cls,Bool.true_eq_false,if_false,if_true,false_or] at called ⊢
      cases called
      -- the label destroys a class that was never created, unless that is ignored
      cases ignoresError with
      | false => exact .inr ⟨by decide,by decide,not_empty (r := .cls) (show (-1 : Int) ≠ 0 by decide)⟩
      | true => exact .inl ⟨rfl,.inr ⟨by decide,empty_again empty fun r => by cases r <;> rfl⟩⟩
    | true =>
      cases device : e.device_create with
      | true => exact probe_chardev_exact empty region cls device called
      | false =>
        obtain ⟨held,dd,g,b⟩ := s
        obtain rfl : held = fun _ => 0 := empty.held
        simp only [ipc_probe,ProbeEnv.Unwinds,region,cls,device,Bool.true_eq_false,Bool.false_eq_true,if_false,if_true,
          false_or,false_and,not_false_eq_true] at called ⊢
        cases called
        exact ⟨trivial,by decide,not_empty (r := .cls) (show (1 : Int) ≠ 0 by decide)⟩

/-- A remove leaves `m_ctrl`. -/
theorem remove_leaves (full : s.held = fun _ => 1) (cpu1 cpu3 : Bool) : (ipc_remove cpu1 cpu3 s).2.held .m_ctrl = 1 := by
  have held : (ipc_remove cpu1 cpu3 s).2.held =
      (((((s.release .my_cdev).release .dev).release .cls).release .region).release .mapping).held := rfl
  rw [held]
  obtain ⟨_,_,_,_⟩ := s
  subst full
  rfl

/-- Between the calls the driver holds everything or nothing. -/
def Settled (ipc_core_handler : H) (s : DriverState H) : Prop :=
  s.bound = false ∧ Empty ipc_core_handler s ∨ s.bound = true ∧ Full ipc_core_handler s

theorem step_exact {ev : ProbeEvent} (settled : Settled ipc_core_handler s) (step : ProbeStep ignoresError ipc_core_handler s ev t) :
    InOrder ignoresError ev ∧ Settled ipc_core_handler t ∨ ¬ InOrder ignoresError ev ∧ ¬ Balanced ipc_core_handler t := by
  cases step with
  | bound unbound called =>
    have empty := settled.resolve_right fun both => absurd (unbound.symm.trans both.1) (by decide)
    rcases probe_exact empty.2 called with ⟨order,⟨_,full⟩ | ⟨failed,_⟩⟩ | ⟨_,failed,_⟩
    · exact .inl ⟨order,.inr ⟨rfl,full.held,full.cpu1,full.cpu3,full.queues⟩⟩
    · exact absurd rfl failed
    · exact absurd rfl failed
  | failed unbound called bad =>
    have empty := settled.resolve_right fun both => absurd (unbound.symm.trans both.1) (by decide)
    rcases probe_exact empty.2 called with ⟨order,⟨done,_⟩ | ⟨_,after⟩⟩ | ⟨out,_,left⟩
    · exact absurd done bad
    · exact .inl ⟨order,.inl ⟨rfl,after.held,after.cpu1,after.cpu3,after.queues⟩⟩
    · refine .inr ⟨out,fun balanced => left ?_⟩
      have after := balanced rfl
      exact ⟨after.held,after.cpu1,after.cpu3,after.queues⟩
  | @remove cpu1 cpu3 bound =>
    have full := settled.resolve_left fun both => absurd (bound.symm.trans both.1) (by decide)
    refine .inr ⟨id,fun balanced => ?_⟩
    have left := remove_leaves full.2.held cpu1 cpu3
    have none : (ipc_remove cpu1 cpu3 s).2.held = fun _ => 0 := (balanced rfl).held
    rw [none] at left
    exact absurd left (by decide)

end

/-- The driver before its first probe, on a communicator without its handlers. -/
def unloaded (dd : IPC_CC_DEV_T) (cpu2_handler : Option H) : DriverState H :=
  ⟨fun _ => 0,⟨dd,none,cpu2_handler,none⟩,none,false⟩

/-- For every pattern of failures: the driver holds nothing while it is not bound, in
    all states of a run, exactly if no device is removed and every probe succeeds or
    fails where its label is right; a bound driver then holds everything once. -/
theorem balanced_iff (ignoresError : Bool) (ipc_core_handler : H) (dd : IPC_CC_DEV_T) (cpu2_handler : Option H)
    (es : List ProbeEvent) (s : DriverState H) :
    (Run (Into (ProbeStep ignoresError ipc_core_handler) (Balanced ipc_core_handler)) (unloaded dd cpu2_handler) es s ↔
      Run (Guarded (ProbeStep ignoresError ipc_core_handler) fun _ => InOrder ignoresError) (unloaded dd cpu2_handler) es s) ∧
    (Run (Guarded (ProbeStep ignoresError ipc_core_handler) fun _ => InOrder ignoresError) (unloaded dd cpu2_handler) es s →
      Balanced ipc_core_handler s ∧ (s.bound = true → Full ipc_core_handler s)) := by
  have begun : Settled ipc_core_handler (unloaded dd cpu2_handler) := .inl ⟨rfl,rfl,by simp [unloaded],by simp [unloaded],rfl⟩
  have balanced {t : DriverState H} (settled : Settled ipc_core_handler t) : Balanced ipc_core_handler t := by
    rcases settled with ⟨_,empty⟩ | ⟨bound,_⟩
    · exact fun _ => empty
    · exact fun unbound => absurd (bound.symm.trans unbound) (by decide)
  obtain ⟨same,keeps⟩ := Run.guarded_iff_of_exact begun (fun t => balanced)
    fun t e u settled (step : ProbeStep ignoresError ipc_core_handler t e u) => step_exact settled step
  refine ⟨same,fun run => ⟨balanced (keeps run),fun bound => ?_⟩⟩
  rcases keeps run with ⟨unbound,_⟩ | ⟨_,full⟩
  · exact absurd (bound.symm.trans unbound) (by decide)
  · exact full

/-- A probe all of whose steps succeed. -/
def allSucceed (memory : IPC_MSQINFO) : ProbeEnv :=
  ⟨true,true,true,.allocated,true,true,true,true,true,true,some memory,some (0xC0100000,0x00100000)⟩

/-- A bind and an unbind leave `m_ctrl`, and on `CPU2` both handlers. -/
theorem unbind_leaks : ∃ s : DriverState Unit,
    Run (ProbeStep true ()) (unloaded ⟨.IPC_CC_CORE_CPU2,fun _ => 0⟩ none) [.probe (allSucceed firstQueue),.remove true true] s ∧
      s.bound = false ∧ s.held .m_ctrl = 1 ∧ s.ipc_cc_dev.cpu1_handler = some () ∧ s.ipc_cc_dev.dsp_handler = some () ∧
      ¬ Balanced () s := by
  obtain ⟨info,done,_⟩ := PingPong.init_succeeds firstQueue 0xC0100000 0x00100000
  let dd : IPC_CC_DEV_T := ⟨.IPC_CC_CORE_CPU2,fun _ => 0⟩
  let got : DriverState Unit := ((((((unloaded dd none).acquire .region).acquire .cls).acquire .dev).acquire .my_cdev).acquire
    .m_ctrl).acquire .mapping
  have handlers : probeHandlers true () (allSucceed firstQueue) got =
      (.returned 0,{ got with ipc_cc_dev := ⟨dd,some (),none,some ()⟩, g_msqinfo := some info }) := by
    have none : got.g_msqinfo = none := rfl
    simp only [probeHandlers,allSucceed,register_cpu1,register_cpu3,if_true,none,done]
    rfl
  have called : ipc_probe true () (allSucceed firstQueue) (unloaded dd none) = _ := handlers
  refine ⟨_,(Run.one (.bound rfl called)).snoc (.remove rfl),rfl,rfl,rfl,rfl,fun balanced => ?_⟩
  exact absurd (congrFun (balanced rfl).held .m_ctrl) (show (1 : Int) ≠ 0 by decide)

end IpcMsq.Probe
