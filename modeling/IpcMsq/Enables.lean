import IpcMsq.Binding

/-!
The event enables of `CPU2` over probes and removes. A close leaves the event of `CPU2`
itself as it finds it, and keeps the lock; but no device is closed that was not opened,
and each probe makes a new lock, so the cycles go on.
-/
namespace IpcMsq.Enables
open IpcMsq.Common IpcMsq.Communicator IpcMsq.Runs IpcMsq.Bits IpcMsq.Binding
open CoreLocking (CcDevice CoreCall Result effect)
open Handlers (CC_CPU2_INTEN_REG_OFS)
open CoreOpen (OwnBits event_from_cpu1_inten event_from_cpu2_inten event_from_dsp_inten)
open IPC_CC_CORE_T

variable {P H : Type}

section
variable [DecidableEq P] {s t : Loaded P H} {pdev p : P} {e : ProbeEnv} {n : Nat} {i : Instance P H}

/-- The three bits that an open sets. -/
def enables (reg : UINT32) : Bool × Bool × Bool :=
  (bit reg event_from_cpu1_inten,bit reg event_from_cpu2_inten,bit reg event_from_dsp_inten)

theorem enables_open {dd dev : IPC_CC_DEV_T} (own : OwnBits .ipc_cc_open dd dev) (running : dd.running_core = IPC_CC_CORE_CPU2) :
    enables (dev.regs CC_CPU2_INTEN_REG_OFS) = (true,false,true) := by
  have bits := own.2 CC_CPU2_INTEN_REG_OFS
  simp only [running,if_true] at bits
  rw [enables,bits,bits,bits]
  rfl

theorem enables_close {dd dev : IPC_CC_DEV_T} (own : OwnBits .ipc_cc_close dd dev) (running : dd.running_core = IPC_CC_CORE_CPU2) :
    enables (dev.regs CC_CPU2_INTEN_REG_OFS) = (false,false,false) := by
  have bits := own.2 CC_CPU2_INTEN_REG_OFS
  simp only [running,if_true] at bits
  rw [enables,bits,bits,bits]
  rfl

theorem enables_idle {call : CoreOpen.CcCall} {dd dev : IPC_CC_DEV_T} (own : OwnBits call dd dev)
    (other : dd.running_core ≠ IPC_CC_CORE_CPU2) :
    enables (dev.regs CC_CPU2_INTEN_REG_OFS) = enables (dd.regs CC_CPU2_INTEN_REG_OFS) := by
  have bits := own.2 CC_CPU2_INTEN_REG_OFS
  simp only [other,if_false] at bits
  rw [enables,bits,bits,bits]
  rfl

/-- `CPU2` runs on a device that is bound. -/
def Runs (s : Loaded P H) (p : P) : Prop := ∃ i, s.device p = some i ∧ i.dd.running_core = IPC_CC_CORE_CPU2

/-- Where `CPU2` runs its events are enabled, and where it ran before and does not now
    none are. -/
structure Wired (es : List (LoadEvent P H)) (s : Loaded P H) : Prop where
  on : ∀ p, Runs s p → enables (s.registers p CC_CPU2_INTEN_REG_OFS) = (true,false,true)
  off : ∀ p e, .probe p e ∈ es → e.Succeeds → e.core = IPC_CC_CORE_CPU2 → ¬ Runs s p →
    enables (s.registers p CC_CPU2_INTEN_REG_OFS) = (false,false,false)

/-- The call does not write the enable register of its device. -/
def Harmless (s : Loaded P H) : LoadEvent P H → Prop
  | .entry c _ => ∀ n i, s.ipc_cc_dev = some n → s.dds n = some i → Apart i.dd.running_core c
  | .probe _ _ | .remove _ => True

theorem device_begun (s : Loaded P H) (pdev : P) (dd : CcDevice H) : (s.begun pdev dd).device pdev = some ⟨pdev,dd,false⟩ := by
  simp [Loaded.device,Loaded.begun]

theorem device_begun_other (sane : Sane s) (other : p ≠ pdev) (dd : CcDevice H) : (s.begun pdev dd).device p = s.device p := by
  simp only [Loaded.device,Loaded.begun,Function.update_of_ne other]
  cases has : s.drvdata p with
  | none => rfl
  | some n =>
    obtain ⟨i,live,_⟩ := sane.bound p n has
    have old : n ≠ s.next := by
      rintro rfl
      rw [sane.fresh _ le_rfl] at live
      cases live
    exact Function.update_of_ne old ..

theorem device_release (s : Loaded P H) (pdev : P) : (devres_release_all pdev s).device pdev = none := by
  simp [Loaded.device]

theorem device_release_other (sane : Sane s) (other : p ≠ pdev) : (devres_release_all pdev s).device p = s.device p := by
  simp only [Loaded.device,release_drvdata,Function.update_of_ne other]
  cases has : s.drvdata p with
  | none => rfl
  | some n =>
    obtain ⟨i,live,at_p⟩ := sane.bound p n has
    exact (released_some.mpr ⟨live,at_p ▸ other⟩).trans live.symm

theorem device_keep (sane : Sane s) (live : s.dds n = some i) (i' : Instance P H) :
    (s.keep n i').device p = if p = i.pdev then some i' else s.device p := by
  simp only [Loaded.device,keep_drvdata,keep_dds]
  have has := (sane.owned n i live).1
  by_cases own : p = i.pdev
  · simp [own,has]
  · rw [if_neg own]
    cases has' : s.drvdata p with
    | none => rfl
    | some m =>
      obtain ⟨j,live',at_p⟩ := sane.bound p m has'
      have different : m ≠ n := by
        rintro rfl
        cases live.symm.trans live'
        exact own at_p.symm
      exact Function.update_of_ne different ..

/-- An event of one device leaves the others wired. -/
theorem wired_other {es : List (LoadEvent P H)} {ev : LoadEvent P H} (wired : Wired es s)
    (only : ∀ p e, ev = .probe p e → p = pdev) (others : ∀ p, p ≠ pdev → t.device p = s.device p ∧ t.regs p = s.regs p)
    (on : Runs t pdev → enables (t.registers pdev CC_CPU2_INTEN_REG_OFS) = (true,false,true))
    (off : ∀ e, .probe pdev e ∈ es ++ [ev] → e.Succeeds → e.core = IPC_CC_CORE_CPU2 → ¬ Runs t pdev →
      enables (t.registers pdev CC_CPU2_INTEN_REG_OFS) = (false,false,false)) : Wired (es ++ [ev]) t where
  on p runs := by
    by_cases own : p = pdev
    · subst own
      exact on runs
    · obtain ⟨same,regs⟩ := others p own
      rw [Runs,same] at runs
      rw [registers_congr same regs]
      exact wired.on p runs
  off p e listed succeeds core rests := by
    by_cases own : p = pdev
    · subst own
      exact off e listed succeeds core rests
    · obtain ⟨same,regs⟩ := others p own
      rw [Runs,same] at rests
      rw [registers_congr same regs]
      refine wired.off p e ?_ succeeds core rests
      rcases List.mem_append.mp listed with before | now
      · exact before
      · exact absurd (only p e (List.mem_singleton.mp now).symm) own

section
variable {values : UndefinedValues} {es : List (LoadEvent P H)}

theorem wired_probe (sane : Sane s) (wired : Wired es s) (step : LoadStep values s (.probe pdev e) t) : Wired (es ++ [.probe pdev e]) t := by
  obtain ⟨unbound,cases⟩ := probed_cases step
  have absent : s.device pdev = none := by
    rw [Loaded.device,unbound]
    rfl
  have rests : ¬ Runs s pdev := by
    rintro ⟨i,bound,_⟩
    cases absent.symm.trans bound
  -- nothing runs before the probe, so an earlier `CPU2` left all off
  have before (e' : ProbeEnv) (listed : .probe pdev e' ∈ es ++ [.probe pdev e]) (succeeds : e'.Succeeds)
      (core : e'.core = IPC_CC_CORE_CPU2) (now : ¬ (e.Succeeds ∧ e.core = IPC_CC_CORE_CPU2)) :
      enables (s.regs pdev CC_CPU2_INTEN_REG_OFS) = (false,false,false) := by
    rw [← registers_unbound absent]
    refine wired.off pdev e' ?_ succeeds core rests
    rcases List.mem_append.mp listed with before | last
    · exact before
    · cases List.mem_singleton.mp last
      exact absurd ⟨succeeds,core⟩ now
  have only (p : P) (e' : ProbeEnv) (same : LoadEvent.probe (H := H) pdev e = .probe p e') : p = pdev := by
    cases same
    rfl
  have released (u : Loaded P H) : ¬ Runs (devres_release_all pdev u) pdev := by
    rintro ⟨i,bound,_⟩
    cases (device_release u pdev).symm.trans bound
  rcases cases with ⟨memory,rfl⟩ | ⟨_,dd,core,⟨succeeds,own,rfl⟩ | ⟨fails,kept,rfl⟩⟩
  · have cleared : Sane { s with ipc_cc_dev := none } := ⟨sane.fresh,sane.bound,sane.owned⟩
    refine wired_other wired only (fun p other => ⟨device_release_other cleared other,Function.update_of_ne other ..⟩)
      (fun runs => absurd runs (released _)) fun e' listed succeeds core _ => ?_
    have kept : Loaded.registers { s with ipc_cc_dev := none } pdev = s.regs pdev := registers_unbound absent
    rw [registers_unbound (device_release ..),release_regs,Function.update_self,kept]
    refine before e' listed succeeds core fun now => ?_
    rw [now.1.1] at memory
    cases memory
  · refine wired_other wired only (fun p other => ⟨device_begun_other sane other dd,rfl⟩) (fun runs => ?_)
      fun e' listed succeeds' core' idle => ?_
    · obtain ⟨i,bound,running⟩ := runs
      cases (device_begun s pdev dd).symm.trans bound
      rw [registers_bound bound]
      exact enables_open own (core.symm.trans running)
    · have other : e.core ≠ IPC_CC_CORE_CPU2 := fun same => idle ⟨_,device_begun s pdev dd,core.trans same⟩
      rw [registers_bound (device_begun s pdev dd)]
      exact (enables_idle own other).trans (before e' listed succeeds' core' fun now => other now.2)
  · have begun := sane_begun sane unbound (core ▸ core_supported e)
    refine wired_other wired only (fun p other => ?_) (fun runs => absurd runs (released _))
      fun e' listed succeeds core _ => ?_
    · exact ⟨(device_release_other begun other).trans (device_begun_other sane other dd),Function.update_of_ne other ..⟩
    · rw [registers_unbound (device_release ..),release_regs,Function.update_self,registers_bound (device_begun s pdev dd),kept]
      exact before e' listed succeeds core fun now => fails now.1

theorem wired_remove (sane : Sane s) (wired : Wired es s) (step : LoadStep values s (.remove pdev) t) : Wired (es ++ [.remove pdev]) t := by
  obtain ⟨n,i,dev,has,live,_,rfl,closed⟩ := removed_cases sane step
  have bound : s.device pdev = some i := by
    rw [Loaded.device,has]
    exact live
  refine wired_other wired (by rintro _ _ ⟨⟩) (fun p other => ⟨device_release_other sane other,Function.update_of_ne other ..⟩)
    (fun runs => ?_) fun e listed succeeds core _ => ?_
  · obtain ⟨j,still,_⟩ := runs
    cases (device_release s pdev).symm.trans still
  have after : Loaded.registers { devres_release_all pdev s with regs := Function.update s.regs pdev dev.regs } pdev = dev.regs :=
    (registers_unbound (s := { devres_release_all pdev s with regs := Function.update s.regs pdev dev.regs })
      (device_release s pdev)).trans (Function.update_self ..)
  rw [after]
  by_cases running : i.dd.running_core = IPC_CC_CORE_CPU2
  · have on := wired.on pdev ⟨i,bound,running⟩
    rw [registers_bound bound] at on
    exact enables_close (closed.mpr fun _ => congrArg (fun bits => bits.2.1) on) running
  · rw [enables_idle (closed.mpr fun same => absurd same running) running]
    have rests : ¬ Runs s pdev := by
      rintro ⟨j,bound',running'⟩
      cases bound.symm.trans bound'
      exact running running'
    have off := wired.off pdev e (by simpa using listed) succeeds core rests
    rwa [registers_bound bound] at off

theorem wired_entry {c : CoreCall H} {r : Result} (sane : Sane s) (wired : Wired es s) (harmless : Harmless s (.entry c r))
    (step : LoadStep values s (.entry c r) t) : Wired (es ++ [.entry c r]) t := by
  cases step with
  | early | null => exact ⟨wired.on,fun p e listed => wired.off p e (by simpa using listed)⟩
  | @entry n i _ exported at_n live free =>
    obtain ⟨core,kept⟩ := effect_device values exported i.dd
    have bound : s.device i.pdev = some i := by
      rw [Loaded.device,(sane.owned n i live).1]
      exact live
    have bound' := (device_keep sane live { i with dd := (effect true values c i.dd).2 } (p := i.pdev)).trans (if_pos rfl)
    have same : (s.keep n { i with dd := (effect true values c i.dd).2 }).registers i.pdev CC_CPU2_INTEN_REG_OFS =
        s.registers i.pdev CC_CPU2_INTEN_REG_OFS := by
      rw [registers_bound bound',registers_bound bound,kept (harmless n i at_n live)]
    have runs : Runs (s.keep n { i with dd := (effect true values c i.dd).2 }) i.pdev ↔ Runs s i.pdev := by
      simp only [Runs,bound',bound,Option.some.injEq,exists_eq_left',core]
    refine wired_other wired (by rintro _ _ ⟨⟩) (fun p other => ⟨(device_keep sane live _).trans (if_neg other),rfl⟩) (fun now => ?_)
      fun e listed succeeds chosen idle => ?_
    · rw [same]
      exact wired.on _ (runs.mp now)
    · rw [same]
      exact wired.off _ e (by simpa using listed) succeeds chosen fun running => idle (runs.mpr running)

theorem wired_run {regs : P → UINT32 → UINT32} (run : Run (Guarded (LoadStep values) Harmless) (loaded regs) es s) : Wired es s := by
  induction run with
  | nil =>
    refine ⟨?_,nofun⟩
    rintro p ⟨i,bound,_⟩
    cases bound
  | @snoc es u ev v before last ih =>
    have sane := sane_run (before.mono fun _ _ _ step => step.1)
    cases ev with
    | probe pdev e => exact wired_probe sane ih last.1
    | remove pdev => exact wired_remove sane ih last.1
    | entry c r => exact wired_entry sane ih last.2 last.1

/-- In every state that probes, removes and calls reach, a probe of a device that is not
    bound returns, with 0 exactly if it gets all it asks for, and a remove of one that is
    bound returns, if no interrupt comes between the lock and the end of the open or the
    close: the lock that the close keeps is freed with its device. Where `CPU2` runs the
    events of the other cores are enabled, and where it did and does not now none are, if no
    send writes to the enable register through an uninitialised offset. -/
theorem cycles_return {regs : P → UINT32 → UINT32} (run : Run (LoadStep values) (loaded regs) es s) :
    (∀ p e, s.drvdata p = none → ∃ ret t, ipc_cc_probe e p s = some (ret,t) ∧ (ret = 0 ↔ e.Succeeds)) ∧
      (∀ p, s.drvdata p ≠ none → ∃ t, ipc_cc_remove p s = some (0,t)) ∧ (Run (Guarded (LoadStep values) Harmless) (loaded regs) es s → Wired es s) := by
  have sane := sane_run run
  refine ⟨fun p e _ => ?_,fun p bound => ?_,wired_run⟩
  · rcases probe_cases e p s with ⟨memory,none⟩ | ⟨_,ret,dd,returned,_,success,_⟩
    · refine ⟨_,_,none,iff_of_false (by decide) fun succeeds => ?_⟩
      rw [succeeds.1] at memory
      cases memory
    · exact ⟨ret,_,returned,success⟩
  · obtain ⟨n,has⟩ := Option.ne_none_iff_exists'.mp bound
    obtain ⟨i,live,_⟩ := sane.bound p n has
    obtain ⟨dev,closed,_⟩ := remove_spec sane has live
    exact ⟨_,closed⟩

end
end

theorem cycles_return_one_cycle : ∃ (r : Result) (s : Loaded Unit Unit),
    Run (LoadStep ⟨0,1⟩) (loaded fun _ _ => 0) [.probe () answered,.entry sendToCpu1 r,.remove ()] s ∧
      Wired [.probe () answered,.entry sendToCpu1 r,.remove ()] s := by
  obtain ⟨t,u,s,i,r,probed,sent,removed,at_zero,live,core⟩ := one_cycle
  have harmless : Harmless t (.entry sendToCpu1 r) := by
    intro n j at_n live'
    cases at_zero.symm.trans at_n
    cases live.symm.trans live'
    rw [core]
    exact apart_cpu2 (by decide)
  have run := ((Run.one probed).snoc sent).snoc removed
  exact ⟨r,s,run,(cycles_return run).2.2 (((Run.one ⟨probed,trivial⟩).snoc ⟨sent,harmless⟩).snoc ⟨removed,trivial⟩)⟩

end IpcMsq.Enables
