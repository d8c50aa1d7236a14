import IpcMsq.Process
import IpcMsq.Runs
import Mathlib.Data.Finset.Basic

/-!
The descriptor of the library in a process that opens and closes other files.
`ipc_close` keeps the number of the descriptor it closed, and `ipc_msg_rel` does
not open the device, so either may leave the library with a number that is not,
or no longer, its own.
-/
namespace IpcMsq.Descriptors
open IpcMsq.Memory IpcMsq.Common IpcMsq.SendBuff IpcMsq.Device IpcMsq.Process IpcMsq.Runs

/-- The descriptors that the library opened and has not closed, those of the rest
    of the process, and the calls of the library on a descriptor it does not hold. -/
structure OpenFiles where
  statics : Statics
  held : Finset INT32
  others : Finset INT32
  stray : List Syscall

def perform (s : OpenFiles) : Syscall → OpenFiles
  | .sys_open fd => if fd < 0 then s else { s with held := insert fd s.held }
  | .sys_ioctl fd => if fd ∈ s.held then s else { s with stray := s.stray ++ [.sys_ioctl fd] }
  | .sys_close fd =>
    if fd ∈ s.held then { s with held := s.held.erase fd }
    else { s with others := s.others.erase fd, stray := s.stray ++ [.sys_close fd] }

/-- A call of the library with what `open` and `ioctl` do in it. -/
inductive LibCall
  | ipc_open (opened : INT32)
  | ipc_close
  | ipc_ftok (path : Option (List UInt8)) (opened : INT32) (ioctl : IPC_IOC_MSGQUE_FTOK → INT32 × IPC_IOC_MSGQUE_FTOK)
      (msg : IPC_IOC_MSGQUE_FTOK)
  | ipc_msg_get (key : INT16) (opened : INT32) (ioctl : IPC_IOC_MSGQUE_GET → INT32 × IPC_IOC_MSGQUE_GET)
      (msg : IPC_IOC_MSGQUE_GET)
  | ipc_msg_rel (msqid : UINT32) (ioctl : IPC_IOC_MSGQUE_REL → Outcome (INT32 × IPC_IOC_MSGQUE_REL))
      (msg : IPC_IOC_MSGQUE_REL)
  | ipc_msg_snd (msqid sendTo : UINT32) (pmsg_data : Option Mem) (msg_size : UINT32) (opened : INT32)
      (ioctl : IPC_IOC_MSGQUE_SND → Outcome (INT32 × IPC_IOC_MSGQUE_SND)) (msg : IPC_IOC_MSGQUE_SND)
  | ipc_msg_rcv (msqid : UINT32) (pmsg_data : Option Mem) (msg_size : UINT32) (opened : INT32)
      (ioctl : IPC_IOC_MSGQUE_RCV → Outcome Ioctl) (msg : IPC_IOC_MSGQUE_RCV)

/-- The statics after a call, and its system calls. -/
def LibCall.effect (s : Statics) : LibCall → Statics × List Syscall
  | .ipc_open opened =>
    let r := Process.ipc_open opened s
    (r.statics,r.calls)
  | .ipc_close =>
    let r := Process.ipc_close s
    (r.statics,r.calls)
  | .ipc_ftok path opened ioctl msg =>
    let r := Process.ipc_ftok path opened ioctl msg s
    (r.statics,r.calls)
  | .ipc_msg_get key opened ioctl msg =>
    let r := Process.ipc_msg_get key opened ioctl msg s
    (r.statics,r.calls)
  | .ipc_msg_rel msqid ioctl msg =>
    let r := Process.ipc_msg_rel msqid ioctl msg s
    (r.statics,r.calls)
  | .ipc_msg_snd msqid sendTo pmsg_data msg_size opened ioctl msg =>
    let r := Process.ipc_msg_snd msqid sendTo pmsg_data msg_size opened ioctl msg s
    (r.statics,r.calls)
  | .ipc_msg_rcv msqid pmsg_data msg_size opened ioctl msg =>
    let r := Process.ipc_msg_rcv msqid pmsg_data msg_size opened ioctl msg s
    (r.statics,r.calls)

def called (s : OpenFiles) (c : LibCall) : OpenFiles :=
  { (c.effect s.statics).2.foldl perform s with statics := (c.effect s.statics).1 }

/-- A call of the library, or an `open` or a `close` of the rest of the process. -/
inductive ProcessEvent
  | library (c : LibCall)
  | opens (fd : INT32)
  | closes (fd : INT32)

/-- `open` returns an error or a descriptor that is not in use. -/
inductive ProcessStep : OpenFiles → ProcessEvent → OpenFiles → Prop
  | library {s : OpenFiles} {c : LibCall} :
      (∀ fd, .sys_open fd ∈ (c.effect s.statics).2 → 0 ≤ fd → fd ∉ s.held ∧ fd ∉ s.others) →
      ProcessStep s (.library c) (called s c)
  | opens {s : OpenFiles} {fd : INT32} : 0 ≤ fd → fd ∉ s.held → fd ∉ s.others →
      ProcessStep s (.opens fd) { s with others := insert fd s.others }
  | closes {s : OpenFiles} {fd : INT32} : fd ∈ s.others →
      ProcessStep s (.closes fd) { s with others := s.others.erase fd }

/-- A process that has not called the library yet. -/
def fresh (others : Finset INT32) : OpenFiles := ⟨⟨-1,0⟩,∅,others,[]⟩

/-- The library touched no descriptor it did not hold, and `ipcfd` is not negative
    exactly while it holds one. -/
def Sound (s : OpenFiles) : Prop := s.stray = [] ∧ (0 ≤ s.statics.ipcfd ↔ s.held.Nonempty)

/-- No close of an open device with `ipc_close`, and no release before an open. -/
def InOrder (s : OpenFiles) : ProcessEvent → Prop
  | .library .ipc_close => s.statics.ipcfd < 0
  | .library (.ipc_msg_rel _ _ _) => 0 ≤ s.statics.ipcfd
  | _ => True

/-- `ipcfd` is the only descriptor that the library holds. -/
structure Tidy (s : OpenFiles) : Prop where
  clean : s.stray = []
  held : ∀ fd, fd ∈ s.held ↔ 0 ≤ fd ∧ fd = s.statics.ipcfd

section
variable {s t u : OpenFiles}

theorem Tidy.holds (tidy : Tidy s) (opened : 0 ≤ s.statics.ipcfd) : s.statics.ipcfd ∈ s.held :=
  (tidy.held _).mpr ⟨opened,rfl⟩

theorem Tidy.empty (tidy : Tidy s) (closed : s.statics.ipcfd < 0) : s.held = ∅ := by
  refine Finset.eq_empty_of_forall_notMem fun fd has => ?_
  obtain ⟨positive,rfl⟩ := (tidy.held fd).mp has
  exact Int32.not_le.mpr closed positive

theorem Tidy.sound (tidy : Tidy s) : Sound s := by
  refine ⟨tidy.clean,fun opened => ⟨_,tidy.holds opened⟩,?_⟩
  rintro ⟨fd,has⟩
  obtain ⟨positive,rfl⟩ := (tidy.held fd).mp has
  exact positive

theorem minus_one_negative : ¬ (0 : INT32) ≤ -1 := by decide

theorem fresh_tidy (others : Finset INT32) : Tidy (fresh others) where
  clean := rfl
  held fd := by
    refine iff_of_false (Finset.notMem_empty fd) ?_
    rintro ⟨positive,rfl⟩
    exact absurd positive minus_one_negative

/-- Neither the files of others nor the count of queues matter. -/
theorem Tidy.congr (tidy : Tidy s) (stray : t.stray = s.stray) (held : t.held = s.held)
    (ipcfd : t.statics.ipcfd = s.statics.ipcfd) : Tidy t where
  clean := stray.trans tidy.clean
  held fd := by
    rw [held,ipcfd]
    exact tidy.held fd

/-! ### Calls that open the device -/

/-- After `ipc_open` the library is tidy, and holds `ipcfd` unless it failed. -/
theorem open_tidy (tidy : Tidy s) (opened : INT32) :
    let o := Process.ipc_open opened s.statics
    let t := { o.calls.foldl perform s with statics := o.statics }
    Tidy t ∧ (0 ≤ o.ret → o.statics.ipcfd ∈ t.held) := by
  simp only [Process.ipc_open]
  by_cases closed : s.statics.ipcfd < 0
  · rw [if_pos closed]
    have none := tidy.empty closed
    by_cases failed : opened < 0
    · rw [if_pos failed]
      simp only [List.foldl_cons,List.foldl_nil,perform,if_pos failed]
      refine ⟨⟨tidy.clean,fun fd => ?_⟩,fun positive => absurd positive (by decide)⟩
      refine iff_of_false (by simp [none]) ?_
      rintro ⟨positive,rfl⟩
      exact Int32.not_le.mpr failed positive
    · rw [if_neg failed]
      simp only [List.foldl_cons,List.foldl_nil,perform,if_neg failed]
      refine ⟨⟨tidy.clean,fun fd => ?_⟩,fun _ => Finset.mem_insert_self opened _⟩
      rw [none,Finset.mem_insert,or_iff_left (Finset.notMem_empty fd)]
      refine ⟨fun same => ⟨same ▸ Int32.not_lt.mp failed,same⟩,fun both => both.2⟩
  · rw [if_neg closed]
    exact ⟨tidy,tidy.holds⟩

/-- A call that opens the device first: its system calls are those of `ipc_open`
    and at most one `ioctl` on the descriptor that it returned. -/
def OpensFirst (s : Statics) (c : LibCall) : Prop :=
  c.effect s = (s,[]) ∨
    ∃ opened rest, (c.effect s).1.ipcfd = (Process.ipc_open opened s).statics.ipcfd ∧
      (c.effect s).2 = (Process.ipc_open opened s).calls ++ rest ∧
      (rest = [] ∨ 0 ≤ (Process.ipc_open opened s).ret ∧ rest = [.sys_ioctl (Process.ipc_open opened s).statics.ipcfd])

theorem opensFirst_tidy {c : LibCall} (tidy : Tidy s) (first : OpensFirst s.statics c) : Tidy (called s c) := by
  rw [called]
  rcases first with none | ⟨opened,rest,ipcfd,calls,after⟩
  · rw [none]
    exact tidy
  · obtain ⟨opened_tidy,holds⟩ := open_tidy tidy opened
    rw [calls,List.foldl_append]
    have kept : rest.foldl perform ((Process.ipc_open opened s.statics).calls.foldl perform s) =
        (Process.ipc_open opened s.statics).calls.foldl perform s := by
      rcases after with rfl | ⟨positive,rfl⟩
      · rfl
      · simp only [List.foldl_cons,List.foldl_nil,perform]
        exact if_pos (holds positive)
    rw [kept]
    exact opened_tidy.congr rfl rfl ipcfd

theorem ftok_opensFirst (s : Statics) (path : Option (List UInt8)) (opened : INT32)
    (ioctl : IPC_IOC_MSGQUE_FTOK → INT32 × IPC_IOC_MSGQUE_FTOK) (msg : IPC_IOC_MSGQUE_FTOK) :
    OpensFirst s (.ipc_ftok path opened ioctl msg) := by
  cases path with
  | none => exact .inl rfl
  | some path =>
    refine .inr ⟨opened,?_⟩
    simp only [LibCall.effect,Process.ipc_ftok]
    split
    · exact ⟨[],rfl,by simp,.inl rfl⟩
    · rename_i good
      refine ⟨[.sys_ioctl (Process.ipc_open opened s).statics.ipcfd],?_,?_,.inr ⟨Int32.not_lt.mp good,rfl⟩⟩
      · split <;> rfl
      · split <;> rfl

theorem get_opensFirst (s : Statics) (key : INT16) (opened : INT32)
    (ioctl : IPC_IOC_MSGQUE_GET → INT32 × IPC_IOC_MSGQUE_GET) (msg : IPC_IOC_MSGQUE_GET) :
    OpensFirst s (.ipc_msg_get key opened ioctl msg) := by
  refine .inr ⟨opened,?_⟩
  simp only [LibCall.effect,Process.ipc_msg_get]
  split
  · exact ⟨[],rfl,by simp,.inl rfl⟩
  · rename_i good
    refine ⟨[.sys_ioctl (Process.ipc_open opened s).statics.ipcfd],?_,?_,.inr ⟨Int32.not_lt.mp good,rfl⟩⟩
    · split
      · rfl
      · split <;> rfl
    · split
      · rfl
      · split <;> rfl

theorem snd_opensFirst (s : Statics) (msqid sendTo : UINT32) (pmsg_data : Option Mem) (msg_size : UINT32) (opened : INT32)
    (ioctl : IPC_IOC_MSGQUE_SND → Outcome (INT32 × IPC_IOC_MSGQUE_SND)) (msg : IPC_IOC_MSGQUE_SND) :
    OpensFirst s (.ipc_msg_snd msqid sendTo pmsg_data msg_size opened ioctl msg) := by
  refine .inr ⟨opened,?_⟩
  simp only [LibCall.effect,Process.ipc_msg_snd]
  split
  · exact ⟨[],rfl,by simp,.inl rfl⟩
  · rename_i good
    split
    · exact ⟨[],rfl,by simp,.inl rfl⟩
    · cases pmsg_data with
      | none => exact ⟨[],rfl,by simp,.inl rfl⟩
      | some data => exact ⟨_,rfl,rfl,.inr ⟨Int32.not_lt.mp good,rfl⟩⟩

theorem rcv_opensFirst (s : Statics) (msqid : UINT32) (pmsg_data : Option Mem) (msg_size : UINT32) (opened : INT32)
    (ioctl : IPC_IOC_MSGQUE_RCV → Outcome Ioctl) (msg : IPC_IOC_MSGQUE_RCV) :
    OpensFirst s (.ipc_msg_rcv msqid pmsg_data msg_size opened ioctl msg) := by
  refine .inr ⟨opened,?_⟩
  simp only [LibCall.effect,Process.ipc_msg_rcv]
  split
  · exact ⟨[],trivial,by simp,.inl rfl⟩
  · rename_i good
    push Not at good
    exact ⟨_,trivial,rfl,.inr ⟨Int32.not_lt.mp good.1,rfl⟩⟩

/-! ### Closing and releasing -/

/-- A release of an open device is on its descriptor, and the last one closes it. -/
theorem rel_tidy (tidy : Tidy s) (opened : 0 ≤ s.statics.ipcfd) (msqid : UINT32)
    (ioctl : IPC_IOC_MSGQUE_REL → Outcome (INT32 × IPC_IOC_MSGQUE_REL)) (msg : IPC_IOC_MSGQUE_REL) :
    Tidy (called s (.ipc_msg_rel msqid ioctl msg)) := by
  have has := tidy.holds opened
  have once : [Syscall.sys_ioctl s.statics.ipcfd].foldl perform s = s := by
    simp only [List.foldl_cons,List.foldl_nil,perform]
    exact if_pos has
  simp only [called,LibCall.effect,Process.ipc_msg_rel]
  cases ioctl { msg with msqid := msqid } with
  | asleep =>
    rw [once]
    exact tidy
  | undefined =>
    rw [once]
    exact tidy
  | returned r =>
    simp only
    split
    · rw [once]
      exact tidy
    · split
      · split
        · simp only [List.foldl_cons,List.foldl_nil,perform,if_pos has]
          refine ⟨tidy.clean,fun fd => iff_of_false ?_ ?_⟩
          · rw [Finset.mem_erase,tidy.held]
            exact fun both => both.1 both.2.2
          · rintro ⟨positive,rfl⟩
            exact absurd positive minus_one_negative
        · rw [once]
          exact tidy.congr rfl rfl rfl
      · rw [once]
        exact tidy

/-- A release while `ipcfd` is negative is on a descriptor that is not held. -/
theorem rel_stray (tidy : Tidy s) (closed : s.statics.ipcfd < 0) (msqid : UINT32)
    (ioctl : IPC_IOC_MSGQUE_REL → Outcome (INT32 × IPC_IOC_MSGQUE_REL)) (msg : IPC_IOC_MSGQUE_REL) :
    (called s (.ipc_msg_rel msqid ioctl msg)).stray ≠ [] := by
  have none : s.statics.ipcfd ∉ s.held := by simp [tidy.empty closed]
  simp only [called,LibCall.effect,Process.ipc_msg_rel]
  cases ioctl { msg with msqid := msqid } with
  | asleep => simp [perform,none]
  | undefined => simp [perform,none]
  | returned r =>
    simp only
    split
    · simp [perform,none]
    · split
      · split <;> simp [perform,none]
      · simp [perform,none]

theorem close_closed (tidy : Tidy s) (closed : s.statics.ipcfd < 0) : Tidy (called s .ipc_close) := by
  simp only [called,LibCall.effect,Process.ipc_close,if_neg (Int32.not_le.mpr closed)]
  exact tidy

/-- A close of an open device leaves `ipcfd` without a descriptor. -/
theorem close_dangles (tidy : Tidy s) (opened : 0 ≤ s.statics.ipcfd) : ¬ Sound (called s .ipc_close) := by
  simp only [called,LibCall.effect,Process.ipc_close,if_pos opened,List.foldl_cons,List.foldl_nil,perform,
    if_pos (tidy.holds opened)]
  rintro ⟨_,holding⟩
  obtain ⟨fd,has⟩ := holding.mp opened
  obtain ⟨other,was⟩ := Finset.mem_erase.mp has
  exact other ((tidy.held fd).mp was).2

/-- The library stays tidy in exactly the steps that are in order. -/
theorem step_exact {e : ProcessEvent} (tidy : Tidy s) (step : ProcessStep s e t) :
    InOrder s e ∧ Tidy t ∨ ¬ InOrder s e ∧ ¬ Sound t := by
  cases step with
  | opens _ _ _ => exact .inl ⟨trivial,tidy.congr rfl rfl rfl⟩
  | closes _ => exact .inl ⟨trivial,tidy.congr rfl rfl rfl⟩
  | @library c fresh =>
    cases c with
    | ipc_open opened =>
      exact .inl ⟨trivial,opensFirst_tidy tidy (.inr ⟨opened,[],rfl,by simp [LibCall.effect],.inl rfl⟩)⟩
    | ipc_close =>
      by_cases closed : s.statics.ipcfd < 0
      · exact .inl ⟨closed,close_closed tidy closed⟩
      · exact .inr ⟨closed,close_dangles tidy (Int32.not_lt.mp closed)⟩
    | ipc_ftok path opened ioctl msg =>
      exact .inl ⟨trivial,opensFirst_tidy tidy (ftok_opensFirst _ path opened ioctl msg)⟩
    | ipc_msg_get key opened ioctl msg =>
      exact .inl ⟨trivial,opensFirst_tidy tidy (get_opensFirst _ key opened ioctl msg)⟩
    | ipc_msg_rel msqid ioctl msg =>
      by_cases opened : 0 ≤ s.statics.ipcfd
      · exact .inl ⟨opened,rel_tidy tidy opened msqid ioctl msg⟩
      · exact .inr ⟨opened,fun sound => rel_stray tidy (Int32.not_le.mp opened) msqid ioctl msg sound.1⟩
    | ipc_msg_snd msqid sendTo pmsg_data msg_size opened ioctl msg =>
      exact .inl ⟨trivial,opensFirst_tidy tidy (snd_opensFirst _ msqid sendTo pmsg_data msg_size opened ioctl msg)⟩
    | ipc_msg_rcv msqid pmsg_data msg_size opened ioctl msg =>
      exact .inl ⟨trivial,opensFirst_tidy tidy (rcv_opensFirst _ msqid pmsg_data msg_size opened ioctl msg)⟩

end

/-- The runs in which the library touches only descriptors it holds, and holds one
    exactly while `ipcfd` is not negative, are the runs in which `ipc_close` is
    called only while `ipcfd` is negative and `ipc_msg_rel` only while it is not. -/
theorem sound_iff_in_order (others : Finset INT32) (es : List ProcessEvent) (s : OpenFiles) :
    (Run (Into ProcessStep Sound) (fresh others) es s ↔ Run (Guarded ProcessStep InOrder) (fresh others) es s) ∧
    (Run (Guarded ProcessStep InOrder) (fresh others) es s → Sound s) := by
  obtain ⟨same,keeps⟩ := Run.guarded_iff_of_exact (fresh_tidy others) (fun t tidy => tidy.sound)
    fun t e u tidy (step : ProcessStep t e u) => step_exact tidy step
  exact ⟨same,fun run => (keeps run).sound⟩

/-- Descriptor 3 is closed, used by the rest of the process, and closed again. -/
theorem closes_foreign_file : ∃ s, Run ProcessStep (fresh ∅)
      [.library (.ipc_open 3),.library .ipc_close,.opens 3,.library .ipc_close] s ∧
    s.stray = [.sys_close 3] ∧ s.others = ∅ ∧ ¬ Sound s := by
  have opened : ProcessStep (fresh ∅) (.library (.ipc_open 3)) ⟨⟨3,0⟩,{3},∅,[]⟩ := .library (by simp [fresh])
  have closed : ProcessStep ⟨⟨3,0⟩,{3},∅,[]⟩ (.library .ipc_close) ⟨⟨3,0⟩,∅,∅,[]⟩ :=
    .library (by simp [LibCall.effect,Process.ipc_close])
  have used : ProcessStep ⟨⟨3,0⟩,∅,∅,[]⟩ (.opens 3) ⟨⟨3,0⟩,∅,{3},[]⟩ := .opens (by decide) (by decide) (by decide)
  have again : ProcessStep ⟨⟨3,0⟩,∅,{3},[]⟩ (.library .ipc_close) ⟨⟨3,0⟩,∅,∅,[.sys_close 3]⟩ :=
    .library (by simp [LibCall.effect,Process.ipc_close])
  exact ⟨_,(((Run.one opened).snoc closed).snoc used).snoc again,rfl,rfl,fun sound => absurd sound.1 (by simp)⟩

end IpcMsq.Descriptors
