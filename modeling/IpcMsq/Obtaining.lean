import IpcMsq.CoreHandler
import IpcMsq.Files

/-!
What the entry points of the driver do together: the ioctls, the closes of files
and the events from other cores, in any order from `ipc_msgque_init` on. The GET
ioctl looks a key up and nothing calls `ipc_msgque_get`, so no slot is ever
initialised and every GET fails.
-/
namespace IpcMsq.Obtaining
open IpcMsq.Memory IpcMsq.Common IpcMsq.Table IpcMsq.Elements IpcMsq.SendBuff IpcMsq.Communicator IpcMsq.Api IpcMsq.Device
open IpcMsq.CoreHandler IpcMsq.Runs IpcMsq.KeyMap IpcMsq.Files

variable {sign : CharSign} {second : SecondCall} {overshift : UINT32 → UINT32}
variable {File Thread : Type}

/-- The driver with its files and its control block. -/
structure DeviceState (File Thread : Type) extends Driver File Thread where
  m_ctrl : IPC_CTRL

/-- An entry of the driver, with the key that an FTOK ioctl returned to the user. -/
inductive EntryEvent (File Thread : Type)
  | file (e : FileEvent File Thread)
  | ftok (rtn_key : UINT16)
  | snd
  | rcv
  | core

inductive EntryStep [DecidableEq File] [DecidableEq Thread] (sign : CharSign) (second : SecondCall) (overshift : UINT32 → UINT32) :
    DeviceState File Thread → EntryEvent File Thread → DeviceState File Thread → Prop
  | file {s : DeviceState File Thread} {d : Driver File Thread} {e : FileEvent File Thread} :
      FileStep sign second overshift s.toDriver e d → EntryStep sign second overshift s (.file e) { s with toDriver := d }
  | ftok {s : DeviceState File Thread} {info : IPC_MSQINFO} {msg_user msg : IPC_IOC_MSGQUE_FTOK}
      {copy_from_user copy_to_user : Bool} {noReturn ret : INT32} :
      ioctl_MSGQUE_FTOK sign (some s.info) msg_user copy_from_user copy_to_user noReturn = (ret,some info,msg) →
      EntryStep sign second overshift s (.ftok msg.rtn_key) { s with info := info }
  | snd {s : DeviceState File Thread} {info : IPC_MSQINFO} {msg_user : IPC_IOC_MSGQUE_SND}
      {copy_from_user copy_to_user signal : Bool} {noRtn noReturn : INT32} {r : SndIoctl} :
      ioctl_MSGQUE_SND (some s.info) msg_user copy_from_user copy_to_user signal noRtn noReturn = .returned r →
      r.sent.g = some info → EntryStep sign second overshift s .snd { s with info := info }
  | rcv {s : DeviceState File Thread} {info : IPC_MSQINFO} {msg_user : IPC_IOC_MSGQUE_RCV}
      {copy_from_user copy_to_user : Bool} {noReturn : INT32} {wait_event : IPC_MSQINFO → Outcome (INT32 × IPC_MSQINFO)}
      {msg_drv : IPC_MSG} {r : Ioctl} :
      ioctl_MSGQUE_RCV (some s.info) s.m_ctrl msg_user copy_from_user copy_to_user noReturn wait_event msg_drv = .returned r →
      r.g = some info → EntryStep sign second overshift s .rcv { s with info := info, m_ctrl := r.m_ctrl }
  | core {s : DeviceState File Thread} {info : IPC_MSQINFO} {bases : SharedBases} {memory : UINT32 → Mem}
      {evt_comefrom : IPC_CC_EVENT_T} {ipc_cc_get_cmd : IPC_CC_CORE_T → IPC_CC_CMD_T → INT32 × IPC_CC_CMD_T}
      {cmd : IPC_CC_CMD_T} {rcvmsg : IPC_MSG} :
      (ipc_core_handler (some s.info) s.m_ctrl bases memory evt_comefrom ipc_cc_get_cmd cmd rcvmsg).g = some info →
      EntryStep sign second overshift s .core { s with info := info }

/-- A GET ioctl of the key returns the id of a queue with the key and sets its bit. -/
def Obtains (overshift : UINT32 → UINT32) (info : IPC_MSQINFO) (pdev : ipc_device) (key : UINT16) : Prop :=
  ∀ rtn noReturn, ∃ i pdev', HasKey info.tbl i key.toUInt32 ∧ pdev'.stored i = true ∧
    ioctl_MSGQUE_GET overshift (some info) (some pdev) ⟨key,rtn⟩ true true noReturn =
      (noReturn,some pdev',⟨key,Int32.ofNat i⟩)

/-- The key is of a queue, or a slot is free for it. -/
def Available (info : IPC_MSQINFO) (key : UINT16) : Prop :=
  (∃ i, HasKey info.tbl i key.toUInt32) ∨ ∃ i < 12, ¬ Live info.tbl (msgQueTbl i)

/-- No slot is initialised. -/
def Unassigned (info : IPC_MSQINFO) : Prop := ∀ i < 12, ¬ Live info.tbl (msgQueTbl i)

section
variable {info : IPC_MSQINFO}

theorem unassigned_key (none : Unassigned info) (i : Nat) (key : UINT32) : ¬ HasKey info.tbl i key :=
  fun has => none i has.1 has.2.1

theorem unassigned_getIDbyKey (none : Unassigned info) (key : INT32) : ipc_msgque_getIDbyKey (some info) key = -3 := by
  rcases getIDbyKey_cases info key with ⟨i,has,_⟩ | ⟨_,failed⟩
  · exact absurd has (unassigned_key none i _)
  · exact failed

theorem unassigned_getQuebyID (none : Unassigned info) (msqid : UINT32) :
    ipc_msgque_getQuebyID (some info) msqid = Option.none := by
  cases found : ipc_msgque_getQuebyID (some info) msqid with
  | none => rfl
  | some q =>
    obtain ⟨inside,live,_⟩ := getQuebyID_some.mp found
    exact absurd live (none _ inside)

/-! A release, a send, a receive and an event find no queue and leave the table. -/

theorem unassigned_rel (none : Unassigned info) {msqid : UINT32} {ret : INT32} {g : Option IPC_MSQINFO}
    (called : ipc_msgque_rel sign (some info) msqid = (ret,g)) : g = some info := by
  rcases rel_cases sign info msqid with ⟨_,refused⟩ | ⟨inside,live,_⟩ | ⟨_,inside,live,_⟩
  · cases called.symm.trans refused
    rfl
  · exact absurd live (none _ inside)
  · exact absurd live (none _ inside)

theorem unassigned_snd (none : Unassigned info) {msg_user : IPC_IOC_MSGQUE_SND} {copy_from_user copy_to_user signal : Bool}
    {noRtn noReturn : INT32} {r : SndIoctl}
    (called : ioctl_MSGQUE_SND (some info) msg_user copy_from_user copy_to_user signal noRtn noReturn = .returned r) :
    r.sent.g = some info := by
  simp only [ioctl_MSGQUE_SND,ipc_msg_snd,unassigned_getQuebyID none,Outcome.returned_bind] at called
  split at called
  · cases called
    rfl
  · split at called <;> cases called <;> rfl

theorem unassigned_rcv (none : Unassigned info) {m_ctrl : IPC_CTRL} {msg_user : IPC_IOC_MSGQUE_RCV}
    {copy_from_user copy_to_user : Bool} {noReturn : INT32} {wait_event : IPC_MSQINFO → Outcome (INT32 × IPC_MSQINFO)}
    {msg_drv : IPC_MSG} {r : Ioctl}
    (called : ioctl_MSGQUE_RCV (some info) m_ctrl msg_user copy_from_user copy_to_user noReturn wait_event msg_drv = .returned r) :
    r.g = some info := by
  simp only [ioctl_MSGQUE_RCV,ipc_msg_rcv,unassigned_getQuebyID none,Outcome.returned_bind] at called
  split at called
  · cases called
    rfl
  · split at called
    · cases called
      rfl
    · split at called <;> cases called <;> rfl

theorem unassigned_core (none : Unassigned info) (m_ctrl : IPC_CTRL) (bases : SharedBases) (memory : UINT32 → Mem)
    (evt_comefrom : IPC_CC_EVENT_T) (ipc_cc_get_cmd : IPC_CC_CORE_T → IPC_CC_CMD_T → INT32 × IPC_CC_CMD_T)
    (cmd : IPC_CC_CMD_T) (rcvmsg : IPC_MSG) :
    (ipc_core_handler (some info) m_ctrl bases memory evt_comefrom ipc_cc_get_cmd cmd rcvmsg).g = some info := by
  have handled (core : IPC_CC_CORE_T) :
      (ipc_core_handle_func (some info) m_ctrl bases memory core ipc_cc_get_cmd cmd rcvmsg).g = some info := by
    rcases postEvent_cases info bases memory core ipc_cc_get_cmd cmd rcvmsg with same | ⟨id,q,_,live,_⟩
    · rw [ipc_core_handle_func,same]
    · rw [unassigned_getQuebyID none] at live
      cases live
  rw [ipc_core_handler]
  split
  · exact handled _
  · split
    · exact handled _
    · rfl

/-- An FTOK ioctl writes token strings only. -/
theorem unassigned_ftok (none : Unassigned info) {msg_user msg : IPC_IOC_MSGQUE_FTOK} {copy_from_user copy_to_user : Bool}
    {noReturn ret : INT32} {info' : IPC_MSQINFO}
    (called : ioctl_MSGQUE_FTOK sign (some info) msg_user copy_from_user copy_to_user noReturn = (ret,some info',msg)) :
    Unassigned info' := by
  have stored {key : UINT16} {g : Option IPC_MSQINFO} (done : ipc_msgque_ftok sign (some info) msg_user.path = (key,g)) :
      ∃ after, g = some after ∧ Unassigned after := by
    rcases ftok_cases sign info msg_user.path with ⟨_,full⟩ | ⟨i,_,_,_,stored⟩
    · cases done.symm.trans full
      exact ⟨info,rfl,none⟩
    · cases done.symm.trans stored
      refine ⟨_,rfl,fun j inside live => none j inside ?_⟩
      exact (sameQueue_header (ftok_same info.tbl i msg_user.path j inside)).1.mp live
  rw [ioctl_MSGQUE_FTOK] at called
  split at called
  · cases called
    exact none
  · obtain ⟨after,table,unassigned⟩ := stored rfl
    split at called <;> cases called
    · cases table
      exact unassigned
    · cases table
      exact unassigned

end

/-! ### Runs -/

variable [DecidableEq File] [DecidableEq Thread]

/-- Nothing the files do initialises a slot. -/
theorem unassigned_file {s d : Driver File Thread} {e : FileEvent File Thread} (none : Unassigned s.info)
    (step : FileStep sign second overshift s e d) : Unassigned d.info := by
  cases step with
  | ipc_open | lookup | got | cleared | close | closed => exact none
  | rel _ _ called =>
    cases unassigned_rel none called
    exact none
  | turn _ _ called =>
    split at called
    · obtain ⟨ret,called⟩ := called
      cases unassigned_rel none called
      exact none
    · exact called ▸ none

theorem unassigned_step {s s' : DeviceState File Thread} {e : EntryEvent File Thread} (none : Unassigned s.info)
    (step : EntryStep sign second overshift s e s') : Unassigned s'.info := by
  cases step with
  | file step => exact unassigned_file none step
  | ftok called => exact unassigned_ftok none called
  | snd called table =>
    cases table.symm.trans (unassigned_snd none called)
    exact none
  | rcv called table =>
    cases table.symm.trans (unassigned_rcv none called)
    exact none
  | core table =>
    cases table.symm.trans (unassigned_core none ..)
    exact none

theorem unassigned_run {start s : DeviceState File Thread} {es : List (EntryEvent File Thread)}
    (started : Started (some start.info)) (run : Run (EntryStep sign second overshift) start es s) : Unassigned s.info := by
  refine run.preserves (I := fun t : DeviceState File Thread => Unassigned t.info) ?_ fun _ _ _ => unassigned_step
  obtain ⟨_,⟨⟩,dead,_⟩ := started_spec started
  exact dead

/-- In every state that any sequence of ioctls, closes and events reaches from
    `ipc_msgque_init`, for the bitmap of any file and for every key, a slot is free
    and yet a GET ioctl of the key returns -3 and sets no bit. -/
theorem never_obtained {start s : DeviceState File Thread} {es : List (EntryEvent File Thread)}
    (started : Started (some start.info)) (run : Run (EntryStep sign second overshift) start es s) (pdev : ipc_device)
    (key : UINT16) :
    ¬ (Available s.info key → Obtains overshift s.info pdev key) ∧
      ∀ rtn noReturn, ioctl_MSGQUE_GET overshift (some s.info) (some pdev) ⟨key,rtn⟩ true true noReturn =
        (noReturn,some pdev,⟨key,-3⟩) := by
  have none := unassigned_run started run
  constructor
  · intro claimed
    obtain ⟨i,_,has,_⟩ := claimed (.inr ⟨0,by decide,none 0 (by decide)⟩) 0 0
    exact unassigned_key none i _ has
  · intro rtn noReturn
    simp [ioctl_MSGQUE_GET,unassigned_getIDbyKey none]

/-- A driver that was just set up, with no open file. -/
def bootedDevice : DeviceState Bool Bool where
  info := booted.get (by decide +kernel)
  file _ := .closed
  ioctl _ := .outside
  ipc_mutex := false
  m_ctrl := ⟨fun _ => false⟩

theorem bootedDevice_started : Started (some bootedDevice.info) := by
  rw [bootedDevice,Option.some_get]
  exact booted_started

/-- A client opens the device and turns the name "a" into a key. -/
theorem key_of_name : ∃ (s : DeviceState Bool Bool), s.file true = .opened ⟨0⟩ ∧
    Run (EntryStep .signed .mutex_unlock fun _ => 0) bootedDevice [.file (.ipc_open true),.ftok 97] s := by
  let one : DeviceState Bool Bool := { bootedDevice with file := Function.update bootedDevice.file true (.opened ⟨0⟩) }
  have opened : EntryStep .signed .mutex_unlock (fun _ => 0) bootedDevice (.file (.ipc_open true)) one := .file (.ipc_open rfl)
  let answer := ioctl_MSGQUE_FTOK .signed (some bootedDevice.info) ⟨[97,0],0⟩ true true 0
  have table : answer.2.1.isSome := by decide +kernel
  have ret : answer.1 = 0 := by decide +kernel
  have msg : answer.2.2 = ⟨[97,0],97⟩ := by decide +kernel
  have named : answer = (0,some (answer.2.1.get table),⟨[97,0],97⟩) :=
    Prod.ext ret (Prod.ext (Option.some_get table).symm msg)
  have ftok : EntryStep .signed .mutex_unlock (fun _ => 0) one (.ftok 97) _ := .ftok (s := one) named
  exact ⟨_,rfl,(Run.one opened).snoc ftok⟩

/-- The key of the name "a" is not found. -/
theorem never_obtained_named : ∃ s : DeviceState Bool Bool, s.file true = .opened ⟨0⟩ ∧
    Run (EntryStep .signed .mutex_unlock fun _ => 0) bootedDevice [.file (.ipc_open true),.ftok 97] s ∧
      ioctl_MSGQUE_GET (fun _ => 0) (some s.info) (some ⟨0⟩) ⟨97,0⟩ true true 0 = (0,some ⟨0⟩,⟨97,-3⟩) := by
  obtain ⟨s,opened,run⟩ := key_of_name
  exact ⟨s,opened,run,(never_obtained bootedDevice_started run ⟨0⟩ 97).2 0 0⟩

/-- A slot is free for the key of the name "a", and a client that has opened the
    device does not obtain a queue for it. -/
theorem named_not_obtained : ∃ s : DeviceState Bool Bool, s.file true = .opened ⟨0⟩ ∧
    Run (EntryStep .signed .mutex_unlock fun _ => 0) bootedDevice [.file (.ipc_open true),.ftok 97] s ∧
      Available s.info 97 ∧ ¬ Obtains (fun _ => 0) s.info ⟨0⟩ 97 := by
  obtain ⟨s,opened,run⟩ := key_of_name
  have none := unassigned_run bootedDevice_started run
  refine ⟨s,opened,run,.inr ⟨0,by decide,none 0 (by decide)⟩,fun obtains => ?_⟩
  obtain ⟨i,_,has,_⟩ := obtains 0 0
  exact unassigned_key none i _ has

end IpcMsq.Obtaining
