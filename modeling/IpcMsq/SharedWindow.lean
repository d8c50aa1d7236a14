import IpcMsq.Acknowledge

/-!
Where an event reads its message. The address in a command is translated by
subtraction modulo 2^32, and no test asks whether it lies in the shared window:
the copy reads whatever the translated address points to.
-/
namespace IpcMsq.SharedWindow
open IpcMsq.Memory IpcMsq.Common IpcMsq.Table IpcMsq.Elements IpcMsq.Communicator IpcMsq.CoreHandler IpcMsq.Acknowledge

@[simp] abbrev IPC_SHARED_MEM_ADDR : UINT32 := 0x00100000
@[simp] abbrev IPC_SHARED_MEM_SIZE : Nat := 1024 * 4

/-- The bases that `ipc_probe` sets, with the address that the mapping got. -/
def probedBases (shm_non_cache_base : UINT32) : SharedBases := ⟨IPC_SHARED_MEM_ADDR,shm_non_cache_base⟩

/-- The source and the length of the copy in `ipc_msgque_msgpost`, unless a test
    before it refuses the message. -/
def msgpostSource (g : Option IPC_MSQINFO) (msqid pmsgaddr msgsize : UINT32) : Option (UINT32 × UINT32) :=
  if pmsgaddr = 0 then none
  else if msgsize > IPC_MSG_ELEMENT_SIZE then none
  else match ipc_msgque_getQuebyID g msqid with
    | none => none
    | some _ => some (pmsgaddr,msgsize)

/-- The source of the copy that an event makes. -/
def eventSource (info : IPC_MSQINFO) (bases : SharedBases) (cmd : IPC_CC_CMD_T) : Option (UINT32 × UINT32) :=
  if lookedUp info cmd < 0 then none
  else msgpostSource (some info) (lookedUp info cmd).toUInt32 (ipc_get_noncache_addr bases cmd.data_addr) cmd.data_size

/-- The bytes of a range of kernel addresses are in the mapped window. -/
def InMapped (shm_non_cache_base addr size : UINT32) : Prop :=
  ∀ k < size.toNat, (addr + UInt32.ofNat k - shm_non_cache_base).toNat < IPC_SHARED_MEM_SIZE

/-- The bytes of a range of physical addresses are in the shared window. -/
def InShared (data_addr data_size : UINT32) : Prop :=
  ∀ k < data_size.toNat, IPC_SHARED_MEM_ADDR.toNat ≤ data_addr.toNat + k ∧
    data_addr.toNat + k < IPC_SHARED_MEM_ADDR.toNat + IPC_SHARED_MEM_SIZE

/-- The copy for a command reads the shared window only, and a command whose range
    leaves the window is refused. -/
def ReadsWindow (info : IPC_MSQINFO) (shm_non_cache_base : UINT32) (cmd : IPC_CC_CMD_T) : Prop :=
  (∀ addr size, eventSource info (probedBases shm_non_cache_base) cmd = some (addr,size) →
    InMapped shm_non_cache_base addr size ∧ InShared cmd.data_addr cmd.data_size) ∧
  (¬ InShared cmd.data_addr cmd.data_size → ∀ e : Event, e.bases = probedBases shm_non_cache_base → e.got.2 = cmd →
    (e.handled info).g = some info ∧ (e.handled info).ack = none)

/-- A test before the copy refuses the command. -/
def RefusedEarly (info : IPC_MSQINFO) (bases : SharedBases) (cmd : IPC_CC_CMD_T) : Prop :=
  lookedUp info cmd < 0 ∨ ipc_get_noncache_addr bases cmd.data_addr = 0 ∨ 24 < cmd.data_size.toNat ∨
    ipc_msgque_getQuebyID (some info) (lookedUp info cmd).toUInt32 = none

section
variable {info : IPC_MSQINFO} {bases : SharedBases} {cmd : IPC_CC_CMD_T}

/-- Either a test refuses the command, or the copy is from the translated address. -/
theorem eventSource_cases (info : IPC_MSQINFO) (bases : SharedBases) (cmd : IPC_CC_CMD_T) :
    RefusedEarly info bases cmd ∧ eventSource info bases cmd = none ∨
    ¬ RefusedEarly info bases cmd ∧
      eventSource info bases cmd = some (ipc_get_noncache_addr bases cmd.data_addr,cmd.data_size) := by
  simp only [eventSource,msgpostSource,RefusedEarly,gt_iff_lt,UInt32.lt_iff_toNat_lt,IPC_MSG_ELEMENT_SIZE,
    UInt32.reduceToNat]
  by_cases unknown : lookedUp info cmd < 0
  · simp [unknown]
  · by_cases address : ipc_get_noncache_addr bases cmd.data_addr = 0
    · simp [address]
    · by_cases large : 24 < cmd.data_size.toNat
      · simp [large]
      · cases live : ipc_msgque_getQuebyID (some info) (lookedUp info cmd).toUInt32 with
        | none => simp
        | some q => simp [unknown,address,large]

/-- A command that is refused before the copy is not accepted. -/
theorem refusedEarly_refuses (refused : RefusedEarly info bases cmd) : ¬ Accepts info bases cmd := by
  rintro ⟨known,address,small,q,live,_⟩
  rcases refused with unknown | null | large | none
  · exact absurd known (Int32.not_le.mpr unknown)
  · exact address null
  · omega
  · cases none.symm.trans live

/-- A post depends on memory at the source of its copy only. -/
theorem msgpost_memory (msqid pmsgaddr msgsize : UINT32) {memory memory' : UINT32 → Mem}
    (same : ∀ addr size, msgpostSource (some info) msqid pmsgaddr msgsize = some (addr,size) →
      ∀ k < size.toNat, memory addr k = memory' addr k) (rcvmsg : IPC_MSG) :
    ipc_msgque_msgpost (some info) msqid (pointer memory pmsgaddr) msgsize rcvmsg =
      ipc_msgque_msgpost (some info) msqid (pointer memory' pmsgaddr) msgsize rcvmsg := by
  by_cases null : pmsgaddr = 0
  · rw [pointer,pointer,if_pos null,if_pos null]
  · rw [pointer,pointer,if_neg null,if_neg null]
    simp only [ipc_msgque_msgpost]
    by_cases large : msgsize > IPC_MSG_ELEMENT_SIZE
    · rw [if_pos large,if_pos large]
    · rw [if_neg large,if_neg large]
      cases live : ipc_msgque_getQuebyID (some info) msqid with
      | none => simp only
      | some q =>
        have source : msgpostSource (some info) msqid pmsgaddr msgsize = some (pmsgaddr,msgsize) := by
          simp only [msgpostSource,if_neg null,if_neg large,live]
        simp only [copy_congr (same _ _ source)]

/-- So does an event. -/
theorem handled_memory {e : Event} {memory : UINT32 → Mem}
    (same : ∀ addr size, eventSource info e.bases e.got.2 = some (addr,size) →
      ∀ k < size.toNat, memory addr k = e.memory addr k) :
    ({ e with memory := memory } : Event).handled info = e.handled info := by
  have event : postEvent (some info) e.bases memory e.core_getfrom e.get_cmd_func e.cmd e.rcvmsg =
      postEvent (some info) e.bases e.memory e.core_getfrom e.get_cmd_func e.cmd e.rcvmsg := by
    simp only [postEvent]
    by_cases unknown : lookedUp info e.got.2 < 0
    · have unknown' : ipc_msgque_getIDbyKey (some info) (e.get_cmd_func e.core_getfrom e.cmd).2.opcode.toInt32 < 0 := unknown
      rw [if_pos unknown',if_pos unknown']
    · have posted := msgpost_memory (lookedUp info e.got.2).toUInt32 (ipc_get_noncache_addr e.bases e.got.2.data_addr)
        e.got.2.data_size (fun addr size source => same addr size (by rw [eventSource,if_neg unknown,source])) e.rcvmsg
      simp only [lookedUp,Event.got] at posted
      rw [posted]
  rw [Event.handled,Event.handled,ipc_core_handle_func,ipc_core_handle_func,event]

/-- Translation keeps the offset from the base of the window. -/
theorem translated_offset (shm_non_cache_base data_addr : UINT32) (k : Nat) :
    ipc_get_noncache_addr (probedBases shm_non_cache_base) data_addr + UInt32.ofNat k - shm_non_cache_base =
      data_addr + UInt32.ofNat k - IPC_SHARED_MEM_ADDR := by
  simp only [ipc_get_noncache_addr,probedBases]
  grind

/-- The range read is in the mapped window exactly if the physical range is in the shared one. -/
theorem inMapped_iff (shm_non_cache_base : UINT32) (small : cmd.data_size.toNat ≤ 24) :
    InMapped shm_non_cache_base (ipc_get_noncache_addr (probedBases shm_non_cache_base) cmd.data_addr) cmd.data_size ↔
      InShared cmd.data_addr cmd.data_size := by
  refine forall₂_congr fun k inside => ?_
  rw [translated_offset]
  have bound := cmd.data_addr.toNat_lt
  simp only [UInt32.toNat_sub,UInt32.toNat_add,UInt32.toNat_ofNat',UInt32.reduceToNat,IPC_SHARED_MEM_ADDR,IPC_SHARED_MEM_SIZE]
  omega

end

/-- A command meets the contract exactly if a test before the copy refuses it, or its
    physical range is in the shared window; and its events depend on memory at the source
    of the copy only. -/
theorem reads_window_iff (info : IPC_MSQINFO) (shm_non_cache_base : UINT32) (cmd : IPC_CC_CMD_T) :
    (ReadsWindow info shm_non_cache_base cmd ↔
      RefusedEarly info (probedBases shm_non_cache_base) cmd ∨ InShared cmd.data_addr cmd.data_size) ∧
    ∀ (e : Event) (memory : UINT32 → Mem), e.bases = probedBases shm_non_cache_base → e.got.2 = cmd →
      (∀ addr size, eventSource info (probedBases shm_non_cache_base) cmd = some (addr,size) →
        ∀ k < size.toNat, memory addr k = e.memory addr k) →
      ({ e with memory := memory } : Event).handled info = e.handled info := by
  refine ⟨?_,fun e memory bases got same => handled_memory (by rwa [bases,got])⟩
  rcases eventSource_cases info (probedBases shm_non_cache_base) cmd with
    ⟨refused,none⟩ | ⟨passed,source⟩
  · refine iff_of_true ⟨fun addr size copied => ?_,fun _ e bases got => ?_⟩ (.inl refused)
    · cases none.symm.trans copied
    · refine handled_refused (refusedEarly_refuses ?_)
      rw [bases,got]
      exact refused
  · have small : cmd.data_size.toNat ≤ 24 := by
      by_contra large
      exact passed (.inr (.inr (.inl (by omega))))
    constructor
    · exact fun reads => .inr (reads.1 _ _ source).2
    · rintro (refused | inside)
      · exact absurd refused passed
      · refine ⟨fun addr size copied => ?_,fun outside => absurd inside outside⟩
        cases source.symm.trans copied
        exact ⟨(inMapped_iff shm_non_cache_base small).mpr inside,inside⟩

/-- Four bytes from behind the window are read and queued. -/
theorem foreign_memory_read : ∃ cmd : IPC_CC_CMD_T, cmd = ⟨5,0x00200000,4⟩ ∧
    eventSource firstQueue (probedBases 0xC0100000) cmd = some (0xC0200000,4) ∧
    ¬ InMapped 0xC0100000 0xC0200000 4 ∧ ¬ ReadsWindow firstQueue 0xC0100000 cmd := by
  have source : eventSource firstQueue (probedBases 0xC0100000) ⟨5,0x00200000,4⟩ = some (0xC0200000,4) := by decide +kernel
  have outside : ¬ InMapped 0xC0100000 0xC0200000 4 := fun inside => absurd (inside 0 (by decide)) (by decide)
  exact ⟨_,rfl,source,outside,fun reads => outside (reads.1 _ _ source).1⟩

end IpcMsq.SharedWindow
