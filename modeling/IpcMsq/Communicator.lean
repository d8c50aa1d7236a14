import IpcMsq.Common

/-!
The core communicator `ipc-cc.c`: the calls that write a command to another
core's registers and read one back. The registers behave as memory, and the
device lock that makes each call atomic is no part of the state. The register
and core names that no header defines are read as those of `DSP1` and `CPU3`. Two
names in `ipc_cc_get_cmd` that do not compile are read as what they stand for: its
device pointer, which is set to the function itself, as `ipc_cc_dev`, and the
opcode, which is taken from `cmdbuf1_reg_ofs`, as that of `cmdbuf1`.
-/
namespace IpcMsq.Communicator
open IpcMsq.Common

inductive IPC_CC_CORE_T
  | IPC_CC_CORE_CPU1 | IPC_CC_CORE_CPU2 | IPC_CC_CORE_CPU3 | IPC_CC_CORE_MAX
deriving DecidableEq

namespace IPC_CC_CORE_T

@[match_pattern] abbrev IPC_CC_CORE_DSP : IPC_CC_CORE_T := .IPC_CC_CORE_CPU3

end IPC_CC_CORE_T
open IPC_CC_CORE_T

inductive IPC_CC_EVENT_T
  | IPC_CC_EVT_FROM_CPU1 | IPC_CC_EVT_FROM_CPU2 | IPC_CC_EVT_FROM_DSP
  | IPC_CC_ACK_FROM_CPU1 | IPC_CC_ACK_FROM_CPU2 | IPC_CC_ACK_FROM_DSP
deriving DecidableEq

structure IPC_CC_CMD_T where
  opcode : UINT32
  data_addr : UINT32
  data_size : UINT32
deriving DecidableEq

/-- The device with the registers that `iobase` maps, by their offset. -/
structure IPC_CC_DEV_T where
  running_core : IPC_CC_CORE_T
  regs : UINT32 → UINT32

@[simp] abbrev CC_CPU2_ACT_REG_OFS : UINT32 := 0x20
@[simp] abbrev CC_CPU2_STS_REG_OFS : UINT32 := 0x24

@[simp] abbrev CC_CPU1_CPU2_CMDBUF1_REG_OFS : UINT32 := 0x100
@[simp] abbrev CC_CPU1_CPU2_CMDBUF2_REG_OFS : UINT32 := 0x104
@[simp] abbrev CC_CPU1_CPU2_CMDBUF3_REG_OFS : UINT32 := 0x108
@[simp] abbrev CC_CPU1_DSP_CMDBUF1_REG_OFS : UINT32 := 0x10C
@[simp] abbrev CC_CPU1_DSP_CMDBUF2_REG_OFS : UINT32 := 0x110
@[simp] abbrev CC_CPU1_DSP_CMDBUF3_REG_OFS : UINT32 := 0x114
@[simp] abbrev CC_CPU2_CPU1_CMDBUF1_REG_OFS : UINT32 := 0x118
@[simp] abbrev CC_CPU2_CPU1_CMDBUF2_REG_OFS : UINT32 := 0x11C
@[simp] abbrev CC_CPU2_CPU1_CMDBUF3_REG_OFS : UINT32 := 0x120
@[simp] abbrev CC_CPU2_DSP_CMDBUF1_REG_OFS : UINT32 := 0x124
@[simp] abbrev CC_CPU2_DSP_CMDBUF2_REG_OFS : UINT32 := 0x128
@[simp] abbrev CC_CPU2_DSP_CMDBUF3_REG_OFS : UINT32 := 0x12C
@[simp] abbrev CC_DSP_CPU1_CMDBUF1_REG_OFS : UINT32 := 0x130
@[simp] abbrev CC_DSP_CPU1_CMDBUF2_REG_OFS : UINT32 := 0x134
@[simp] abbrev CC_DSP_CPU1_CMDBUF3_REG_OFS : UINT32 := 0x138
@[simp] abbrev CC_DSP_CPU2_CMDBUF1_REG_OFS : UINT32 := 0x13C
@[simp] abbrev CC_DSP_CPU2_CMDBUF2_REG_OFS : UINT32 := 0x140
@[simp] abbrev CC_DSP_CPU2_CMDBUF3_REG_OFS : UINT32 := 0x144

/-- The values of two names that the driver writes and no header defines. -/
structure UndefinedValues where
  CLEAR_ACK : UINT32
  DATA_TRIGGER : UINT32

def ipc_cc_read (dd : IPC_CC_DEV_T) (offset : UINT32) : UINT32 := dd.regs offset

def ipc_cc_write (dd : IPC_CC_DEV_T) (offset data : UINT32) : IPC_CC_DEV_T :=
  { dd with regs := Function.update dd.regs offset data }

/-! ### The first command register -/

/-- Assignment to the upper half of the register; `serial_id` keeps its bits. -/
def CMDBUF1_setOpcode (reg opcode : UINT32) : UINT32 := (reg &&& (0xFFFF : UINT32)) ||| (opcode <<< (16 : UINT32))

/-- The upper half of the register. -/
def CMDBUF1_opcode (reg : UINT32) : UINT32 := reg >>> (16 : UINT32)

/-- What the opcode field returns is the lower half of what was assigned, whatever
    the serial id. -/
theorem CMDBUF1_opcode_set (reg opcode : UINT32) :
    CMDBUF1_opcode (CMDBUF1_setOpcode reg opcode) = opcode.toUInt16.toUInt32 := by
  apply UInt32.toNat_inj.mp
  have bound := opcode.toNat_lt
  have low : reg.toNat &&& 65535 < 65536 := Nat.and_lt_two_pow _ (n := 16) (by omega)
  simp only [CMDBUF1_opcode,CMDBUF1_setOpcode,UInt32.toNat_shiftRight,UInt32.toNat_or,UInt32.toNat_and,
    UInt32.toNat_shiftLeft,UInt32.reduceToNat,Nat.reduceMod,UInt16.toNat_toUInt32,UInt32.toNat_toUInt16]
  rw [Nat.shiftRight_or_distrib,Nat.shiftRight_eq_div_pow,Nat.div_eq_of_lt low,Nat.zero_or,Nat.shiftRight_eq_div_pow,
    Nat.shiftLeft_eq]
  omega

/-! ### Sending -/

/-- The locals of `ipc_cc_send_cmd`, uninitialised at first. -/
structure SendLocals where
  sts_reg_ofs : UINT32
  act_reg_ofs : UINT32
  cmdbuf1_reg_ofs : UINT32
  cmdbuf2_reg_ofs : UINT32
  cmdbuf3_reg_ofs : UINT32
  cmdbuf1 : UINT32

/-- The switch over the running core. Only `CPU2` sets offsets, and it assigns
    `cmdbuf2_reg_ofs` twice, so `cmdbuf3_reg_ofs` is never set. -/
def sendOffsets (running_core core_sendto : IPC_CC_CORE_T) (l : SendLocals) : Option SendLocals :=
  match running_core with
  | IPC_CC_CORE_CPU1 => some l
  | IPC_CC_CORE_CPU2 =>
    let l := { l with sts_reg_ofs := CC_CPU2_STS_REG_OFS, act_reg_ofs := CC_CPU2_ACT_REG_OFS }
    if core_sendto = IPC_CC_CORE_CPU1 then
      let l := { l with cmdbuf1_reg_ofs := CC_CPU2_CPU1_CMDBUF1_REG_OFS }
      let l := { l with cmdbuf2_reg_ofs := CC_CPU2_CPU1_CMDBUF2_REG_OFS }
      some { l with cmdbuf2_reg_ofs := CC_CPU2_CPU1_CMDBUF3_REG_OFS }
    else if core_sendto = IPC_CC_CORE_DSP then
      let l := { l with cmdbuf1_reg_ofs := CC_CPU2_DSP_CMDBUF1_REG_OFS }
      let l := { l with cmdbuf2_reg_ofs := CC_CPU2_DSP_CMDBUF2_REG_OFS }
      some { l with cmdbuf2_reg_ofs := CC_CPU2_DSP_CMDBUF3_REG_OFS }
    else none
  | IPC_CC_CORE_DSP => some l
  | IPC_CC_CORE_MAX => some l

/-- Between distinct cores the switch never refuses. -/
theorem sendOffsets_some {s r : IPC_CC_CORE_T} (distinct : s ≠ r) (core : r ≠ IPC_CC_CORE_MAX) (l : SendLocals) :
    ∃ l', sendOffsets s r l = some l' := by
  cases s <;> cases r <;> simp_all [sendOffsets]

/-- Nothing waits for the ack of an earlier command. -/
def ipc_cc_send_cmd (values : UndefinedValues) (ipc_cc_dev : Option IPC_CC_DEV_T) (core_sendto : IPC_CC_CORE_T)
    (cmd : IPC_CC_CMD_T) (locals : SendLocals) : INT32 × Option IPC_CC_DEV_T :=
  match ipc_cc_dev with
  | none => (-1,none)
  | some dd =>
    match sendOffsets dd.running_core core_sendto locals with
    | none => (-1,some dd)
    | some l =>
      let dd := ipc_cc_write dd l.sts_reg_ofs values.CLEAR_ACK
      let dd := ipc_cc_write dd l.cmdbuf1_reg_ofs (CMDBUF1_setOpcode l.cmdbuf1 cmd.opcode)
      let dd := ipc_cc_write dd l.cmdbuf2_reg_ofs cmd.data_addr
      let dd := ipc_cc_write dd l.cmdbuf3_reg_ofs cmd.data_size
      (0,some (ipc_cc_write dd l.act_reg_ofs values.DATA_TRIGGER))

/-! ### Receiving -/

/-- The offsets of `ipc_cc_get_cmd`, uninitialised at first. -/
structure GetLocals where
  cmdbuf1_reg_ofs : UINT32
  cmdbuf2_reg_ofs : UINT32
  cmdbuf3_reg_ofs : UINT32

/-- The cases of the switch over the running core. No case breaks: each falls
    into the next, and the last into `default`. -/
def getDefault (_ : GetLocals) : Option GetLocals := none

def getDSP (core_getfrom : IPC_CC_CORE_T) (l : GetLocals) : Option GetLocals :=
  if core_getfrom = IPC_CC_CORE_CPU1 then
    getDefault { l with
      cmdbuf1_reg_ofs := CC_CPU1_DSP_CMDBUF1_REG_OFS, cmdbuf2_reg_ofs := CC_CPU1_DSP_CMDBUF2_REG_OFS,
      cmdbuf3_reg_ofs := CC_CPU1_DSP_CMDBUF3_REG_OFS }
  else if core_getfrom = IPC_CC_CORE_CPU2 then
    getDefault { l with
      cmdbuf1_reg_ofs := CC_CPU2_DSP_CMDBUF1_REG_OFS, cmdbuf2_reg_ofs := CC_CPU2_DSP_CMDBUF2_REG_OFS,
      cmdbuf3_reg_ofs := CC_CPU2_DSP_CMDBUF3_REG_OFS }
  else none

def getCPU2 (core_getfrom : IPC_CC_CORE_T) (l : GetLocals) : Option GetLocals :=
  if core_getfrom = IPC_CC_CORE_CPU1 then
    getDSP core_getfrom { l with
      cmdbuf1_reg_ofs := CC_CPU1_CPU2_CMDBUF1_REG_OFS, cmdbuf2_reg_ofs := CC_CPU1_CPU2_CMDBUF2_REG_OFS,
      cmdbuf3_reg_ofs := CC_CPU1_CPU2_CMDBUF3_REG_OFS }
  else if core_getfrom = IPC_CC_CORE_DSP then
    getDSP core_getfrom { l with
      cmdbuf1_reg_ofs := CC_DSP_CPU2_CMDBUF1_REG_OFS, cmdbuf2_reg_ofs := CC_DSP_CPU2_CMDBUF2_REG_OFS,
      cmdbuf3_reg_ofs := CC_DSP_CPU2_CMDBUF3_REG_OFS }
  else none

def getCPU1 (core_getfrom : IPC_CC_CORE_T) (l : GetLocals) : Option GetLocals :=
  if core_getfrom = IPC_CC_CORE_CPU2 then
    getCPU2 core_getfrom { l with
      cmdbuf1_reg_ofs := CC_CPU2_CPU1_CMDBUF1_REG_OFS, cmdbuf2_reg_ofs := CC_CPU2_CPU1_CMDBUF2_REG_OFS,
      cmdbuf3_reg_ofs := CC_CPU2_CPU1_CMDBUF3_REG_OFS }
  else if core_getfrom = IPC_CC_CORE_DSP then
    getCPU2 core_getfrom { l with
      cmdbuf1_reg_ofs := CC_DSP_CPU1_CMDBUF1_REG_OFS, cmdbuf2_reg_ofs := CC_DSP_CPU1_CMDBUF2_REG_OFS,
      cmdbuf3_reg_ofs := CC_DSP_CPU1_CMDBUF3_REG_OFS }
  else none

def getOffsets (running_core core_getfrom : IPC_CC_CORE_T) (l : GetLocals) : Option GetLocals :=
  match running_core with
  | IPC_CC_CORE_CPU1 => getCPU1 core_getfrom l
  | IPC_CC_CORE_CPU2 => getCPU2 core_getfrom l
  | IPC_CC_CORE_DSP => getDSP core_getfrom l
  | IPC_CC_CORE_MAX => getDefault l

/-- `dd` is `ipc_cc_dev`, and the opcode that of `cmdbuf1`. A null `cmd` is `none`. -/
def ipc_cc_get_cmd (ipc_cc_dev : Option IPC_CC_DEV_T) (core_getfrom : IPC_CC_CORE_T) (cmd : Option IPC_CC_CMD_T)
    (locals : GetLocals) : INT32 × Option IPC_CC_CMD_T :=
  match ipc_cc_dev, cmd with
  | some dd, some old =>
    if core_getfrom = IPC_CC_CORE_MAX then (-2,cmd)
    else
      match getOffsets dd.running_core core_getfrom locals with
      | none => (-1,some old)
      | some l =>
        (0,some { opcode := CMDBUF1_opcode (ipc_cc_read dd l.cmdbuf1_reg_ofs),
                  data_addr := ipc_cc_read dd l.cmdbuf2_reg_ofs,
                  data_size := ipc_cc_read dd l.cmdbuf3_reg_ofs })
  | _, _ => (-1,cmd)

/-- Every path through the switch ends in a refusal. -/
theorem getOffsets_none (running_core core_getfrom : IPC_CC_CORE_T) (l : GetLocals) :
    getOffsets running_core core_getfrom l = none := by
  cases running_core <;> cases core_getfrom <;> rfl

/-- So no command is ever read. -/
theorem get_cmd_fails (ipc_cc_dev : Option IPC_CC_DEV_T) (core_getfrom : IPC_CC_CORE_T) (cmd : Option IPC_CC_CMD_T)
    (locals : GetLocals) :
    (ipc_cc_get_cmd ipc_cc_dev core_getfrom cmd locals).1 < 0 ∧
      (ipc_cc_get_cmd ipc_cc_dev core_getfrom cmd locals).2 = cmd := by
  cases ipc_cc_dev with
  | none => exact ⟨by simp only [ipc_cc_get_cmd]; decide,rfl⟩
  | some dd =>
    cases cmd with
    | none => exact ⟨by simp only [ipc_cc_get_cmd]; decide,rfl⟩
    | some old =>
      simp only [ipc_cc_get_cmd,getOffsets_none]
      split
      · exact ⟨show (-2 : INT32) < 0 by decide,rfl⟩
      · exact ⟨show (-1 : INT32) < 0 by decide,rfl⟩

/-! ### Acknowledging -/

/-- The number of a core in the enumeration. -/
def IPC_CC_CORE_T.number : IPC_CC_CORE_T → UINT32
  | IPC_CC_CORE_CPU1 => 0
  | IPC_CC_CORE_CPU2 => 1
  | IPC_CC_CORE_DSP => 2
  | IPC_CC_CORE_MAX => 3

/-- No header defines the ack registers; the action registers hold the ack bits. -/
@[simp] abbrev CC_CPU1_ACK_REG_OFS : UINT32 := 0x10
@[simp] abbrev CC_CPU2_ACK_REG_OFS : UINT32 := 0x20
@[simp] abbrev CC_DSP_ACK_REG_OFS : UINT32 := 0x30

/-- The bit that acknowledges a core's command. -/
def ackBit (core_sendto : IPC_CC_CORE_T) : UINT32 := 1 <<< (core_sendto.number + 16)

/-- What it returned, the device after it, and the register writes it made. The
    first test is read as one of `core_sendto`. -/
def ipc_cc_send_ack (ipc_cc_dev : Option IPC_CC_DEV_T) (core_sendto : IPC_CC_CORE_T) :
    INT32 × Option IPC_CC_DEV_T × List (UINT32 × UINT32) :=
  match ipc_cc_dev with
  | none => (-1,none,[])
  | some dd =>
    if core_sendto = IPC_CC_CORE_MAX then (-2,some dd,[])
    else if core_sendto = dd.running_core then (-3,some dd,[])
    else
      let ack (ofs : UINT32) : INT32 × Option IPC_CC_DEV_T × List (UINT32 × UINT32) :=
        (0,some (ipc_cc_write dd ofs (ackBit core_sendto)),[(ofs,ackBit core_sendto)])
      match dd.running_core with
      | IPC_CC_CORE_CPU1 => ack CC_CPU1_ACK_REG_OFS
      | IPC_CC_CORE_CPU2 => ack CC_CPU2_ACK_REG_OFS
      | IPC_CC_CORE_DSP => ack CC_DSP_ACK_REG_OFS
      | IPC_CC_CORE_MAX => (-4,some dd,[])

/-! ### Round trip -/

/-- The status and the action register of a core. -/
def ownRegs : IPC_CC_CORE_T → List UINT32
  | IPC_CC_CORE_CPU1 => [0x14,0x10]
  | IPC_CC_CORE_CPU2 => [CC_CPU2_STS_REG_OFS,CC_CPU2_ACT_REG_OFS]
  | IPC_CC_CORE_DSP => [0x34,0x30]
  | IPC_CC_CORE_MAX => []

/-- The three command registers of a direction. -/
def cmdbufRegs : IPC_CC_CORE_T → IPC_CC_CORE_T → List UINT32
  | IPC_CC_CORE_CPU1, IPC_CC_CORE_CPU2 => [CC_CPU1_CPU2_CMDBUF1_REG_OFS,CC_CPU1_CPU2_CMDBUF2_REG_OFS,CC_CPU1_CPU2_CMDBUF3_REG_OFS]
  | IPC_CC_CORE_CPU1, IPC_CC_CORE_DSP => [CC_CPU1_DSP_CMDBUF1_REG_OFS,CC_CPU1_DSP_CMDBUF2_REG_OFS,CC_CPU1_DSP_CMDBUF3_REG_OFS]
  | IPC_CC_CORE_CPU2, IPC_CC_CORE_CPU1 => [CC_CPU2_CPU1_CMDBUF1_REG_OFS,CC_CPU2_CPU1_CMDBUF2_REG_OFS,CC_CPU2_CPU1_CMDBUF3_REG_OFS]
  | IPC_CC_CORE_CPU2, IPC_CC_CORE_DSP => [CC_CPU2_DSP_CMDBUF1_REG_OFS,CC_CPU2_DSP_CMDBUF2_REG_OFS,CC_CPU2_DSP_CMDBUF3_REG_OFS]
  | IPC_CC_CORE_DSP, IPC_CC_CORE_CPU1 => [CC_DSP_CPU1_CMDBUF1_REG_OFS,CC_DSP_CPU1_CMDBUF2_REG_OFS,CC_DSP_CPU1_CMDBUF3_REG_OFS]
  | IPC_CC_CORE_DSP, IPC_CC_CORE_CPU2 => [CC_DSP_CPU2_CMDBUF1_REG_OFS,CC_DSP_CPU2_CMDBUF2_REG_OFS,CC_DSP_CPU2_CMDBUF3_REG_OFS]
  | _, _ => []

/-- A command that core `s` sends is what core `r` then gets from it, and a send
    writes the sender's own registers and the direction's, or nothing. -/
def RoundTrip (values : UndefinedValues) (regs : UINT32 → UINT32) (s r : IPC_CC_CORE_T) (cmd old : IPC_CC_CMD_T)
    (sendLocals : SendLocals) (getLocals : GetLocals) : Prop :=
  ∃ ret dd, ipc_cc_send_cmd values (some ⟨s,regs⟩) r cmd sendLocals = (ret,some dd) ∧
    (ret = 0 → ipc_cc_get_cmd (some { dd with running_core := r }) s (some old) getLocals = (0,some cmd) ∧
      ∀ ofs, ofs ∉ ownRegs s ++ cmdbufRegs s r → dd.regs ofs = regs ofs) ∧
    (ret ≠ 0 → dd.regs = regs)

/-- Between distinct cores every send reports success and no get does. -/
theorem round_trip_never {s r : IPC_CC_CORE_T} (distinct : s ≠ r)
    (receiver : r ≠ IPC_CC_CORE_MAX) (values : UndefinedValues) (regs : UINT32 → UINT32) (cmd old : IPC_CC_CMD_T)
    (sendLocals : SendLocals) (getLocals : GetLocals) :
    ¬ RoundTrip values regs s r cmd old sendLocals getLocals := by
  rintro ⟨ret,dd,sent,success,_⟩
  obtain ⟨l,set⟩ := sendOffsets_some distinct receiver sendLocals
  simp only [ipc_cc_send_cmd,set,Prod.mk.injEq] at sent
  have failed := (get_cmd_fails (some { dd with running_core := r }) s (some old) getLocals).1
  rw [(success sent.1.symm).1] at failed
  exact absurd failed (show ¬ (0 : INT32) < 0 by decide)

/-- Registers that hold the command of one message are read as no command. -/
theorem round_trip_never_dsp : ¬ RoundTrip ⟨0,1⟩ (fun _ => 7) IPC_CC_CORE_DSP IPC_CC_CORE_CPU2 ⟨5,0x00100004,4⟩ ⟨0,0,0⟩
    ⟨0x34,0x30,0x13C,0x140,0x144,0⟩ ⟨0,0,0⟩ :=
  round_trip_never (by decide) (by decide) _ _ _ _ _ _

/-- A four-byte message from `CPU2` to `CPU1`: the send returns 0, the get -1, and
    the address is where the size should be. -/
theorem command_lost_cpu2 :
    ¬ RoundTrip ⟨0,1⟩ (fun _ => 0) IPC_CC_CORE_CPU2 IPC_CC_CORE_CPU1 ⟨5,0x00100004,4⟩ ⟨0,0,0⟩ ⟨0,0,0,0,0,0⟩ ⟨0,0,0⟩ ∧
      ((ipc_cc_send_cmd ⟨0,1⟩ (some ⟨IPC_CC_CORE_CPU2,fun _ => 0⟩) IPC_CC_CORE_CPU1 ⟨5,0x00100004,4⟩
        ⟨0,0,0,0,0,0⟩).2.map fun dd => (dd.regs CC_CPU2_CPU1_CMDBUF2_REG_OFS,dd.regs CC_CPU2_CPU1_CMDBUF3_REG_OFS)) =
        some (0,0x00100004) := by
  refine ⟨?_,by decide +kernel⟩
  rintro ⟨ret,dd,sent,success,_⟩
  have zero : ret = 0 := (congrArg Prod.fst sent).symm
  have failed := (get_cmd_fails (some { dd with running_core := IPC_CC_CORE_CPU1 }) IPC_CC_CORE_CPU2 (some ⟨0,0,0⟩)
    ⟨0,0,0⟩).1
  rw [(success zero).1] at failed
  exact absurd failed (by decide)

end IpcMsq.Communicator
