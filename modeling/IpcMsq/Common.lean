import IpcMsq.Memory
import Mathlib.Data.Fin.VecNotation

/-!
The shared declarations of `ipc-common.h`, `drv_ipc_msgque.h` and `ipc-cc.h`.
`msgQueTbl` and `msgQueTokenStr` are one block of bytes in C layout, addressed
from `&msgQueTbl[0]`; a pointer to a queue is its address there, and the fields
of a queue are words at fixed offsets.
-/
namespace IpcMsq.Common
open IpcMsq.Memory

abbrev UINT16 := UInt16
abbrev UINT32 := UInt32
abbrev INT16 := Int16
abbrev INT32 := Int32

@[simp] abbrev MAX_LENGTH : Nat := 3
@[simp] abbrev IPC_MSG_QUEUE_TOKEN_STR_MAXLEN : Nat := 32
@[simp] abbrev IPC_MSG_QUEUE_NUM : Nat := 12
@[simp] abbrev IPC_MSG_ELEMENT_NUM : UINT32 := 16
@[simp] abbrev IPC_MSG_ELEMENT_SIZE : UINT32 := 24
@[simp] abbrev CFG_IPC_INIT_KEY : UINT32 := 0x12345678

@[simp] abbrev IPC_SENDTO_CORE1 : UINT32 := 1
@[simp] abbrev IPC_SENDTO_CORE2 : UINT32 := 2
@[simp] abbrev IPC_SENDTO_CORE3 : UINT32 := 3
@[simp] abbrev IPC_SENDTO_MAX : UINT32 := IPC_SENDTO_CORE3

/-- Linux error numbers, as the functions return them. -/
@[simp] abbrev ENOMEM : INT32 := 12
@[simp] abbrev EFAULT : INT32 := 14

/-- A message in a local variable: `data` is the memory from the `data` member
    on, so its first twelve bytes are the array and the rest is what lies behind. -/
structure IPC_MSG where
  size : UINT32
  data : Mem

/-- Size and bytes of a message, the part a receiver is entitled to. -/
def IPC_MSG.content (msg : IPC_MSG) : UINT32 × List UInt8 := (msg.size,bytes msg.data 0 msg.size.toNat)

structure IPC_SNDMSG_BUFF where
  pingponidx : UINT32
  sndmsg : Fin 2 → UINT32
  /-- The value of the semaphore. -/
  semid : Nat

/-- `tbl` holds `msgQueTbl` and `msgQueTokenStr`; `syscmdbuf` is the memory that
    `syscmdbuf_vir` points to. -/
structure IPC_MSQINFO where
  syscmdbuf_vir : UINT32
  syscmdbuf_dma : UINT32
  tbl : Mem
  sndmsg_buffTbl : Fin 3 → IPC_SNDMSG_BUFF
  syscmdbuf : Mem

/-- `sizeof(IPC_MSG)`: the size word and the data words. -/
@[simp] abbrev sizeof_IPC_MSG : Nat := 4 + 4 * MAX_LENGTH
/-- `sizeof(IPC_MSGQUE)`: six header words and sixteen elements. -/
@[simp] abbrev sizeof_IPC_MSGQUE : Nat := 24 + sizeof_IPC_MSG * 16
/-- `sizeof(IPC_SEND_MSG)`. -/
@[simp] abbrev sizeof_IPC_SEND_MSG : Nat := 4 + 4 * MAX_LENGTH

/-- `&msgQueTbl[i]`. -/
def msgQueTbl (i : Nat) : Nat := sizeof_IPC_MSGQUE * i
/-- `msgQueTokenStr[i]`, which follows the table. -/
def msgQueTokenStr (i : Nat) : Nat :=
  sizeof_IPC_MSGQUE * IPC_MSG_QUEUE_NUM + (IPC_MSG_QUEUE_TOKEN_STR_MAXLEN + 1) * i
/-- `&msgque->element[p]`. -/
def element (msgque p : Nat) : Nat := msgque + 24 + sizeof_IPC_MSG * p

theorem msgQueTbl_eq (i : Nat) : msgQueTbl i = 280 * i := rfl
theorem msgQueTokenStr_eq (i : Nat) : msgQueTokenStr i = 3360 + 33 * i := rfl
theorem element_eq (msgque p : Nat) : element msgque p = msgque + 24 + 16 * p := rfl

section
variable (tbl : Mem) (msgque : Nat)

def initkey : UINT32 := load32 tbl msgque
def sharekey : UINT32 := load32 tbl (msgque + 4)
def msqid : UINT32 := load32 tbl (msgque + 8)
def indx : UINT32 := load32 tbl (msgque + 12)
def outdx : UINT32 := load32 tbl (msgque + 16)
def count : UINT32 := load32 tbl (msgque + 20)

/-- The queue at an address is initialised. -/
def Live : Prop := initkey tbl msgque = CFG_IPC_INIT_KEY

instance : Decidable (Live tbl msgque) := inferInstanceAs (Decidable (_ = _))

/-- Size and bytes of the message that the element at an address holds. -/
def contentAt (tbl : Mem) (addr : Nat) : UINT32 × List UInt8 :=
  (load32 tbl addr,bytes tbl (addr + 4) (load32 tbl addr).toNat)

end

/-- The header of a queue is its first 24 bytes. -/
theorem header_congr {tbl tbl' : Mem} {q : Nat} (same : ∀ a, q ≤ a → a < q + 24 → tbl' a = tbl a) :
    initkey tbl' q = initkey tbl q ∧ sharekey tbl' q = sharekey tbl q ∧ msqid tbl' q = msqid tbl q ∧
      indx tbl' q = indx tbl q ∧ outdx tbl' q = outdx tbl q ∧ count tbl' q = count tbl q := by
  refine ⟨?_,?_,?_,?_,?_,?_⟩
  all_goals exact load32_congr fun k inside => same _ (by omega) (by omega)

end IpcMsq.Common
