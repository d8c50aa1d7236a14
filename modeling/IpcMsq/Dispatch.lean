import IpcMsq.PingPong

/-!
Where a send goes and what it leaves of the semaphores. A destination is tested
from above only, so 0 indexes in front of the table; the branch for `CORE3`
compares the address of the slot with the number of the core, so its sends and
those to the own core end in the error path, which keeps the semaphore.
-/
namespace IpcMsq.Dispatch
open IpcMsq.Memory IpcMsq.Common IpcMsq.Table IpcMsq.Elements IpcMsq.SendBuff IpcMsq.Communicator IpcMsq.Api IpcMsq.PingPong

section
variable {info : IPC_MSQINFO} {msqid sendTo size : UINT32} {q : Nat} {c : Fin 3} {payload : Mem} {signal : Bool} {noReturn : INT32}

/-- A wait for a semaphore that returns took it, or ended at a signal. -/
theorem down_returned {taken semid : Nat} (down : down_interruptible semid signal = .returned taken) :
    semid = taken + 1 ∨ semid = 0 ∧ taken = 0 ∧ signal = true := by
  cases semid with
  | succ free =>
    cases down
    exact .inl rfl
  | zero =>
    cases signal with
    | false => cases down
    | true =>
      cases down
      exact .inr ⟨rfl,rfl,rfl⟩

end

end IpcMsq.Dispatch
