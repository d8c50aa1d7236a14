import IpcMsq.KeyMap

/-!
Token strings. The table reads a token from its first byte to the first NUL,
which may lie behind the 33 bytes of the slot; a token that ends inside its slot
depends on that slot only (`tokenBytes_name`). Names of up to 31 characters end
there, and so does a token whose first byte was cleared.
-/
namespace IpcMsq.Tokens
open IpcMsq.Memory IpcMsq.Common IpcMsq.Table

private theorem namehashFrom_cstr (sign : CharSign) (s : List UInt8) (hash : UINT16) :
    namehashFrom sign (cstr s) hash = namehashFrom sign s hash := by
  induction s generalizing hash with
  | nil => rfl
  | cons c rest ih =>
    by_cases stop : c = 0
    · simp [cstr_cons,stop,namehashFrom]
    · simp only [cstr_cons,namehashFrom,stop,if_false,ih]

/-- The hash reads up to the first NUL. -/
theorem namehash_cstr (sign : CharSign) (s : List UInt8) :
    ipc_msgque_namehash sign (cstr s) = ipc_msgque_namehash sign s := namehashFrom_cstr sign s 0

theorem namehash_nil (sign : CharSign) : ipc_msgque_namehash sign [] = 0 := rfl

/-- Token `j` ends inside its slot. -/
def Terminated (tbl : Mem) (j : Nat) : Prop := ∃ k ≤ 32, tbl (msgQueTokenStr j + k) = 0

/-- The string in slot `j` of the token table. -/
def nameAt (tbl : Mem) (j : Nat) : List UInt8 := cstr (bytes tbl (msgQueTokenStr j) 33)

section
variable {tbl tbl' : Mem} {info : IPC_MSQINFO} {sign : CharSign} {j : Nat}

theorem nameAt_nil : nameAt tbl j = [] ↔ tbl (msgQueTokenStr j) = 0 := by
  have first : bytes tbl (msgQueTokenStr j) 33 =
      tbl (msgQueTokenStr j) :: bytes tbl (msgQueTokenStr j + 1) 32 := bytes_append tbl (msgQueTokenStr j) 1 32
  rw [nameAt,first,cstr_eq_nil]

theorem cleared_terminated (empty : tbl (msgQueTokenStr j) = 0) : Terminated tbl j := ⟨0,by omega,empty⟩

/-- Two tables that agree on the 33 bytes of a slot have the same token there. -/
theorem nameAt_congr (same : ∀ k < 33, tbl' (msgQueTokenStr j + k) = tbl (msgQueTokenStr j + k)) :
    nameAt tbl' j = nameAt tbl j ∧ (Terminated tbl' j ↔ Terminated tbl j) := by
  refine ⟨congrArg cstr (bytes_congr same),?_,?_⟩
  · rintro ⟨k,inside,stop⟩; exact ⟨k,inside,(same k (by omega)).symm.trans stop⟩
  · rintro ⟨k,inside,stop⟩; exact ⟨k,inside,(same k (by omega)).trans stop⟩

/-- A string read from a token on is that of the slot. -/
theorem tokenBytes_cstr (inside : j < 12) (ends : Terminated info.tbl j) : cstr (tokenBytes info j) = nameAt info.tbl j := by
  obtain ⟨k,within,stop⟩ := ends
  have first : msgQueTokenStr IPC_MSG_QUEUE_NUM - msgQueTokenStr j = 33 + 33 * (11 - j) := by
    simp only [msgQueTokenStr_eq,IPC_MSG_QUEUE_NUM]
    omega
  have listed : (0 : UInt8) ∈ bytes info.tbl (msgQueTokenStr j) 33 :=
    List.mem_map.mpr ⟨k,List.mem_range.mpr (by omega),stop⟩
  rw [tokenBytes,first,bytes_append,List.append_assoc,cstr_append listed,nameAt]

/-- What the lookup hashes is the string of the slot. -/
theorem tokenBytes_name (inside : j < 12) (ends : Terminated info.tbl j) :
    ipc_msgque_namehash sign (tokenBytes info j) = ipc_msgque_namehash sign (nameAt info.tbl j) := by
  rw [← namehash_cstr sign (tokenBytes info j),tokenBytes_cstr inside ends]

/-- Copying a string of at most 31 characters into a slot stores it. -/
theorem stored_name {path : List UInt8} (short : (cstr path).length ≤ 31) :
    nameAt (strncpy tbl (msgQueTokenStr j) path 32) j = cstr path ∧
      Terminated (strncpy tbl (msgQueTokenStr j) path 32) j := by
  have at_k (k : Nat) (inside : k < 32) :
      strncpy tbl (msgQueTokenStr j) path 32 (msgQueTokenStr j + k) = (cstr path).getD k 0 := by
    rw [strncpy,copy_at inside]
  have stop : strncpy tbl (msgQueTokenStr j) path 32 (msgQueTokenStr j + (cstr path).length) = 0 := by
    rw [at_k _ (by omega)]
    simp
  refine ⟨cstr_bytes (by omega) (fun c => cstr_nonzero) (fun k inside => ?_) stop,(cstr path).length,by omega,stop⟩
  rw [at_k k (by omega)]
  simp [inside]

/-- The other slots keep their tokens. -/
theorem stored_name_other {i : Nat} (path : List UInt8) (other : j ≠ i) :
    nameAt (strncpy tbl (msgQueTokenStr i) path 32) j = nameAt tbl j ∧
      (Terminated (strncpy tbl (msgQueTokenStr i) path 32) j ↔ Terminated tbl j) :=
  nameAt_congr fun k within => copy_outside (by simp only [msgQueTokenStr_eq]; omega)

/-- Handing out a slot leaves the tokens as they are. -/
theorem assignQueue_name {i : Nat} (key : INT32) (inside : i < 12) :
    nameAt (assignQueue tbl i key) j = nameAt tbl j ∧ (Terminated (assignQueue tbl i key) j ↔ Terminated tbl j) := by
  refine nameAt_congr fun k within => assignQueue_outside ?_
  simp only [msgQueTokenStr_eq,msgQueTbl_eq]
  omega

/-- A release empties the token it clears and no other. -/
theorem cleared_name {i : Nat} (inside : i < 12) :
    nameAt (store32 (store8 tbl (msgQueTokenStr j) 0) (msgQueTbl i) 0) j = [] ∧
      Terminated (store32 (store8 tbl (msgQueTokenStr j) 0) (msgQueTbl i) 0) j := by
  have cleared : store32 (store8 tbl (msgQueTokenStr j) 0) (msgQueTbl i) 0 (msgQueTokenStr j) = 0 := by
    rw [store32_outside (by simp only [msgQueTokenStr_eq,msgQueTbl_eq]; omega),store8_same]
  exact ⟨nameAt_nil.mpr cleared,cleared_terminated cleared⟩

theorem cleared_name_other {i l : Nat} (inside : i < 12) (other : l ≠ j) :
    nameAt (store32 (store8 tbl (msgQueTokenStr j) 0) (msgQueTbl i) 0) l = nameAt tbl l ∧
      (Terminated (store32 (store8 tbl (msgQueTokenStr j) 0) (msgQueTbl i) 0) l ↔ Terminated tbl l) := by
  refine nameAt_congr fun k within => ?_
  rw [store32_outside (by simp only [msgQueTokenStr_eq,msgQueTbl_eq]; omega),
    store8_outside _ (by simp only [msgQueTokenStr_eq]; omega)]

end

end IpcMsq.Tokens
