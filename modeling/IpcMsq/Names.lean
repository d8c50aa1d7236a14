import IpcMsq.Tokens

/-!
Finding a name again by its key. The ioctl's path and the token slot both have 33
bytes, but the copy stores 32 and the hash reads up to a NUL: a name of 32
characters ends at the byte that an earlier use of the slot left behind it, and a
path without a NUL is hashed together with what lies behind it.
-/
namespace IpcMsq.Names
open IpcMsq.Memory IpcMsq.Common IpcMsq.Table IpcMsq.Tokens

/-- The slot that the next name goes to. -/
def freeToken (info : IPC_MSQINFO) : Option Nat := firstSlot fun i => info.tbl (msgQueTokenStr i) == 0

/-- The lookup of a key reads the token of slot `j`. -/
def Reads (sign : CharSign) (info : IPC_MSQINFO) (key : UINT16) (j : Nat) : Prop :=
  ∀ l < j, (ipc_msgque_namehash sign (tokenBytes info l)).toUInt32 ≠ key.toUInt32

/-- A name that the ioctl copied in, with what lies behind its 33 bytes, is hashed
    inside them, its token ends inside slot `i` and has the key, and the lookup of
    the key finds a token and reads none past its slot. -/
def Findable (sign : CharSign) (info : IPC_MSQINFO) (path behind : List UInt8) (i : Nat) : Prop :=
  ∃ key info', ipc_msgque_ftok sign (some info) (path ++ behind) = (key,some info') ∧ 0 ∈ path ∧
    Terminated info'.tbl i ∧ ipc_msgque_namehash sign (nameAt info'.tbl i) = key ∧
    ipc_msgque_getTokenByKey sign (some info') key.toUInt32 ≠ none ∧
    ∀ j < 12, Reads sign info' key j → Terminated info'.tbl j

/-- The path has a NUL, among its first 32 bytes unless the last byte of the slot is
    one; and every token before the slot ends inside its own, up to the first whose
    hash is that of the path. -/
def Storable (sign : CharSign) (info : IPC_MSQINFO) (path : List UInt8) (i : Nat) : Prop :=
  0 ∈ path ∧ (0 ∈ path.take 32 ∨ info.tbl (msgQueTokenStr i + 32) = 0) ∧
    ∀ j < i, (∀ l < j, ipc_msgque_namehash sign (nameAt info.tbl l) ≠ ipc_msgque_namehash sign path) → Terminated info.tbl j

section
variable {sign : CharSign} {info : IPC_MSQINFO} {path behind : List UInt8} {i : Nat}

/-- Two scans that agree on every sound entry come to unsound ones alike. -/
theorem scan_sound {hash hash' : Nat → UINT16} {key : UINT16} {sound : Nat → Prop} {n : Nat}
    (agree : ∀ j < n, sound j → hash j = hash' j) (all : ∀ j < n, (∀ l < j, hash l ≠ key) → sound j) :
    ∀ j < n, (∀ l < j, hash' l ≠ key) → sound j := by
  intro j
  induction j using Nat.strong_induction_on with
  | _ j ih =>
    intro inside reads
    refine all j inside fun l before => ?_
    have earlier : sound l := ih l before (by omega) fun m early => reads m (by omega)
    rw [agree l (by omega) earlier]
    exact reads l before

theorem ftok_at (free : freeToken info = some i) (path : List UInt8) : ipc_msgque_ftok sign (some info) path =
    (ipc_msgque_namehash sign path,some { info with tbl := strncpy info.tbl (msgQueTokenStr i) path 32 }) := by
  simp only [freeToken] at free
  simp only [ipc_msgque_ftok,free,IPC_MSG_QUEUE_TOKEN_STR_MAXLEN]

/-- A string ends at its first NUL. -/
theorem nul_within {s : List UInt8} {n : Nat} : 0 ∈ s.take n ↔ 0 ∈ s ∧ (cstr s).length < n := by
  induction s generalizing n with
  | nil => simp
  | cons c rest ih =>
    cases n with
    | zero => simp
    | succ n =>
      by_cases stop : c = 0
      · simp [cstr_cons,stop]
      · simp [cstr_cons,stop,Ne.symm stop,ih]

/-- A string of at most 32 characters is stored if it is shorter or the last byte of
    its slot is a NUL. -/
theorem stored_full (tbl : Mem) (i : Nat) (fits : (cstr path).length ≤ 32)
    (ends : (cstr path).length < 32 ∨ tbl (msgQueTokenStr i + 32) = 0) :
    nameAt (strncpy tbl (msgQueTokenStr i) path 32) i = cstr path ∧ Terminated (strncpy tbl (msgQueTokenStr i) path 32) i := by
  by_cases short : (cstr path).length ≤ 31
  · exact stored_name short
  · have full : (cstr path).length = 32 := by omega
    have last : strncpy tbl (msgQueTokenStr i) path 32 (msgQueTokenStr i + 32) = 0 := by
      rw [strncpy,copy_outside (by omega)]
      exact ends.resolve_left (by omega)
    refine ⟨cstr_bytes (by omega) (fun c => cstr_nonzero) (fun k inside => ?_) (by rwa [full]),32,le_rfl,last⟩
    rw [strncpy,copy_at (by omega)]
    simp [inside]

/-- A token that was stored ends inside its slot because it is short or because the
    last byte of the slot is a NUL. -/
theorem stored_ends {tbl : Mem} (ends : Terminated (strncpy tbl (msgQueTokenStr i) path 32) i) :
    (cstr path).length < 32 ∨ tbl (msgQueTokenStr i + 32) = 0 := by
  obtain ⟨k,within,stop⟩ := ends
  by_cases last : k = 32
  · rw [last,strncpy,copy_outside (by omega)] at stop
    exact .inr stop
  · rw [strncpy,copy_at (by omega)] at stop
    by_contra long
    push Not at long
    have inside : k < (cstr path).length := by omega
    simp only [List.getD_eq_getElem?_getD,List.getElem?_eq_getElem inside,Option.getD_some] at stop
    exact cstr_nonzero (List.getElem_mem inside) stop

/-- The tokens before a slot are sound up to the first with a key, read as strings
    of their slots or as the lookup reads them. -/
theorem reads_names {info' : IPC_MSQINFO} {key : UINT16} {n : Nat} (inside : n ≤ 12) :
    (∀ j < n, (∀ l < j, ipc_msgque_namehash sign (nameAt info'.tbl l) ≠ key) → Terminated info'.tbl j) ↔
      ∀ j < n, Reads sign info' key j → Terminated info'.tbl j := by
  have agree (j : Nat) (before : j < n) (ends : Terminated info'.tbl j) :
      ipc_msgque_namehash sign (tokenBytes info' j) = ipc_msgque_namehash sign (nameAt info'.tbl j) :=
    tokenBytes_name (by omega) ends
  simp only [Reads,ne_eq,UInt16.toUInt32_inj]
  constructor
  · exact scan_sound fun j before ends => (agree j before ends).symm
  · exact scan_sound agree

/-- Storing a name in slot `i` leaves the tokens before it as they are. -/
theorem stored_before {key : UINT16} (inside : i < 12) :
    (∀ j < i, Reads sign { info with tbl := strncpy info.tbl (msgQueTokenStr i) path 32 } key j →
      Terminated (strncpy info.tbl (msgQueTokenStr i) path 32) j) ↔
    ∀ j < i, (∀ l < j, ipc_msgque_namehash sign (nameAt info.tbl l) ≠ key) → Terminated info.tbl j := by
  have other (j : Nat) (before : j < i) :
      nameAt (strncpy info.tbl (msgQueTokenStr i) path 32) j = nameAt info.tbl j ∧
        (Terminated (strncpy info.tbl (msgQueTokenStr i) path 32) j ↔ Terminated info.tbl j) :=
    stored_name_other path (Nat.ne_of_lt before)
  rw [← reads_names (by omega)]
  constructor
  · intro sound j before unlike
    exact (other j before).2.mp (sound j before fun l early => by
      rw [(other l (by omega)).1]
      exact unlike l early)
  · intro sound j before unlike
    exact (other j before).2.mpr (sound j before fun l early => by
      rw [← (other l (by omega)).1]
      exact unlike l early)

/-- The lookup reads up to a token with the key. -/
theorem reads_up_to (info' : IPC_MSQINFO) {key : UINT16} (inside : i < 12) (ends : Terminated info'.tbl i)
    (hashed : ipc_msgque_namehash sign (nameAt info'.tbl i) = key) :
    ipc_msgque_getTokenByKey sign (some info') key.toUInt32 ≠ none ∧ ∀ j, Reads sign info' key j → j ≤ i := by
  have own : (ipc_msgque_namehash sign (tokenBytes info' i)).toUInt32 = key.toUInt32 := by
    rw [tokenBytes_name inside ends,hashed]
  constructor
  · intro missing
    simp only [ipc_msgque_getTokenByKey,Option.map_eq_none_iff,firstSlot_none] at missing
    have unlike := missing i inside
    rw [own,beq_self_eq_true] at unlike
    cases unlike
  · intro j reads
    by_contra beyond
    exact reads i (by omega) own

end

/-- For every 33 bytes of a path, whatever lies behind them, and every table with a
    free slot: the name can be found again by its key exactly if it is `Storable`. -/
theorem findable_iff (sign : CharSign) (info : IPC_MSQINFO) (path behind : List UInt8) (i : Nat) (whole : path.length = 33)
    (free : freeToken info = some i) : Findable sign info path behind i ↔ Storable sign info path i := by
  obtain ⟨inside,_⟩ := firstSlot_some.mp free
  have hashes (nul : 0 ∈ path) : ipc_msgque_namehash sign (path ++ behind) = ipc_msgque_namehash sign path := by
    rw [← namehash_cstr,cstr_append nul,namehash_cstr]
  constructor
  · rintro ⟨key,info',called,nul,ends,_,_,sound⟩
    rw [ftok_at free] at called
    cases called
    refine ⟨nul,?_,?_⟩
    · rcases stored_ends ends with short | last
      · rw [cstr_append nul] at short
        exact .inl (nul_within.mpr ⟨nul,short⟩)
      · exact .inr last
    · rw [← hashes nul]
      exact (stored_before inside).mp fun j before => sound j (by omega)
  · rintro ⟨nul,ends,sound⟩
    have string : cstr (path ++ behind) = cstr path := cstr_append nul
    have fits : (cstr path).length < 33 := (nul_within.mp (by rwa [← whole,List.take_length])).2
    have few : (cstr (path ++ behind)).length ≤ 32 := by
      rw [string]
      omega
    have stops : (cstr (path ++ behind)).length < 32 ∨ info.tbl (msgQueTokenStr i + 32) = 0 := by
      rw [string]
      exact ends.imp_left fun short => (nul_within.mp short).2
    have stored := stored_full info.tbl i few stops
    have hashed : ipc_msgque_namehash sign (nameAt (strncpy info.tbl (msgQueTokenStr i) (path ++ behind) 32) i) =
        ipc_msgque_namehash sign (path ++ behind) := by
      rw [stored.1,namehash_cstr]
    obtain ⟨found,last⟩ := reads_up_to { info with tbl := strncpy info.tbl (msgQueTokenStr i) (path ++ behind) 32 }
      inside stored.2 hashed
    refine ⟨_,_,ftok_at free _,nul,stored.2,hashed,found,fun j _ reads => ?_⟩
    rw [← hashes nul] at sound
    rcases Nat.lt_or_eq_of_le (last j reads) with before | rfl
    · exact (stored_before inside).mpr sound j before reads
    · exact stored.2

/-- The table after `ipc_msgque_init` on memory that holds `leftover` in every byte. -/
def initialised (leftover : UInt8) : IPC_MSQINFO :=
  (ipc_msgque_init none
    (some { syscmdbuf_vir := 0, syscmdbuf_dma := 0, tbl := fun _ => leftover,
            sndmsg_buffTbl := fun _ => { pingponidx := 0, sndmsg := fun _ => 0, semid := 0 },
            syscmdbuf := fun _ => 0 })
    (some (0xC0100000,0x00100000))).2.get (by rfl)

/-- A name of 32 characters is found again if the slot was zeroed. -/
theorem findable_iff_full : Findable .signed (initialised 0) (List.replicate 32 97 ++ [0]) [] 0 :=
  (findable_iff .signed (initialised 0) _ [] 0 (by decide) (by decide +kernel)).mpr
    ⟨by decide,.inr (by decide +kernel),fun j before => absurd before (by omega)⟩

/-- It is not found if the slot holds other bytes, and neither is a path without a
    NUL on zeroed memory. -/
theorem full_name_lost : freeToken (initialised 1) = some 0 ∧
    (∃ info, ipc_msgque_ftok .signed (some (initialised 1)) (List.replicate 32 97 ++ [0]) = (0xfffd,some info) ∧
      ipc_msgque_getTokenByKey .signed (some info) 0xfffd = none) ∧
    ¬ Findable .signed (initialised 1) (List.replicate 32 97 ++ [0]) [] 0 ∧
    ¬ Findable .signed (initialised 0) (List.replicate 33 97) [0] 0 := by
  have free : freeToken (initialised 1) = some 0 := by decide +kernel
  have key : ipc_msgque_namehash .signed (List.replicate 32 97 ++ [0]) = 0xfffd := by decide +kernel
  have called : ipc_msgque_ftok .signed (some (initialised 1)) (List.replicate 32 97 ++ [0]) = _ := ftok_at free _
  rw [key] at called
  refine ⟨free,⟨_,called,by decide +kernel⟩,?_,?_⟩
  · rintro ⟨_,_,again,_,_,_,found,_⟩
    rw [List.append_nil,called] at again
    cases again
    exact found (by decide +kernel)
  · rintro ⟨_,_,_,nul,_⟩
    exact absurd nul (by decide)

end IpcMsq.Names
