import IpcMsq.Tokens
import IpcMsq.PingPong

/-!
What the calls on the table return does not depend on the memory that
`ipc_msgque_init` got. Two tables are similar if they agree on the slots in use,
on the keys and ids of these and on the token strings; every call answers the
same on similar tables and leaves similar tables.
-/
namespace IpcMsq.StartUp
open IpcMsq.Memory IpcMsq.Common IpcMsq.Table IpcMsq.KeyMap IpcMsq.Tokens

/-- A NUL-terminated name of at most 31 characters, with the memory behind it. -/
structure Name where
  path : List UInt8
  ends : 0 ∈ path
  short : (cstr path).length ≤ 31

inductive Call
  | ftok (name : Name)
  | get (key : INT32)
  | rel (msqid : UINT32)
  | getIDbyKey (key : INT32)
  | getQuebyID (msqid : UINT32)
  | getTokenByKey (key : UINT32)

/-- What a caller sees: a key, an id with `indx`, `outdx` and `count` of the queue
    just obtained, an id or an error code, the address of a queue, the address of a
    token with its string. -/
inductive Answer
  | key (rtn : UINT16)
  | obtained (ret : INT32) (cursors : Option (UINT32 × UINT32 × UINT32))
  | ret (ret : INT32)
  | queue (q : Option Nat)
  | token (t : Option (Nat × List UInt8))
deriving DecidableEq

variable {sign : CharSign}

/-- The indices of the queue with the id that `ipc_msgque_get` returned. -/
def cursors (g : Option IPC_MSQINFO) (ret : INT32) : Option (UINT32 × UINT32 × UINT32) :=
  if ret < 0 then none
  else
    let q := msgQueTbl ret.toUInt32.toNat
    g.map fun info => (indx info.tbl q,outdx info.tbl q,count info.tbl q)

/-- The string at an address in the token table. What is behind the table is what a
    token after the last would read. -/
def stringAt (g : Option IPC_MSQINFO) (token : Nat) : List UInt8 :=
  match g with
  | none => []
  | some info => cstr (bytes info.tbl token (msgQueTokenStr IPC_MSG_QUEUE_NUM - token) ++ tokenBytes info IPC_MSG_QUEUE_NUM)

def Call.perform (sign : CharSign) (g : Option IPC_MSQINFO) : Call → Answer × Option IPC_MSQINFO
  | .ftok name =>
    let (key,g) := ipc_msgque_ftok sign g name.path
    (.key key,g)
  | .get key =>
    let (ret,g) := ipc_msgque_get g key
    (.obtained ret (cursors g ret),g)
  | .rel msqid =>
    let (ret,g) := ipc_msgque_rel sign g msqid
    (.ret ret,g)
  | .getIDbyKey key => (.ret (ipc_msgque_getIDbyKey g key),g)
  | .getQuebyID msqid => (.queue (ipc_msgque_getQuebyID g msqid),g)
  | .getTokenByKey key => (.token ((ipc_msgque_getTokenByKey sign g key).map fun t => (t,stringAt g t)),g)

/-- Which slots are initialised. -/
def validity (g : Option IPC_MSQINFO) : List Bool :=
  match g with
  | none => []
  | some info => (List.range IPC_MSG_QUEUE_NUM).map fun i => initkey info.tbl (msgQueTbl i) == CFG_IPC_INIT_KEY

/-- The answers of a sequence of calls, each with the slots in use after it. -/
def observe (sign : CharSign) (g : Option IPC_MSQINFO) : List Call → List (Answer × List Bool)
  | [] => []
  | c :: rest =>
    let (answer,g) := c.perform sign g
    (answer,validity g) :: observe sign g rest

/-- The same slots are in use under the same keys and ids, and the tokens are the
    same strings and end in their slots. -/
structure Similar (info info' : IPC_MSQINFO) : Prop where
  live : ∀ i < 12, (Live info'.tbl (msgQueTbl i) ↔ Live info.tbl (msgQueTbl i))
  header : ∀ i < 12, Live info.tbl (msgQueTbl i) → sharekey info'.tbl (msgQueTbl i) = sharekey info.tbl (msgQueTbl i) ∧
    msqid info'.tbl (msgQueTbl i) = msqid info.tbl (msgQueTbl i)
  names : ∀ j < 12, nameAt info'.tbl j = nameAt info.tbl j
  ends : ∀ j < 12, Terminated info.tbl j ∧ Terminated info'.tbl j

theorem firstSlot_congr {test test' : Nat → Bool} (same : ∀ i < 12, test' i = test i) : firstSlot test' = firstSlot test := by
  cases scan : firstSlot test with
  | none =>
    have none := firstSlot_none.mp scan
    exact firstSlot_none.mpr fun i inside => (same i inside).trans (none i inside)
  | some i =>
    obtain ⟨inside,found,least⟩ := firstSlot_some.mp scan
    exact firstSlot_some.mpr ⟨inside,(same i inside).trans found,fun j less => (same j (by omega)).trans (least j less)⟩

section
variable {info info' : IPC_MSQINFO}

/-! ### What the lookups find -/

theorem Similar.initkey (sim : Similar info info') {i : Nat} (inside : i < 12) :
    (initkey info'.tbl (msgQueTbl i) == CFG_IPC_INIT_KEY) = (initkey info.tbl (msgQueTbl i) == CFG_IPC_INIT_KEY) := by
  rw [Bool.eq_iff_iff,beq_iff_eq,beq_iff_eq]
  exact sim.live i inside

theorem Similar.validity (sim : Similar info info') : validity (some info') = validity (some info) := by
  simp only [StartUp.validity]
  exact List.map_congr_left fun i listed => sim.initkey (List.mem_range.mp listed)

/-- A slot has a key in both tables or in neither. -/
theorem Similar.hasKey (sim : Similar info info') (key : INT32) {i : Nat} (inside : i < 12) :
    (Common.initkey info'.tbl (msgQueTbl i) == CFG_IPC_INIT_KEY && key.toUInt32 == sharekey info'.tbl (msgQueTbl i)) =
      (Common.initkey info.tbl (msgQueTbl i) == CFG_IPC_INIT_KEY && key.toUInt32 == sharekey info.tbl (msgQueTbl i)) := by
  rw [sim.initkey inside]
  by_cases live : Live info.tbl (msgQueTbl i)
  · rw [(sim.header i inside live).1]
  · have dead : (Common.initkey info.tbl (msgQueTbl i) == CFG_IPC_INIT_KEY) = false := beq_false_of_ne live
    rw [dead,Bool.false_and,Bool.false_and]

theorem Similar.hash (sim : Similar info info') {j : Nat} (inside : j < 12) :
    ipc_msgque_namehash sign (tokenBytes info' j) = ipc_msgque_namehash sign (tokenBytes info j) := by
  obtain ⟨left,right⟩ := sim.ends j inside
  rw [tokenBytes_name inside left,tokenBytes_name inside right,sim.names j inside]

theorem Similar.getTokenByKey (sim : Similar info info') (key : UINT32) :
    ipc_msgque_getTokenByKey sign (some info') key = ipc_msgque_getTokenByKey sign (some info) key := by
  simp only [ipc_msgque_getTokenByKey]
  rw [firstSlot_congr fun j inside => by rw [sim.hash inside]]

theorem Similar.getQuebyID (sim : Similar info info') (msqid : UINT32) :
    ipc_msgque_getQuebyID (some info') msqid = ipc_msgque_getQuebyID (some info) msqid := by
  ext q
  rw [getQuebyID_some,getQuebyID_some]
  exact and_congr_right fun inside => and_congr_left fun _ => sim.live _ inside

theorem Similar.getIDbyKey (sim : Similar info info') (key : INT32) :
    ipc_msgque_getIDbyKey (some info') key = ipc_msgque_getIDbyKey (some info) key := by
  simp only [ipc_msgque_getIDbyKey]
  rw [firstSlot_congr fun i inside => sim.hasKey key inside]
  split
  · rename_i i scan
    obtain ⟨inside,found,_⟩ := firstSlot_some.mp scan
    have live : Live info.tbl (msgQueTbl i) := by
      simp only [Bool.and_eq_true,beq_iff_eq] at found
      exact found.1
    rw [(sim.header i inside live).2]
  · rfl

theorem Similar.string (sim : Similar info info') {j : Nat} (inside : j < 12) :
    stringAt (some info') (msgQueTokenStr j) = stringAt (some info) (msgQueTokenStr j) := by
  obtain ⟨left,right⟩ := sim.ends j inside
  have first : cstr (tokenBytes info j) = nameAt info.tbl j := tokenBytes_cstr inside left
  have second : cstr (tokenBytes info' j) = nameAt info'.tbl j := tokenBytes_cstr inside right
  exact second.trans ((sim.names j inside).trans first.symm)

/-! ### What the calls change -/

/-- Headers that both calls leave stay alike. -/
theorem Similar.headers (sim : Similar info info') {tbl tbl' : Mem} {l : Nat} (inside : l < 12) (left : SameHeader info.tbl tbl l)
    (right : SameHeader info'.tbl tbl' l) : (Live tbl' (msgQueTbl l) ↔ Live tbl (msgQueTbl l)) ∧
      (Live tbl (msgQueTbl l) → sharekey tbl' (msgQueTbl l) = sharekey tbl (msgQueTbl l) ∧
        msqid tbl' (msgQueTbl l) = msqid tbl (msgQueTbl l)) := by
  obtain ⟨was,key,id⟩ := left
  obtain ⟨was',key',id'⟩ := right
  refine ⟨was'.trans ((sim.live l inside).trans was.symm),fun live => ?_⟩
  obtain ⟨same,number⟩ := sim.header l inside (was.mp live)
  exact ⟨by rw [key',same,← key],by rw [id',number,← id]⟩

/-- So do tokens. -/
theorem Similar.tokens (sim : Similar info info') {tbl tbl' : Mem} {j : Nat} (inside : j < 12)
    (left : nameAt tbl j = nameAt info.tbl j ∧ (Terminated tbl j ↔ Terminated info.tbl j))
    (right : nameAt tbl' j = nameAt info'.tbl j ∧ (Terminated tbl' j ↔ Terminated info'.tbl j)) :
    nameAt tbl' j = nameAt tbl j ∧ Terminated tbl j ∧ Terminated tbl' j :=
  ⟨right.1.trans ((sim.names j inside).trans left.1.symm),left.2.mpr (sim.ends j inside).1,right.2.mpr (sim.ends j inside).2⟩

theorem similar_ftok (sign : CharSign) (sim : Similar info info') (name : Name) :
    ∃ after after', ipc_msgque_ftok sign (some info) name.path = (ipc_msgque_namehash sign name.path,some after) ∧
      ipc_msgque_ftok sign (some info') name.path = (ipc_msgque_namehash sign name.path,some after') ∧
      Similar after after' := by
  have empty (j : Nat) (inside : j < 12) : (info'.tbl (msgQueTokenStr j) == 0) = (info.tbl (msgQueTokenStr j) == 0) := by
    rw [Bool.eq_iff_iff,beq_iff_eq,beq_iff_eq,← nameAt_nil,← nameAt_nil,sim.names j inside]
  simp only [ipc_msgque_ftok]
  rw [firstSlot_congr empty]
  cases firstSlot fun i => info.tbl (msgQueTokenStr i) == 0 with
  | none => exact ⟨_,_,rfl,rfl,sim⟩
  | some i =>
    have headers (l : Nat) (inside : l < 12) := sim.headers inside (sameQueue_header (ftok_same info.tbl i name.path l inside))
      (sameQueue_header (ftok_same info'.tbl i name.path l inside))
    have tokens (j : Nat) (inside : j < 12) :
        nameAt (strncpy info'.tbl (msgQueTokenStr i) name.path 32) j = nameAt (strncpy info.tbl (msgQueTokenStr i) name.path 32) j ∧
          Terminated (strncpy info.tbl (msgQueTokenStr i) name.path 32) j ∧
          Terminated (strncpy info'.tbl (msgQueTokenStr i) name.path 32) j := by
      by_cases own : j = i
      · subst own
        obtain ⟨stored,ends⟩ := stored_name name.short
        obtain ⟨stored',ends'⟩ := stored_name name.short
        exact ⟨stored'.trans stored.symm,ends,ends'⟩
      · exact sim.tokens inside (stored_name_other name.path own) (stored_name_other name.path own)
    exact ⟨_,_,rfl,rfl,fun l inside => (headers l inside).1,fun l inside => (headers l inside).2,
      fun j inside => (tokens j inside).1,fun j inside => (tokens j inside).2⟩

theorem similar_assign (sim : Similar info info') {i : Nat} (inside : i < 12) (key : INT32) :
    Similar { info with tbl := assignQueue info.tbl i key } { info' with tbl := assignQueue info'.tbl i key } where
  live l bound := by
    by_cases own : l = i
    · subst own
      exact iff_of_true (assignQueue_hasKey inside).2.1 (assignQueue_hasKey inside).2.1
    · exact (sim.headers bound (sameQueue_header (assignQueue_other own)) (sameQueue_header (assignQueue_other own))).1
  header l bound live := by
    by_cases own : l = i
    · subst own
      obtain ⟨_,share,id,_⟩ := assignQueue_header info.tbl l key
      obtain ⟨_,share',id',_⟩ := assignQueue_header info'.tbl l key
      exact ⟨share'.trans share.symm,id'.trans id.symm⟩
    · exact (sim.headers bound (sameQueue_header (assignQueue_other own)) (sameQueue_header (assignQueue_other own))).2 live
  names j bound := (sim.tokens bound (assignQueue_name key inside) (assignQueue_name key inside)).1
  ends j bound := (sim.tokens bound (assignQueue_name key inside) (assignQueue_name key inside)).2

/-- A queue just obtained has the same indices in both tables. -/
theorem similar_get (sim : Similar info info') (key : INT32) :
    ∃ ret after after', ipc_msgque_get (some info) key = (ret,some after) ∧
      ipc_msgque_get (some info') key = (ret,some after') ∧ Similar after after' ∧
      cursors (some after') ret = cursors (some after) ret := by
  have error (code : INT32) (negative : code < 0) : cursors (some info') code = cursors (some info) code := by
    simp only [cursors,if_pos negative]
  have free (i : Nat) (inside : i < 12) :
      (initkey info'.tbl (msgQueTbl i) != CFG_IPC_INIT_KEY) = (initkey info.tbl (msgQueTbl i) != CFG_IPC_INIT_KEY) := by
    simp only [bne,sim.initkey inside]
  simp only [ipc_msgque_get]
  rw [firstSlot_congr fun i inside => sim.hasKey key inside,firstSlot_congr free]
  split
  · exact ⟨_,_,_,rfl,rfl,sim,error _ (by decide)⟩
  · split
    · exact ⟨_,_,_,rfl,rfl,sim,error _ (by decide)⟩
    · rename_i i scan
      obtain ⟨inside,_,_⟩ := firstSlot_some.mp scan
      obtain ⟨_,_,id,at_indx,at_outdx,at_count⟩ := assignQueue_header info.tbl i key
      obtain ⟨_,_,id',at_indx',at_outdx',at_count'⟩ := assignQueue_header info'.tbl i key
      rw [id,id']
      refine ⟨_,_,_,rfl,rfl,similar_assign sim inside key,?_⟩
      have slot : (UInt32.ofNat i).toInt32.toUInt32.toNat = i := slotNumber inside
      simp only [cursors,slot,Option.map_some,at_indx,at_indx',at_outdx,at_outdx',at_count,at_count']

theorem similar_release (sim : Similar info info') {i j : Nat} (inside : i < 12) :
    Similar { info with tbl := store32 (store8 info.tbl (msgQueTokenStr j) 0) (msgQueTbl i) 0 }
      { info' with tbl := store32 (store8 info'.tbl (msgQueTokenStr j) 0) (msgQueTbl i) 0 } := by
  obtain ⟨keep,dead⟩ := released_spec info.tbl i j
  obtain ⟨keep',dead'⟩ := released_spec info'.tbl i j
  have tokens (m : Nat) (bound : m < 12) :
      nameAt (store32 (store8 info'.tbl (msgQueTokenStr j) 0) (msgQueTbl i) 0) m =
          nameAt (store32 (store8 info.tbl (msgQueTokenStr j) 0) (msgQueTbl i) 0) m ∧
        Terminated (store32 (store8 info.tbl (msgQueTokenStr j) 0) (msgQueTbl i) 0) m ∧
        Terminated (store32 (store8 info'.tbl (msgQueTokenStr j) 0) (msgQueTbl i) 0) m := by
    by_cases own : m = j
    · subst own
      obtain ⟨cleared,ends⟩ := cleared_name inside
      obtain ⟨cleared',ends'⟩ := cleared_name inside
      exact ⟨cleared'.trans cleared.symm,ends,ends'⟩
    · exact sim.tokens bound (cleared_name_other inside own) (cleared_name_other inside own)
  refine ⟨fun l bound => ?_,fun l bound live => ?_,fun m bound => (tokens m bound).1,fun m bound => (tokens m bound).2⟩
  · by_cases own : l = i
    · subst own
      exact iff_of_false dead' dead
    · exact (sim.headers bound (sameQueue_header (keep l bound own)) (sameQueue_header (keep' l bound own))).1
  · have own : l ≠ i := by
      rintro rfl
      exact dead live
    exact (sim.headers bound (sameQueue_header (keep l bound own)) (sameQueue_header (keep' l bound own))).2 live

theorem similar_rel (sign : CharSign) (sim : Similar info info') (msqid : UINT32) :
    ∃ ret after after', ipc_msgque_rel sign (some info) msqid = (ret,some after) ∧
      ipc_msgque_rel sign (some info') msqid = (ret,some after') ∧ Similar after after' := by
  simp only [ipc_msgque_rel,sim.getQuebyID]
  cases lookup : ipc_msgque_getQuebyID (some info) msqid with
  | none => exact ⟨_,_,_,rfl,rfl,sim⟩
  | some q =>
    obtain ⟨inside,live,rfl⟩ := getQuebyID_some.mp lookup
    simp only [(sim.header _ inside live).1,sim.getTokenByKey]
    cases found : ipc_msgque_getTokenByKey sign (some info) (sharekey info.tbl (msgQueTbl msqid.toNat)) with
    | none => exact ⟨_,_,_,rfl,rfl,sim⟩
    | some token =>
      obtain ⟨j,_,rfl,_⟩ := getTokenByKey_some.mp found
      exact ⟨_,_,_,rfl,rfl,similar_release sim inside⟩

/-- A call answers the same on similar tables and leaves similar tables. -/
theorem similar_call (sign : CharSign) (sim : Similar info info') (c : Call) :
    ∃ answer after after', c.perform sign (some info) = (answer,some after) ∧
      c.perform sign (some info') = (answer,some after') ∧ Similar after after' := by
  cases c with
  | ftok name =>
    obtain ⟨after,after',called,called',still⟩ := similar_ftok sign sim name
    exact ⟨.key (ipc_msgque_namehash sign name.path),after,after',by simp only [Call.perform,called],by simp only [Call.perform,called'],still⟩
  | get key =>
    obtain ⟨ret,after,after',called,called',still,same⟩ := similar_get sim key
    exact ⟨.obtained ret (cursors (some after) ret),after,after',by simp only [Call.perform,called],
      by simp only [Call.perform,called',same],still⟩
  | rel msqid =>
    obtain ⟨ret,after,after',called,called',still⟩ := similar_rel sign sim msqid
    exact ⟨.ret ret,after,after',by simp only [Call.perform,called],by simp only [Call.perform,called'],still⟩
  | getIDbyKey key => exact ⟨_,info,info',rfl,by simp only [Call.perform,sim.getIDbyKey],sim⟩
  | getQuebyID msqid => exact ⟨_,info,info',rfl,by simp only [Call.perform,sim.getQuebyID],sim⟩
  | getTokenByKey key =>
    refine ⟨_,info,info',rfl,?_,sim⟩
    simp only [Call.perform,sim.getTokenByKey]
    cases found : ipc_msgque_getTokenByKey sign (some info) key with
    | none => rfl
    | some token =>
      obtain ⟨j,inside,rfl,_⟩ := getTokenByKey_some.mp found
      simp only [Option.map_some,sim.string inside]

/-- So do all calls of a sequence. -/
theorem similar_observe (sim : Similar info info') (calls : List Call) :
    observe sign (some info') calls = observe sign (some info) calls := by
  induction calls generalizing info info' with
  | nil => rfl
  | cons c rest ih =>
    obtain ⟨answer,after,after',called,called',still⟩ := similar_call sign sim c
    simp only [observe,called,called',still.validity,ih still]

end

/-- The tables that `ipc_msgque_init` sets up are similar. -/
theorem similar_started {info info' : IPC_MSQINFO} (started : Started (some info)) (started' : Started (some info')) :
    Similar info info' := by
  obtain ⟨_,⟨⟩,dead,empty⟩ := started_spec started
  obtain ⟨_,⟨⟩,dead',empty'⟩ := started_spec started'
  refine ⟨fun i inside => iff_of_false (dead' i inside) (dead i inside),fun i inside live => absurd live (dead i inside),?_,?_⟩
  · exact fun j inside => (nameAt_nil.mpr (empty' j inside)).trans (nameAt_nil.mpr (empty j inside)).symm
  · exact fun j inside => ⟨cleared_terminated (empty j inside),cleared_terminated (empty' j inside)⟩

/-- `ipc_msgque_init` on memory of any two contents, with the same result of the
    second allocation, returns the same, and every sequence of calls after it gets
    the same answers and sees the same slots in use. -/
theorem start_up_independent (sign : CharSign) (memory memory' : IPC_MSQINFO) (dma : Option (UINT32 × UINT32))
    (calls : List Call) :
    let init := ipc_msgque_init none (some memory) dma
    let init' := ipc_msgque_init none (some memory') dma
    init.1 = init'.1 ∧ validity init.2 = validity init'.2 ∧ observe sign init.2 calls = observe sign init'.2 calls := by
  intro init init'
  rcases dma with _ | ⟨vir,bus⟩
  · exact ⟨rfl,rfl,rfl⟩
  · obtain ⟨info,called,_⟩ := PingPong.init_succeeds memory vir bus
    obtain ⟨info',called',_⟩ := PingPong.init_succeeds memory' vir bus
    have sim : Similar info' info := similar_started ⟨_,_,called'⟩ ⟨_,_,called⟩
    have left : init = (0,some info) := called
    have right : init' = (0,some info') := called'
    rw [left,right]
    exact ⟨rfl,sim.validity,similar_observe sim calls⟩

end IpcMsq.StartUp
