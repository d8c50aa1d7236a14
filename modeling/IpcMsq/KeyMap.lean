import IpcMsq.Table
import IpcMsq.Runs
import IpcMsq.SlotMap

/-!
The queue table over whole runs of `ipc_msgque_ftok`, `ipc_msgque_get` and
`ipc_msgque_rel`. Its initialised slots are an injective partial map to keys
(`Represents`), and every call does to the table what the abstract operation
does to the map (`step_simulates`): freed slots keep their stale key and id, but
no call reads them.
-/
namespace IpcMsq.KeyMap
open IpcMsq.Memory IpcMsq.Common IpcMsq.Table IpcMsq.Runs

/-- A call on the table, with what it returned. -/
inductive TableEvent
  | ftok (path : List UInt8) (key : UINT16)
  | get (key : INT32) (ret : INT32)
  | rel (id : UINT32) (ret : INT32)

inductive TableStep (sign : CharSign) : Option IPC_MSQINFO → TableEvent → Option IPC_MSQINFO → Prop
  | ftok {g g' : Option IPC_MSQINFO} {path : List UInt8} {key : UINT16} :
      ipc_msgque_ftok sign g path = (key,g') → TableStep sign g (.ftok path key) g'
  | get {g g' : Option IPC_MSQINFO} {key ret : INT32} :
      ipc_msgque_get g key = (ret,g') → TableStep sign g (.get key ret) g'
  | rel {g g' : Option IPC_MSQINFO} {id : UINT32} {ret : INT32} :
      ipc_msgque_rel sign g id = (ret,g') → TableStep sign g (.rel id ret) g'

/-- A table that `ipc_msgque_init` set up, on memory of any content. -/
def Started (g : Option IPC_MSQINFO) : Prop := ∃ kmalloc dma, ipc_msgque_init none kmalloc dma = (0,g)

/-- A table that some run of calls reached. -/
def Reachable (sign : CharSign) (g : Option IPC_MSQINFO) : Prop :=
  ∃ start es, Started start ∧ Run (TableStep sign) start es g

theorem Reachable.more {sign : CharSign} {g g' : Option IPC_MSQINFO} {es : List TableEvent}
    (reach : Reachable sign g) (run : Run (TableStep sign) g es g') : Reachable sign g' := by
  obtain ⟨start,before,started,first⟩ := reach
  exact ⟨start,_,started,first.append run⟩

/-! ### The initial table -/

theorem resetTbl_spec (tbl : Mem) (n : Nat) (few : n ≤ 12) :
    ∀ i < n, initkey (resetTbl tbl n) (msgQueTbl i) = 0 ∧ resetTbl tbl n (msgQueTokenStr i) = 0 := by
  induction n with
  | zero => intro i inside; omega
  | succ n ih =>
    intro i inside
    have step : resetTbl tbl (n + 1) =
        store8 (store32 (resetTbl tbl n) (msgQueTbl n) 0) (msgQueTokenStr n) 0 := by
      simp [resetTbl,List.range_succ]
    rw [step,initkey,msgQueTbl_eq,msgQueTbl_eq,msgQueTokenStr_eq,msgQueTokenStr_eq,load32_store8_apart _ (by omega)]
    rcases Nat.lt_or_eq_of_le (Nat.le_of_lt_succ inside) with old | rfl
    · obtain ⟨reset,empty⟩ := ih (by omega) i old
      rw [initkey,msgQueTbl_eq] at reset
      rw [msgQueTokenStr_eq] at empty
      rw [load32_store32_apart (by omega),store8_outside _ (by omega),store32_outside (by omega)]
      exact ⟨reset,empty⟩
    · rw [load32_store32,store8_same]
      exact ⟨rfl,rfl⟩

/-- A started table: every slot uninitialised, every token string empty. -/
theorem started_spec {g : Option IPC_MSQINFO} (started : Started g) : ∃ info, g = some info ∧
    (∀ i < 12, ¬ Live info.tbl (msgQueTbl i)) ∧ (∀ i < 12, info.tbl (msgQueTokenStr i) = 0) := by
  obtain ⟨kmalloc,dma,called⟩ := started
  rcases kmalloc with _ | garbage
  · cases called
  rcases dma with _ | ⟨vir,bus⟩
  · cases called
  simp only [ipc_msgque_init] at called
  split at called
  · cases called
  · cases called
    have reset := resetTbl_spec garbage.tbl 12 le_rfl
    refine ⟨_,rfl,fun i inside live => ?_,fun i inside => (reset i inside).2⟩
    rw [Live,(reset i inside).1] at live
    exact absurd live (by decide)

/-! ### The abstract table -/

abbrev KeyTable := SlotMap 12 UINT32

/-- What each call means for the map from slots to keys. -/
inductive MapStep : KeyTable → TableEvent → KeyTable → Prop
  | named (T : KeyTable) (path : List UInt8) (key : UINT16) : MapStep T (.ftok path key) T
  | duplicate (T : KeyTable) (key : INT32) (i : Nat) : T.lookup key.toUInt32 = some i → MapStep T (.get key (-1)) T
  | full (T : KeyTable) (key : INT32) :
      T.lookup key.toUInt32 = none → T.leastFree = none → MapStep T (.get key (-2)) T
  | assigned (T : KeyTable) (key : INT32) (i : Nat) (inside : i < 12) (fresh : ∀ j, T.keyAt j ≠ some key.toUInt32) :
      T.leastFree = some i → MapStep T (.get key (Int32.ofNat i)) (T.assign i key.toUInt32 inside fresh)
  | unknown (T : KeyTable) (id : UINT32) : T.keyAt id.toNat = none → MapStep T (.rel id (-1)) T
  | tokenless (T : KeyTable) (id : UINT32) (k : UINT32) : T.keyAt id.toNat = some k → MapStep T (.rel id (-2)) T
  | released (T : KeyTable) (id : UINT32) (k : UINT32) :
      T.keyAt id.toNat = some k → MapStep T (.rel id 0) (T.release id.toNat)

/-- The map holds the initialised slots with their keys, and the id of each is
    its number. -/
structure Represents (tbl : Mem) (T : KeyTable) : Prop where
  keys : ∀ i k, T.keyAt i = some k ↔ HasKey tbl i k
  ids : ∀ i k, HasKey tbl i k → msqid tbl (msgQueTbl i) = UInt32.ofNat i

section
variable {tbl tbl' : Mem} {T : KeyTable}

theorem represents_start (dead : ∀ i < 12, ¬ Live tbl (msgQueTbl i)) : Represents tbl SlotMap.empty where
  keys i k := by
    simp only [SlotMap.keyAt_empty,reduceCtorEq,false_iff]
    exact fun has => dead i has.1 has.2.1
  ids i k has := absurd has.2.1 (dead i has.1)

theorem represents_none (rep : Represents tbl T) {i : Nat} (inside : i < 12) :
    T.keyAt i = none ↔ ¬ Live tbl (msgQueTbl i) := by
  constructor
  · intro free live
    have found := (rep.keys i _).mpr ⟨inside,live,rfl⟩
    rw [free] at found
    cases found
  · intro dead
    cases found : T.keyAt i with
    | none => rfl
    | some k => exact absurd ((rep.keys i k).mp found).2.1 dead

/-- Tables with the same headers have the same map. -/
theorem represents_header (rep : Represents tbl T) (same : ∀ i < 12, SameHeader tbl tbl' i) : Represents tbl' T where
  keys i k := by
    rw [rep.keys]
    constructor
    · exact fun has => (hasKey_header (same i has.1)).mpr has
    · exact fun has => (hasKey_header (same i has.1)).mp has
  ids i k has := by
    rw [(same i has.1).2.2]
    exact rep.ids i k ((hasKey_header (same i has.1)).mp has)

theorem represents_assign (rep : Represents tbl T) {i : Nat} {key : INT32} (inside : i < 12)
    (fresh : ∀ j, T.keyAt j ≠ some key.toUInt32) :
    Represents (assignQueue tbl i key) (T.assign i key.toUInt32 inside fresh) where
  keys j k := by
    rw [SlotMap.keyAt_assign]
    split
    · rename_i same
      subst same
      have has : HasKey (assignQueue tbl j key) j key.toUInt32 := assignQueue_hasKey inside
      simp only [HasKey,Option.some.injEq] at *
      exact ⟨fun equal => equal ▸ has,fun also => has.2.2.symm.trans also.2.2⟩
    · rename_i other
      rw [rep.keys,hasKey_congr (assignQueue_other other)]
  ids j k has := by
    by_cases same : j = i
    · subst same
      exact (assignQueue_header tbl j key).2.2.1
    · rw [(sameQueue_header (assignQueue_other same)).2.2]
      exact rep.ids j k ((hasKey_congr (assignQueue_other same)).mp has)

end

/-- Clearing a token and the init key of a slot frees that slot and no other. -/
theorem released_spec (tbl : Mem) (i j : Nat) :
    (∀ k < 12, k ≠ i → SameQueue tbl (store32 (store8 tbl (msgQueTokenStr j) 0) (msgQueTbl i) 0) k) ∧
      ¬ Live (store32 (store8 tbl (msgQueTokenStr j) 0) (msgQueTbl i) 0) (msgQueTbl i) := by
  constructor
  · intro k bound other a low high
    rw [msgQueTbl_eq] at *
    rw [store32_outside (by omega),store8_outside _ (by rw [msgQueTokenStr_eq]; omega)]
  · rw [Live,initkey,load32_store32]
    decide

theorem represents_release {tbl : Mem} {T : KeyTable} {i j : Nat} (rep : Represents tbl T) :
    Represents (store32 (store8 tbl (msgQueTokenStr j) 0) (msgQueTbl i) 0) (T.release i) := by
  obtain ⟨keep,dead⟩ := released_spec tbl i j
  constructor
  · intro k key
    rw [SlotMap.keyAt_release]
    split
    · rename_i same
      subst same
      simp only [reduceCtorEq,false_iff]
      exact fun has => dead has.2.1
    · rename_i other
      rw [rep.keys]
      constructor
      · exact fun has => (hasKey_congr (keep k has.1 other)).mpr has
      · exact fun has => (hasKey_congr (keep k has.1 other)).mp has
  · intro k key has
    have other : k ≠ i := by rintro rfl; exact dead has.2.1
    rw [(sameQueue_header (keep k has.1 other)).2.2]
    exact rep.ids k key ((hasKey_congr (keep k has.1 other)).mp has)

/-- An `ftok` leaves every queue as it is. -/
theorem ftok_same (tbl : Mem) (i : Nat) (path : List UInt8) :
    ∀ j < 12, SameQueue tbl (strncpy tbl (msgQueTokenStr i) path 32) j := by
  intro j inside a _ high
  rw [msgQueTbl_eq] at high
  exact copy_outside (by rw [msgQueTokenStr_eq]; omega)

/-- Every call does to the table what the abstract operation does to the map. -/
theorem step_simulates {sign : CharSign} {info : IPC_MSQINFO} {e : TableEvent} {g' : Option IPC_MSQINFO} {T : KeyTable}
    (rep : Represents info.tbl T) (step : TableStep sign (some info) e g') :
    ∃ info' T', g' = some info' ∧ MapStep T e T' ∧ Represents info'.tbl T' := by
  cases step with
  | @ftok _ path key called =>
    rcases ftok_cases sign info path with ⟨_,full⟩ | ⟨i,_,_,_,stored⟩
    · cases called.symm.trans full
      exact ⟨info,T,rfl,.named T path _,rep⟩
    · cases called.symm.trans stored
      exact ⟨_,T,rfl,.named T path _,represents_header rep fun j inside => sameQueue_header (ftok_same info.tbl i path j inside)⟩
  | @get _ key ret called =>
    rcases get_cases info key with ⟨⟨i,has⟩,refused⟩ | ⟨fresh,full,refused⟩ | ⟨i,fresh,inside,dead,least,done⟩
    · cases called.symm.trans refused
      exact ⟨info,T,rfl,.duplicate T key i (SlotMap.lookup_some.mpr ((rep.keys i _).mpr has)),rep⟩
    · cases called.symm.trans refused
      refine ⟨info,T,rfl,.full T key (SlotMap.lookup_none.mpr ?_) (SlotMap.leastFree_none.mpr ?_),rep⟩
      · exact fun i found => fresh i ((rep.keys i _).mp found)
      · exact fun i inside free => (represents_none rep inside).mp free (full i inside)
    · cases called.symm.trans done
      have fresh' : ∀ j, T.keyAt j ≠ some key.toUInt32 := fun j found => fresh j ((rep.keys j _).mp found)
      refine ⟨_,_,rfl,.assigned T key i inside fresh' (SlotMap.leastFree_some.mpr ⟨inside,?_,?_⟩),
        represents_assign rep inside fresh'⟩
      · exact (represents_none rep inside).mpr dead
      · exact fun j less free => (represents_none rep (by omega)).mp free (least j less)
  | @rel _ id ret called =>
    rcases rel_cases sign info id with ⟨none,refused⟩ | ⟨inside,live,_,refused⟩ | ⟨token,inside,live,found,done⟩
    · cases called.symm.trans refused
      refine ⟨info,T,rfl,.unknown T id ?_,rep⟩
      cases found : T.keyAt id.toNat with
      | none => rfl
      | some k => exact absurd ⟨((rep.keys _ k).mp found).1,((rep.keys _ k).mp found).2.1⟩ none
    · cases called.symm.trans refused
      exact ⟨info,T,rfl,.tokenless T id _ ((rep.keys _ _).mpr ⟨inside,live,rfl⟩),rep⟩
    · cases called.symm.trans done
      obtain ⟨j,_,rfl,_⟩ := getTokenByKey_some.mp found
      exact ⟨_,_,rfl,.released T id _ ((rep.keys _ _).mpr ⟨inside,live,rfl⟩),represents_release rep⟩

/-- Every reachable table represents a map. -/
theorem reachable_represents {sign : CharSign} {g : Option IPC_MSQINFO} (reach : Reachable sign g) :
    ∃ info T, g = some info ∧ Represents info.tbl T := by
  obtain ⟨start,es,started,run⟩ := reach
  refine run.preserves (I := fun g => ∃ info T, g = some info ∧ Represents info.tbl T) ?_ ?_
  · obtain ⟨info,rfl,dead,_⟩ := started_spec started
    exact ⟨info,_,rfl,represents_start dead⟩
  · rintro _ e g' ⟨info,T,rfl,rep⟩ step
    obtain ⟨info',T',same,_,rep'⟩ := step_simulates rep step
    exact ⟨info',T',same,rep'⟩

/-! ### Results -/

/-- A lookup by key is a lookup in the map. -/
theorem getIDbyKey_lookup {info : IPC_MSQINFO} {T : KeyTable} (rep : Represents info.tbl T) (key : INT32) :
    ipc_msgque_getIDbyKey (some info) key = ((T.lookup key.toUInt32).map Int32.ofNat).getD (-3) := by
  rcases getIDbyKey_cases info key with ⟨i,has,found⟩ | ⟨fresh,none⟩
  · rw [found,rep.ids i _ has,SlotMap.lookup_some.mpr ((rep.keys i _).mpr has)]
    rfl
  · have absent : T.lookup key.toUInt32 = Option.none :=
      SlotMap.lookup_none.mpr fun i found => fresh i ((rep.keys i _).mp found)
    rw [none,absent]
    rfl

/-- A slot keeps its key in every run without a successful release of it. -/
theorem run_keeps {sign : CharSign} {info : IPC_MSQINFO} {T : KeyTable} {es : List TableEvent}
    {g : Option IPC_MSQINFO} {i : Nat} {k : UINT32} (rep : Represents info.tbl T) (at_i : T.keyAt i = some k)
    (run : Run (TableStep sign) (some info) es g) (kept : .rel (UInt32.ofNat i) 0 ∉ es) :
    ∃ info' T', g = some info' ∧ Represents info'.tbl T' ∧ T'.keyAt i = some k := by
  refine run.invariant (I := fun es g => .rel (UInt32.ofNat i) 0 ∉ es →
    ∃ info' T', g = some info' ∧ Represents info'.tbl T' ∧ T'.keyAt i = some k) ?_ ?_ kept
  · exact fun _ => ⟨info,T,rfl,rep,at_i⟩
  · intro es g e g' _ inv step kept
    obtain ⟨info',T',rfl,rep',at_i'⟩ := inv fun listed => kept (List.mem_append_left _ listed)
    obtain ⟨info'',T'',rfl,mapped,rep''⟩ := step_simulates rep' step
    refine ⟨info'',T'',rfl,rep'',?_⟩
    cases mapped with
    | named | duplicate | full | unknown | tokenless => exact at_i'
    | assigned key j inside fresh free =>
      have other : i ≠ j := by
        rintro rfl
        rw [(SlotMap.leastFree_some.mp free).2.1] at at_i'
        cases at_i'
      rw [SlotMap.keyAt_assign,if_neg other,at_i']
    | released id _ _ =>
      have other : i ≠ id.toNat := by
        rintro rfl
        exact kept (List.mem_append_right _ (by simp))
      rw [SlotMap.keyAt_release,if_neg other,at_i']

/-- The id of slot `i` is found under the key until a successful release of the slot. -/
def HeldUntilReleased (sign : CharSign) (g : Option IPC_MSQINFO) (key : INT32) (i : Nat) : Prop :=
  ∀ es g', Run (TableStep sign) g es g' → .rel (UInt32.ofNat i) 0 ∉ es → ipc_msgque_getIDbyKey g' key = Int32.ofNat i

/-- What `ipc_msgque_getIDbyKey` answers on a table. -/
def LookupCorrect (info : IPC_MSQINFO) (key : INT32) : Prop :=
  (∀ i < 12, ipc_msgque_getIDbyKey (some info) key = Int32.ofNat i ↔ HasKey info.tbl i key.toUInt32) ∧
    (ipc_msgque_getIDbyKey (some info) key = -3 ↔ ∀ i, ¬ HasKey info.tbl i key.toUInt32)

/-- What `ipc_msgque_get` returns on a table, and what it leaves alone. -/
def GetCorrect (sign : CharSign) (info : IPC_MSQINFO) (key ret : INT32) (g' : Option IPC_MSQINFO) : Prop :=
  (ret = -1 ↔ ∃ i, HasKey info.tbl i key.toUInt32) ∧
    (ret = -2 ↔ (∀ i, ¬ HasKey info.tbl i key.toUInt32) ∧ ∀ i < 12, Live info.tbl (msgQueTbl i)) ∧
    ((∀ i, ¬ HasKey info.tbl i key.toUInt32) → (∃ i < 12, ¬ Live info.tbl (msgQueTbl i)) →
      ∃ i < 12, ¬ Live info.tbl (msgQueTbl i) ∧ (∀ j < i, Live info.tbl (msgQueTbl j)) ∧ ret = Int32.ofNat i ∧
        HeldUntilReleased sign g' key i) ∧
    (ret < 0 → g' = some info) ∧
    ∃ info', g' = some info' ∧ ∀ j < 12, ret ≠ Int32.ofNat j → SameQueue info.tbl info'.tbl j

theorem lookup_correct {info : IPC_MSQINFO} {T : KeyTable} (rep : Represents info.tbl T) (key : INT32) :
    LookupCorrect info key := by
  have apart : ∀ i < 12, Int32.ofNat i ≠ -3 := by decide
  rw [LookupCorrect,getIDbyKey_lookup rep]
  cases found : T.lookup key.toUInt32 with
  | none =>
    have fresh : ∀ i, ¬ HasKey info.tbl i key.toUInt32 :=
      fun i has => SlotMap.lookup_none.mp found i ((rep.keys i _).mpr has)
    exact ⟨fun i inside => iff_of_false (fun same => apart i inside (Eq.symm same)) (fresh i),iff_of_true rfl fresh⟩
  | some j =>
    have has := (rep.keys j _).mp (SlotMap.lookup_some.mp found)
    simp only [Option.map_some,Option.getD_some]
    refine ⟨fun i inside => ⟨fun same => ?_,fun also => ?_⟩,iff_of_false (apart j has.1) fun fresh => fresh j has⟩
    · exact slotNumber_injective has.1 inside same ▸ has
    · rw [T.injective i j _ ((rep.keys i _).mpr also) (SlotMap.lookup_some.mp found)]

theorem get_correct {sign : CharSign} {info : IPC_MSQINFO} {T : KeyTable} (rep : Represents info.tbl T)
    {key ret : INT32} {g' : Option IPC_MSQINFO} (called : ipc_msgque_get (some info) key = (ret,g')) :
    GetCorrect sign info key ret g' := by
  have same : ∀ j, SameQueue info.tbl info.tbl j := fun _ _ _ _ => rfl
  rcases get_cases info key with ⟨used,refused⟩ | ⟨fresh,full,refused⟩ | ⟨i,fresh,inside,dead,least,done⟩
  · cases called.symm.trans refused
    refine ⟨iff_of_true rfl used,iff_of_false (by decide) fun none => ?_,fun none => ?_,fun _ => rfl,
      info,rfl,fun j _ _ => same j⟩
    · exact used.elim none.1
    · exact absurd used (not_exists.mpr none)
  · cases called.symm.trans refused
    refine ⟨iff_of_false (by decide) (not_exists.mpr fresh),iff_of_true rfl ⟨fresh,full⟩,?_,fun _ => rfl,
      info,rfl,fun j _ _ => same j⟩
    rintro _ ⟨i,inside,dead⟩
    exact absurd (full i inside) dead
  · cases called.symm.trans done
    have codes : ∀ i < 12, Int32.ofNat i ≠ -1 ∧ Int32.ofNat i ≠ -2 ∧ ¬ Int32.ofNat i < 0 := by decide
    refine ⟨iff_of_false (codes i inside).1 (not_exists.mpr fresh),
      iff_of_false (codes i inside).2.1 fun full => dead (full.2 i inside),?_,
      fun negative => absurd negative (codes i inside).2.2,_,rfl,?_⟩
    · intro _ _
      refine ⟨i,inside,dead,least,rfl,?_⟩
      intro es g run kept
      have fresh' : ∀ j, T.keyAt j ≠ some key.toUInt32 := fun j found => fresh j ((rep.keys j _).mp found)
      obtain ⟨info',T',rfl,rep',at_i⟩ := run_keeps (represents_assign rep inside fresh')
        (by rw [SlotMap.keyAt_assign,if_pos rfl]) run kept
      rw [getIDbyKey_lookup rep',SlotMap.lookup_some.mpr at_i]
      rfl
    · intro j _ other
      exact assignQueue_other fun same => other (same ▸ rfl)

/-- A `rel` that returns an error changes nothing; one that returns 0 frees the slot and changes no other. -/
theorem rel_effect {sign : CharSign} {info : IPC_MSQINFO} {id : UINT32} {ret : INT32} {g' : Option IPC_MSQINFO}
    (called : ipc_msgque_rel sign (some info) id = (ret,g')) :
    ∃ info', g' = some info' ∧
      ((ret ≠ 0 ∧ info' = info ∧ (¬ (id.toNat < 12 ∧ Live info.tbl (msgQueTbl id.toNat)) ∨
          ipc_msgque_getTokenByKey sign (some info) (sharekey info.tbl (msgQueTbl id.toNat)) = none)) ∨
        (ret = 0 ∧ ipc_msgque_getTokenByKey sign (some info) (sharekey info.tbl (msgQueTbl id.toNat)) ≠ none ∧
          ¬ Live info'.tbl (msgQueTbl id.toNat) ∧ ∀ j < 12, j ≠ id.toNat → SameQueue info.tbl info'.tbl j)) := by
  rcases rel_cases sign info id with ⟨none,refused⟩ | ⟨_,_,none,refused⟩ | ⟨token,_,_,found,done⟩
  · cases called.symm.trans refused
    exact ⟨info,rfl,.inl ⟨by decide,rfl,.inl none⟩⟩
  · cases called.symm.trans refused
    exact ⟨info,rfl,.inl ⟨by decide,rfl,.inr none⟩⟩
  · cases called.symm.trans done
    obtain ⟨i,_,rfl,_⟩ := getTokenByKey_some.mp found
    obtain ⟨keep,dead⟩ := released_spec info.tbl id.toNat i
    exact ⟨_,rfl,.inr ⟨rfl,by simp [found],dead,keep⟩⟩

/-- A release changes no other slot. -/
theorem rel_other {sign : CharSign} {info : IPC_MSQINFO} {id : UINT32} {ret : INT32} {g' : Option IPC_MSQINFO}
    (called : ipc_msgque_rel sign (some info) id = (ret,g')) :
    ∃ info', g' = some info' ∧ ∀ j < 12, j ≠ id.toNat → SameQueue info.tbl info'.tbl j := by
  obtain ⟨info',rfl,⟨_,rfl,_⟩ | ⟨_,_,_,keep⟩⟩ := rel_effect called
  · exact ⟨info',rfl,fun _ _ _ _ _ _ => rfl⟩
  · exact ⟨info',rfl,keep⟩

/-- A call leaves a queue that is there as it is, unless it releases that queue and finds its token. -/
theorem step_keeps {sign : CharSign} {info info' : IPC_MSQINFO} {e : TableEvent} {j : Nat}
    (step : TableStep sign (some info) e (some info')) (inside : j < 12) (live : Live info.tbl (msgQueTbl j)) :
    SameQueue info.tbl info'.tbl j ∨ ∃ id ret, e = .rel id ret ∧ id.toNat = j ∧
      ipc_msgque_getTokenByKey sign (some info) (sharekey info.tbl (msgQueTbl id.toNat)) ≠ none := by
  have unchanged : SameQueue info.tbl info.tbl j := fun _ _ _ => rfl
  cases step with
  | @ftok _ path key called =>
    rcases ftok_cases sign info path with ⟨_,full⟩ | ⟨i,_,_,_,stored⟩
    · cases called.symm.trans full
      exact .inl unchanged
    · cases called.symm.trans stored
      exact .inl (ftok_same info.tbl i path j inside)
  | @get _ key ret called =>
    rcases get_cases info key with ⟨_,refused⟩ | ⟨_,_,refused⟩ | ⟨i,_,_,dead,_,done⟩
    · cases called.symm.trans refused
      exact .inl unchanged
    · cases called.symm.trans refused
      exact .inl unchanged
    · cases called.symm.trans done
      have other : j ≠ i := by
        rintro rfl
        exact dead live
      exact .inl (assignQueue_other other)
  | @rel _ id ret called =>
    obtain ⟨_,⟨⟩,⟨_,rfl,_⟩ | ⟨_,stored,_,keep⟩⟩ := rel_effect called
    · exact .inl unchanged
    · by_cases own : id.toNat = j
      · exact .inr ⟨id,ret,rfl,own,stored⟩
      · exact .inl (keep j inside fun same => own same.symm)

/-- The queue table is an injective partial map from slots to keys in every
    state that calls reach from `ipc_msgque_init`: ids are slot numbers, keys are
    distinct, lookups and `ipc_msgque_get` answer by the map, and a call changes
    no slot but its own. -/
theorem table_is_injective_map {sign : CharSign} {g : Option IPC_MSQINFO} (reach : Reachable sign g) :
    ∃ info, g = some info ∧
      (∀ i < 12, Live info.tbl (msgQueTbl i) → msqid info.tbl (msgQueTbl i) = UInt32.ofNat i) ∧
      (∀ i < 12, ∀ j < 12, Live info.tbl (msgQueTbl i) → Live info.tbl (msgQueTbl j) →
        sharekey info.tbl (msgQueTbl i) = sharekey info.tbl (msgQueTbl j) → i = j) ∧
      (∀ key, LookupCorrect info key) ∧
      (∀ key ret g', ipc_msgque_get g key = (ret,g') → GetCorrect sign info key ret g') ∧
      (∀ id ret g', ipc_msgque_rel sign g id = (ret,g') →
        ∃ info', g' = some info' ∧ ∀ j < 12, j ≠ id.toNat → SameQueue info.tbl info'.tbl j) := by
  obtain ⟨info,T,rfl,rep⟩ := reachable_represents reach
  refine ⟨info,rfl,fun i inside live => rep.ids i _ ⟨inside,live,rfl⟩,?_,lookup_correct rep,
    fun key ret g' => get_correct rep,fun id ret g' => rel_other⟩
  intro i inside j inside' live live' same
  exact T.injective i j _ ((rep.keys i _).mpr ⟨inside,live,rfl⟩) ((rep.keys j _).mpr ⟨inside',live',same.symm⟩)

theorem booted_started : Started booted := ⟨_,_,Prod.ext (by decide +kernel) rfl⟩

theorem booted_some : booted.isSome := by decide +kernel

theorem firstQueue_reachable (sign : CharSign) : Reachable sign (some firstQueue) :=
  ⟨booted,_,booted_started,.one (.get firstQueue_got)⟩

/-- A queue of the name "a". -/
def namedQueue : IPC_MSQINFO :=
  (ipc_msgque_get (ipc_msgque_ftok .signed booted [97,0]).2 97).2.get (by decide +kernel)

theorem namedQueue_reachable : Reachable .signed (some namedQueue) := by
  have named : (ipc_msgque_ftok .signed booted [97,0]) = (97,(ipc_msgque_ftok .signed booted [97,0]).2) :=
    Prod.ext (by decide +kernel) rfl
  have got : ipc_msgque_get (ipc_msgque_ftok .signed booted [97,0]).2 97 = (0,some namedQueue) :=
    Prod.ext (by decide +kernel) (Option.some_get _).symm
  exact ⟨booted,_,booted_started,(Run.one (.ftok named)).snoc (.get got)⟩

/-- On a table with one queue, of key 5, a second `get` of the key fails and
    another key gets the next slot. -/
theorem table_is_injective_map_first_queue :
    (∃ info, some firstQueue = some info ∧ LookupCorrect info 5) ∧ (ipc_msgque_get (some firstQueue) 5).1 = -1 ∧
      (ipc_msgque_get (some firstQueue) 6).1 = 1 := by
  obtain ⟨info,same,_,_,lookup,_⟩ := table_is_injective_map (firstQueue_reachable .signed)
  exact ⟨⟨info,same,lookup 5⟩,by decide +kernel,by decide +kernel⟩

end IpcMsq.KeyMap
