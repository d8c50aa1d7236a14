import IpcMsq.Tokens

/-!
Which queues `ipc_msgque_rel` can release. A release needs a stored token string
that hashes to the queue's key, and neither `ipc_msgque_get` nor a full token
table sees to it that there is one. Where every queue is obtained under the key
of a stored name that ends inside its slot, all queues stay releasable.
-/
namespace IpcMsq.Release
open IpcMsq.Memory IpcMsq.Common IpcMsq.Table IpcMsq.Runs IpcMsq.KeyMap IpcMsq.Tokens

variable {sign : CharSign}

/-- A release of slot `i` succeeds, the key is not found after it, the slot is
    free, and a `get` of the key succeeds. -/
def Releasable (sign : CharSign) (info : IPC_MSQINFO) (i : Nat) (key : INT32) : Prop :=
  ∃ info', ipc_msgque_rel sign (some info) (UInt32.ofNat i) = (0,some info') ∧
    ipc_msgque_getIDbyKey (some info') key < 0 ∧ ¬ Live info'.tbl (msgQueTbl i) ∧
    0 ≤ (ipc_msgque_get (some info') key).1

/-- Some stored token string hashes to the key. -/
def TokenStored (sign : CharSign) (info : IPC_MSQINFO) (key : UINT32) : Prop :=
  ∃ j < 12, (ipc_msgque_namehash sign (tokenBytes info j)).toUInt32 = key

theorem tokenStored_iff {info : IPC_MSQINFO} {key : UINT32} :
    TokenStored sign info key ↔ ipc_msgque_getTokenByKey sign (some info) key ≠ none := by
  rw [ne_eq,getTokenByKey_none,TokenStored]
  push Not
  rfl

/-- A queue of the table is releasable exactly if a stored token has its key. -/
theorem releasable_iff {info : IPC_MSQINFO} {T : KeyTable} (rep : Represents info.tbl T) {i : Nat} {key : INT32}
    (has : HasKey info.tbl i key.toUInt32) : Releasable sign info i key ↔ TokenStored sign info key.toUInt32 := by
  obtain ⟨inside,live,share⟩ := has
  have number := slotNumber_unsigned inside
  rw [tokenStored_iff]
  rcases rel_cases sign info (UInt32.ofNat i) with ⟨none,_⟩ | ⟨_,_,none,refused⟩ | ⟨token,_,_,found,done⟩
  · rw [number] at none
    exact absurd ⟨inside,live⟩ none
  · rw [number,share] at none
    refine iff_of_false ?_ (not_not.mpr none)
    rintro ⟨info',released,_⟩
    cases released.symm.trans refused
  · rw [number,share] at found
    rw [number] at done
    refine iff_of_true ?_ (by rw [found]; simp)
    obtain ⟨j,_,rfl,_⟩ := getTokenByKey_some.mp found
    have rep' := represents_release (i := i) (j := j) rep
    have gone : ∀ l, (T.release i).keyAt l ≠ some key.toUInt32 := by
      intro l at_l
      rw [SlotMap.keyAt_release] at at_l
      split at at_l
      · cases at_l
      · rename_i other
        exact other (T.injective l i _ at_l ((rep.keys i _).mpr ⟨inside,live,share⟩))
    refine ⟨_,done,?_,(released_spec info.tbl i j).2,?_⟩
    · rw [getIDbyKey_lookup rep',SlotMap.lookup_none.mpr gone]
      decide
    · rcases get_cases { info with tbl := store32 (store8 info.tbl (msgQueTokenStr j) 0) (msgQueTbl i) 0 } key with
        ⟨⟨l,used⟩,_⟩ | ⟨_,full,_⟩ | ⟨l,_,free,_,_,got⟩
      · exact absurd ((rep'.keys l _).mpr used) (gone l)
      · exact absurd (full i inside) (released_spec info.tbl i j).2
      · rw [got]
        exact slotNumber_nonneg free

/-! ### Runs that keep every queue releasable -/

/-- A name that ends inside its slot, or a `get` of a key that a stored name has. -/
def Registered (sign : CharSign) (info : IPC_MSQINFO) : TableEvent → Prop
  | .ftok path _ => (cstr path).length ≤ 31
  | .get key _ => ∃ j < 12, info.tbl (msgQueTokenStr j) ≠ 0 ∧
      (ipc_msgque_namehash sign (tokenBytes info j)).toUInt32 = key.toUInt32
  | .rel _ _ => True

/-- A call on a table in a state where its name or key is in order. -/
def RegisteredStep (sign : CharSign) (g : Option IPC_MSQINFO) (e : TableEvent) (g' : Option IPC_MSQINFO) : Prop :=
  TableStep sign g e g' ∧ ∀ info, g = some info → Registered sign info e

/-- Every token ends in its slot, and every queue has the key of a stored name. -/
structure Named (sign : CharSign) (info : IPC_MSQINFO) : Prop where
  ends : ∀ j < 12, Terminated info.tbl j
  named : ∀ i k, HasKey info.tbl i k →
    ∃ j < 12, nameAt info.tbl j ≠ [] ∧ (ipc_msgque_namehash sign (nameAt info.tbl j)).toUInt32 = k

theorem named_stored {info : IPC_MSQINFO} (inv : Named sign info) {i : Nat} {k : UINT32} (has : HasKey info.tbl i k) :
    TokenStored sign info k := by
  obtain ⟨j,inside,_,hash⟩ := inv.named i k has
  exact ⟨j,inside,by rw [tokenBytes_name inside (inv.ends j inside)]; exact hash⟩

theorem named_ftok {info : IPC_MSQINFO} (inv : Named sign info) {i : Nat} {path : List UInt8}
    (short : (cstr path).length ≤ 31) (empty : info.tbl (msgQueTokenStr i) = 0) :
    Named sign { info with tbl := strncpy info.tbl (msgQueTokenStr i) path 32 } where
  ends j inside := by
    by_cases same : j = i
    · exact same ▸ (stored_name short).2
    · exact (stored_name_other path same).2.mpr (inv.ends j inside)
  named l k has := by
    obtain ⟨j,inside,full,hash⟩ := inv.named l k ((hasKey_congr (ftok_same info.tbl i path l has.1)).mp has)
    have other : j ≠ i := by rintro rfl; exact full (nameAt_nil.mpr empty)
    have same : nameAt (strncpy info.tbl (msgQueTokenStr i) path 32) j = nameAt info.tbl j :=
      (stored_name_other path other).1
    exact ⟨j,inside,by rw [same]; exact full,by rw [same]; exact hash⟩

theorem named_get {info : IPC_MSQINFO} (inv : Named sign info) {i j : Nat} {key : INT32} (inside : i < 12) (bound : j < 12)
    (full : info.tbl (msgQueTokenStr j) ≠ 0)
    (hash : (ipc_msgque_namehash sign (tokenBytes info j)).toUInt32 = key.toUInt32) :
    Named sign { info with tbl := assignQueue info.tbl i key } where
  ends l bound' := (assignQueue_name key inside).2.mpr (inv.ends l bound')
  named l k has := by
    have tokens (m : Nat) : nameAt (assignQueue info.tbl i key) m = nameAt info.tbl m := (assignQueue_name key inside).1
    by_cases same : l = i
    · subst same
      have share : key.toUInt32 = k :=
        (assignQueue_hasKey inside).2.2.symm.trans has.2.2
      refine ⟨j,bound,?_,?_⟩
      · rw [tokens]
        exact mt nameAt_nil.mp full
      · rw [tokens,← tokenBytes_name bound (inv.ends j bound),hash,share]
    · obtain ⟨m,bound',nonempty,named⟩ := inv.named l k ((hasKey_congr (assignQueue_other same)).mp has)
      exact ⟨m,bound',by rw [tokens]; exact nonempty,by rw [tokens]; exact named⟩

/-- The token that a release clears is of no other queue, as keys are distinct. -/
theorem named_rel {info : IPC_MSQINFO} {T : KeyTable} (rep : Represents info.tbl T) (inv : Named sign info) {i j : Nat}
    {key : UINT32} (has : HasKey info.tbl i key) (bound : j < 12)
    (hash : (ipc_msgque_namehash sign (tokenBytes info j)).toUInt32 = key) :
    Named sign { info with tbl := store32 (store8 info.tbl (msgQueTokenStr j) 0) (msgQueTbl i) 0 } where
  ends l bound' := by
    by_cases same : l = j
    · exact same ▸ (cleared_name has.1).2
    · exact (cleared_name_other has.1 same).2.mpr (inv.ends l bound')
  named l k has' := by
    obtain ⟨keep,dead⟩ := released_spec info.tbl i j
    have other : l ≠ i := by rintro rfl; exact dead has'.2.1
    have before : HasKey info.tbl l k := (hasKey_congr (keep l has'.1 other)).mp has'
    obtain ⟨m,bound',nonempty,named⟩ := inv.named l k before
    have apart : m ≠ j := by
      rintro rfl
      rw [tokenBytes_name bound (inv.ends m bound),named] at hash
      exact other (T.injective l i k ((rep.keys l k).mpr before) ((rep.keys i k).mpr (hash ▸ has)))
    have same : nameAt (store32 (store8 info.tbl (msgQueTokenStr j) 0) (msgQueTbl i) 0) m = nameAt info.tbl m :=
      (cleared_name_other has.1 apart).1
    exact ⟨m,bound',by rw [same]; exact nonempty,by rw [same]; exact named⟩

/-- A call whose name or key is in order keeps every queue named. -/
theorem named_step {info : IPC_MSQINFO} {T : KeyTable} (rep : Represents info.tbl T) (inv : Named sign info)
    {e : TableEvent} {g' : Option IPC_MSQINFO} (step : RegisteredStep sign (some info) e g') :
    ∃ info', g' = some info' ∧ Named sign info' := by
  obtain ⟨step,order⟩ := step
  have inOrder := order info rfl
  cases step with
  | @ftok _ path key called =>
    rcases ftok_cases sign info path with ⟨_,full⟩ | ⟨i,_,empty,_,stored⟩
    · cases called.symm.trans full
      exact ⟨info,rfl,inv⟩
    · cases called.symm.trans stored
      exact ⟨_,rfl,named_ftok inv inOrder empty⟩
  | @get _ key ret called =>
    obtain ⟨j,bound,nonempty,hash⟩ := inOrder
    rcases get_cases info key with ⟨_,refused⟩ | ⟨_,_,refused⟩ | ⟨i,_,inside,_,_,done⟩
    · cases called.symm.trans refused
      exact ⟨info,rfl,inv⟩
    · cases called.symm.trans refused
      exact ⟨info,rfl,inv⟩
    · cases called.symm.trans done
      exact ⟨_,rfl,named_get inv inside bound nonempty hash⟩
  | @rel _ id ret called =>
    rcases rel_cases sign info id with ⟨_,refused⟩ | ⟨_,_,_,refused⟩ | ⟨token,inside,live,found,done⟩
    · cases called.symm.trans refused
      exact ⟨info,rfl,inv⟩
    · cases called.symm.trans refused
      exact ⟨info,rfl,inv⟩
    · cases called.symm.trans done
      obtain ⟨j,bound,rfl,hash,_⟩ := getTokenByKey_some.mp found
      exact ⟨_,rfl,named_rel rep inv ⟨inside,live,rfl⟩ bound hash⟩

/-- After every run whose names and keys are in order every queue is named. -/
theorem run_named {start : Option IPC_MSQINFO} {es : List TableEvent} {info : IPC_MSQINFO} (started : Started start)
    (run : Run (RegisteredStep sign) start es (some info)) : Named sign info := by
  have inv := run.invariant (I := fun _ g => ∃ info, g = some info ∧ Named sign info) ?_ ?_
  · obtain ⟨_,⟨⟩,inv⟩ := inv
    exact inv
  · obtain ⟨info,rfl,dead,empty⟩ := started_spec started
    exact ⟨info,rfl,fun j bound => cleared_terminated (empty j bound),fun i k has => absurd has.2.1 (dead i has.1)⟩
  · rintro es _ e g' before ⟨info,rfl,inv⟩ step
    obtain ⟨_,T,⟨⟩,rep⟩ := reachable_represents ⟨start,es,started,before.mono fun _ _ _ step => step.1⟩
    exact named_step rep inv step

/-- A queue of a reachable table can be released exactly if some stored token
    hashes to its key. In a run that stores only names which end in their slots
    and gets only keys of stored names, every queue can be released at any time. -/
theorem release_iff_token_stored (sign : CharSign) :
    (∀ info i key, Reachable sign (some info) → HasKey info.tbl i key.toUInt32 →
      (Releasable sign info i key ↔ TokenStored sign info key.toUInt32)) ∧
    (∀ start es info, Started start → Run (RegisteredStep sign) start es (some info) →
      ∀ i (key : INT32), HasKey info.tbl i key.toUInt32 → Releasable sign info i key) := by
  refine ⟨fun info i key reach has => ?_,fun start es info started run i key has => ?_⟩
  · obtain ⟨_,T,⟨⟩,rep⟩ := reachable_represents reach
    exact releasable_iff rep has
  · have reach : Reachable sign (some info) := ⟨start,es,started,run.mono fun _ _ _ step => step.1⟩
    obtain ⟨_,T,⟨⟩,rep⟩ := reachable_represents reach
    exact (releasable_iff rep has).mpr (named_stored (run_named started run) has)

/-- A name, its key, a queue of the key: the queue can be released. -/
theorem release_iff_token_stored_named : ∃ info, HasKey info.tbl 0 (97 : INT32).toUInt32 ∧ Releasable .signed info 0 97 := by
  let named := (ipc_msgque_ftok .signed booted [97,0]).2.get (by decide +kernel)
  let got := (ipc_msgque_get (some named) 97).2.get (by decide +kernel)
  have first : RegisteredStep .signed booted (.ftok [97,0] 97) (some named) :=
    ⟨.ftok (Prod.ext (by decide +kernel) (Option.some_get _).symm),fun _ _ => show (cstr [97,0]).length ≤ 31 by decide⟩
  have second : RegisteredStep .signed (some named) (.get 97 0) (some got) := by
    refine ⟨.get (Prod.ext (by decide +kernel) (Option.some_get _).symm),?_⟩
    rintro _ ⟨⟩
    exact ⟨0,by decide,by decide +kernel,by decide +kernel⟩
  have has : HasKey got.tbl 0 (97 : INT32).toUInt32 := ⟨by decide,by decide +kernel,by decide +kernel⟩
  exact ⟨got,has,(release_iff_token_stored .signed).2 _ _ _ booted_started ((Run.one first).snoc second) 0 97 has⟩

/-- A queue obtained under a key that no name has is never released. -/
theorem tokenless_queue_kept : ∃ info, Reachable .signed (some info) ∧ HasKey info.tbl 0 (5 : INT32).toUInt32 ∧
    (ipc_msgque_rel .signed (some info) 0).1 = -2 ∧ ¬ Releasable .signed info 0 5 := by
  refine ⟨firstQueue,firstQueue_reachable .signed,?_,by decide +kernel,?_⟩
  · exact ⟨by decide,by decide +kernel,by decide +kernel⟩
  · rintro ⟨info',released,_⟩
    have code : (ipc_msgque_rel .signed (some firstQueue) (UInt32.ofNat 0)).1 = 0 := congrArg Prod.fst released
    exact absurd code (by decide +kernel)

end IpcMsq.Release
