import IpcMsq.Tokens
import Mathlib.Data.Finset.Card

/-!
Which runs leak token slots. An `ftok` takes a free slot also for a name that is
stored already, and a `rel` clears the first token with the queue's hash only; a
second copy, or another name of the same hash, stays behind. Where every name is
stored once and no released key has a second token, the occupied slots are names
registered since their queue was last released (`Clean`).
-/
namespace IpcMsq.Leak
open IpcMsq.Memory IpcMsq.Common IpcMsq.Table IpcMsq.Runs IpcMsq.KeyMap IpcMsq.Tokens

variable {sign : CharSign}

/-- The key of a name. -/
def keyOf (sign : CharSign) (name : List UInt8) : UINT32 := (ipc_msgque_namehash sign name).toUInt32

/-- A table with the names registered since the last release of their queue, and
    the key that the last call released, if it did. -/
structure Ledger where
  g : Option IPC_MSQINFO
  names : Finset (List UInt8)
  released : Option UINT32

/-- The key of the queue that a call on a table releases. -/
def releasedKey (g : Option IPC_MSQINFO) : TableEvent → Option UINT32
  | .rel id ret => if ret = 0 then g.map fun info => sharekey info.tbl (msgQueTbl id.toNat) else none
  | _ => none

/-- The names registered after a call. -/
def namesAfter (sign : CharSign) (s : Ledger) (e : TableEvent) : Finset (List UInt8) :=
  match e, releasedKey s.g e with
  | .ftok path _, _ => insert (cstr path) s.names
  | _, some k => s.names.filter fun name => keyOf sign name ≠ k
  | _, none => s.names

def LedgerStep (sign : CharSign) (s : Ledger) (e : TableEvent) (s' : Ledger) : Prop :=
  TableStep sign s.g e s'.g ∧ s'.names = namesAfter sign s e ∧ s'.released = releasedKey s.g e

/-- The number of token slots in use. -/
def occupied (tbl : Mem) : Nat := ((Finset.range 12).filter fun j => nameAt tbl j ≠ []).card

/-- No name has two slots, no token has a key just released, and the slots in use
    are at most the names registered since their queue was last released. -/
def NoLeak (sign : CharSign) (s : Ledger) : Prop :=
  ∀ info, s.g = some info →
    (∀ i < 12, ∀ j < 12, nameAt info.tbl i ≠ [] → nameAt info.tbl i = nameAt info.tbl j → i = j) ∧
      (∀ k, s.released = some k → ∀ j < 12, nameAt info.tbl j ≠ [] → keyOf sign (tokenBytes info j) ≠ k) ∧
      occupied info.tbl ≤ s.names.card

/-- A name that is stored ends inside its slot. -/
def Fits (s : Ledger) : TableEvent → Prop
  | .ftok path _ => ∀ info, s.g = some info → (∃ i < 12, nameAt info.tbl i = []) → (cstr path).length ≤ 31
  | _ => True

/-- A name that is stored is not stored already, and the key of a queue that is
    released has one token at most. -/
def StoredOnce (sign : CharSign) (s : Ledger) : TableEvent → Prop
  | .ftok path _ => ∀ info, s.g = some info → (∃ i < 12, nameAt info.tbl i = []) → cstr path ≠ [] →
      ∀ j < 12, nameAt info.tbl j ≠ cstr path
  | .get _ _ => True
  | .rel id _ => ∀ info, s.g = some info → id.toNat < 12 → Live info.tbl (msgQueTbl id.toNat) →
      ∀ j < 12, ∀ i < j, keyOf sign (tokenBytes info i) = sharekey info.tbl (msgQueTbl id.toNat) →
        keyOf sign (tokenBytes info j) = sharekey info.tbl (msgQueTbl id.toNat) → nameAt info.tbl j = []

/-- Calls whose names fit. -/
def FittingStep (sign : CharSign) : Ledger → TableEvent → Ledger → Prop := Guarded (LedgerStep sign) Fits

/-- Every token ends in its slot, no two slots have one name, and every name in
    the table is registered. -/
structure Clean (tbl : Mem) (names : Finset (List UInt8)) : Prop where
  ends : ∀ j < 12, Terminated tbl j
  once : ∀ i < 12, ∀ j < 12, nameAt tbl i ≠ [] → nameAt tbl i = nameAt tbl j → i = j
  registered : ∀ j < 12, nameAt tbl j ≠ [] → nameAt tbl j ∈ names

section
variable {tbl : Mem} {info : IPC_MSQINFO} {names : Finset (List UInt8)}

theorem keyOf_token {j : Nat} (clean : Clean info.tbl names) (inside : j < 12) :
    keyOf sign (tokenBytes info j) = keyOf sign (nameAt info.tbl j) :=
  congrArg UInt16.toUInt32 (tokenBytes_name inside (clean.ends j inside))

/-- Different slots in use have different registered names. -/
theorem clean_occupied (clean : Clean tbl names) : occupied tbl ≤ names.card := by
  refine Finset.card_le_card_of_injOn (nameAt tbl) ?_ ?_
  · intro j used
    obtain ⟨inside,full⟩ := Finset.mem_filter.mp used
    exact clean.registered j (Finset.mem_range.mp inside) full
  · intro i used j used' same
    obtain ⟨inside,full⟩ := Finset.mem_filter.mp used
    obtain ⟨inside',_⟩ := Finset.mem_filter.mp used'
    exact clean.once i (Finset.mem_range.mp inside) j (Finset.mem_range.mp inside') full same

theorem clean_noLeak {s : Ledger} (at_g : s.g = some info) (clean : Clean info.tbl s.names)
    (cleared : ∀ k, s.released = some k → ∀ j < 12, nameAt info.tbl j ≠ [] → keyOf sign (tokenBytes info j) ≠ k) :
    NoLeak sign s := by
  intro info' at_g'
  cases at_g.symm.trans at_g'
  exact ⟨clean.once,cleared,clean_occupied clean⟩

theorem clean_mono {names' : Finset (List UInt8)} (clean : Clean tbl names) (more : names ⊆ names') : Clean tbl names' :=
  { clean with registered := fun j inside full => more (clean.registered j inside full) }

theorem clean_start (empty : ∀ j < 12, tbl (msgQueTokenStr j) = 0) : Clean tbl ∅ where
  ends j inside := cleared_terminated (empty j inside)
  once i inside _ _ full := absurd (nameAt_nil.mpr (empty i inside)) full
  registered j inside full := absurd (nameAt_nil.mpr (empty j inside)) full

/-- Storing a name that is not stored keeps the table clean. -/
theorem clean_ftok (clean : Clean tbl names) {i : Nat} {path : List UInt8} (empty : nameAt tbl i = [])
    (short : (cstr path).length ≤ 31) (fresh : cstr path ≠ [] → ∀ j < 12, nameAt tbl j ≠ cstr path) :
    Clean (strncpy tbl (msgQueTokenStr i) path 32) (insert (cstr path) names) := by
  obtain ⟨stored,ends⟩ : nameAt (strncpy tbl (msgQueTokenStr i) path 32) i = cstr path ∧
      Terminated (strncpy tbl (msgQueTokenStr i) path 32) i := stored_name short
  have keep (j : Nat) (other : j ≠ i) : nameAt (strncpy tbl (msgQueTokenStr i) path 32) j = nameAt tbl j :=
    (stored_name_other path other).1
  refine ⟨fun j inside => ?_,fun j inside l inside' full same => ?_,fun j inside full => ?_⟩
  · by_cases at_i : j = i
    · exact at_i ▸ ends
    · exact (stored_name_other path at_i).2.mpr (clean.ends j inside)
  · by_cases at_i : j = i
    · subst at_i
      by_contra other
      rw [stored] at full same
      rw [keep l (Ne.symm other)] at same
      exact fresh full l inside' same.symm
    · by_cases at_l : l = i
      · subst at_l
        rw [keep j at_i] at full same
        rw [stored] at same
        exact absurd same (fresh (same ▸ full) j inside)
      · rw [keep j at_i] at full same
        rw [keep l at_l] at same
        exact clean.once j inside l inside' full same
  · by_cases at_i : j = i
    · subst at_i
      rw [stored]
      exact Finset.mem_insert_self ..
    · rw [keep j at_i] at full ⊢
      exact Finset.mem_insert_of_mem (clean.registered j inside full)

/-- Clearing the one token of a key, and forgetting the names of the key, keeps
    the table clean. -/
theorem clean_rel (clean : Clean info.tbl names) {i j : Nat} {k : UINT32} (inside : i < 12)
    (others : ∀ l < 12, l ≠ j → nameAt info.tbl l ≠ [] → keyOf sign (tokenBytes info l) ≠ k) :
    Clean (store32 (store8 info.tbl (msgQueTokenStr j) 0) (msgQueTbl i) 0) (names.filter fun name => keyOf sign name ≠ k) := by
  have cleared : nameAt (store32 (store8 info.tbl (msgQueTokenStr j) 0) (msgQueTbl i) 0) j = [] ∧
      Terminated (store32 (store8 info.tbl (msgQueTokenStr j) 0) (msgQueTbl i) 0) j := cleared_name inside
  have keep (l : Nat) (other : l ≠ j) :
      nameAt (store32 (store8 info.tbl (msgQueTokenStr j) 0) (msgQueTbl i) 0) l = nameAt info.tbl l :=
    (cleared_name_other inside other).1
  have other {l : Nat} (full : nameAt (store32 (store8 info.tbl (msgQueTokenStr j) 0) (msgQueTbl i) 0) l ≠ []) : l ≠ j := by
    rintro rfl
    exact full cleared.1
  refine ⟨fun l bound => ?_,fun l bound m bound' full same => ?_,fun l bound full => ?_⟩
  · by_cases at_j : l = j
    · exact at_j ▸ cleared.2
    · exact (cleared_name_other inside at_j).2.mpr (clean.ends l bound)
  · have at_m := keep m (other (same ▸ full))
    have at_l := keep l (other full)
    rw [at_l] at full same
    exact clean.once l bound m bound' full (same.trans at_m)
  · have apart := others l bound (other full)
    have at_l := keep l (other full)
    rw [at_l] at full ⊢
    rw [keyOf_token clean bound] at apart
    exact Finset.mem_filter.mpr ⟨clean.registered l bound full,by simpa using apart full⟩

end

/-- The invariant of a run whose names fit and are stored once. -/
def CleanLedger (s : Ledger) : Prop := ∃ info, s.g = some info ∧ Clean info.tbl s.names

theorem leak_ftok {s s' : Ledger} {path : List UInt8} {key : UINT16} (inv : CleanLedger s)
    (step : FittingStep sign s (.ftok path key) s') :
    (NoLeak sign s' ↔ StoredOnce sign s (.ftok path key)) ∧ (StoredOnce sign s (.ftok path key) → CleanLedger s') := by
  obtain ⟨info,at_g,clean⟩ := inv
  obtain ⟨⟨called,named,released⟩,fits⟩ := step
  cases called with
  | ftok called =>
    rw [at_g] at called
    simp only [namesAfter] at named
    have nothing (k : UINT32) (some : s'.released = Option.some k) : False := by
      rw [released] at some
      cases some
    rcases ftok_cases sign info path with ⟨full,same⟩ | ⟨i,inside,empty,_,stored⟩
    · have after : s'.g = some info := (congrArg Prod.snd (called.symm.trans same))
      have still : Clean info.tbl s'.names := named ▸ clean_mono clean (Finset.subset_insert ..)
      have once : StoredOnce sign s (.ftok path key) := by
        rintro info' at_g' ⟨i,inside,free⟩
        cases at_g.symm.trans at_g'
        exact absurd (nameAt_nil.mp free) (full i inside)
      exact ⟨iff_of_true (clean_noLeak after still fun k some => (nothing k some).elim) once,fun _ => ⟨info,after,still⟩⟩
    · have after : s'.g = some { info with tbl := strncpy info.tbl (msgQueTokenStr i) path 32 } :=
        congrArg Prod.snd (called.symm.trans stored)
      have free : nameAt info.tbl i = [] := nameAt_nil.mpr empty
      have short := fits info at_g ⟨i,inside,free⟩
      have keeps (once : StoredOnce sign s (.ftok path key)) :
          Clean (strncpy info.tbl (msgQueTokenStr i) path 32) s'.names :=
        named ▸ clean_ftok clean free short fun nonempty => once info at_g ⟨i,inside,free⟩ nonempty
      refine ⟨⟨fun good => ?_,fun once => clean_noLeak after (keeps once) fun k some => (nothing k some).elim⟩,
        fun once => ⟨_,after,keeps once⟩⟩
      intro info' at_g' _ nonempty j bound same
      cases at_g.symm.trans at_g'
      have other : j ≠ i := by
        rintro rfl
        exact nonempty (same.symm.trans free)
      have at_i : nameAt (strncpy info.tbl (msgQueTokenStr i) path 32) i = cstr path := (stored_name short).1
      have at_j : nameAt (strncpy info.tbl (msgQueTokenStr i) path 32) j = nameAt info.tbl j :=
        (stored_name_other path other).1
      exact other ((good _ after).1 i inside j bound (by rw [at_i]; exact nonempty) (by rw [at_i,at_j,same])).symm

theorem leak_get {s s' : Ledger} {key ret : INT32} (inv : CleanLedger s) (step : FittingStep sign s (.get key ret) s') :
    NoLeak sign s' ∧ CleanLedger s' := by
  obtain ⟨info,at_g,clean⟩ := inv
  obtain ⟨⟨called,named,released⟩,_⟩ := step
  have same : s'.names = s.names := named
  have nothing (k : UINT32) (some : s'.released = Option.some k) : False := by
    rw [released] at some
    cases some
  obtain ⟨info',after,still⟩ : ∃ info', s'.g = some info' ∧ Clean info'.tbl s'.names := by
    cases called with
    | get called =>
      rw [at_g] at called
      rw [same]
      rcases get_cases info key with ⟨_,refused⟩ | ⟨_,_,refused⟩ | ⟨i,_,inside,_,_,done⟩
      · exact ⟨info,congrArg Prod.snd (called.symm.trans refused),clean⟩
      · exact ⟨info,congrArg Prod.snd (called.symm.trans refused),clean⟩
      · refine ⟨_,congrArg Prod.snd (called.symm.trans done),?_⟩
        have tokens (j : Nat) : nameAt (assignQueue info.tbl i key) j = nameAt info.tbl j ∧
            (Terminated (assignQueue info.tbl i key) j ↔ Terminated info.tbl j) := assignQueue_name key inside
        refine ⟨fun j bound => (tokens j).2.mpr (clean.ends j bound),fun j bound l bound' => ?_,fun j bound => ?_⟩
        · simp only [(tokens _).1]
          exact clean.once j bound l bound'
        · simp only [(tokens _).1]
          exact clean.registered j bound
  exact ⟨clean_noLeak after still fun k some => (nothing k some).elim,info',after,still⟩

theorem leak_rel {s s' : Ledger} {id : UINT32} {ret : INT32} (inv : CleanLedger s)
    (step : FittingStep sign s (.rel id ret) s') :
    (NoLeak sign s' ↔ StoredOnce sign s (.rel id ret)) ∧ (StoredOnce sign s (.rel id ret) → CleanLedger s') := by
  obtain ⟨info,at_g,clean⟩ := inv
  obtain ⟨⟨called,named,released⟩,_⟩ := step
  simp only [namesAfter,releasedKey,at_g,Option.map_some] at named released
  cases called with
  | rel called =>
    rw [at_g] at called
    have refused (after : s'.g = some info) (failed : ret ≠ 0) : NoLeak sign s' ∧ CleanLedger s' := by
      simp only [failed,if_false] at named released
      have still : Clean info.tbl s'.names := named ▸ clean
      refine ⟨clean_noLeak after still fun k some => ?_,info,after,still⟩
      rw [released] at some
      cases some
    rcases rel_cases sign info id with ⟨none,same⟩ | ⟨_,_,none,same⟩ | ⟨token,inside,live,found,done⟩
    · obtain ⟨rfl,rest⟩ := Prod.mk.inj (called.symm.trans same)
      obtain ⟨good,still⟩ := refused rest (by decide)
      refine ⟨iff_of_true good fun info' at_g' inside live => ?_,fun _ => still⟩
      cases at_g.symm.trans at_g'
      exact absurd ⟨inside,live⟩ none
    · obtain ⟨rfl,rest⟩ := Prod.mk.inj (called.symm.trans same)
      obtain ⟨good,still⟩ := refused rest (by decide)
      refine ⟨iff_of_true good fun info' at_g' _ _ j bound i less first => ?_,fun _ => still⟩
      cases at_g.symm.trans at_g'
      exact absurd first (getTokenByKey_none.mp none i (by omega))
    · obtain ⟨rfl,after⟩ := Prod.mk.inj (called.symm.trans done)
      simp only [if_true] at named released
      obtain ⟨j,bound,rfl,first,least⟩ := getTokenByKey_some.mp found
      have keep (l : Nat) (other : l ≠ j) :
          nameAt (store32 (store8 info.tbl (msgQueTokenStr j) 0) (msgQueTbl id.toNat) 0) l = nameAt info.tbl l ∧
            (Terminated (store32 (store8 info.tbl (msgQueTokenStr j) 0) (msgQueTbl id.toNat) 0) l ↔
              Terminated info.tbl l) := cleared_name_other inside other
      have others (once : StoredOnce sign s (.rel id 0)) (l : Nat) (bound' : l < 12) (other : l ≠ j)
          (full : nameAt info.tbl l ≠ []) : keyOf sign (tokenBytes info l) ≠ sharekey info.tbl (msgQueTbl id.toNat) := by
        intro also
        rcases Nat.lt_or_gt_of_ne other with less | more
        · exact least l less also
        · exact full (once info at_g inside live l bound' j more first also)
      have still (once : StoredOnce sign s (.rel id 0)) : Clean _ s'.names := named ▸ clean_rel clean inside (others once)
      refine ⟨⟨fun good info' at_g' _ _ l bound' i less first' also => ?_,fun once => ?_⟩,fun once => ⟨_,after,still once⟩⟩
      · cases at_g.symm.trans at_g'
        by_contra full
        have other : l ≠ j := by
          rintro rfl
          exact least i less first'
        obtain ⟨name,ends⟩ := keep l other
        refine (good _ after).2.1 _ released l bound' (name ▸ full) ?_
        rw [keyOf,tokenBytes_name bound' (ends.mpr (clean.ends l bound')),name,← tokenBytes_name bound' (clean.ends l bound')]
        exact also
      · refine clean_noLeak after (still once) fun k some l bound' full => ?_
        obtain rfl : _ = k := Option.some.inj (released.symm.trans some)
        have other : l ≠ j := by
          rintro rfl
          exact full (cleared_name inside).1
        have apart := others once l bound' other ((keep l other).1 ▸ full)
        rw [keyOf_token clean bound'] at apart
        rw [keyOf_token (still once) bound',(keep l other).1]
        exact apart

/-- In a clean state a call keeps the slots free of leaks exactly if it is in order. -/
theorem leak_step {s s' : Ledger} {e : TableEvent} (inv : CleanLedger s) (step : FittingStep sign s e s') :
    (NoLeak sign s' ↔ StoredOnce sign s e) ∧ (StoredOnce sign s e → CleanLedger s') := by
  cases e with
  | ftok path key => exact leak_ftok inv step
  | get key ret => exact ⟨iff_of_true (leak_get inv step).1 trivial,fun _ => (leak_get inv step).2⟩
  | rel id ret => exact leak_rel inv step

/-- In the runs whose names fit, no call leaks a slot exactly if every name is
    stored once and every released key has one token at most; then nothing leaks. -/
theorem no_leak_iff {start : Option IPC_MSQINFO} (started : Started start) (es : List TableEvent) (s : Ledger) :
    (Run (Into (FittingStep sign) (NoLeak sign)) ⟨start,∅,none⟩ es s ↔
      Run (Guarded (FittingStep sign) (StoredOnce sign)) ⟨start,∅,none⟩ es s) ∧
    (Run (Guarded (FittingStep sign) (StoredOnce sign)) ⟨start,∅,none⟩ es s → NoLeak sign s) := by
  obtain ⟨info,rfl,_,empty⟩ := started_spec started
  have clean : CleanLedger ⟨some info,∅,none⟩ := ⟨info,rfl,clean_start empty⟩
  have same : Run (Into (FittingStep sign) (NoLeak sign)) ⟨some info,∅,none⟩ es s ↔
      Run (Guarded (FittingStep sign) (StoredOnce sign)) ⟨some info,∅,none⟩ es s := by
    refine Run.guarded_iff clean ?_ ?_
    · exact fun t e u inv step => (leak_step inv step).1
    · exact fun t e u inv step => (leak_step inv step).2
  refine ⟨same,fun run => (same.mpr run).into ?_⟩
  exact clean_noLeak rfl (clean_start empty) fun k some => by cases some

/-- A call on the table, with the ledger it leads to. -/
theorem ledger_step {s : Ledger} {e : TableEvent} {g' : Option IPC_MSQINFO} (step : TableStep sign s.g e g') :
    LedgerStep sign s e ⟨g',namesAfter sign s e,releasedKey s.g e⟩ := ⟨step,rfl,rfl⟩

/-- A name, its queue, and the release of the queue. -/
theorem no_leak_iff_one_name : ∃ s, Run (LedgerStep .signed) ⟨booted,∅,none⟩ [.ftok [97,0] 97,.get 97 0,.rel 0 0] s ∧
    s.released = some 97 ∧ NoLeak .signed s := by
  let named := (ipc_msgque_ftok .signed booted [97,0]).2.get (by decide +kernel)
  let got := (ipc_msgque_get (some named) 97).2.get (by decide +kernel)
  let freed := (ipc_msgque_rel .signed (some got) 0).2.get (by decide +kernel)
  have first : TableStep .signed booted (.ftok [97,0] 97) (some named) :=
    .ftok (Prod.ext (by decide +kernel) (Option.some_get _).symm)
  have second : TableStep .signed (some named) (.get 97 0) (some got) :=
    .get (Prod.ext (by decide +kernel) (Option.some_get _).symm)
  have third : TableStep .signed (some got) (.rel 0 0) (some freed) :=
    .rel (Prod.ext (by decide +kernel) (Option.some_get _).symm)
  have one : StoredOnce .signed ⟨booted,∅,none⟩ (.ftok [97,0] 97) := by
    intro info at_g _ _ j bound same
    obtain ⟨info',at_g',_,empty⟩ := started_spec booted_started
    cases at_g'.symm.trans at_g
    rw [nameAt_nil.mpr (empty j bound)] at same
    cases same
  have three (names : Finset (List UInt8)) : StoredOnce .signed ⟨some got,names,none⟩ (.rel 0 0) := by
    rintro _ ⟨⟩ _ _ j bound i less _ _
    exact (by decide +kernel : ∀ j < 12, 0 < j → nameAt got.tbl j = []) j bound (by omega)
  have run : Run (Guarded (FittingStep .signed) (StoredOnce .signed)) ⟨booted,∅,none⟩ [.ftok [97,0] 97,.get 97 0,.rel 0 0] _ :=
    ((Run.one ⟨⟨ledger_step first,fun _ _ _ => by decide⟩,one⟩).snoc ⟨⟨ledger_step second,trivial⟩,trivial⟩).snoc ⟨⟨ledger_step third,trivial⟩,three _⟩
  refine ⟨_,run.mono fun _ _ _ step => step.1.1,congrArg some (by decide +kernel : sharekey got.tbl (msgQueTbl 0) = 97),
    (no_leak_iff booted_started _ _).2 run⟩

/-- Two clients look one name up: after the release of its queue, a copy of the name
    stays in the table. -/
theorem second_copy_stays : ∃ s info, Run (LedgerStep .signed) ⟨booted,∅,none⟩
      [.ftok [97,0] 97,.ftok [97,0] 97,.get 97 0,.rel 0 0] s ∧
    s.g = some info ∧ s.released = some 97 ∧ nameAt info.tbl 1 = [97] ∧ occupied info.tbl = 1 ∧ s.names.card = 0 ∧
    ¬ NoLeak .signed s := by
  let named := (ipc_msgque_ftok .signed booted [97,0]).2.get (by decide +kernel)
  let twice := (ipc_msgque_ftok .signed (some named) [97,0]).2.get (by decide +kernel)
  let got := (ipc_msgque_get (some twice) 97).2.get (by decide +kernel)
  let freed := (ipc_msgque_rel .signed (some got) 0).2.get (by decide +kernel)
  have first : TableStep .signed booted (.ftok [97,0] 97) (some named) :=
    .ftok (Prod.ext (by decide +kernel) (Option.some_get _).symm)
  have second : TableStep .signed (some named) (.ftok [97,0] 97) (some twice) :=
    .ftok (Prod.ext (by decide +kernel) (Option.some_get _).symm)
  have third : TableStep .signed (some twice) (.get 97 0) (some got) :=
    .get (Prod.ext (by decide +kernel) (Option.some_get _).symm)
  have fourth : TableStep .signed (some got) (.rel 0 0) (some freed) :=
    .rel (Prod.ext (by decide +kernel) (Option.some_get _).symm)
  have run : Run (LedgerStep .signed) ⟨booted,∅,none⟩ [.ftok [97,0] 97,.ftok [97,0] 97,.get 97 0,.rel 0 0] _ :=
    (((Run.one (ledger_step first)).snoc (ledger_step second)).snoc (ledger_step third)).snoc (ledger_step fourth)
  have key : sharekey got.tbl (msgQueTbl 0) = 97 := by decide +kernel
  have stays : nameAt freed.tbl 1 = [97] := by decide +kernel
  refine ⟨_,freed,run,rfl,congrArg some key,stays,by decide +kernel,
    by decide +kernel,fun good => ?_⟩
  exact (good freed rfl).2.1 97 (congrArg some key) 1 (by decide) (by rw [stays]; decide) (by decide +kernel)

end IpcMsq.Leak
