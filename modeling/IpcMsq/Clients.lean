import IpcMsq.Tokens
import Mathlib.Data.Set.Card

/-!
Clients that repeat `ipc_msgque_ftok`, `ipc_msgque_get` and `ipc_msgque_rel`, in
any interleaving. `Conserved` ties every initialised slot to the one client that
holds it and every stored token to the one client that left it, so a release
finds the token of its own client and both tables are empty between rounds.
-/
namespace IpcMsq.Clients
open IpcMsq.Memory IpcMsq.Common IpcMsq.Table IpcMsq.Runs IpcMsq.KeyMap IpcMsq.Tokens

variable {Client : Type} {sign : CharSign}

/-- The name of each client. The keys of the names are distinct and not zero. -/
structure Names (Client : Type) (sign : CharSign) where
  name : Client → List UInt8
  nonempty : ∀ c, 1 ≤ (name c).length
  short : ∀ c, (name c).length ≤ 31
  nonzero : ∀ c, ∀ x ∈ name c, x ≠ 0
  distinct : ∀ c d, ipc_msgque_namehash sign (name c) = ipc_msgque_namehash sign (name d) → c = d
  keyed : ∀ c, ipc_msgque_namehash sign (name c) ≠ 0

namespace Names

def key (N : Names Client sign) (c : Client) : UINT16 := ipc_msgque_namehash sign (N.name c)

/-- The string the client passes to `ipc_msgque_ftok`. -/
def path (N : Names Client sign) (c : Client) : List UInt8 := N.name c ++ [0]

theorem cstr_path (N : Names Client sign) (c : Client) : cstr (N.path c) = N.name c := cstr_of_nonzero (N.nonzero c) []

theorem ne_nil (N : Names Client sign) (c : Client) : N.name c ≠ [] := List.length_pos_iff.mp (N.nonempty c)

theorem name_injective (N : Names Client sign) {c d : Client} (same : N.name c = N.name d) : c = d :=
  N.distinct c d (congrArg (ipc_msgque_namehash sign) same)

/-- The hash of the path is the key of the client. -/
theorem namehash_path (N : Names Client sign) (c : Client) : ipc_msgque_namehash sign (N.path c) = N.key c := by
  rw [← namehash_cstr,cstr_path,key]

theorem key_injective (N : Names Client sign) {c d : Client} (same : (N.key c).toUInt32 = (N.key d).toUInt32) :
    c = d := N.distinct c d (UInt16.toUInt32_inj.mp same)

end Names

/-- Where a client stands in its round, with what the last call returned. -/
inductive Phase
  | idle
  | keyed (key : UINT16)
  | holding (ret : INT32)

structure System (Client : Type) where
  g : Option IPC_MSQINFO
  phase : Client → Phase

/-- The clients that are between their `ftok` and their `rel`. -/
def active (phase : Client → Phase) : Set Client := {c | phase c ≠ .idle}

inductive ClientEvent (Client : Type)
  | ftok (c : Client) (key : UINT16)
  | get (c : Client) (ret : INT32)
  | rel (c : Client) (ret : INT32)

/-- The next call of a client, which goes on with whatever the last one returned. -/
def System.call [DecidableEq Client] (N : Names Client sign) (s : System Client) (c : Client) :
    ClientEvent Client × System Client :=
  match s.phase c with
  | .idle =>
    let (key,g') := ipc_msgque_ftok sign s.g (N.path c)
    (.ftok c key,⟨g',Function.update s.phase c (.keyed key)⟩)
  | .keyed key =>
    let (ret,g') := ipc_msgque_get s.g key.toUInt32.toInt32
    (.get c ret,⟨g',Function.update s.phase c (.holding ret)⟩)
  | .holding id =>
    let (ret,g') := ipc_msgque_rel sign s.g id.toUInt32
    (.rel c ret,⟨g',Function.update s.phase c .idle⟩)

/-- Any client calls next, as long as at most twelve are active then. -/
def ClientStep [DecidableEq Client] (N : Names Client sign) (s : System Client) (e : ClientEvent Client)
    (s' : System Client) : Prop :=
  ∃ c, s.call N c = (e,s') ∧ (active s'.phase).encard ≤ 12

/-- What a call must return. -/
def Succeeds : ClientEvent Client → Prop
  | .ftok _ _ => True
  | .get _ ret => ∃ i < 12, ret = Int32.ofNat i
  | .rel _ ret => ret = 0

/-- Every stored token belongs to one active client, every initialised slot to
    the one client that holds its number. -/
structure Conserved (N : Names Client sign) (info : IPC_MSQINFO) (phase : Client → Phase) : Prop where
  ends : ∀ j < 12, Terminated info.tbl j
  owned : ∀ j < 12, nameAt info.tbl j ≠ [] → ∃ c, phase c ≠ .idle ∧ nameAt info.tbl j = N.name c
  stored : ∀ c, phase c ≠ .idle → ∃ j < 12, nameAt info.tbl j = N.name c
  once : ∀ i < 12, ∀ j < 12, nameAt info.tbl i ≠ [] → nameAt info.tbl i = nameAt info.tbl j → i = j
  keyed : ∀ c key, phase c = .keyed key → key = N.key c
  held : ∀ c ret, phase c = .holding ret → ∃ i < 12, ret = Int32.ofNat i ∧ HasKey info.tbl i (N.key c).toUInt32
  holder : ∀ i k, HasKey info.tbl i k → ∃ c, phase c = .holding (Int32.ofNat i) ∧ k = (N.key c).toUInt32
  few : (active phase).encard ≤ 12

/-! ### Room in the two tables -/

/-- Twelve slots with an owner each leave no room for one more member. -/
theorem full_house {S : Set Client} {c : Client} (Owns : Client → Nat → Prop) (few : S.encard ≤ 12) (member : c ∈ S)
    (owners : ∀ i < 12, ∃ d ∈ S, d ≠ c ∧ Owns d i) (single : ∀ d, ∀ i < 12, ∀ j < 12, Owns d i → Owns d j → i = j) :
    False := by
  have : Nonempty Client := ⟨c⟩
  choose! owner inside other owns using owners
  have mapped : Set.MapsTo owner {i | i < 12} (S \ {c}) := by
    intro i less
    exact ⟨inside i less,other i less⟩
  have injective : Set.InjOn owner {i | i < 12} := fun i less j less' same =>
    single _ i less j less' (owns i less) (same ▸ owns j less')
  have many := Set.encard_le_encard_of_injOn mapped injective
  have rest := Set.encard_sdiff_singleton_add_one member
  have bound : (12 : ℕ∞) + 1 ≤ 12 := by
    calc (12 : ℕ∞) + 1 = Set.encard {i : ℕ | i < 12} + 1 := by rw [Set.Nat.encard_range]; rfl
      _ ≤ (S \ {c}).encard + 1 := by gcongr
      _ = S.encard := rest
      _ ≤ 12 := few
  exact absurd bound (by decide)

section
variable {N : Names Client sign} {info : IPC_MSQINFO} {phase : Client → Phase} {c : Client}

/-- A client that has its key finds a free slot. -/
theorem slot_room (inv : Conserved N info phase) {key : UINT16} (keyed : phase c = .keyed key) :
    ∃ i < 12, ¬ Live info.tbl (msgQueTbl i) := by
  by_contra none
  push Not at none
  refine full_house (c := c) (fun d i => phase d = .holding (Int32.ofNat i)) inv.few ?_ ?_ ?_
  · simp [active,keyed]
  · intro i inside
    obtain ⟨d,holds,_⟩ := inv.holder i _ ⟨inside,none i inside,rfl⟩
    refine ⟨d,by simp [active,holds],?_,holds⟩
    rintro rfl
    rw [keyed] at holds
    cases holds
  · intro d i inside j inside' first second
    rw [first] at second
    exact slotNumber_injective inside inside' (Phase.holding.inj second)

/-- A started table is tied to clients that are all idle. -/
theorem started_conserved (N : Names Client sign) {g : Option IPC_MSQINFO} (started : Started g) :
    ∃ info, g = some info ∧ Conserved N info fun _ => .idle := by
  obtain ⟨info,rfl,dead,empty⟩ := started_spec started
  refine ⟨info,rfl,fun j bound => cleared_terminated (empty j bound),?_,?_,?_,?_,?_,?_,?_⟩
  · exact fun j bound full => absurd (nameAt_nil.mpr (empty j bound)) full
  · exact fun c working => absurd rfl working
  · exact fun j bound _ _ full _ => absurd (nameAt_nil.mpr (empty j bound)) full
  · exact fun _ _ keyed => nomatch keyed
  · exact fun _ _ holds => nomatch holds
  · exact fun i k has => absurd has.2.1 (dead i has.1)
  · simp [active]

variable [DecidableEq Client]

/-- An idle client that becomes active finds an empty token. -/
theorem token_room (inv : Conserved N info phase) (idle : phase c = .idle) {p : Phase} (busy : p ≠ .idle)
    (few : (active (Function.update phase c p)).encard ≤ 12) : ∃ i < 12, info.tbl (msgQueTokenStr i) = 0 := by
  by_contra none
  push Not at none
  refine full_house (c := c) (fun d i => nameAt info.tbl i = N.name d) few ?_ ?_ ?_
  · simpa [active] using busy
  · intro i inside
    obtain ⟨d,working,named⟩ := inv.owned i inside fun empty => none i inside (nameAt_nil.mp empty)
    have other : d ≠ c := by rintro rfl; exact working idle
    exact ⟨d,by simpa [active,other] using working,other,named⟩
  · intro d i inside j inside' first second
    exact inv.once i inside j inside' (first ▸ N.ne_nil d) (first.trans second.symm)

/-- A name that is not stored in slot `i` keeps its slot when slot `i` is written. -/
theorem conserved_ftok (inv : Conserved N info phase) (idle : phase c = .idle) {i : Nat} (inside : i < 12)
    (empty : info.tbl (msgQueTokenStr i) = 0)
    (few : (active (Function.update phase c (.keyed (N.key c)))).encard ≤ 12) :
    Conserved N { info with tbl := strncpy info.tbl (msgQueTokenStr i) (N.path c) 32 }
      (Function.update phase c (.keyed (N.key c))) := by
  obtain ⟨named,ended⟩ : nameAt (strncpy info.tbl (msgQueTokenStr i) (N.path c) 32) i = cstr (N.path c) ∧
      Terminated (strncpy info.tbl (msgQueTokenStr i) (N.path c) 32) i :=
    stored_name (by rw [N.cstr_path]; exact N.short c)
  rw [N.cstr_path] at named
  have elsewhere (j : Nat) (other : j ≠ i) :
      nameAt (strncpy info.tbl (msgQueTokenStr i) (N.path c) 32) j = nameAt info.tbl j ∧
        (Terminated (strncpy info.tbl (msgQueTokenStr i) (N.path c) 32) j ↔ Terminated info.tbl j) :=
    stored_name_other (N.path c) other
  have blank := nameAt_nil.mpr empty
  have absent (j : Nat) (bound : j < 12) : nameAt info.tbl j ≠ N.name c := by
    intro same
    obtain ⟨d,working,owner⟩ := inv.owned j bound (same ▸ N.ne_nil c)
    rw [N.name_injective (owner.symm.trans same)] at working
    exact working idle
  have queues := ftok_same info.tbl i (N.path c)
  refine ⟨?_,?_,?_,?_,?_,?_,?_,few⟩
  · intro j bound
    by_cases same : j = i
    · exact same ▸ ended
    · exact (elsewhere j same).2.mpr (inv.ends j bound)
  · intro j bound full
    by_cases same : j = i
    · exact ⟨c,by simp,same ▸ named⟩
    · simp only [(elsewhere j same).1] at full ⊢
      obtain ⟨d,working,owner⟩ := inv.owned j bound full
      have other : d ≠ c := by rintro rfl; exact working idle
      exact ⟨d,by simpa [other] using working,owner⟩
  · intro d working
    by_cases same : d = c
    · exact ⟨i,inside,same ▸ named⟩
    · obtain ⟨j,bound,owner⟩ := inv.stored d (by simpa [same] using working)
      have other : j ≠ i := by
        rintro rfl
        exact N.ne_nil d (owner.symm.trans blank)
      exact ⟨j,bound,(elsewhere j other).1.trans owner⟩
  · intro j bound l bound' full same
    by_cases left : j = i <;> by_cases right : l = i
    · rw [left,right]
    · simp only [left,named,(elsewhere l right).1] at same
      exact absurd same.symm (absent l bound')
    · simp only [right,named,(elsewhere j left).1] at same
      exact absurd same (absent j bound)
    · simp only [(elsewhere j left).1,(elsewhere l right).1] at full same
      exact inv.once j bound l bound' full same
  · intro d key keyed
    by_cases same : d = c
    · subst same
      simpa using keyed.symm
    · exact inv.keyed d key (by simpa [same] using keyed)
  · intro d ret holds
    have other : d ≠ c := by
      rintro rfl
      simp at holds
    obtain ⟨j,bound,number,has⟩ := inv.held d ret (by simpa [other] using holds)
    exact ⟨j,bound,number,(hasKey_congr (queues j bound)).mpr has⟩
  · intro j k has
    obtain ⟨d,holds,share⟩ := inv.holder j k ((hasKey_congr (queues j has.1)).mp has)
    have other : d ≠ c := by
      rintro rfl
      simp [idle] at holds
    exact ⟨d,by simpa [other] using holds,share⟩

theorem conserved_get (inv : Conserved N info phase) (keyed : phase c = .keyed (N.key c)) {i : Nat} (inside : i < 12)
    (dead : ¬ Live info.tbl (msgQueTbl i)) :
    Conserved N { info with tbl := assignQueue info.tbl i (N.key c).toUInt32.toInt32 }
      (Function.update phase c (.holding (Int32.ofNat i))) := by
  have tokens (j : Nat) : nameAt (assignQueue info.tbl i (N.key c).toUInt32.toInt32) j = nameAt info.tbl j ∧
      (Terminated (assignQueue info.tbl i (N.key c).toUInt32.toInt32) j ↔ Terminated info.tbl j) :=
    assignQueue_name _ inside
  have given : HasKey (assignQueue info.tbl i (N.key c).toUInt32.toInt32) i (N.key c).toUInt32 := assignQueue_hasKey inside
  have busy (d : Client) : Function.update phase c (.holding (Int32.ofNat i)) d ≠ .idle ↔ phase d ≠ .idle := by
    by_cases same : d = c
    · subst same
      simp [keyed]
    · simp [same]
  refine ⟨?_,?_,?_,?_,?_,?_,?_,?_⟩
  · exact fun j bound => (tokens j).2.mpr (inv.ends j bound)
  · intro j bound full
    obtain ⟨d,working,owner⟩ := inv.owned j bound ((tokens j).1 ▸ full)
    exact ⟨d,(busy d).mpr working,(tokens j).1.trans owner⟩
  · intro d working
    obtain ⟨j,bound,owner⟩ := inv.stored d ((busy d).mp working)
    exact ⟨j,bound,(tokens j).1.trans owner⟩
  · intro j bound l bound' full same
    simp only [(tokens j).1,(tokens l).1] at full same
    exact inv.once j bound l bound' full same
  · intro d key keyed'
    have other : d ≠ c := by
      rintro rfl
      simp at keyed'
    exact inv.keyed d key (by simpa [other] using keyed')
  · intro d ret holds
    by_cases same : d = c
    · subst same
      simp only [Function.update_self,Phase.holding.injEq] at holds
      exact ⟨i,inside,holds.symm,given⟩
    · obtain ⟨j,bound,number,has⟩ := inv.held d ret (by simpa [same] using holds)
      have other : j ≠ i := by rintro rfl; exact dead has.2.1
      exact ⟨j,bound,number,(hasKey_congr (assignQueue_other other)).mpr has⟩
  · intro j k has
    by_cases same : j = i
    · subst same
      exact ⟨c,by simp,has.2.2.symm.trans given.2.2⟩
    · obtain ⟨d,holds,share⟩ := inv.holder j k ((hasKey_congr (assignQueue_other same)).mp has)
      have other : d ≠ c := by
        rintro rfl
        simp [keyed] at holds
      exact ⟨d,by simpa [other] using holds,share⟩
  · have same : active (Function.update phase c (.holding (Int32.ofNat i))) = active phase :=
      Set.ext fun d => busy d
    exact same ▸ inv.few

theorem conserved_rel (inv : Conserved N info phase) {i j : Nat} (inside : i < 12) (bound : j < 12)
    (holds : phase c = .holding (Int32.ofNat i)) (named : nameAt info.tbl j = N.name c) :
    Conserved N { info with tbl := store32 (store8 info.tbl (msgQueTokenStr j) 0) (msgQueTbl i) 0 }
      (Function.update phase c .idle) := by
  obtain ⟨keep,dead⟩ := released_spec info.tbl i j
  obtain ⟨blank,cleared⟩ : nameAt (store32 (store8 info.tbl (msgQueTokenStr j) 0) (msgQueTbl i) 0) j = [] ∧
      Terminated (store32 (store8 info.tbl (msgQueTokenStr j) 0) (msgQueTbl i) 0) j := cleared_name inside
  have elsewhere (l : Nat) (other : l ≠ j) :
      nameAt (store32 (store8 info.tbl (msgQueTokenStr j) 0) (msgQueTbl i) 0) l = nameAt info.tbl l ∧
        (Terminated (store32 (store8 info.tbl (msgQueTokenStr j) 0) (msgQueTbl i) 0) l ↔ Terminated info.tbl l) :=
    cleared_name_other inside other
  refine ⟨?_,?_,?_,?_,?_,?_,?_,?_⟩
  · intro l bound'
    by_cases same : l = j
    · exact same ▸ cleared
    · exact (elsewhere l same).2.mpr (inv.ends l bound')
  · intro l bound' full
    have other : l ≠ j := by rintro rfl; exact full blank
    simp only [(elsewhere l other).1] at full ⊢
    obtain ⟨d,working,owner⟩ := inv.owned l bound' full
    have apart : d ≠ c := by
      rintro rfl
      exact other (inv.once l bound' j bound full (owner.trans named.symm))
    exact ⟨d,by simpa [apart] using working,owner⟩
  · intro d working
    have apart : d ≠ c := by
      rintro rfl
      simp at working
    obtain ⟨l,bound',owner⟩ := inv.stored d (by simpa [apart] using working)
    have other : l ≠ j := by
      rintro rfl
      exact apart (N.name_injective (owner.symm.trans named))
    exact ⟨l,bound',(elsewhere l other).1.trans owner⟩
  · intro l bound' m bound'' full same
    have left : l ≠ j := by rintro rfl; exact full blank
    have right : m ≠ j := by rintro rfl; exact full (same.trans blank)
    simp only [(elsewhere l left).1,(elsewhere m right).1] at full same
    exact inv.once l bound' m bound'' full same
  · intro d key keyed
    have apart : d ≠ c := by
      rintro rfl
      simp at keyed
    exact inv.keyed d key (by simpa [apart] using keyed)
  · intro d ret holds'
    have apart : d ≠ c := by
      rintro rfl
      simp at holds'
    rw [Function.update_of_ne apart] at holds'
    obtain ⟨l,bound',number,has⟩ := inv.held d ret holds'
    have other : l ≠ i := by
      rintro rfl
      obtain ⟨_,bound'',same,mine⟩ := inv.held c _ holds
      obtain rfl := slotNumber_injective inside bound'' same
      exact apart (N.key_injective (has.2.2.symm.trans mine.2.2))
    exact ⟨l,bound',number,(hasKey_congr (keep l bound' other)).mpr has⟩
  · intro l k has
    have other : l ≠ i := by rintro rfl; exact dead has.2.1
    obtain ⟨d,holds',share⟩ := inv.holder l k ((hasKey_congr (keep l has.1 other)).mp has)
    have apart : d ≠ c := by
      rintro rfl
      rw [holds] at holds'
      exact other (slotNumber_injective has.1 inside (Phase.holding.inj holds').symm)
    exact ⟨d,by simpa [apart] using holds',share⟩
  · refine (Set.encard_le_encard fun d working => ?_).trans inv.few
    have apart : d ≠ c := by
      rintro rfl
      simp [active] at working
    simpa [active,apart] using working

/-! ### Results -/

/-- Every step keeps the tables tied to the clients, and its call succeeds. -/
theorem step_conserved {s s' : System Client} {e : ClientEvent Client} (same : s.g = some info)
    (inv : Conserved N info s.phase) (step : ClientStep N s e s') :
    ∃ info', s'.g = some info' ∧ Conserved N info' s'.phase ∧ Succeeds e := by
  obtain ⟨c,called,few⟩ := step
  rw [System.call,same] at called
  cases standing : s.phase c with
  | idle =>
    simp only [standing] at called
    rcases ftok_cases sign info (N.path c) with ⟨full,done⟩ | ⟨i,inside,empty,_,done⟩
    · rw [done] at called
      cases called
      obtain ⟨i,inside,empty⟩ := token_room inv standing (by simp) few
      exact absurd empty (full i inside)
    · rw [done,N.namehash_path] at called
      cases called
      exact ⟨_,rfl,conserved_ftok inv standing inside empty few,trivial⟩
  | keyed key =>
    obtain rfl := inv.keyed c key standing
    simp only [standing] at called
    rcases get_cases info (N.key c).toUInt32.toInt32 with ⟨⟨i,has⟩,_⟩ | ⟨_,full,_⟩ | ⟨i,_,inside,dead,_,done⟩
    · obtain ⟨d,holds,share⟩ := inv.holder i _ has
      obtain rfl := N.key_injective share
      rw [standing] at holds
      cases holds
    · obtain ⟨i,inside,dead⟩ := slot_room inv standing
      exact absurd (full i inside) dead
    · rw [done] at called
      cases called
      exact ⟨_,rfl,conserved_get inv standing inside dead,i,inside,rfl⟩
  | holding id =>
    obtain ⟨i,inside,rfl,has⟩ := inv.held c id standing
    simp only [standing] at called
    rcases rel_cases sign info (Int32.ofNat i).toUInt32 with ⟨none,_⟩ | ⟨_,_,none,_⟩ | ⟨token,_,_,found,done⟩
    · rw [slotNumber inside] at none
      exact absurd ⟨inside,has.2.1⟩ none
    · obtain ⟨j,bound,named⟩ := inv.stored c (by simp [standing])
      rw [slotNumber inside,has.2.2] at none
      refine absurd ?_ (getTokenByKey_none.mp none j bound)
      rw [tokenBytes_name bound (inv.ends j bound),named,Names.key]
    · rw [slotNumber inside] at found done
      obtain ⟨j,bound,rfl,hash,_⟩ := getTokenByKey_some.mp found
      rw [has.2.2,tokenBytes_name bound (inv.ends j bound),UInt16.toUInt32_inj] at hash
      -- the stored string is not empty, because no key is the hash of the empty string
      have full : nameAt info.tbl j ≠ [] := by
        intro empty
        rw [empty,namehash_nil] at hash
        exact N.keyed c hash.symm
      obtain ⟨d,_,owner⟩ := inv.owned j bound full
      have mine : d = c := N.distinct d c (owner ▸ hash)
      rw [done] at called
      cases called
      exact ⟨_,rfl,conserved_rel inv inside bound standing (mine ▸ owner),rfl⟩

/-- Clients that release what they obtain, at most twelve of them active at a
    time, never fail: every `get` returns a slot number, no two clients hold the
    same, every `rel` returns 0, and with all clients idle both tables are empty. -/
theorem clients_conserve_tables (N : Names Client sign) {g : Option IPC_MSQINFO} {es : List (ClientEvent Client)}
    {s : System Client} (started : Started g) (run : Run (ClientStep N) ⟨g,fun _ => .idle⟩ es s) :
    (∀ c ret, .get c ret ∈ es → ∃ i < 12, ret = Int32.ofNat i) ∧
      (∀ c d id, s.phase c = .holding id → s.phase d = .holding id → c = d) ∧
      (∀ c ret, .rel c ret ∈ es → ret = 0) ∧
      ((∀ c, s.phase c = .idle) → ∃ info, s.g = some info ∧
        ∀ i < 12, ¬ Live info.tbl (msgQueTbl i) ∧ info.tbl (msgQueTokenStr i) = 0) := by
  obtain ⟨⟨info,same,inv⟩,succeed⟩ := run.invariant
    (I := fun es s => (∃ info, s.g = some info ∧ Conserved N info s.phase) ∧ ∀ e ∈ es, Succeeds e)
    ⟨started_conserved N started,by simp⟩ (by
      rintro es s e s' _ ⟨⟨info,same,inv⟩,succeed⟩ step
      obtain ⟨info',same',inv',done⟩ := step_conserved same inv step
      refine ⟨⟨info',same',inv'⟩,fun e' listed => ?_⟩
      rcases List.mem_append.mp listed with before | last
      · exact succeed e' before
      · obtain rfl := List.mem_singleton.mp last
        exact done)
  refine ⟨fun c ret listed => succeed _ listed,?_,fun c ret listed => succeed _ listed,?_⟩
  · intro c d id first second
    obtain ⟨i,inside,rfl,has⟩ := inv.held c id first
    obtain ⟨j,inside',number,has'⟩ := inv.held d _ second
    obtain rfl := slotNumber_injective inside inside' number
    exact N.key_injective (has.2.2.symm.trans has'.2.2)
  · intro idle
    refine ⟨info,same,fun i inside => ⟨fun live => ?_,?_⟩⟩
    · obtain ⟨c,holds,_⟩ := inv.holder i _ ⟨inside,live,rfl⟩
      rw [idle] at holds
      cases holds
    · by_contra full
      obtain ⟨c,working,_⟩ := inv.owned i inside fun blank => full (nameAt_nil.mp blank)
      exact working (idle c)

/-- The clients of a list call in turn. -/
def System.schedule (N : Names Client sign) (s : System Client) (cs : List Client) : System Client :=
  cs.foldl (fun s c => (s.call N c).2) s

theorem schedule_run (few : ∀ S : Set Client, S.encard ≤ 12) (s : System Client) (cs : List Client) :
    ∃ es, Run (ClientStep N) s es (s.schedule N cs) := by
  induction cs generalizing s with
  | nil => exact ⟨[],.nil⟩
  | cons c rest ih =>
    obtain ⟨es,run⟩ := ih (s.call N c).2
    have first : ClientStep N s (s.call N c).1 (s.call N c).2 := ⟨c,rfl,few _⟩
    exact ⟨_,(Run.one first).append run⟩

end

/-- Two clients, named "a" and "b". -/
def twoNames : Names Bool .signed where
  name c := if c then [98] else [97]
  nonempty := by decide
  short := by decide
  nonzero c x listed := by
    cases c
    · obtain rfl : x = 97 := List.mem_singleton.mp listed
      decide
    · obtain rfl : x = 98 := List.mem_singleton.mp listed
      decide
  distinct := by decide
  keyed := by decide

/-- A round inside a round leaves both tables empty. -/
theorem clients_conserve_tables_nested :
    ∃ info, (System.schedule twoNames ⟨booted,fun _ => .idle⟩ [false,true,true,false,true,false]).g = some info ∧
      ∀ i < 12, ¬ Live info.tbl (msgQueTbl i) ∧ info.tbl (msgQueTokenStr i) = 0 := by
  have few (S : Set Bool) : S.encard ≤ 12 := Set.encard_le_card.trans (by simp; decide)
  obtain ⟨es,run⟩ := schedule_run (N := twoNames) few ⟨booted,fun _ => .idle⟩ [false,true,true,false,true,false]
  refine (clients_conserve_tables twoNames booted_started run).2.2.2 fun c => ?_
  cases c <;> rfl

end IpcMsq.Clients
