import IpcMsq.KeyMap
import IpcMsq.Device

/-!
The open files of the device and the queues they obtain. A GET looks the id up
and then records it in the file's bitmap, a REL releases the queue and then clears
the bit, and a close releases what is still recorded, slot by slot; between these
steps any other thread may run. The table does not say who obtained a queue, and a
REL asks only for an id.
-/
namespace IpcMsq.Files
open IpcMsq.Memory IpcMsq.Common IpcMsq.Table IpcMsq.Device IpcMsq.Runs IpcMsq.KeyMap

/-- An open file, or one in the loop of `ipc_release` at slot `i`. -/
inductive FileState
  | closed
  | opened (pdev : ipc_device)
  | closing (pdev : ipc_device) (i : Nat)

/-- Where a thread is in an ioctl: between the two steps of a GET or of a REL, or
    in the second `mutex_lock` of a REL. -/
inductive InIoctl (File : Type)
  | outside
  | getting (f : File) (key : UINT16) (msqid : INT32)
  | releasing (f : File) (msqid : UINT32)
  | stuck (f : File)

/-- The file of the ioctl. -/
def InIoctl.file {File : Type} : InIoctl File → Option File
  | .outside => none
  | .getting f _ _ => some f
  | .releasing f _ => some f
  | .stuck f => some f

/-- The driver with its files and the threads in their ioctls. -/
structure Driver (File Thread : Type) where
  info : IPC_MSQINFO
  file : File → FileState
  ioctl : Thread → InIoctl File
  /-- Whether `ipc_mutex` is held between two steps. -/
  ipc_mutex : Bool

inductive FileEvent (File Thread : Type)
  | ipc_open (f : File)
  | lookup (t : Thread) (f : File) (key : UINT16)
  | got (t : Thread) (f : File) (key : UINT16) (msqid : UINT32)
  | rel (t : Thread) (f : File) (msqid : UINT32) (ret : INT32)
  | cleared (t : Thread) (f : File) (msqid : UINT32)
  | close (f : File)
  | turn (f : File) (i : Nat)
  | closed (f : File)

/-- How the second `mutex_lock` of a REL is read. -/
inductive SecondCall
  | mutex_lock
  | mutex_unlock
deriving DecidableEq

variable {sign : CharSign} {second : SecondCall} {overshift : UINT32 → UINT32}
variable {File Thread : Type}

/-- A close waits for the ioctls on the file, as they hold a reference to it. -/
inductive FileStep [DecidableEq File] [DecidableEq Thread] (sign : CharSign) (second : SecondCall) (overshift : UINT32 → UINT32) :
    Driver File Thread → FileEvent File Thread → Driver File Thread → Prop
  | ipc_open {s : Driver File Thread} {f : File} : s.file f = .closed →
      FileStep sign second overshift s (.ipc_open f) { s with file := Function.update s.file f (.opened ⟨0⟩) }
  | lookup {s : Driver File Thread} {t : Thread} {f : File} {pdev : ipc_device} {key : UINT16} {msqid : INT32} :
      s.ioctl t = .outside → s.file f = .opened pdev →
      ipc_msgque_getIDbyKey (some s.info) key.toUInt32.toInt32 = msqid →
      FileStep sign second overshift s (.lookup t f key) { s with
        ioctl := Function.update s.ioctl t (if 0 ≤ msqid then .getting f key msqid else .outside) }
  | got {s : Driver File Thread} {t : Thread} {f : File} {pdev : ipc_device} {key : UINT16} {msqid : INT32} :
      s.ioctl t = .getting f key msqid → s.file f = .opened pdev → s.ipc_mutex = false →
      FileStep sign second overshift s (.got t f key msqid.toUInt32) { s with
        file := Function.update s.file f (.opened (pdev.store overshift msqid.toUInt32)),
        ioctl := Function.update s.ioctl t .outside }
  | rel {s : Driver File Thread} {t : Thread} {f : File} {pdev : ipc_device} {msqid : UINT32} {ret : INT32}
      {info : IPC_MSQINFO} :
      s.ioctl t = .outside → s.file f = .opened pdev → ipc_msgque_rel sign (some s.info) msqid = (ret,some info) →
      FileStep sign second overshift s (.rel t f msqid ret) { s with
        info := info, ioctl := Function.update s.ioctl t (.releasing f msqid) }
  | cleared {s : Driver File Thread} {t : Thread} {f : File} {pdev : ipc_device} {msqid : UINT32} :
      s.ioctl t = .releasing f msqid → s.file f = .opened pdev → s.ipc_mutex = false →
      FileStep sign second overshift s (.cleared t f msqid) { s with
        file := Function.update s.file f (.opened (pdev.clear overshift msqid)),
        ioctl := Function.update s.ioctl t (if second = .mutex_lock then .stuck f else .outside),
        ipc_mutex := second = .mutex_lock }
  | close {s : Driver File Thread} {f : File} {pdev : ipc_device} :
      s.file f = .opened pdev → (∀ t, (s.ioctl t).file ≠ some f) →
      FileStep sign second overshift s (.close f) { s with file := Function.update s.file f (.closing pdev 0) }
  | turn {s : Driver File Thread} {f : File} {pdev : ipc_device} {i : Nat} {info : IPC_MSQINFO} :
      s.file f = .closing pdev i → i < 12 →
      (if pdev.stored i then ∃ ret, ipc_msgque_rel sign (some s.info) (UInt32.ofNat i) = (ret,some info)
       else info = s.info) →
      FileStep sign second overshift s (.turn f i) { s with
        info := info, file := Function.update s.file f (.closing pdev (i + 1)) }
  | closed {s : Driver File Thread} {f : File} {pdev : ipc_device} : s.file f = .closing pdev 12 →
      FileStep sign second overshift s (.closed f) { s with file := Function.update s.file f .closed }

/-! ### Who holds a queue -/

/-- The driver, and the keys under which each file obtained ids by GET that it did
    not release by REL. A GET whose answer cannot be copied to the user has
    obtained the id all the same, as its bit is set. -/
structure Owned (File Thread : Type) extends Driver File Thread where
  holds : File → Nat → Option UINT32

def setHold [DecidableEq File] (holds : File → Nat → Option UINT32) (f : File) (i : Nat) (key : Option UINT32) : File → Nat → Option UINT32 :=
  Function.update holds f (Function.update (holds f) i key)

/-- What a step of the files means for the ids that they hold. -/
def record [DecidableEq File] (holds : File → Nat → Option UINT32) : FileEvent File Thread → File → Nat → Option UINT32
  | .got _ f key msqid => setHold holds f msqid.toNat (some key.toUInt32)
  | .rel _ f msqid ret => if ret = 0 then setHold holds f msqid.toNat none else holds
  | .turn f i => setHold holds f i none
  | _ => holds

inductive OwnedEvent (File Thread : Type)
  | file (e : FileEvent File Thread)
  | table (e : TableEvent)

/-- A step of the files, or a call on the table that is no release. -/
inductive OwnedStep [DecidableEq File] [DecidableEq Thread] (sign : CharSign) (second : SecondCall) (overshift : UINT32 → UINT32) :
    Owned File Thread → OwnedEvent File Thread → Owned File Thread → Prop
  | file {s : Owned File Thread} {d : Driver File Thread} {e : FileEvent File Thread} :
      FileStep sign second overshift s.toDriver e d →
      OwnedStep sign second overshift s (.file e) ⟨d,record s.holds e⟩
  | table {s : Owned File Thread} {e : TableEvent} {info : IPC_MSQINFO} :
      TableStep sign (some s.info) e (some info) → (∀ id ret, e ≠ .rel id ret) →
      OwnedStep sign second overshift s (.table e) { s with info := info }

/-- Every id that a file holds is of a queue with the key it was obtained for. -/
def Kept (tbl : Mem) (holds : File → Nat → Option UINT32) : Prop := ∀ f i k, holds f i = some k → HasKey tbl i k

/-- A release by a file takes no queue from another: no token lets the queue go, or
    no other file holds it. -/
def Yields (sign : CharSign) (s : Owned File Thread) (f : File) (i : Nat) : Prop :=
  ipc_msgque_getTokenByKey sign (some s.info) (sharekey s.info.tbl (msgQueTbl i)) = none ∨
    ∀ f', f' ≠ f → s.holds f' i = none

/-- The queue that a GET looked up is still there under its key when the bit is
    set; a REL, and a close where the bit is set, take no queue from another file. -/
def InOrder (sign : CharSign) (s : Owned File Thread) : OwnedEvent File Thread → Prop
  | .file (.got _ _ key msqid) => HasKey s.info.tbl msqid.toNat key.toUInt32
  | .file (.rel _ f msqid _) => Yields sign s f msqid.toNat
  | .file (.turn f i) => ∀ pdev, s.file f = .closing pdev i → pdev.stored i = true → Yields sign s f i
  | _ => True

/-! ### What the bitmaps record -/

/-- The bits that a close will find set. -/
def FileState.recorded : FileState → Nat → Bool
  | .closed,_ => false
  | .opened pdev,i => pdev.stored i
  | .closing pdev n,i => n ≤ i && pdev.stored i

/-- The file holds the id, or a REL has released it and not cleared its bit yet. -/
def Accounted (s : Owned File Thread) (f : File) (i : Nat) : Prop :=
  (∃ k, s.holds f i = some k) ∨ ∃ t msqid, s.ioctl t = .releasing f msqid ∧ msqid.toNat = i

/-- An ioctl in progress keeps its file open, and every bit that is set is accounted for. -/
structure Tracked (s : Owned File Thread) : Prop where
  inside : ∀ t f, (s.ioctl t).file = some f → ∃ pdev, s.file f = .opened pdev
  recorded : ∀ f i, i < 12 → (s.file f).recorded i = true → Accounted s f i

@[simp] theorem recorded_opened (pdev : ipc_device) (i : Nat) : (FileState.opened pdev).recorded i = pdev.stored i := rfl

@[simp] theorem recorded_closing (pdev : ipc_device) (n i : Nat) :
    (FileState.closing pdev n).recorded i = true ↔ n ≤ i ∧ pdev.stored i = true := by simp [FileState.recorded]

section
variable {s : Owned File Thread} {f : File} {pdev : ipc_device} {i : Nat}

/-- No ioctl is in progress on a file that is being closed. -/
theorem closing_quiet (inv : Tracked s) (at_i : s.file f = .closing pdev i) (t : Thread) : (s.ioctl t).file ≠ some f := by
  intro busy
  obtain ⟨_,opened⟩ := inv.inside t f busy
  cases at_i.symm.trans opened

/-- A close at a slot whose bit is set holds the queue that it is about to release. -/
theorem tracked_closing (inv : Tracked s) (at_i : s.file f = .closing pdev i) (inside : i < 12) (set : pdev.stored i = true) :
    ∃ k, s.holds f i = some k := by
  have recorded : (s.file f).recorded i = true := by
    rw [at_i,recorded_closing]
    exact ⟨le_rfl,set⟩
  rcases inv.recorded f i inside recorded with held | ⟨t,msqid,releasing,_⟩
  · exact held
  · exact absurd (by rw [releasing]; rfl) (closing_quiet inv at_i t)

end

/-! ### What a step does -/

/-- A call on the table that is no release leaves every queue that is there. -/
theorem kept_table {info info' : IPC_MSQINFO} {holds : File → Nat → Option UINT32} {e : TableEvent}
    (kept : Kept info.tbl holds) (step : TableStep sign (some info) e (some info')) (noRel : ∀ id ret, e ≠ .rel id ret) :
    Kept info'.tbl holds := by
  intro f j k held
  have has := kept f j k held
  rcases step_keeps step has.1 has.2.1 with same | ⟨id,ret,released,_⟩
  · exact (hasKey_congr same).mpr has
  · exact absurd released (noRel id ret)

section
variable [DecidableEq File] {holds : File → Nat → Option UINT32} {f f' : File} {i j : Nat} {key : Option UINT32}

@[simp] theorem setHold_same : setHold holds f i key f i = key := by simp [setHold]

theorem setHold_slot (other : j ≠ i) : setHold holds f i key f' j = holds f' j := by
  by_cases same : f' = f
  · subst same
    simp [setHold,Function.update_of_ne other]
  · simp [setHold,Function.update_of_ne same]

theorem setHold_file (other : f' ≠ f) : setHold holds f i key f' j = holds f' j := by
  simp [setHold,Function.update_of_ne other]

/-- What is held after an id was given up was held before. -/
theorem held_before {k : UINT32} (held : setHold holds f i none f' j = some k) :
    holds f' j = some k ∧ (j ≠ i ∨ f' ≠ f) := by
  by_cases slot : j = i
  · by_cases file : f' = f
    · subst slot file
      simp at held
    · rw [setHold_file file] at held
      exact ⟨held,.inr file⟩
  · rw [setHold_slot slot] at held
    exact ⟨held,.inl slot⟩

/-- After an id was obtained every held id is of its queue exactly if the new one is. -/
theorem kept_got {tbl : Mem} {k : UINT32} (kept : Kept tbl holds) : Kept tbl (setHold holds f i (some k)) ↔ HasKey tbl i k := by
  constructor
  · exact fun after => after f i k setHold_same
  · intro has f' j k' held
    by_cases slot : j = i
    · by_cases file : f' = f
      · subst slot file
        rw [setHold_same] at held
        cases held
        exact has
      · rw [setHold_file file] at held
        exact kept f' j k' held
    · rw [setHold_slot slot] at held
      exact kept f' j k' held

/-- A release by a file keeps the others' ids exactly if it takes no queue from them. -/
theorem kept_rel {s : Owned File Thread} {f : File} {msqid : UINT32} {ret : INT32} {info : IPC_MSQINFO}
    {holds : File → Nat → Option UINT32} (kept : Kept s.info.tbl s.holds)
    (called : ipc_msgque_rel sign (some s.info) msqid = (ret,some info))
    (after : holds = setHold s.holds f msqid.toNat none ∨ ret ≠ 0 ∧ holds = s.holds) :
    Kept info.tbl holds ↔ Yields sign s f msqid.toNat := by
  obtain ⟨_,⟨⟩,⟨_,rfl,none⟩ | ⟨ok,stored,dead,keep⟩⟩ := rel_effect called
  · refine iff_of_true ?_ ?_
    · rcases after with rfl | ⟨_,rfl⟩
      · exact fun f' i k held => kept f' i k (held_before held).1
      · exact kept
    · rcases none with absent | tokenless
      · refine .inr fun f' _ => Option.eq_none_iff_forall_ne_some.mpr fun k held => absent ?_
        obtain ⟨inside,live,_⟩ := kept f' _ k held
        exact ⟨inside,live⟩
      · exact .inl tokenless
  · obtain rfl := after.resolve_right fun failed => failed.1 ok
    constructor
    · intro still
      refine .inr fun f' other => Option.eq_none_iff_forall_ne_some.mpr fun k held => dead ?_
      exact (still f' msqid.toNat k ((setHold_file other).trans held)).2.1
    · intro yields f' i k held
      obtain ⟨before,apart⟩ := held_before held
      have other : i ≠ msqid.toNat := by
        rintro rfl
        rw [yields.resolve_left stored f' (apart.resolve_left (not_not.mpr rfl))] at before
        cases before
      have has := kept f' i k before
      exact (hasKey_congr (keep i has.1 other)).mpr has

/-- A step of one file, by what it does to that file and to no other. -/
theorem tracked_file {s s' : Owned File Thread} (inv : Tracked s) (f : File)
    (files : ∀ g, g ≠ f → s'.file g = s.file g ∧ s'.holds g = s.holds g)
    (foreign : ∀ t g, g ≠ f → (s'.ioctl t).file = some g ∨ (s.ioctl t).file = some g → s'.ioctl t = s.ioctl t)
    (inside : ∀ t, (s'.ioctl t).file = some f → ∃ pdev, s'.file f = .opened pdev)
    (recorded : ∀ i, i < 12 → (s'.file f).recorded i = true → Accounted s' f i) : Tracked s' where
  inside t g busy := by
    by_cases own : g = f
    · subst own
      exact inside t busy
    · rw [(files g own).1]
      rw [foreign t g own (.inl busy)] at busy
      exact inv.inside t g busy
  recorded g i bound set := by
    by_cases own : g = f
    · subst own
      exact recorded i bound set
    · rw [(files g own).1] at set
      rw [Accounted,(files g own).2]
      refine (inv.recorded g i bound set).imp_right ?_
      rintro ⟨t,msqid,releasing,slot⟩
      exact ⟨t,msqid,(foreign t g own (.inr (by rw [releasing]; rfl))).trans releasing,slot⟩

/-- A close leaves the bits of the slots that it has passed. -/
theorem tracked_turn {s : Owned File Thread} (inv : Tracked s) {pdev : ipc_device} {info : IPC_MSQINFO} (at_i : s.file f = .closing pdev i) :
    Tracked { s with
      info := info,
      file := Function.update s.file f (.closing pdev (i + 1)),
      holds := setHold s.holds f i none } := by
  refine tracked_file inv f (fun g other => ⟨Function.update_of_ne other ..,Function.update_of_ne other ..⟩)
    (fun _ _ _ _ => rfl) ?_ ?_
  · exact fun t busy => absurd busy (closing_quiet inv at_i t)
  · intro j bound set
    simp only [Function.update_self,recorded_closing] at set
    have before : (s.file f).recorded j = true := by
      rw [at_i,recorded_closing]
      exact ⟨by omega,set.2⟩
    have other : j ≠ i := by omega
    simp only [Accounted,setHold_slot other]
    exact inv.recorded f j bound before

end

section
variable [DecidableEq Thread]

/-- A thread that enters or leaves an ioctl of a file is in no other. -/
theorem foreign_update {ioctl : Thread → InIoctl File} {t : Thread} {now : InIoctl File} {f : File}
    (before : (ioctl t).file = none ∨ (ioctl t).file = some f) (after : now.file = none ∨ now.file = some f)
    (t' : Thread) (g : File) (other : g ≠ f)
    (busy : (Function.update ioctl t now t').file = some g ∨ (ioctl t').file = some g) :
    Function.update ioctl t now t' = ioctl t' := by
  by_cases same : t' = t
  · subst same
    rw [Function.update_self] at busy
    rcases busy with busy | busy
    · rcases after with none | own
      · cases none.symm.trans busy
      · cases own.symm.trans busy
        exact absurd rfl other
    · rcases before with none | own
      · cases none.symm.trans busy
      · cases own.symm.trans busy
        exact absurd rfl other
  · rw [Function.update_of_ne same]

/-- What accounts for a bit still does after another thread's step. -/
theorem accounted_update {s : Owned File Thread} {f : File} {i : Nat} {t : Thread} (acc : Accounted s f i)
    (apart : ∀ msqid, s.ioctl t = .releasing f msqid → msqid.toNat ≠ i) (now : InIoctl File) :
    (∃ k, s.holds f i = some k) ∨ ∃ t' msqid, Function.update s.ioctl t now t' = .releasing f msqid ∧ msqid.toNat = i := by
  refine acc.imp_right ?_
  rintro ⟨t',msqid,releasing,slot⟩
  have other : t' ≠ t := by
    rintro rfl
    exact apart msqid releasing slot
  exact ⟨t',msqid,by rw [Function.update_of_ne other,releasing],slot⟩

end

variable [DecidableEq File] [DecidableEq Thread]

/-- From a state where every held id is of its queue a step leads to such a state
    exactly if it is in order. -/
theorem kept_step {s s' : Owned File Thread} {e : OwnedEvent File Thread} (kept : Kept s.info.tbl s.holds)
    (step : OwnedStep sign second overshift s e s') : Kept s'.info.tbl s'.holds ↔ InOrder sign s e := by
  cases step with
  | table called noRel => exact iff_of_true (kept_table kept called noRel) trivial
  | file step =>
    cases step with
    | ipc_open | lookup | cleared | close | closed => exact iff_of_true kept trivial
    | got => exact kept_got kept
    | @rel t f pdev msqid ret info _ _ called =>
      refine kept_rel kept called ?_
      by_cases ok : ret = 0
      · exact .inl (if_pos ok)
      · exact .inr ⟨ok,if_neg ok⟩
    | @turn f pdev i info at_i inside called =>
      have slot := slotNumber_unsigned inside
      by_cases set : pdev.stored i = true
      · rw [if_pos set] at called
        obtain ⟨ret,called⟩ := called
        have exact := kept_rel (f := f) kept called (.inl rfl)
        rw [slot] at exact
        refine exact.trans ⟨fun yields pdev' at_i' _ => yields,fun order => order pdev at_i set⟩
      · rw [if_neg set] at called
        subst called
        refine iff_of_true (fun f' j k held => kept f' j k (held_before held).1) ?_
        intro pdev' at_i' set'
        cases at_i.symm.trans at_i'
        exact absurd set' set

section
variable {s : Owned File Thread} {t : Thread} {f : File} {pdev : ipc_device}

/-- The bit that a GET sets is of the id it has just obtained. -/
theorem tracked_got (inv : Tracked s) {key : UINT16} {msqid : INT32} (busy : s.ioctl t = .getting f key msqid)
    (opened : s.file f = .opened pdev) (has : HasKey s.info.tbl msqid.toUInt32.toNat key.toUInt32) :
    Tracked { s with
      file := Function.update s.file f (.opened (pdev.store overshift msqid.toUInt32)),
      ioctl := Function.update s.ioctl t .outside,
      holds := setHold s.holds f msqid.toUInt32.toNat (some key.toUInt32) } := by
  have inside := has.1
  refine tracked_file inv f (fun g other => ⟨Function.update_of_ne other ..,Function.update_of_ne other ..⟩)
    (foreign_update (.inr (by rw [busy]; rfl)) (.inl rfl)) ?_ ?_
  · exact fun t busy => ⟨_,Function.update_self ..⟩
  · intro i bound set
    simp only [Function.update_self,recorded_opened] at set
    rw [stored_store (by omega) (by omega),Bool.or_eq_true,decide_eq_true_eq] at set
    by_cases own : msqid.toUInt32.toNat = i
    · subst own
      exact .inl ⟨_,setHold_same⟩
    · have before : (s.file f).recorded i = true := by
        rw [opened]
        exact set.resolve_right own
      simp only [Accounted,setHold_slot (Ne.symm own)]
      exact accounted_update (inv.recorded f i bound before) (by simp [busy]) _

/-- The bit of an id that a REL gave up waits for the REL to clear it. -/
theorem tracked_rel (inv : Tracked s) {msqid : UINT32} {info : IPC_MSQINFO} {holds : File → Nat → Option UINT32}
    (free : s.ioctl t = .outside) (opened : s.file f = .opened pdev)
    (given : holds = setHold s.holds f msqid.toNat none ∨ holds = s.holds) :
    Tracked { s with info := info, ioctl := Function.update s.ioctl t (.releasing f msqid), holds := holds } := by
  have others (g : File) (other : g ≠ f) : holds g = s.holds g := by
    rcases given with rfl | rfl
    · exact Function.update_of_ne other ..
    · rfl
  refine tracked_file inv f (fun g other => ⟨rfl,others g other⟩) (foreign_update (.inl (by rw [free]; rfl)) (.inr rfl)) ?_ ?_
  · exact fun t busy => ⟨pdev,opened⟩
  · intro i bound set
    by_cases own : msqid.toNat = i
    · exact .inr ⟨t,msqid,Function.update_self ..,own⟩
    · have same : holds f i = s.holds f i := by
        rcases given with rfl | rfl
        · exact setHold_slot (Ne.symm own)
        · rfl
      simp only [Accounted,same]
      exact accounted_update (inv.recorded f i bound set) (by simp [free]) _

/-- The bit that a REL clears is of the id it gave up. -/
theorem tracked_cleared (inv : Tracked s) {msqid : UINT32} {now : InIoctl File} {ipc_mutex : Bool}
    (busy : s.ioctl t = .releasing f msqid) (opened : s.file f = .opened pdev) (after : now.file = none ∨ now.file = some f) :
    Tracked { s with
      file := Function.update s.file f (.opened (pdev.clear overshift msqid)),
      ioctl := Function.update s.ioctl t now,
      ipc_mutex := ipc_mutex } := by
  refine tracked_file inv f (fun g other => ⟨Function.update_of_ne other ..,rfl⟩)
    (foreign_update (.inr (by rw [busy]; rfl)) after) ?_ ?_
  · exact fun t busy => ⟨_,Function.update_self ..⟩
  · intro i bound set
    simp only [Function.update_self,recorded_opened] at set
    obtain ⟨set,other⟩ := stored_clear (by omega) set
    have before : (s.file f).recorded i = true := by
      rw [opened]
      exact set
    refine accounted_update (inv.recorded f i bound before) ?_ _
    intro msqid' busy'
    cases busy.symm.trans busy'
    exact other

end

theorem tracked_step {s s' : Owned File Thread} {e : OwnedEvent File Thread} (inv : Tracked s)
    (step : OwnedStep sign second overshift s e s') (order : InOrder sign s e) : Tracked s' := by
  cases step with
  | table => exact { inside := inv.inside, recorded := inv.recorded }
  | file step =>
    cases step with
    | @ipc_open f _ =>
      refine tracked_file inv f (fun g other => ⟨Function.update_of_ne other ..,rfl⟩) (fun _ _ _ _ => rfl) ?_ ?_
      · exact fun t busy => ⟨_,Function.update_self ..⟩
      · intro i bound set
        simp [ipc_device.stored] at set
    | @lookup t f pdev key msqid free opened _ =>
      refine tracked_file inv f (fun g _ => ⟨rfl,rfl⟩) (foreign_update (.inl (by rw [free]; rfl)) ?_) ?_ ?_
      · split
        · exact .inr rfl
        · exact .inl rfl
      · exact fun t busy => ⟨pdev,opened⟩
      · intro i bound set
        exact accounted_update (inv.recorded f i bound set) (by simp [free]) _
    | got busy opened _ => exact tracked_got inv busy opened order
    | rel free opened _ =>
      refine tracked_rel inv free opened ?_
      simp only [record]
      split
      · exact .inl rfl
      · exact .inr rfl
    | cleared busy opened _ =>
      refine tracked_cleared inv busy opened ?_
      split
      · exact .inr rfl
      · exact .inl rfl
    | @close f pdev opened quiet =>
      refine tracked_file inv f (fun g other => ⟨Function.update_of_ne other ..,rfl⟩) (fun _ _ _ _ => rfl) ?_ ?_
      · exact fun t busy => absurd busy (quiet t)
      · intro i bound set
        simp only [Function.update_self,recorded_closing] at set
        refine inv.recorded f i bound ?_
        rw [opened]
        exact set.2
    | turn at_i _ _ => exact tracked_turn inv at_i
    | @closed f pdev at_end =>
      refine tracked_file inv f (fun g other => ⟨Function.update_of_ne other ..,rfl⟩) (fun _ _ _ _ => rfl) ?_ ?_
      · exact fun t busy => absurd busy (closing_quiet inv at_end t)
      · intro i bound set
        simp [FileState.recorded] at set

/-- A GET of a queue that is there, if nothing disturbs it, does in two steps what the ioctl does. -/
theorem undisturbed_get {s : Owned File Thread} {t : Thread} {f : File} {pdev : ipc_device} {msg : IPC_IOC_MSGQUE_GET}
    {msqid : INT32} (free : s.ioctl t = .outside) (opened : s.file f = .opened pdev) (unlocked : s.ipc_mutex = false)
    (found : ipc_msgque_getIDbyKey (some s.info) msg.keyArg = msqid) (valid : 0 ≤ msqid)
    (has : HasKey s.info.tbl msqid.toUInt32.toNat msg.key.toUInt32) (noReturn : INT32) :
    ioctl_MSGQUE_GET overshift (some s.info) (some pdev) msg true true noReturn =
        (noReturn,some (pdev.store overshift msqid.toUInt32),{ msg with rtn := msqid }) ∧
      Run (Guarded (OwnedStep sign second overshift) (InOrder sign)) s
        [.file (.lookup t f msg.key),.file (.got t f msg.key msqid.toUInt32)] { s with
        file := Function.update s.file f (.opened (pdev.store overshift msqid.toUInt32)),
        holds := setHold s.holds f msqid.toUInt32.toNat (some msg.key.toUInt32) } := by
  refine ⟨by simp [ioctl_MSGQUE_GET,found,valid],?_⟩
  have lookup : FileStep sign second overshift s.toDriver (.lookup t f msg.key) { s.toDriver with
      ioctl := Function.update s.ioctl t (if 0 ≤ msqid then .getting f msg.key msqid else .outside) } :=
    .lookup free opened found
  rw [if_pos valid] at lookup
  have first : OwnedStep sign second overshift s (.file (.lookup t f msg.key)) { s with
      ioctl := Function.update s.ioctl t (.getting f msg.key msqid) } := .file lookup
  have got : OwnedStep sign second overshift { s with ioctl := Function.update s.ioctl t (.getting f msg.key msqid) }
      (.file (.got t f msg.key msqid.toUInt32)) { s with
        file := Function.update s.file f (.opened (pdev.store overshift msqid.toUInt32)),
        ioctl := Function.update (Function.update s.ioctl t (.getting f msg.key msqid)) t .outside,
        holds := setHold s.holds f msqid.toUInt32.toNat (some msg.key.toUInt32) } :=
    .file (.got (Function.update_self ..) opened unlocked)
  rw [Function.update_idem,← free,Function.update_eq_self] at got
  exact (Run.one ⟨first,trivial⟩).snoc ⟨got,has⟩

/-! ### Results -/

/-- A driver whose files are all closed. -/
structure Fresh (s : Owned File Thread) : Prop where
  closed : ∀ f, s.file f = .closed
  outside : ∀ t, s.ioctl t = .outside
  free : s.ipc_mutex = false
  none : ∀ f i, s.holds f i = Option.none

/-- For every table, any files and threads, and either reading of a REL: in all
    states of a run the files keep what they obtained exactly if every step is in
    order, and then a close releases only what its file holds. -/
theorem files_keep_iff {start s : Owned File Thread} {es : List (OwnedEvent File Thread)} (fresh : Fresh start) :
    (Run (Into (OwnedStep sign second overshift) fun s => Kept s.info.tbl s.holds) start es s ↔
      Run (Guarded (OwnedStep sign second overshift) (InOrder sign)) start es s) ∧
    (Run (Guarded (OwnedStep sign second overshift) (InOrder sign)) start es s → Kept s.info.tbl s.holds ∧
      ∀ f pdev i, s.file f = .closing pdev i → i < 12 → pdev.stored i = true →
        ∃ k, s.holds f i = some k ∧ HasKey s.info.tbl i k) := by
  have begun : Kept start.info.tbl start.holds ∧ Tracked start := by
    constructor
    · intro f i k held
      cases (fresh.none f i).symm.trans held
    · constructor
      · intro t f busy
        rw [fresh.outside] at busy
        cases busy
      · intro f i _ set
        rw [fresh.closed] at set
        cases set
  have keep (t : Owned File Thread) (e : OwnedEvent File Thread) (u : Owned File Thread)
      (inv : Kept t.info.tbl t.holds ∧ Tracked t) (step : OwnedStep sign second overshift t e u) (order : InOrder sign t e) :
      Kept u.info.tbl u.holds ∧ Tracked u := ⟨(kept_step inv.1 step).mpr order,tracked_step inv.2 step order⟩
  refine ⟨Run.guarded_iff (I := fun t => Kept t.info.tbl t.holds ∧ Tracked t) begun
    (fun t e u inv step => kept_step inv.1 step) keep,fun run => ?_⟩
  obtain ⟨kept,tracked⟩ : Kept s.info.tbl s.holds ∧ Tracked s :=
    run.preserves (I := fun t => Kept t.info.tbl t.holds ∧ Tracked t) begun
      fun t e u inv next => keep t e u inv next.1 next.2
  refine ⟨kept,fun f pdev i at_i inside set => ?_⟩
  obtain ⟨k,held⟩ := tracked_closing tracked at_i inside set
  exact ⟨k,held,kept f i k held⟩

/-- The device with a queue of the key 97 and no open file. -/
def unopened : Owned Bool Bool where
  info := namedQueue
  file _ := .closed
  ioctl _ := .outside
  ipc_mutex := false
  holds _ _ := none

/-- One file is open. -/
def oneOpen : Owned Bool Bool := { unopened with file := Function.update unopened.file true (.opened ⟨0⟩) }

theorem unopened_fresh : Fresh unopened := ⟨fun _ => rfl,fun _ => rfl,rfl,fun _ _ => rfl⟩

theorem namedQueue_has : HasKey namedQueue.tbl 0 97 := ⟨by decide,by decide +kernel,by decide +kernel⟩

theorem namedQueue_found : ipc_msgque_getIDbyKey (some namedQueue) 97 = 0 := by decide +kernel

/-- The file has obtained the queue. -/
def oneHolds : Owned Bool Bool where
  info := namedQueue
  file := Function.update oneOpen.file true (.opened ((ipc_device.mk 0).store (fun _ => 0) 0))
  ioctl _ := .outside
  ipc_mutex := false
  holds := setHold oneOpen.holds true 0 (some 97)

theorem oneHolds_reached : ∃ es,
    Run (Guarded (OwnedStep .signed .mutex_unlock fun _ => 0) (InOrder .signed)) unopened es oneHolds := by
  have opened : OwnedStep .signed .mutex_unlock (fun _ => 0) unopened (.file (.ipc_open true)) oneOpen :=
    .file (.ipc_open rfl)
  have found : ipc_msgque_getIDbyKey (some oneOpen.info) (IPC_IOC_MSGQUE_GET.keyArg ⟨97,0⟩) = 0 := namedQueue_found
  have run : Run (Guarded (OwnedStep .signed .mutex_unlock fun _ => 0) (InOrder .signed)) oneOpen _ oneHolds :=
    (undisturbed_get (t := true) (f := true) rfl rfl rfl found (by decide) namedQueue_has 0).2
  exact ⟨_,(Run.one ⟨opened,trivial⟩).append run⟩

/-- A close that starts at a queue its file obtained. -/
theorem files_keep_iff_close : ∃ (s : Owned Bool Bool) (pdev : ipc_device), s.file true = .closing pdev 0 ∧
    pdev.stored 0 = true ∧ ∃ k, s.holds true 0 = some k ∧ HasKey s.info.tbl 0 k := by
  obtain ⟨es,run⟩ := oneHolds_reached
  have held : oneHolds.file true = .opened ((ipc_device.mk 0).store (fun _ => 0) 0) := rfl
  have close : OwnedStep .signed .mutex_unlock (fun _ => 0) oneHolds (.file (.close true)) _ :=
    .file (.close held fun t => by simp [oneHolds,InIoctl.file])
  have set : ((ipc_device.mk 0).store (fun _ => 0) 0).stored 0 = true := by decide
  exact ⟨_,_,rfl,set,((files_keep_iff unopened_fresh).2 (run.snoc ⟨close,trivial⟩)).2 true _ 0 rfl (by decide) set⟩

/-- Another file releases a queue that a file obtained and did not release. -/
theorem queue_taken : Reachable .signed (some unopened.info) ∧ ∃ es s, Run (OwnedStep .signed .mutex_unlock fun _ => 0) unopened es s ∧
    (∃ pdev, s.file true = .opened pdev) ∧ s.holds true 0 = some 97 ∧ ¬ HasKey s.info.tbl 0 97 := by
  obtain ⟨es,run⟩ := oneHolds_reached
  obtain ⟨info,released⟩ : ∃ info, ipc_msgque_rel .signed (some namedQueue) 0 = (0,some info) := by
    have returns : (ipc_msgque_rel .signed (some namedQueue) 0).1 = 0 := by decide +kernel
    have table : (ipc_msgque_rel .signed (some namedQueue) 0).2.isSome := by decide +kernel
    exact ⟨_,Prod.ext returns (Option.some_get table).symm⟩
  let bothOpen : Owned Bool Bool := { oneHolds with file := Function.update oneHolds.file false (.opened ⟨0⟩) }
  have opened : OwnedStep .signed .mutex_unlock (fun _ => 0) oneHolds (.file (.ipc_open false)) bothOpen := .file (.ipc_open rfl)
  have other : bothOpen.file false = .opened ⟨0⟩ := rfl
  have rel : OwnedStep .signed .mutex_unlock (fun _ => 0) bothOpen (.file (.rel false false 0 0)) _ :=
    .file (.rel rfl other released)
  refine ⟨namedQueue_reachable,_,_,((run.mono fun _ _ _ step => step.1).snoc opened).snoc rel,⟨_,rfl⟩,rfl,fun has => ?_⟩
  obtain ⟨_,⟨⟩,⟨refused,_⟩ | ⟨_,_,dead,_⟩⟩ := rel_effect released
  · exact refused rfl
  · exact dead has.2.1

end IpcMsq.Files
