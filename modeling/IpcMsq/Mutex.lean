import IpcMsq.Entries

/-!
The mutex of the ioctls. A GET takes it to set its bit; a REL takes it to clear its bit
and then, as the source has it, takes it again. So the first REL that gets there stops
all ioctls that are after the mutex or come to it later, and the files of these can
never be closed.
-/
namespace IpcMsq.Mutex
open IpcMsq.Common IpcMsq.Table IpcMsq.Runs IpcMsq.Device IpcMsq.Entries
open IpcMsq.Files (Driver FileEvent FileState FileStep InIoctl SecondCall)

variable {sign : CharSign} {second : SecondCall} {overshift : UINT32 → UINT32}
variable {File Thread : Type}

/-- A REL that is past its first call for the mutex. -/
def PastMutex : DriverEvent File Thread → Prop
  | .file (.cleared _ _ _) => True
  | _ => False

/-- A GET or a REL that gets past the mutex. -/
def Passes : DriverEvent File Thread → Prop
  | .file (.got _ _ _ _) => True
  | .file (.cleared _ _ _) => True
  | _ => False

/-- No thread is in an ioctl, and the mutex is free. -/
structure Fresh (s : DriverState File Thread) : Prop where
  outside : ∀ t, s.ioctl t = .outside
  mutex : s.ipc_mutex = false

/-- The mutex is held exactly after a REL that took it twice, a thread is stuck only then,
    and an ioctl keeps its file open. -/
structure Guards (second : SecondCall) (es : List (DriverEvent File Thread)) (s : DriverState File Thread) : Prop where
  mutex : s.ipc_mutex = true ↔ second = .mutex_lock ∧ ∃ e ∈ es, PastMutex e
  stuck : ∀ t f, s.ioctl t = .stuck f → s.ipc_mutex = true
  inside : ∀ t f, (s.ioctl t).file = some f → ∃ pdev, s.file f = .opened pdev

theorem past_append (es : List (DriverEvent File Thread)) (e : DriverEvent File Thread) :
    (∃ e' ∈ es ++ [e], PastMutex e') ↔ (∃ e' ∈ es, PastMutex e') ∨ PastMutex e := by
  simp only [List.mem_append,List.mem_singleton,or_and_right,exists_or,exists_eq_left]

/-- What an ioctl may go on to: it stays with its file, and is stuck only on a mutex that is held. -/
theorem ioctl_update [DecidableEq Thread] {ioctl : Thread → InIoctl File} {file : File → FileState} {held : Bool} {t : Thread}
    {now : InIoctl File} (stuck : ∀ u f, ioctl u = .stuck f → held = true)
    (inside : ∀ u f, (ioctl u).file = some f → ∃ pdev, file f = .opened pdev)
    (own : ∀ f, now.file = some f → ∃ pdev, file f = .opened pdev) (free : ∀ f, now = .stuck f → held = true) :
    (∀ u f, Function.update ioctl t now u = .stuck f → held = true) ∧
      ∀ u f, (Function.update ioctl t now u).file = some f → ∃ pdev, file f = .opened pdev := by
  constructor
  · exact (Function.forall_update_iff ioctl fun _ call => ∀ f, call = .stuck f → held = true).mpr ⟨free,fun u _ => stuck u⟩
  · exact (Function.forall_update_iff ioctl fun _ call => ∀ f, call.file = some f → ∃ pdev, file f = .opened pdev).mpr
      ⟨own,fun u _ => inside u⟩

/-- A file that stays open. -/
theorem opened_update [DecidableEq File] {file : File → FileState} {f g : File} {now : FileState}
    (opened : ∃ pdev, file g = .opened pdev) (stays : g = f → ∃ pdev, now = .opened pdev) :
    ∃ pdev, Function.update file f now g = .opened pdev := by
  by_cases same : g = f
  · rw [same,Function.update_self]
    exact stays same
  · rw [Function.update_of_ne same]
    exact opened

section
variable [DecidableEq File] [DecidableEq Thread] {s s' : DriverState File Thread} {e : DriverEvent File Thread}
variable {es : List (DriverEvent File Thread)} {t : Thread}

/-- What is no step of the files leaves the mutex, the ioctls and the files. -/
theorem driver_cases (step : DriverStep sign second overshift s e s') :
    (∃ e', e = .file e' ∧ FileStep sign second overshift s.toDriver e' s'.toDriver) ∨
      (∀ e', e ≠ .file e') ∧ s'.file = s.file ∧ s'.ioctl = s.ioctl ∧ s'.ipc_mutex = s.ipc_mutex := by
  cases step with
  | file step => exact .inl ⟨_,rfl,step⟩
  | ftok | get | snd | lock | fill | unlock | receive | flag | dequeue | rcv | core => exact .inr ⟨by rintro _ ⟨⟩,rfl,rfl,rfl⟩

theorem file_step {s d : Driver File Thread} {e : FileEvent File Thread} (step : FileStep sign second overshift s e d)
    (stuck : ∀ t f, s.ioctl t = .stuck f → s.ipc_mutex = true)
    (inside : ∀ t f, (s.ioctl t).file = some f → ∃ pdev, s.file f = .opened pdev) :
    (PastMutex (.file e) ∧ s.ipc_mutex = false ∧ (d.ipc_mutex = true ↔ second = .mutex_lock) ∨
      ¬ PastMutex (.file e) ∧ d.ipc_mutex = s.ipc_mutex) ∧
    (∀ t f, d.ioctl t = .stuck f → d.ipc_mutex = true) ∧ ∀ t f, (d.ioctl t).file = some f → ∃ pdev, d.file f = .opened pdev := by
  -- no ioctl runs on a file that is closing
  have quiet {t : Thread} {f g : File} {pdev : ipc_device} {i : Nat} {now : FileState} (closing : s.file f = .closing pdev i)
      (runs : (s.ioctl t).file = some g) (same : g = f) : ∃ pdev', now = .opened pdev' := by
    obtain ⟨pdev',opened⟩ := inside t g runs
    rw [same,closing] at opened
    cases opened
  cases step with
  | ipc_open closed =>
    exact ⟨.inr ⟨nofun,rfl⟩,stuck,fun t g runs => opened_update (inside t g runs) fun _ => ⟨_,rfl⟩⟩
  | lookup idle opened looked =>
    refine ⟨.inr ⟨nofun,rfl⟩,ioctl_update stuck inside ?_ ?_⟩
    · intro g runs
      split at runs
      · cases runs
        exact ⟨_,opened⟩
      · cases runs
    · intro g runs
      split at runs <;> cases runs
  | got runs opened free =>
    refine ⟨.inr ⟨nofun,rfl⟩,ioctl_update stuck (fun u g runs => opened_update (inside u g runs) fun _ => ⟨_,rfl⟩) ?_ ?_⟩
    · exact nofun
    · exact nofun
  | rel idle opened released =>
    refine ⟨.inr ⟨nofun,rfl⟩,ioctl_update stuck inside ?_ ?_⟩
    · intro g runs
      cases runs
      exact ⟨_,opened⟩
    · exact nofun
  | @cleared t f pdev msqid runs opened free =>
    have still (u : Thread) (g : File) (runs : (s.ioctl u).file = some g) :
        ∃ pdev', Function.update s.file f (.opened (pdev.clear overshift msqid)) g = .opened pdev' :=
      opened_update (inside u g runs) fun _ => ⟨_,rfl⟩
    have noStuck (u : Thread) (g : File) (at_g : s.ioctl u = .stuck g) : decide (second = .mutex_lock) = true := by
      rw [stuck u g at_g] at free
      cases free
    refine ⟨.inl ⟨trivial,free,decide_eq_true_iff⟩,ioctl_update noStuck still ?_ ?_⟩
    · intro g at_g
      split at at_g
      · cases at_g
        exact ⟨_,Function.update_self ..⟩
      · cases at_g
    · intro g at_g
      split at at_g
      · exact decide_eq_true ‹_›
      · cases at_g
  | close opened quiet =>
    refine ⟨.inr ⟨nofun,rfl⟩,stuck,fun t g runs => opened_update (inside t g runs) ?_⟩
    rintro rfl
    exact absurd runs (quiet t)
  | turn closing few released =>
    exact ⟨.inr ⟨nofun,rfl⟩,stuck,fun t g runs => opened_update (inside t g runs) (quiet closing runs)⟩
  | closed closing =>
    exact ⟨.inr ⟨nofun,rfl⟩,stuck,fun t g runs => opened_update (inside t g runs) (quiet closing runs)⟩

theorem guards_step (guards : Guards second es s) (step : DriverStep sign second overshift s e s') : Guards second (es ++ [e]) s' := by
  obtain ⟨mutex,stuck,inside⟩ := guards
  rcases driver_cases step with ⟨e',rfl,moved⟩ | ⟨other,file,ioctl,held⟩
  · obtain ⟨past,stuck',inside'⟩ := file_step moved stuck inside
    refine ⟨?_,stuck',inside'⟩
    rw [past_append]
    rcases past with ⟨past,_,now⟩ | ⟨not,same⟩
    · rw [now,and_iff_left (.inr past)]
    · rw [same,mutex,or_iff_left not]
  · have past : ¬ PastMutex e := by
      intro past
      cases e with
      | file e' => exact other e' rfl
      | ftok | get | buffers | receive | dequeue | rcv | core => exact past
    refine ⟨?_,?_,?_⟩
    · rw [held,mutex,past_append,or_iff_left past]
    · rw [ioctl,held]
      exact stuck
    · rw [ioctl,file]
      exact inside

theorem guards_run {start : DriverState File Thread} (fresh : Fresh start) (run : Run (DriverStep sign second overshift) start es s) :
    Guards second es s := by
  induction run with
  | nil =>
    refine ⟨iff_of_false (by simp [fresh.mutex]) (by simp),fun t f at_f => ?_,fun t f runs => ?_⟩
    · cases (fresh.outside t).symm.trans at_f
    · rw [fresh.outside t] at runs
      cases runs
  | snoc _ last ih => exact guards_step ih last

theorem held_file {s d : Driver File Thread} {e : FileEvent File Thread} (held : s.ipc_mutex = true)
    (step : FileStep sign second overshift s e d) :
    d.ipc_mutex = true ∧ ¬ Passes (.file e) ∧ ∀ t, s.ioctl t ≠ .outside → d.ioctl t = s.ioctl t := by
  -- an ioctl begins in a thread that was outside
  have others {t : Thread} {now : InIoctl File} (idle : s.ioctl t = .outside) (u : Thread) (busy : s.ioctl u ≠ .outside) :
      Function.update s.ioctl t now u = s.ioctl u := by
    refine Function.update_of_ne ?_ _ _
    rintro rfl
    exact busy idle
  cases step with
  | lookup idle _ _ => exact ⟨held,nofun,others idle⟩
  | rel idle _ _ => exact ⟨held,nofun,others idle⟩
  | got _ _ free => cases held.symm.trans free
  | cleared _ _ free => cases held.symm.trans free
  | ipc_open | close | turn | closed => exact ⟨held,nofun,fun _ _ => rfl⟩

/-- While the mutex is held no GET or REL gets past it, and an ioctl stays where it is. -/
theorem held_step (held : s.ipc_mutex = true) (step : DriverStep sign second overshift s e s') :
    s'.ipc_mutex = true ∧ ¬ Passes e ∧ ∀ t, s.ioctl t ≠ .outside → s'.ioctl t = s.ioctl t := by
  rcases driver_cases step with ⟨e',rfl,moved⟩ | ⟨other,file,ioctl,same⟩
  · exact held_file held moved
  · refine ⟨same.trans held,?_,fun t _ => congrFun ioctl t⟩
    intro passes
    cases e with
    | file e' => exact other e' rfl
    | ftok | get | buffers | receive | dequeue | rcv | core => exact passes

theorem held_run (held : s.ipc_mutex = true) {fs : List (DriverEvent File Thread)}
    (run : Run (DriverStep sign second overshift) s fs s') : s'.ipc_mutex = true ∧ (∀ e ∈ fs, ¬ Passes e) ∧
      ∀ t, s.ioctl t ≠ .outside → s'.ioctl t = s.ioctl t := by
  induction run with
  | nil => exact ⟨held,nofun,fun _ _ => rfl⟩
  | snoc before last ih =>
    obtain ⟨held',stopped,same⟩ := ih
    obtain ⟨held'',passes,next⟩ := held_step held' last
    refine ⟨held'',fun e listed => ?_,fun t busy => ?_⟩
    · rcases List.mem_append.mp listed with earlier | now
      · exact stopped e earlier
      · rw [List.mem_singleton.mp now]
        exact passes
    · rw [next t (by rwa [same t busy]),same t busy]

/-- While the mutex is free an ioctl can go on. -/
theorem free_goes_on (guards : Guards second es s) (free : s.ipc_mutex = false) (busy : s.ioctl t ≠ .outside) :
    ∃ e s', DriverStep sign second overshift s e s' ∧ s'.ioctl t ≠ s.ioctl t := by
  cases at_t : s.ioctl t with
  | outside => exact absurd at_t busy
  | getting f key msqid =>
    obtain ⟨pdev,opened⟩ := guards.inside t f (by rw [at_t]; rfl)
    refine ⟨_,_,.file (.got at_t opened free),?_⟩
    simp
  | releasing f msqid =>
    obtain ⟨pdev,opened⟩ := guards.inside t f (by rw [at_t]; rfl)
    refine ⟨_,_,.file (.cleared at_t opened free),?_⟩
    simp only [Function.update_self]
    split <;> exact nofun
  | stuck f =>
    rw [guards.stuck t f at_t] at free
    cases free

/-- From a driver without ioctls, over every run of all that it does: a thread in an ioctl
    can go on exactly as long as no REL is past the mutex, where its second call locks;
    once one is, none of them ever does, no GET or REL gets past the mutex any more, and
    their files stay open for good. Where the second call unlocks they always go on. -/
theorem first_rel_jams {start : DriverState File Thread} (fresh : Fresh start) (run : Run (DriverStep sign second overshift) start es s) :
    (∀ t, s.ioctl t ≠ .outside → ((∃ e s', DriverStep sign second overshift s e s' ∧ s'.ioctl t ≠ s.ioctl t) ↔
      ¬ (second = .mutex_lock ∧ ∃ e ∈ es, PastMutex e))) ∧
    (second = .mutex_lock ∧ (∃ e ∈ es, PastMutex e) → ∀ fs s', Run (DriverStep sign second overshift) s fs s' →
      (∀ e ∈ fs, ¬ Passes e) ∧ ∀ t f, (s.ioctl t).file = some f → s'.ioctl t = s.ioctl t ∧ ∃ pdev, s'.file f = .opened pdev) := by
  have guards := guards_run fresh run
  refine ⟨fun t busy => ⟨?_,fun free => ?_⟩,fun jammed fs s' more => ?_⟩
  · rintro ⟨e,s',step,moves⟩ jammed
    exact moves ((held_step (guards.mutex.mpr jammed) step).2.2 t busy)
  · rw [← guards.mutex,Bool.not_eq_true] at free
    exact free_goes_on guards free busy
  · obtain ⟨_,stopped,same⟩ := held_run (guards.mutex.mpr jammed) more
    refine ⟨stopped,fun t f runs => ?_⟩
    have busy : s.ioctl t ≠ .outside := by
      intro outside
      rw [outside] at runs
      cases runs
    have still := same t busy
    exact ⟨still,(guards_run fresh (run.append more)).inside t f (by rwa [still])⟩

end

/-- A REL of one thread is past the mutex, and that of another never gets there. -/
theorem first_rel_jams_two_rels : ∃ (es : List (DriverEvent Bool Bool)) (s : DriverState Bool Bool),
    Run (DriverStep .signed .mutex_lock fun _ => 0) bootedDriver es s ∧ s.ioctl false = .releasing true 1 ∧
      ¬ ∃ e s', DriverStep .signed .mutex_lock (fun _ => 0) s e s' ∧ s'.ioctl false ≠ s.ioctl false := by
  have rel (info : IPC_MSQINFO) (id : UINT32) : ∃ ret info', ipc_msgque_rel .signed (some info) id = (ret,some info') := by
    rcases rel_cases .signed info id with ⟨_,called⟩ | ⟨_,_,_,called⟩ | ⟨_,_,_,_,called⟩
    · exact ⟨_,_,called⟩
    · exact ⟨_,_,called⟩
    · exact ⟨_,_,called⟩
  obtain ⟨ret,info,first⟩ := rel bootedDriver.info 0
  obtain ⟨ret',info',second⟩ := rel info 1
  let files : Driver Bool Bool := bootedDriver.toDriver
  let one : Driver Bool Bool := { files with file := Function.update files.file true (.opened ⟨0⟩) }
  let two : Driver Bool Bool := { one with info := info, ioctl := Function.update one.ioctl true (.releasing true 0) }
  let three : Driver Bool Bool := { two with info := info', ioctl := Function.update two.ioctl false (.releasing true 1) }
  have opened : one.file true = .opened ⟨0⟩ := rfl
  let driver (d : Driver Bool Bool) : DriverState Bool Bool := { bootedDriver with toDriver := d }
  have open_step : DriverStep .signed .mutex_lock (fun _ => 0) bootedDriver (.file (.ipc_open true)) (driver one) := .file (.ipc_open rfl)
  have first_step : DriverStep .signed .mutex_lock (fun _ => 0) (driver one) (.file (.rel true true 0 ret)) (driver two) :=
    .file (.rel rfl opened first)
  have second_step : DriverStep .signed .mutex_lock (fun _ => 0) (driver two) (.file (.rel false true 1 ret')) (driver three) :=
    .file (.rel rfl opened second)
  have past : DriverStep .signed .mutex_lock (fun _ => 0) (driver three) (.file (.cleared true true 0)) _ := .file (.cleared rfl opened rfl)
  have run := ((Run.one open_step).snoc first_step).snoc second_step
  refine ⟨_,_,run.snoc past,rfl,fun moves => ?_⟩
  refine ((first_rel_jams ⟨fun _ => rfl,rfl⟩ (run.snoc past)).1 false ?_).mp moves ⟨rfl,_,List.mem_append_right _ (.head _),trivial⟩
  exact nofun

end IpcMsq.Mutex
