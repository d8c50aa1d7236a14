import IpcMsq.Fifo

/-!
Queues that refuse every call from some point on. The count of a queue that
handed out a message nobody sent has wrapped and counts as full, so no enqueue
is accepted any more; fifteen dequeues later the indices meet and the queue
refuses both. Only a run whose first call is a dequeue gets there.
-/
namespace IpcMsq.Jam
open IpcMsq.Memory IpcMsq.Common IpcMsq.Table IpcMsq.Elements IpcMsq.Runs IpcMsq.Fifo

/-- Some further calls lead to a state in which every enqueue is accepted. -/
def Recovers (q : Nat) (tbl : Mem) : Prop :=
  ∃ es tbl', Run (QueueStep q) tbl es tbl' ∧ ∀ msg, (ipc_msgque_enqueue tbl' (some q) msg).1 = 0

/-- Every enqueue and every dequeue is refused. -/
def RefusesBoth (q : Nat) (tbl : Mem) : Prop :=
  ∀ msg, (ipc_msgque_enqueue tbl (some q) msg).1 ≠ 0 ∧ (ipc_msgque_dequeue tbl (some q) msg).1 ≠ 0

section
variable {q e d : Nat} {tbl tbl' : Mem} {es : List QueueEvent}

/-- What a run that starts with an enqueue, or with a dequeue, has accepted. -/
def Begun (es : List QueueEvent) : Prop :=
  EnqueueFirst es ∧ 0 < (accepted es).length ∨ ¬ EnqueueFirst es ∧ accepted es = [] ∧ 0 < (received es).length

theorem enqueueFirst_snoc {x : QueueEvent} (begun : es ≠ []) : EnqueueFirst (es ++ [x]) ↔ EnqueueFirst es := by
  cases es with
  | nil => exact absurd rfl begun
  | cons first rest => simp [EnqueueFirst]

theorem enqueueFirst_nil : EnqueueFirst [] := by simp [EnqueueFirst]

theorem enqueueFirst_one {x : QueueEvent} : EnqueueFirst [x] ↔ x.IsEnqueue := by simp [EnqueueFirst]

/-- A queue that handed out a message before it accepted one counts as full. -/
theorem counted_wrapped (inv : Counted tbl q 0 d) (some : 0 < d) : 16 ≤ (count tbl q).toNat := by
  have counted := inv.count
  have few := inv.fresh rfl
  have bound := (Common.count tbl q).toNat_lt
  omega

theorem run_begun (start : Counted tbl q 0 0) (run : Run (QueueStep q) tbl es tbl') : es = [] ∨ Begun es := by
  refine (run.invariant (I := fun es t => Counted t q (accepted es).length (received es).length ∧ (es = [] ∨ Begun es))
    ⟨start,.inl rfl⟩ ?_).2
  intro es t x u before inv step
  obtain ⟨counted,begun⟩ := inv
  refine ⟨run_counted start (before.snoc step),.inr ?_⟩
  rcases begun with rfl | ⟨first,some⟩ | ⟨first,none,some⟩
  · -- the first call: the new queue has room and unequal indices, so it is accepted
    obtain ⟨zero,apart⟩ := counted_new counted
    rcases queueStep_cases step with ⟨_,_,_,⟨full,_⟩ | empty⟩ | ⟨msg,rfl,_,_⟩ | ⟨msg,after,rfl,_,_⟩
    · omega
    · exact absurd empty apart
    · exact .inl ⟨enqueueFirst_one.mpr trivial,by simp [accepted,QueueEvent.accepted]⟩
    · exact .inr ⟨fun first => enqueueFirst_one.mp first,by simp [accepted,QueueEvent.accepted],
        by simp [received,QueueEvent.received]⟩
  · have old : es ≠ [] := by
      rintro rfl
      simp [accepted] at some
    refine .inl ⟨(enqueueFirst_snoc old).mpr first,?_⟩
    rw [accepted_snoc,List.length_append]
    omega
  · have old : es ≠ [] := by
      rintro rfl
      simp [received] at some
    rw [none] at counted
    have full := counted_wrapped counted some
    refine .inr ⟨mt (enqueueFirst_snoc old).mp first,?_,?_⟩
    · rw [accepted_snoc,none]
      rcases queueStep_cases step with ⟨notIn,_,_,_⟩ | ⟨msg,_,room,_⟩ | ⟨msg,after,rfl,_,_⟩
      · simp [notIn]
      · omega
      · rfl
    · rw [received_snoc,List.length_append]
      omega

/-- After a run that begins with a dequeue no enqueue is ever accepted. -/
theorem not_recovers (start : Counted tbl q 0 0) (run : Run (QueueStep q) tbl es tbl') (notFirst : ¬ EnqueueFirst es) :
    ¬ Recovers q tbl' := by
  rintro ⟨more,tbl'',continued,admitted⟩
  have both := run.append continued
  have still : ¬ EnqueueFirst (es ++ more) := by
    cases es with
    | nil => exact absurd enqueueFirst_nil notFirst
    | cons first rest => simpa [EnqueueFirst] using notFirst
  rcases run_begun start both with none | ⟨first,_⟩ | ⟨_,none,some⟩
  · rw [none] at still
    exact still enqueueFirst_nil
  · exact still first
  · have after := run_counted start both
    rw [none] at after
    have full := counted_wrapped after some
    have room := enqueue_accepted.mp (admitted ⟨0,fun _ => 0⟩)
    omega

/-- With room an enqueue is accepted now, and without room a dequeue makes room. -/
theorem counted_recovers (inv : Counted tbl q e d) (begun : 0 < e ∨ d = 0) : Recovers q tbl ∧ ¬ RefusesBoth q tbl := by
  have counts := inv.count
  have bound := (count tbl q).toNat_lt
  by_cases room : (count tbl q).toNat < 16
  · have admitted : ∀ msg, (ipc_msgque_enqueue tbl (some q) msg).1 = 0 := fun msg => enqueue_accepted.mpr room
    exact ⟨⟨[],tbl,.nil,admitted⟩,fun refuses => (refuses ⟨0,fun _ => 0⟩).1 (admitted _)⟩
  · have indx := inv.indx
    have outdx := inv.outdx
    have sixteen : 0 < e ∧ e = d + 16 := by
      rcases Nat.eq_zero_or_pos e with none | some
      · omega
      · have := inv.used some
        omega
    have apart : Common.indx tbl q ≠ Common.outdx tbl q := by
      intro same
      rw [same] at indx
      omega
    obtain ⟨after,tbl',taken⟩ : ∃ after tbl', takeElement tbl q ⟨0,fun _ => 0⟩ = (after,tbl') := ⟨_,_,rfl⟩
    have counts' := (counted_take inv apart taken).1.count
    have bound' := (count tbl' q).toNat_lt
    have done : ipc_msgque_dequeue tbl (some q) ⟨0,fun _ => 0⟩ = (0,after,tbl') := by rw [dequeue_nonempty apart,taken]
    refine ⟨⟨_,_,Run.one (.dequeue done),fun msg => ?_⟩,fun refuses => (refuses ⟨0,fun _ => 0⟩).2 (by rw [done])⟩
    exact enqueue_accepted.mpr (by omega)

end

/-- In the state that a run reaches, an enqueue can be accepted again exactly if
    the run did not begin with a dequeue. -/
theorem never_jams_iff {g : Option IPC_MSQINFO} {key ret : INT32} {info : IPC_MSQINFO}
    (got : ipc_msgque_get g key = (ret,some info)) (ok : 0 ≤ ret) {es : List QueueEvent} {tbl : Mem}
    (run : Run (QueueStep (msgQueTbl ret.toUInt32.toNat)) info.tbl es tbl) :
    (Recovers (msgQueTbl ret.toUInt32.toNat) tbl ∧ ¬ RefusesBoth (msgQueTbl ret.toUInt32.toNat) tbl) ↔
      EnqueueFirst es := by
  have start := get_counted got ok
  generalize msgQueTbl ret.toUInt32.toNat = q at start run ⊢
  have counted := run_counted start run
  constructor
  · rintro ⟨recovers,_⟩
    by_contra notFirst
    exact not_recovers start run notFirst recovers
  · intro first
    refine counted_recovers counted ?_
    rcases run_begun start run with rfl | ⟨_,some⟩ | ⟨notFirst,_⟩
    · exact .inr rfl
    · exact .inl some
    · exact absurd first notFirst

/-- The first queue, full with sixteen messages, accepts one again. -/
theorem never_jams_iff_first_queue : ∃ es tbl, Run (QueueStep (msgQueTbl 0)) firstQueue.tbl es tbl ∧
    outstanding es = 16 ∧ Recovers (msgQueTbl 0) tbl := by
  obtain ⟨tbl,run,sixteen⟩ := firstQueue_filled ⟨4,fun _ => 1⟩ (n := 16) (by decide)
  refine ⟨_,tbl,run,sixteen,((never_jams_iff firstQueue_got (by decide) run).mpr ?_).1⟩
  rintro e ⟨⟩
  trivial

/-- One dequeue from a new queue, and no enqueue is ever accepted again. -/
theorem jammed_by_dequeue : ∃ tbl after, ipc_msgque_get booted 5 = (0,some firstQueue) ∧
    Run (QueueStep (msgQueTbl 0)) firstQueue.tbl [.dequeue ⟨0,fun _ => 0⟩ 0 after] tbl ∧
    ¬ Recovers (msgQueTbl 0) tbl := by
  obtain ⟨after,tbl,first⟩ := firstQueue_dequeued
  exact ⟨tbl,after,firstQueue_got,first,not_recovers firstQueue_counted first enqueueFirst_one.mp⟩

end IpcMsq.Jam
